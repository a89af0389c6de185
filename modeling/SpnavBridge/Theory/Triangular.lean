/-
# Theory.Triangular -- what a lower triangular factor keeps

`L * q` with `L` lower triangular takes each row of `q` to a multiple of itself, plus
something made of the rows before it.

* `span_rows`: where the diagonal has no zero, the rows up to any point span what they did.
* `sign_det`: where the diagonal is positive, the determinant keeps its sign.
-/
import Mathlib.Data.Sign.Basic
import Mathlib.LinearAlgebra.Matrix.Block

namespace SpnavBridge.Theory

open Matrix

set_option autoImplicit false

universe u v

variable {m : Type u} [LinearOrder m] {K : Type v} [Field K]

/-- What the rows up to `k` span. -/
def rowSpan (a : Matrix m m K) (k : m) : Submodule K (m → K) := .span K (a '' Set.Iic k)

theorem mem_rowSpan (a : Matrix m m K) {i k : m} (upTo : i ≤ k) : a i ∈ rowSpan a k :=
  Submodule.subset_span ⟨i, upTo, rfl⟩

variable [Fintype m] {l : Matrix m m K}

/-- A row of the product, apart from its own multiple, is made of rows before it. -/
theorem row_mul (lower : l.IsLowerTriangular) (q : Matrix m m K) (i : m) :
    (l * q) i = l i i • q i + ∑ j ∈ Finset.univ.filter (· < i), l i j • q j := by
  have behind : ∀ j ∈ Finset.univ.filter (¬· < i), j ≠ i → l i j • q j = 0 := by
    intro j outside ne
    have after : i < j := lt_of_le_of_ne (not_lt.mp (Finset.mem_filter.mp outside).2) ne.symm
    rw [lower after, zero_smul]
  have own : ∑ j ∈ Finset.univ.filter (¬· < i), l i j • q j = l i i • q i :=
    Finset.sum_eq_single i behind fun absent => absurd (by simp) absent
  calc (l * q) i = ∑ j, l i j • q j := by
        funext c
        simp [mul_apply, Finset.sum_apply]
    _ = _ := by rw [← Finset.sum_filter_not_add_sum_filter Finset.univ (· < i), own]

theorem mul_mem_rowSpan (lower : l.IsLowerTriangular) (q : Matrix m m K) {i k : m}
    (upTo : i ≤ k) : (l * q) i ∈ rowSpan q k := by
  rw [row_mul lower]
  refine add_mem (Submodule.smul_mem _ _ (mem_rowSpan q upTo)) (sum_mem fun j before => ?_)
  have lt := (Finset.mem_filter.mp before).2
  exact Submodule.smul_mem _ _ (mem_rowSpan q (lt.le.trans upTo))

/-- Induction on the rows: what a row loses to those before it is already there. -/
theorem mem_rowSpan_mul (lower : l.IsLowerTriangular) (diagonal : ∀ i, l i i ≠ 0)
    (q : Matrix m m K) {k : m} (i : m) (upTo : i ≤ k) : q i ∈ rowSpan (l * q) k := by
  induction i using WellFoundedLT.induction with
  | ind i ih =>
      have split : q i = (l i i)⁻¹ •
          ((l * q) i - ∑ j ∈ Finset.univ.filter (· < i), l i j • q j) := by
        rw [row_mul lower, add_sub_cancel_right, smul_smul, inv_mul_cancel₀ (diagonal i), one_smul]
      rw [split]
      refine Submodule.smul_mem _ _ (sub_mem (mem_rowSpan _ upTo) (sum_mem fun j before => ?_))
      have lt := (Finset.mem_filter.mp before).2
      exact Submodule.smul_mem _ _ (ih j lt (lt.le.trans upTo))

/-- **A triangular factor keeps every span of first rows.** -/
theorem span_rows (lower : l.IsLowerTriangular) (diagonal : ∀ i, l i i ≠ 0) (q : Matrix m m K)
    (k : m) : rowSpan (l * q) k = rowSpan q k := by
  apply le_antisymm
  · refine Submodule.span_le.mpr ?_
    rintro _ ⟨i, upTo, rfl⟩
    exact mul_mem_rowSpan lower q upTo
  · refine Submodule.span_le.mpr ?_
    rintro _ ⟨i, upTo, rfl⟩
    exact mem_rowSpan_mul lower diagonal q i upTo

/-- **A triangular factor with a positive diagonal keeps the orientation.** -/
theorem sign_det [LinearOrder K] [IsStrictOrderedRing K] (lower : l.IsLowerTriangular)
    (diagonal : ∀ i, 0 < l i i) (q : Matrix m m K) :
    SignType.sign (l * q).det = SignType.sign q.det := by
  have positive : 0 < l.det := by
    rw [det_of_isLowerTriangular l lower]
    exact Finset.prod_pos fun i _ => diagonal i
  rw [det_mul, sign_mul, sign_pos positive, one_mul]

end SpnavBridge.Theory
