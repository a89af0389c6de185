/-
# Theory.Drift -- matrices that are nearly orthogonal

How far `b * bᵀ` is from one does not depend on the side that `b` is transposed on
(`frobeniusSq_gram`), and bounds what `b` does to any length (`length_of_drift`).  A triangular
factor of something near one is near one itself (`factor_near_one`).
-/
import Mathlib.Algebra.Order.BigOperators.Ring.Finset
import Mathlib.Analysis.SpecialFunctions.Sqrt
import Mathlib.LinearAlgebra.Matrix.Block
import Mathlib.LinearAlgebra.Matrix.Trace

namespace SpnavBridge.Theory

open Matrix

set_option autoImplicit false

universe u

variable {m : Type u} [Fintype m]

/-- The sum of the squares of the entries. -/
def frobeniusSq (s : Matrix m m ℝ) : ℝ := ∑ i, ∑ j, s i j ^ 2

theorem frobeniusSq_eq_trace (s : Matrix m m ℝ) : frobeniusSq s = (s * sᵀ).trace := by
  simp [frobeniusSq, trace, mul_apply, sq]

theorem sq_le_frobeniusSq (s : Matrix m m ℝ) (i j : m) : s i j ^ 2 ≤ frobeniusSq s := by
  have row : s i j ^ 2 ≤ ∑ k, s i k ^ 2 :=
    Finset.single_le_sum (fun k _ => sq_nonneg (s i k)) (Finset.mem_univ j)
  have all : ∑ k, s i k ^ 2 ≤ frobeniusSq s :=
    Finset.single_le_sum (f := fun i => ∑ k, s i k ^ 2)
      (fun k _ => Finset.sum_nonneg fun c _ => sq_nonneg (s k c)) (Finset.mem_univ i)
  exact row.trans all

theorem abs_le_of_frobeniusSq {s : Matrix m m ℝ} {ε : ℝ} (nonneg : 0 ≤ ε)
    (small : frobeniusSq s ≤ ε ^ 2) (i j : m) : |s i j| ≤ ε :=
  abs_le_of_sq_le_sq ((sq_le_frobeniusSq s i j).trans small) nonneg

/-- What a small matrix adds to a square. -/
theorem sq_dot_mulVec_le (s : Matrix m m ℝ) (v : m → ℝ) :
    (v ⬝ᵥ s *ᵥ v) ^ 2 ≤ frobeniusSq s * (v ⬝ᵥ v) ^ 2 := by
  have square : ∀ w : m → ℝ, w ⬝ᵥ w = ∑ i, w i ^ 2 := fun w => by simp [dotProduct, sq]
  have rows : ∑ i, (s *ᵥ v) i ^ 2 ≤ frobeniusSq s * (v ⬝ᵥ v) := by
    rw [frobeniusSq, Finset.sum_mul, square]
    exact Finset.sum_le_sum fun i _ => Finset.sum_mul_sq_le_sq_mul_sq _ _ _
  calc (v ⬝ᵥ s *ᵥ v) ^ 2 ≤ (∑ i, v i ^ 2) * ∑ i, (s *ᵥ v) i ^ 2 :=
        Finset.sum_mul_sq_le_sq_mul_sq _ _ _
    _ ≤ (v ⬝ᵥ v) * (frobeniusSq s * (v ⬝ᵥ v)) := by
        rw [← square]
        exact mul_le_mul_of_nonneg_left rows (by rw [square]; positivity)
    _ = frobeniusSq s * (v ⬝ᵥ v) ^ 2 := by ring

section Gram

variable [DecidableEq m]

/-- **Both products are as far from one.** -/
theorem frobeniusSq_gram (b : Matrix m m ℝ) : frobeniusSq (b * bᵀ - 1) = frobeniusSq (bᵀ * b - 1) := by
  have left : (b * bᵀ * (b * bᵀ)).trace = (bᵀ * b * (bᵀ * b)).trace := by
    rw [Matrix.mul_assoc, trace_mul_comm, Matrix.mul_assoc, Matrix.mul_assoc, Matrix.mul_assoc]
  have symmetric : (b * bᵀ - 1)ᵀ = b * bᵀ - 1 ∧ (bᵀ * b - 1)ᵀ = bᵀ * b - 1 := by
    simp [transpose_sub, transpose_mul]
  rw [frobeniusSq_eq_trace, frobeniusSq_eq_trace, symmetric.1, symmetric.2]
  simp only [Matrix.mul_sub, Matrix.sub_mul, Matrix.mul_one, Matrix.one_mul, trace_sub, left,
    trace_mul_comm b bᵀ]

theorem length_of_drift {b : Matrix m m ℝ} {ε : ℝ} (nonneg : 0 ≤ ε)
    (small : frobeniusSq (b * bᵀ - 1) ≤ ε ^ 2) (v : m → ℝ) :
    |(b *ᵥ v) ⬝ᵥ (b *ᵥ v) - v ⬝ᵥ v| ≤ ε * (v ⬝ᵥ v) := by
  have change_ : (b *ᵥ v) ⬝ᵥ (b *ᵥ v) - v ⬝ᵥ v = v ⬝ᵥ (bᵀ * b - 1) *ᵥ v := by
    rw [Matrix.sub_mulVec, Matrix.one_mulVec, dotProduct_sub, ← Matrix.mulVec_mulVec,
      dotProduct_mulVec v bᵀ, vecMul_transpose]
  have square : 0 ≤ v ⬝ᵥ v := by
    simp only [dotProduct]
    exact Finset.sum_nonneg fun i _ => mul_self_nonneg (v i)
  rw [frobeniusSq_gram] at small
  rw [change_]
  refine abs_le_of_sq_le_sq ?_ (mul_nonneg nonneg square)
  rw [mul_pow]
  exact (sq_dot_mulVec_le _ v).trans (mul_le_mul_of_nonneg_right small (sq_nonneg _))

end Gram

/-! ## Triangular factors -/

/-- A positive number whose square is near one is as near. -/
theorem near_one_of_sq {x ε : ℝ} (positive : 0 < x) (near : |x ^ 2 - 1| ≤ ε) : |x - 1| ≤ ε := by
  have split : |x ^ 2 - 1| = |x - 1| * (x + 1) := by
    rw [show x ^ 2 - 1 = (x - 1) * (x + 1) by ring, abs_mul, abs_of_pos (by linarith : 0 < x + 1)]
  have grows : |x - 1| * 1 ≤ |x - 1| * (x + 1) :=
    mul_le_mul_of_nonneg_left (by linarith) (abs_nonneg _)
  rw [← split, mul_one] at grows
  exact grows.trans near

/-- What is small times something near one is small. -/
theorem small_of_mul {x y δ ρ : ℝ} (factor : ρ ≤ y) (positive : 0 < ρ) (small : |x * y| ≤ δ) :
    ρ * |x| ≤ δ := by
  rw [abs_mul, abs_of_pos (positive.trans_le factor), mul_comm] at small
  exact (mul_le_mul_of_nonneg_right factor (abs_nonneg x)).trans small

/-- A product of small numbers. -/
theorem abs_mul_le {x y δ η : ℝ} (small : |x| ≤ δ) (small' : |y| ≤ η) : |x * y| ≤ δ * η := by
  rw [abs_mul]
  exact mul_le_mul small small' (abs_nonneg _) ((abs_nonneg _).trans small)

/-- **A triangular factor of what is near one is near one**: entry after entry, row by row. -/
theorem factor_near_one {l : Matrix (Fin 3) (Fin 3) ℝ} (lower : l.IsLowerTriangular)
    (diagonal : ∀ i, 0 < l i i) {ε : ℝ} (few : 8 * ε ≤ 1)
    (near : ∀ i j, |(l * lᵀ - 1) i j| ≤ ε) (i j : Fin 3) : 2 * |(l - 1) i j| ≤ 3 * ε := by
  have nonneg : 0 ≤ ε := (abs_nonneg _).trans (near 0 0)
  have l01 : l 0 1 = 0 := lower (show (0 : Fin 3) < 1 by decide)
  have l02 : l 0 2 = 0 := lower (show (0 : Fin 3) < 2 by decide)
  have l12 : l 1 2 = 0 := lower (show (1 : Fin 3) < 2 by decide)
  have n00 : |l 0 0 ^ 2 - 1| ≤ ε := by
    simpa [mul_apply, Fin.sum_univ_three, l01, l02, sq] using near 0 0
  have n10 : |l 1 0 * l 0 0| ≤ ε := by
    simpa [mul_apply, Fin.sum_univ_three, l01, l02] using near 1 0
  have n20 : |l 2 0 * l 0 0| ≤ ε := by
    simpa [mul_apply, Fin.sum_univ_three, l01, l02] using near 2 0
  have n11 : |l 1 0 * l 1 0 + l 1 1 ^ 2 - 1| ≤ ε := by
    simpa [mul_apply, Fin.sum_univ_three, l12, sq] using near 1 1
  have n21 : |l 2 0 * l 1 0 + l 2 1 * l 1 1| ≤ ε := by
    simpa [mul_apply, Fin.sum_univ_three, l12] using near 2 1
  have n22 : |l 2 0 * l 2 0 + l 2 1 * l 2 1 + l 2 2 ^ 2 - 1| ≤ ε := by
    simpa [mul_apply, Fin.sum_univ_three, sq] using near 2 2
  -- an entry is known from its product with the diagonal, once those before it are
  have d0 := near_one_of_sq (diagonal 0) n00
  have r0 : 7 / 8 ≤ l 0 0 := by linarith only [(abs_le.mp d0).1, few]
  have e10 : |l 1 0| ≤ 8 / 7 * ε := by
    linarith only [small_of_mul r0 (by norm_num) n10]
  have e20 : |l 2 0| ≤ 8 / 7 * ε := by
    linarith only [small_of_mul r0 (by norm_num) n20]
  have short : 8 / 7 * ε ≤ 1 / 7 := by linarith only [few]
  have p11 := abs_le.mp (abs_mul_le (e10.trans short) e10)
  have p21 := abs_le.mp (abs_mul_le (e20.trans short) e10)
  have p22 := abs_le.mp (abs_mul_le (e20.trans short) e20)
  have d1 : |l 1 1 - 1| ≤ 57 / 49 * ε := by
    refine near_one_of_sq (diagonal 1) (abs_le.mpr ?_)
    obtain ⟨below, above⟩ := abs_le.mp n11
    constructor <;> linarith only [below, above, p11.1, p11.2]
  have r1 : 5 / 6 ≤ l 1 1 := by linarith only [(abs_le.mp d1).1, few]
  have rest : |l 2 1 * l 1 1| ≤ 57 / 49 * ε := by
    obtain ⟨below, above⟩ := abs_le.mp n21
    rw [abs_le]
    constructor <;> linarith only [below, above, p21.1, p21.2]
  have e21 : |l 2 1| ≤ 7 / 5 * ε := by
    linarith only [small_of_mul r1 (by norm_num) rest, nonneg]
  have short' : 7 / 5 * ε ≤ 7 / 40 := by linarith only [few]
  have q22 := abs_le.mp (abs_mul_le (e21.trans short') e21)
  have d2 : |l 2 2 - 1| ≤ 3 / 2 * ε := by
    refine near_one_of_sq (diagonal 2) (abs_le.mpr ?_)
    obtain ⟨below, above⟩ := abs_le.mp n22
    constructor <;> linarith only [below, above, p22.1, p22.2, q22.1, q22.2, nonneg]
  fin_cases i <;> fin_cases j <;> simp [l01, l02, l12]
  all_goals linarith only [nonneg, d0, e10, d1, e20, e21, d2]

end SpnavBridge.Theory
