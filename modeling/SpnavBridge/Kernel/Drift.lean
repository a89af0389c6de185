/-
# Kernel.Drift -- cameras that are nearly rigid

A page sends its camera as decimals, so the block that a motion reads is orthogonal only
nearly.  `mat4_extract_orthonormal_rotation` takes axes from it that are orthogonal, and the
motion is about these.

* `drift_stays`: motions leave the drift what it is, however many there are; as long as it is
  small no block is too degenerate to take axes from, and the axes are those of the camera up
  to a small multiple of the drift.
-/
import SpnavBridge.Camera.GramSchmidt
import SpnavBridge.Kernel.Rigid
import SpnavBridge.Theory.Drift

namespace SpnavBridge.Kernel

open SpnavBridge.Theory SpnavBridge.Camera Matrix

set_option autoImplicit false

/-- How far the block is from orthogonal, squared. -/
noncomputable def drift (a : Mat4 ℝ) : ℝ := frobeniusSq (block a * (block a)ᵀ - 1)

theorem MovesRigidly.drift {a b : Mat4 ℝ} (rigidly : MovesRigidly a b) :
    drift b = Kernel.drift a := by
  rw [Kernel.drift, rigidly.gram, Kernel.drift]

section Small

variable {a : Mat4 ℝ} {ε : ℝ} (nonneg : 0 ≤ ε) (few : ε ≤ 1 / 8) (small : drift a ≤ ε ^ 2)
include nonneg few small

/-- A camera that has drifted little is far from degenerate. -/
theorem keepsLengths_of_drift : KeepsLengths a := by
  intro v nonzero
  have square : 0 < v ⬝ᵥ v := by
    refine lt_of_le_of_ne ?_ fun zero => nonzero (dotProduct_self_eq_zero.mp zero.symm)
    exact Finset.sum_nonneg fun i _ => mul_self_nonneg (v i)
  have near := (abs_le.mp (length_of_drift nonneg small v)).1
  have loss : ε * (v ⬝ᵥ v) ≤ 1 / 8 * (v ⬝ᵥ v) := mul_le_mul_of_nonneg_right few square.le
  refine Real.lt_sqrt_of_sq_lt ?_
  rw [mul_pow, length3, Real.sq_sqrt square.le]
  have tiny : shortest ^ 2 < 7 / 8 := by norm_num [shortest]
  nlinarith

/-- **The axes that are taken from the block are nearly its own.** -/
theorem axes_of_drift (i j : Fin 3) :
    |matrix3 (mat4ExtractOrthonormalRotation a) i j - block a j i| ≤ 9 / 2 * ε := by
  have nondegenerate := (keepsLengths_of_drift nonneg few small).nondegenerate
  have rows := (mem_orthogonalGroup_iff _ _).mp (extract_orthogonal nondegenerate)
  have split := columns_factor nondegenerate
  generalize matrix3 (mat4ExtractOrthonormalRotation a) = r at rows split ⊢
  have lower := along_lower nondegenerate
  have diagonal := along_diagonal nondegenerate
  generalize along (transposedBlock a) = l at split lower diagonal
  have gram : l * lᵀ = (block a)ᵀ * block a := by
    calc l * lᵀ = l * (r * rᵀ) * lᵀ := by rw [rows, Matrix.mul_one]
      _ = (l * r) * (l * r)ᵀ := by rw [transpose_mul]; simp only [Matrix.mul_assoc]
      _ = (block a)ᵀ * block a := by rw [split, transpose_transpose]
  have near : ∀ i j, |(l * lᵀ - 1) i j| ≤ ε := by
    rw [gram]
    rw [Kernel.drift, frobeniusSq_gram] at small
    exact abs_le_of_frobeniusSq nonneg small
  have factor : ∀ k, |(l - 1) i k| ≤ 3 / 2 * ε := fun k => by
    linarith only [factor_near_one lower diagonal (by linarith only [few]) near i k]
  -- the axes differ from the columns by the factor less one, and their entries are small
  have unit : ∀ k, |r k j| ≤ 1 := by
    intro k
    have row := congrFun (congrFun rows k) k
    rw [mul_apply, one_apply_eq] at row
    have entry : r k j * rᵀ j k ≤ ∑ c, r k c * rᵀ c k :=
      Finset.single_le_sum (f := fun c => r k c * rᵀ c k)
        (fun c _ => mul_self_nonneg (r k c)) (Finset.mem_univ j)
    rw [row] at entry
    exact abs_le_one_iff_mul_self_le_one.mpr entry
  have apart : r i j - block a j i = -∑ k, (l - 1) i k * r k j := by
    have product : ((l - 1) * r) i j = (block a)ᵀ i j - r i j := by
      rw [Matrix.sub_mul, split, Matrix.one_mul, Matrix.sub_apply]
    rw [mul_apply, transpose_apply] at product
    rw [product, neg_sub]
  rw [apart, abs_neg]
  calc |∑ k, (l - 1) i k * r k j| ≤ ∑ k, |(l - 1) i k * r k j| := Finset.abs_sum_le_sum_abs _ _
    _ ≤ ∑ _k : Fin 3, 3 / 2 * ε * 1 := Finset.sum_le_sum fun k _ => abs_mul_le (factor k) (unit k)
    _ = 9 / 2 * ε := by
        rw [Finset.sum_const, Finset.card_univ, Fintype.card_fin]
        ring

/-- **Drift does not grow.**  However many motions there are, the camera drifts no further, can
still be read, and is turned about axes that are nearly its own. -/
theorem drift_stays (lastColumn : LastColumn a) (pushes : List Push) :
    drift (moved a pushes) = drift a ∧ Nondegenerate (moved a pushes) ∧
      ∀ i j, |matrix3 (mat4ExtractOrthonormalRotation (moved a pushes)) i j -
        block (moved a pushes) j i| ≤ 9 / 2 * ε := by
  obtain ⟨reads, keeps⟩ := (keepsLengths_of_drift nonneg few small).moved lastColumn pushes
  have same := (moved_rigidly lastColumn reads).drift
  exact ⟨same, keeps.nondegenerate, axes_of_drift nonneg few (same.trans_le small)⟩

end Small

/-- A camera that is two percent too large. -/
def swollenEntries : List ℤ := [51, 0, 0, 0, 0, 51, 0, 0, 0, 0, 51, 0, 0, 0, 0, 50]

noncomputable def swollen : Mat4 ℝ := fun i => (swollenEntries[i] : ℤ) / (50 : ℤ)

theorem drift_stays_swollen : Nondegenerate (moved swollen [screwed, screwed]) := by
  have lastColumn : LastColumn swollen := by
    intro i
    fin_cases i <;> simp [swollen, swollenEntries, ix4]
  have entry : ∀ i j, (block swollen * (block swollen)ᵀ - 1) i j =
      if i = j then 101 / 2500 else 0 := by
    intro i j
    fin_cases i <;> fin_cases j <;>
      norm_num [block, swollen, swollenEntries, ix4, mul_apply, Fin.sum_univ_three]
  have small : drift swollen ≤ (1 / 8) ^ 2 := by
    norm_num [drift, frobeniusSq, entry, Fin.sum_univ_three]
  exact (drift_stays (by norm_num) le_rfl small lastColumn [screwed, screwed]).2.1

end SpnavBridge.Kernel
