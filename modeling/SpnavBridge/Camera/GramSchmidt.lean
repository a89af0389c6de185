/-
# Camera.GramSchmidt -- what mat4_extract_orthonormal_rotation keeps of the block

Over the reals, and where no residual is too short, the rows that are extracted are a lower
triangular factor away from the columns of the block (`columns_factor`): row `i` of the
factor is what column `i` of the block has along each of them.  A factor of that kind with
a positive diagonal keeps the orientation and every span of first rows.
-/
import SpnavBridge.Camera.Exact
import SpnavBridge.Theory.Triangular

namespace SpnavBridge.Camera

open SpnavBridge.Theory Matrix

set_option autoImplicit false

/-! ## The triangular factor -/

/-- What each row has along each row of the result. -/
noncomputable def along (r : Mat3 ℝ) : Matrix (Fin 3) (Fin 3) ℝ :=
  matrix3 r * (matrix3 (gramSchmidt3 r))ᵀ

section Long

variable {r : Mat3 ℝ} (long : LongResiduals r)

include long

theorem along_mul : along r * matrix3 (gramSchmidt3 r) = matrix3 r := by
  have columns := (mem_orthogonalGroup_iff' _ _).mp (gramSchmidt3_orthogonal long)
  rw [along, Matrix.mul_assoc]
  exact (congrArg (matrix3 r * ·) columns).trans (Matrix.mul_one _)

/-- Along its own direction and those behind it a row is its residual: only earlier
directions were taken from it. -/
theorem row_dot {i j : Fin 3} (upTo : i ≤ j) :
    mat3Row r i ⬝ᵥ mat3Row (gramSchmidt3 r) j = residuals r i ⬝ᵥ mat3Row (gramSchmidt3 r) j := by
  have right : ∀ k, k < i → mat3Row (gramSchmidt3 r) k ⬝ᵥ mat3Row (gramSchmidt3 r) j = 0 := by
    intro k before
    rw [dotProduct_comm]
    exact gramSchmidt3_right long (before.trans_le upTo)
  match i with
  | 0 => rfl
  | 1 => rw [residuals_one_eq long, vsubScaled_dot_of_right _ (right 0 (by decide))]
  | 2 =>
      rw [residuals_two_eq long, vsubScaled_dot_of_right _ (right 1 (by decide)), thirdRest,
        vsubScaled_dot_of_right _ (right 0 (by decide))]

/-- A residual is its length along its own direction. -/
theorem residual_eq (i : Fin 3) :
    residuals r i = √(residuals r i ⬝ᵥ residuals r i) • mat3Row (gramSchmidt3 r) i := by
  have positive : √(residuals r i ⬝ᵥ residuals r i) ≠ 0 :=
    (lt_trans (by norm_num [shortest]) (long i)).ne'
  rw [gramSchmidt3_row long, vnormalize_eq (long i), smul_smul, mul_inv_cancel₀ positive, one_smul]

theorem along_lower : (along r).IsLowerTriangular := by
  intro i j before
  have after : i < j := before
  show mat3Row r i ⬝ᵥ mat3Row (gramSchmidt3 r) j = 0
  rw [row_dot long after.le, residual_eq long, smul_dotProduct,
    dotProduct_comm (mat3Row (gramSchmidt3 r) i), gramSchmidt3_right long after, smul_zero]

theorem along_diagonal (i : Fin 3) : 0 < along r i i := by
  show 0 < mat3Row r i ⬝ᵥ mat3Row (gramSchmidt3 r) i
  rw [row_dot long le_rfl, residual_eq long, smul_dotProduct, gramSchmidt3_unit long, smul_eq_mul,
    mul_one]
  exact lt_trans (by norm_num [shortest]) (long i)

end Long

/-! ## Extraction -/

theorem matrix3_injective {r s : Mat3 ℝ} (same : matrix3 r = matrix3 s) : r = s := by
  funext p
  have entry := congrFun (congrFun same (row3 p)) (col3 p)
  simpa only [matrix3, of_apply, ix3_row3_col3] using entry

/-- The rotation of an orthogonal block, put back the way the controller does. -/
theorem extract_again {affine : Mat4 ℝ}
    (orthogonal : matrix3 (mat4ExtractOrthonormalRotation affine) ∈ orthogonalGroup (Fin 3) ℝ) :
    mat4ExtractOrthonormalRotation
        (mat4FromRot3 (mat3Transpose (mat4ExtractOrthonormalRotation affine))) =
      mat4ExtractOrthonormalRotation affine := by
  have put : block (mat4FromRot3 (mat3Transpose (mat4ExtractOrthonormalRotation affine))) =
      (matrix3 (mat4ExtractOrthonormalRotation affine))ᵀ := by
    rw [block_fromRot3, matrix3_transpose]
  apply matrix3_injective
  rw [extract_of_orthogonal (put ▸ transpose_mem_unitaryGroup_iff.mpr orthogonal), put,
    transpose_transpose]

section Nondegenerate

variable {affine : Mat4 ℝ} (nondegenerate : Nondegenerate affine)

include nondegenerate

/-- The columns of the block, as a triangular factor times what is extracted. -/
theorem columns_factor :
    along (transposedBlock affine) * matrix3 (mat4ExtractOrthonormalRotation affine) =
      (block affine)ᵀ :=
  (along_mul nondegenerate).trans (matrix3_transposedBlock affine)

theorem extract_sign :
    SignType.sign (matrix3 (mat4ExtractOrthonormalRotation affine)).det =
      SignType.sign (block affine).det := by
  rw [← det_transpose (block affine), ← columns_factor nondegenerate]
  exact (sign_det (along_lower nondegenerate) (along_diagonal nondegenerate) _).symm

theorem extract_span (k : Fin 3) :
    rowSpan (matrix3 (mat4ExtractOrthonormalRotation affine)) k = rowSpan (block affine)ᵀ k := by
  rw [← columns_factor nondegenerate]
  exact (span_rows (along_lower nondegenerate)
    (fun i => (along_diagonal nondegenerate i).ne') _ k).symm

end Nondegenerate

/-- **Gram-Schmidt extraction.**  The rotation is orthogonal, turns the way the block does,
and its first rows span what the first columns of the block do; of an orthonormal block it is
the transpose.  What is extracted once is extracted again. -/
theorem extract_correct {affine : Mat4 ℝ} (nondegenerate : Nondegenerate affine) :
    (matrix3 (mat4ExtractOrthonormalRotation affine) *
        (matrix3 (mat4ExtractOrthonormalRotation affine))ᵀ = 1 ∧
      SignType.sign (matrix3 (mat4ExtractOrthonormalRotation affine)).det =
        SignType.sign (block affine).det ∧
      ∀ k, rowSpan (matrix3 (mat4ExtractOrthonormalRotation affine)) k =
        rowSpan (block affine)ᵀ k) ∧
    (block affine * (block affine)ᵀ = 1 →
      matrix3 (mat4ExtractOrthonormalRotation affine) = (block affine)ᵀ) ∧
    mat4ExtractOrthonormalRotation
        (mat4FromRot3 (mat3Transpose (mat4ExtractOrthonormalRotation affine))) =
      mat4ExtractOrthonormalRotation affine := by
  have orthogonal := extract_orthogonal nondegenerate
  refine ⟨⟨?_, extract_sign nondegenerate, extract_span nondegenerate⟩, fun rows => ?_, ?_⟩
  · exact (mem_orthogonalGroup_iff _ _).mp orthogonal
  · exact extract_of_orthogonal ((mem_orthogonalGroup_iff _ _).mpr rows)
  · exact extract_again orthogonal

/-- A block that is scaled, sheared and reflected. -/
def shearedEntries : List ℤ := [2, 1, 4, 0, 0, 3, 5, 0, 0, 0, -1, 0, 0, 0, 0, 1]

noncomputable def sheared : Mat4 ℝ := fun i => (shearedEntries[i] : ℤ)

theorem mat3Row_sheared (i : Fin 3) :
    mat3Row (transposedBlock sheared) i = ![![2, 0, 0], ![1, 3, 0], ![4, 5, -1]] i := by
  funext j
  fin_cases i <;> fin_cases j <;>
    simp [mat3Row, transposedBlock, sheared, shearedEntries, ix3, ix4, row3, col3]

theorem residuals_sheared (i : Fin 3) :
    residuals (transposedBlock sheared) i = ![![2, 0, 0], ![0, 3, 0], ![0, 0, -1]] i := by
  have rows := mat3Row_sheared
  funext j
  fin_cases i <;> fin_cases j <;> simp [residuals, rows 0, rows 1, rows 2]

theorem extract_sheared :
    SignType.sign (matrix3 (mat4ExtractOrthonormalRotation sheared)).det = -1 ∧
      mat4ExtractOrthonormalRotation
          (mat4FromRot3 (mat3Transpose (mat4ExtractOrthonormalRotation sheared))) =
        mat4ExtractOrthonormalRotation sheared := by
  have long : ∀ x : ℝ, 1 ≤ x → shortest < √x := by
    intro x one
    exact lt_of_lt_of_le (by norm_num [shortest]) (Real.one_le_sqrt.mpr one)
  have nondegenerate : Nondegenerate sheared := by
    intro i
    rw [residuals_sheared]
    refine long _ ?_
    fin_cases i <;> norm_num
  have reflected : SignType.sign (block sheared).det = -1 := by
    rw [det_fin_three]
    simp [block, sheared, shearedEntries, ix4]
  have extracted := extract_correct nondegenerate
  exact ⟨extracted.1.2.1.trans reflected, extracted.2.2⟩

end SpnavBridge.Camera
