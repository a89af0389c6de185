/-
# Camera.Exact -- mat4.c over the real numbers

With `float` read as ℝ, and the roots and angles as what they are, the flat arrays of
mat4.c are matrices in the sense of linear algebra, and this module says which: `matrix3`
and `matrix4` are the arrays as matrices, `block` the upper-left block of a camera.

* `LastColumn`: the cameras the bridge works with; on them a product of arrays is a
  product of blocks (`LastColumn.mul`, `block_mul`).
* `Nondegenerate`: every residual of Gram-Schmidt is longer than the 1e-8 of `vnormalize`.
  Then what `mat4_extract_orthonormal_rotation` returns is orthogonal (`extract_orthogonal`);
  of an orthogonal block it is the transpose (`extract_of_orthogonal`).
* `euler_rotation`: `mat3_from_euler_xyz_deg` is a rotation for all angles.
-/
import Mathlib.Analysis.SpecialFunctions.Trigonometric.Basic
import Mathlib.LinearAlgebra.Matrix.Notation
import Mathlib.LinearAlgebra.UnitaryGroup
import Mathlib.Tactic.Module
import SpnavBridge.Camera.Mat4

namespace SpnavBridge.Camera

open SpnavBridge.Theory Matrix

set_option autoImplicit false

/-! ## Exact arithmetic -/

noncomputable instance : CFloat ℝ where
  lit q := q
  ofInt n := n
  pi := Real.pi
  sqrt := Real.sqrt
  sin := Real.sin
  cos := Real.cos
  lt x y := decide (x < y)
  isfinite _ := true

/-- What the constants and the functions of `<math.h>` are over the reals. -/
@[simp] theorem real_lit (q : ℚ) : (CFloat.lit q : ℝ) = q := rfl

@[simp] theorem real_ofInt (n : Int) : (CFloat.ofInt n : ℝ) = n := rfl

@[simp] theorem real_sqrt (x : ℝ) : CFloat.sqrt x = Real.sqrt x := rfl

@[simp] theorem real_lt (x y : ℝ) : (CFloat.lt x y = true) = (x < y) := by
  show (decide (x < y) = true) = _
  simp

/-! ## Arrays as matrices -/

def matrix3 (r : Mat3 ℝ) : Matrix (Fin 3) (Fin 3) ℝ := of fun i j => r (ix3 i j)

def matrix4 (m : Mat4 ℝ) : Matrix (Fin 4) (Fin 4) ℝ := of fun i j => m (ix4 i j)

/-- The upper-left block. -/
def block (m : Mat4 ℝ) : Matrix (Fin 3) (Fin 3) ℝ := of fun i j => m (ix4 i.castSucc j.castSucc)

/-- The last column is (0, 0, 0, 1). -/
def LastColumn (m : Mat4 ℝ) : Prop := ∀ i, m (ix4 i 3) = if i = 3 then 1 else 0

theorem row3_ix3 (i j : Fin 3) : row3 (ix3 i j) = i := by
  apply Fin.ext
  simp only [row3, ix3]
  omega

theorem col3_ix3 (i j : Fin 3) : col3 (ix3 i j) = j := by
  apply Fin.ext
  simp only [col3, ix3]
  omega

theorem row4_ix4 (i j : Fin 4) : row4 (ix4 i j) = i := by
  apply Fin.ext
  simp only [row4, ix4]
  omega

theorem col4_ix4 (i j : Fin 4) : col4 (ix4 i j) = j := by
  apply Fin.ext
  simp only [col4, ix4]
  omega

theorem matrix3_mul (a b : Mat3 ℝ) : matrix3 (mat3Mul a b) = matrix3 a * matrix3 b := by
  ext i j
  rw [mul_apply, Fin.sum_univ_three]
  simp [matrix3, mat3Mul, List.finRange_succ, row3_ix3, col3_ix3]

theorem matrix4_mul (a b : Mat4 ℝ) : matrix4 (mat4Mul a b) = matrix4 a * matrix4 b := by
  ext i j
  rw [mul_apply, Fin.sum_univ_four]
  simp [matrix4, mat4Mul, List.finRange_succ, row4_ix4, col4_ix4]

theorem matrix3_transpose (r : Mat3 ℝ) : matrix3 (mat3Transpose r) = (matrix3 r)ᵀ := by
  ext i j
  show r (ix3 (col3 (ix3 i j)) (row3 (ix3 i j))) = r (ix3 j i)
  rw [row3_ix3, col3_ix3]

theorem LastColumn.mul {a b : Mat4 ℝ} (left : LastColumn a) (right : LastColumn b) :
    LastColumn (mat4Mul a b) := by
  intro i
  have product := congrFun (congrFun (matrix4_mul a b) i) 3
  rw [mul_apply, Fin.sum_univ_four] at product
  simp only [matrix4, of_apply, right 0, right 1, right 2, right 3, left i] at product
  simpa using product

/-- Under a last column of (0, 0, 0, 1) on the left, blocks multiply. -/
theorem block_mul {a : Mat4 ℝ} (left : LastColumn a) (b : Mat4 ℝ) :
    block (mat4Mul a b) = block a * block b := by
  ext i j
  have product := congrFun (congrFun (matrix4_mul a b) i.castSucc) j.castSucc
  have last : matrix4 a i.castSucc (Fin.last 3) = 0 :=
    (left i.castSucc).trans (if_neg (Fin.castSucc_lt_last i).ne)
  rw [mul_apply, Fin.sum_univ_castSucc, last, zero_mul, add_zero] at product
  exact product

theorem lastColumn_fromRot3 (r : Mat3 ℝ) : LastColumn (mat4FromRot3 r) := by
  intro i
  fin_cases i <;> simp [mat4FromRot3, mat4Identity, ix4, row4, col4]

theorem block_fromRot3 (r : Mat3 ℝ) : block (mat4FromRot3 r) = matrix3 r := by
  ext i j
  have inside : (row4 (ix4 i.castSucc j.castSucc)).val < 3 ∧
      (col4 (ix4 i.castSucc j.castSucc)).val < 3 := by
    rw [row4_ix4, col4_ix4]
    exact ⟨i.isLt, j.isLt⟩
  show mat4FromRot3 r (ix4 i.castSucc j.castSucc) = r (ix3 i j)
  rw [mat4FromRot3, dif_pos inside]
  congr 2
  · apply Fin.ext
    show (row4 (ix4 i.castSucc j.castSucc)).val = i.val
    rw [row4_ix4, Fin.val_castSucc]
  · apply Fin.ext
    show (col4 (ix4 i.castSucc j.castSucc)).val = j.val
    rw [col4_ix4, Fin.val_castSucc]

theorem lastColumn_translation (tx ty tz : ℝ) : LastColumn (mat4FromTranslationRow tx ty tz) := by
  intro i
  fin_cases i <;> simp [mat4FromTranslationRow, mat4Identity, ix4]

theorem block_translation (tx ty tz : ℝ) : block (mat4FromTranslationRow tx ty tz) = 1 := by
  ext i j
  fin_cases i <;> fin_cases j <;> simp [block, mat4FromTranslationRow, mat4Identity, ix4]

/-- Where the camera is: the translation row. -/
def position (m : Mat4 ℝ) : Vec3 ℝ := fun j => m (ix4 3 j.castSucc)

/-- A product takes the position through the block of its right factor. -/
theorem position_mul {a : Mat4 ℝ} (left : LastColumn a) (b : Mat4 ℝ) :
    position (mat4Mul a b) = position a ᵥ* block b + position b := by
  funext j
  have product := congrFun (congrFun (matrix4_mul a b) 3) j.castSucc
  have last : matrix4 a 3 (Fin.last 3) = 1 := left 3
  rw [mul_apply, Fin.sum_univ_castSucc, last, one_mul] at product
  exact product

theorem position_fromRot3 (r : Mat3 ℝ) : position (mat4FromRot3 r) = 0 := by
  funext j
  fin_cases j <;> simp [position, mat4FromRot3, mat4Identity, ix4, row4, col4]

theorem position_translation (tx ty tz : ℝ) :
    position (mat4FromTranslationRow tx ty tz) = ![tx, ty, tz] := by
  funext j
  fin_cases j <;> simp [position, mat4FromTranslationRow, ix4]

/-- A camera is its block and its position, once its last column is known. -/
theorem ext_of_parts {a b : Mat4 ℝ} (left : LastColumn a) (right : LastColumn b)
    (blocks : block a = block b) (positions : position a = position b) : a = b := by
  have rows : ∀ i j, a (ix4 i j) = b (ix4 i j) := by
    intro i j
    induction j using Fin.lastCases with
    | last => exact (left i).trans (right i).symm
    | cast j =>
        induction i using Fin.lastCases with
        | last => exact congrFun positions j
        | cast i => exact congrFun (congrFun blocks i) j
  funext p
  rw [← ix4_row4_col4 p]
  exact rows _ _

/-! ## Gram-Schmidt -/

theorem vdot_eq (a b : Vec3 ℝ) : vdot a b = a ⬝ᵥ b := by
  simp [vdot, dotProduct, Fin.sum_univ_three]

theorem vsubScaled_eq (r : Vec3 ℝ) (d : ℝ) (q : Vec3 ℝ) : vsubScaled r d q = r - d • q := rfl

/-- The length below which `vnormalize` leaves a vector alone. -/
noncomputable def shortest : ℝ := ((1 / 100000000 : ℚ) : ℝ)

/-- A vector longer than that is given length one. -/
theorem vnormalize_eq {v : Vec3 ℝ} (long : shortest < Real.sqrt (v ⬝ᵥ v)) :
    vnormalize v = (Real.sqrt (v ⬝ᵥ v))⁻¹ • v := by
  have test : CFloat.lt (CFloat.lit (1 / 100000000) : ℝ) (CFloat.sqrt (vdot v v)) = true := by
    rw [real_lt, real_sqrt, vdot_eq]
    exact long
  rw [vnormalize, if_pos test]
  funext i
  rw [real_sqrt, vdot_eq, Pi.smul_apply, smul_eq_mul, div_eq_inv_mul]

theorem vnormalize_unit {v : Vec3 ℝ} (long : shortest < Real.sqrt (v ⬝ᵥ v)) :
    vnormalize v ⬝ᵥ vnormalize v = 1 := by
  have positive : 0 < Real.sqrt (v ⬝ᵥ v) := lt_trans (by norm_num [shortest]) long
  have square : Real.sqrt (v ⬝ᵥ v) * Real.sqrt (v ⬝ᵥ v) = v ⬝ᵥ v :=
    Real.mul_self_sqrt (Real.sqrt_pos.mp positive).le
  rw [vnormalize_eq long, smul_dotProduct, dotProduct_smul, smul_eq_mul, smul_eq_mul]
  field_simp
  rw [sq, square]

/-- Normalizing does not turn a vector. -/
theorem vnormalize_dot {v w : Vec3 ℝ} (long : shortest < Real.sqrt (v ⬝ᵥ v)) (right : v ⬝ᵥ w = 0) :
    vnormalize v ⬝ᵥ w = 0 := by
  rw [vnormalize_eq long, smul_dotProduct, right, smul_zero]

/-- What is left of a vector has no part along a unit vector it was rid of. -/
theorem vsubScaled_dot {r q : Vec3 ℝ} (unit : q ⬝ᵥ q = 1) :
    vsubScaled r (vdot r q) q ⬝ᵥ q = 0 := by
  rw [vsubScaled_eq, vdot_eq, sub_dotProduct, smul_dotProduct, unit, smul_eq_mul, mul_one, sub_self]

/-- Taking away a multiple of `q` keeps what a vector has along a normal of `q`. -/
theorem vsubScaled_dot_of_right {r q w : Vec3 ℝ} (d : ℝ) (right : q ⬝ᵥ w = 0) :
    vsubScaled r d q ⬝ᵥ w = r ⬝ᵥ w := by
  rw [vsubScaled_eq, sub_dotProduct, smul_dotProduct, right, smul_zero, sub_zero]

/-- There is a first row. -/
theorem neZero_rows : NeZero 3 := ⟨by decide⟩

attribute [local instance] neZero_rows in
/-- What Gram-Schmidt leaves of each row before it is normalized. -/
noncomputable def residuals (r : Mat3 ℝ) : Fin 3 → Vec3 ℝ :=
  let u0 := mat3Row r 0
  let q0 := (Real.sqrt (u0 ⬝ᵥ u0))⁻¹ • u0
  let u1 := mat3Row r 1 - (mat3Row r 1 ⬝ᵥ q0) • q0
  let q1 := (Real.sqrt (u1 ⬝ᵥ u1))⁻¹ • u1
  let v2 := mat3Row r 2 - (mat3Row r 2 ⬝ᵥ q0) • q0
  ![u0, u1, v2 - (v2 ⬝ᵥ q1) • q1]

/-- A residual is its row, less some of the rows before it. -/
theorem residuals_one (r : Mat3 ℝ) :
    ∃ x : ℝ, residuals r 1 = mat3Row r 1 - x • mat3Row r 0 :=
  ⟨_, congrArg (mat3Row r 1 - ·) (smul_smul _ _ _)⟩

theorem residuals_two (r : Mat3 ℝ) :
    ∃ x y : ℝ, residuals r 2 = mat3Row r 2 - x • mat3Row r 0 - y • mat3Row r 1 := by
  obtain ⟨x, one⟩ := residuals_one r
  -- the part along the second direction is taken from the second residual
  have two : ∃ y z : ℝ, residuals r 2 = mat3Row r 2 - z • mat3Row r 0 - y • residuals r 1 :=
    ⟨_, _, congrArg₂ (· - ·) (congrArg (mat3Row r 2 - ·) (smul_smul _ _ _)) (smul_smul _ _ _)⟩
  obtain ⟨y, z, two⟩ := two
  refine ⟨z - y * x, y, ?_⟩
  rw [two, one]
  module

/-- Every residual is long enough to be normalized. -/
def LongResiduals (r : Mat3 ℝ) : Prop :=
  ∀ i, shortest < Real.sqrt (residuals r i ⬝ᵥ residuals r i)

/-- The rows of the result, one after the other. -/
theorem gramSchmidt3_zero (r : Mat3 ℝ) :
    mat3Row (gramSchmidt3 r) 0 = vnormalize (mat3Row r 0) := by
  funext j
  simp only [mat3Row, gramSchmidt3, row3_ix3, col3_ix3]
  rfl

theorem gramSchmidt3_one (r : Mat3 ℝ) :
    mat3Row (gramSchmidt3 r) 1 = vnormalize (vsubScaled (mat3Row r 1)
      (vdot (mat3Row r 1) (mat3Row (gramSchmidt3 r) 0)) (mat3Row (gramSchmidt3 r) 0)) := by
  rw [gramSchmidt3_zero]
  funext j
  simp only [mat3Row, gramSchmidt3, row3_ix3, col3_ix3]
  rfl

attribute [local instance] neZero_rows in
/-- What the third row has left when it is rid of the first. -/
noncomputable def thirdRest (r : Mat3 ℝ) : Vec3 ℝ :=
  vsubScaled (mat3Row r 2) (vdot (mat3Row r 2) (mat3Row (gramSchmidt3 r) 0))
    (mat3Row (gramSchmidt3 r) 0)

theorem gramSchmidt3_two (r : Mat3 ℝ) :
    mat3Row (gramSchmidt3 r) 2 = vnormalize (vsubScaled (thirdRest r)
      (vdot (thirdRest r) (mat3Row (gramSchmidt3 r) 1)) (mat3Row (gramSchmidt3 r) 1)) := by
  rw [thirdRest, gramSchmidt3_one, gramSchmidt3_zero]
  funext j
  simp only [mat3Row, gramSchmidt3, row3_ix3, col3_ix3]
  rfl

section Long

variable {r : Mat3 ℝ} (long : LongResiduals r)

include long

/-- The residuals as the code forms them, with the rows of the result. -/
theorem residuals_one_eq :
    residuals r 1 = vsubScaled (mat3Row r 1)
      (vdot (mat3Row r 1) (mat3Row (gramSchmidt3 r) 0)) (mat3Row (gramSchmidt3 r) 0) := by
  have first := vnormalize_eq (v := mat3Row r 0) (long 0)
  rw [gramSchmidt3_zero, first, vsubScaled_eq, vdot_eq]
  rfl

theorem residuals_two_eq :
    residuals r 2 = vsubScaled (thirdRest r)
      (vdot (thirdRest r) (mat3Row (gramSchmidt3 r) 1)) (mat3Row (gramSchmidt3 r) 1) := by
  have first := vnormalize_eq (v := mat3Row r 0) (long 0)
  have second := vnormalize_eq (long 1)
  rw [gramSchmidt3_one, ← residuals_one_eq long, second, thirdRest, gramSchmidt3_zero, first]
  simp only [vsubScaled_eq, vdot_eq]
  rfl

/-- Each row of the result is its residual, normalized. -/
theorem gramSchmidt3_row (i : Fin 3) :
    mat3Row (gramSchmidt3 r) i = vnormalize (residuals r i) := by
  fin_cases i
  · exact gramSchmidt3_zero r
  · exact (gramSchmidt3_one r).trans (congrArg vnormalize (residuals_one_eq long).symm)
  · exact (gramSchmidt3_two r).trans (congrArg vnormalize (residuals_two_eq long).symm)

theorem gramSchmidt3_unit (i : Fin 3) :
    mat3Row (gramSchmidt3 r) i ⬝ᵥ mat3Row (gramSchmidt3 r) i = 1 := by
  rw [gramSchmidt3_row long]
  exact vnormalize_unit (long i)

/-- Each row of the result is normal to the rows before it. -/
theorem gramSchmidt3_right {i j : Fin 3} (before : j < i) :
    mat3Row (gramSchmidt3 r) i ⬝ᵥ mat3Row (gramSchmidt3 r) j = 0 := by
  have right10 : mat3Row (gramSchmidt3 r) 1 ⬝ᵥ mat3Row (gramSchmidt3 r) 0 = 0 := by
    rw [gramSchmidt3_row long 1]
    refine vnormalize_dot (long 1) ?_
    rw [residuals_one_eq long]
    exact vsubScaled_dot (gramSchmidt3_unit long 0)
  have right20 : mat3Row (gramSchmidt3 r) 2 ⬝ᵥ mat3Row (gramSchmidt3 r) 0 = 0 := by
    rw [gramSchmidt3_row long 2]
    refine vnormalize_dot (long 2) ?_
    -- the part along the second row is normal to the first as well
    rw [residuals_two_eq long, vsubScaled_dot_of_right _ right10]
    exact vsubScaled_dot (gramSchmidt3_unit long 0)
  have right21 : mat3Row (gramSchmidt3 r) 2 ⬝ᵥ mat3Row (gramSchmidt3 r) 1 = 0 := by
    rw [gramSchmidt3_row long 2]
    refine vnormalize_dot (long 2) ?_
    rw [residuals_two_eq long]
    exact vsubScaled_dot (gramSchmidt3_unit long 1)
  fin_cases i <;> fin_cases j <;> first | exact absurd before (by decide) | assumption

/-- **Gram-Schmidt gives an orthogonal matrix**, where no residual is too short. -/
theorem gramSchmidt3_orthogonal : matrix3 (gramSchmidt3 r) ∈ orthogonalGroup (Fin 3) ℝ := by
  rw [mem_orthogonalGroup_iff]
  ext i j
  show mat3Row (gramSchmidt3 r) i ⬝ᵥ mat3Row (gramSchmidt3 r) j = _
  rcases lt_trichotomy j i with before | rfl | after
  · rw [gramSchmidt3_right long before, one_apply_ne before.ne']
  · rw [gramSchmidt3_unit long, one_apply_eq]
  · rw [dotProduct_comm, gramSchmidt3_right long after, one_apply_ne after.ne]

end Long

/-- A vector of length one is long enough, and stays as it is. -/
theorem vnormalize_of_unit {v : Vec3 ℝ} (unit : v ⬝ᵥ v = 1) : vnormalize v = v := by
  have long : shortest < Real.sqrt (v ⬝ᵥ v) := by
    rw [unit, Real.sqrt_one]
    norm_num [shortest]
  rw [vnormalize_eq long, unit, Real.sqrt_one, inv_one, one_smul]

theorem vsubScaled_of_right {r q : Vec3 ℝ} (right : r ⬝ᵥ q = 0) :
    vsubScaled r (vdot r q) q = r := by
  rw [vsubScaled_eq, vdot_eq, right, zero_smul, sub_zero]

/-- Gram-Schmidt leaves orthonormal rows alone. -/
theorem gramSchmidt3_of_orthonormal {r : Mat3 ℝ}
    (rows : ∀ i j, mat3Row r i ⬝ᵥ mat3Row r j = if i = j then 1 else 0) : gramSchmidt3 r = r := by
  have unit : ∀ i, vnormalize (mat3Row r i) = mat3Row r i :=
    fun i => vnormalize_of_unit (by simp [rows])
  have right : ∀ i j, i ≠ j →
      vsubScaled (mat3Row r i) (vdot (mat3Row r i) (mat3Row r j)) (mat3Row r j) = mat3Row r i :=
    fun i j ne => vsubScaled_of_right (by simp [rows, ne])
  funext p
  have found : gramSchmidt3 r p = ![mat3Row r 0, mat3Row r 1, mat3Row r 2] (row3 p) (col3 p) := by
    simp only [gramSchmidt3, unit, right 1 0 (by decide), right 2 0 (by decide),
      right 2 1 (by decide)]
  have same : ∀ i, ![mat3Row r 0, mat3Row r 1, mat3Row r 2] i = mat3Row r i := by
    intro i
    fin_cases i <;> rfl
  rw [found, same, mat3Row, ix3_row3_col3]

/-- The transposed upper-left block, as `mat4_extract_orthonormal_rotation` copies it. -/
def transposedBlock (affine : Mat4 ℝ) : Mat3 ℝ :=
  fun p => affine (ix4 ((col3 p).castSucc) ((row3 p).castSucc))

/-- The block may be drifted, but Gram-Schmidt finds three directions in it. -/
def Nondegenerate (affine : Mat4 ℝ) : Prop := LongResiduals (transposedBlock affine)

theorem extract_orthogonal {affine : Mat4 ℝ} (nondegenerate : Nondegenerate affine) :
    matrix3 (mat4ExtractOrthonormalRotation affine) ∈ orthogonalGroup (Fin 3) ℝ :=
  gramSchmidt3_orthogonal nondegenerate

theorem matrix3_transposedBlock (affine : Mat4 ℝ) :
    matrix3 (transposedBlock affine) = (block affine)ᵀ := by
  ext i j
  simp [matrix3, transposedBlock, block, row3_ix3, col3_ix3]

/-- Of an orthogonal block the rotation that is extracted is the transpose. -/
theorem extract_of_orthogonal {affine : Mat4 ℝ} (orthogonal : block affine ∈ orthogonalGroup (Fin 3) ℝ) :
    matrix3 (mat4ExtractOrthonormalRotation affine) = (block affine)ᵀ := by
  have columns : (block affine)ᵀ * block affine = 1 := (mem_orthogonalGroup_iff' _ _).mp orthogonal
  have transposed := matrix3_transposedBlock affine
  have rows : ∀ i j, mat3Row (transposedBlock affine) i ⬝ᵥ mat3Row (transposedBlock affine) j =
      if i = j then 1 else 0 := by
    intro i j
    have entry := congrFun (congrFun columns i) j
    rw [← transposed] at entry
    rw [← one_apply (n := Fin 3) (α := ℝ), ← entry, ← transpose_transpose (block affine), ← transposed]
    rfl
  have same : mat4ExtractOrthonormalRotation affine = transposedBlock affine :=
    gramSchmidt3_of_orthonormal rows
  rw [same, transposed]

/-! ## Euler angles -/

/-- An orthogonal matrix of determinant one. -/
abbrev Rotation (m : Matrix (Fin 3) (Fin 3) ℝ) : Prop := m ∈ specialOrthogonalGroup (Fin 3) ℝ

/-- Orthonormal rows and determinant one. -/
theorem rotation_of_dots {m : Matrix (Fin 3) (Fin 3) ℝ}
    (rows : ∀ i j, m i ⬝ᵥ m j = if i = j then 1 else 0) (det : m.det = 1) : Rotation m := by
  refine mem_specialOrthogonalGroup_iff.mpr ⟨(mem_orthogonalGroup_iff _ _).mpr ?_, det⟩
  ext i j
  rw [one_apply, ← rows i j]
  rfl

section Axes

variable {c s : ℝ} (unit : c * c + s * s = 1)

include unit

theorem rotation_x : Rotation (matrix3 ![1, 0, 0, 0, c, -s, 0, s, c]) := by
  refine rotation_of_dots (fun i j => ?_) ?_
  · rw [dotProduct, Fin.sum_univ_three]
    fin_cases i <;> fin_cases j <;> simp [matrix3, ix3] <;> linarith
  · rw [det_fin_three]
    simp [matrix3, ix3]
    linarith

theorem rotation_y : Rotation (matrix3 ![c, 0, s, 0, 1, 0, -s, 0, c]) := by
  refine rotation_of_dots (fun i j => ?_) ?_
  · rw [dotProduct, Fin.sum_univ_three]
    fin_cases i <;> fin_cases j <;> simp [matrix3, ix3] <;> linarith
  · rw [det_fin_three]
    simp [matrix3, ix3]
    linarith

theorem rotation_z : Rotation (matrix3 ![c, -s, 0, s, c, 0, 0, 0, 1]) := by
  refine rotation_of_dots (fun i j => ?_) ?_
  · rw [dotProduct, Fin.sum_univ_three]
    fin_cases i <;> fin_cases j <;> simp [matrix3, ix3] <;> linarith
  · rw [det_fin_three]
    simp [matrix3, ix3]
    linarith

end Axes

/-- **The Euler matrix is a rotation**, for all angles. -/
theorem euler_rotation (ax ay az : ℝ) : Rotation (matrix3 (mat3FromEulerXyzDeg ax ay az)) := by
  have unit : ∀ x : ℝ, Real.cos x * Real.cos x + Real.sin x * Real.sin x = 1 := by
    intro x
    rw [← sq, ← sq]
    exact Real.cos_sq_add_sin_sq x
  have zero : (CFloat.lit 0 : ℝ) = 0 := Rat.cast_zero
  have one : (CFloat.lit 1 : ℝ) = 1 := Rat.cast_one
  simp only [mat3FromEulerXyzDeg, matrix3_mul, zero, one]
  exact mul_mem (mul_mem (rotation_x (unit _)) (rotation_y (unit _))) (rotation_z (unit _))

end SpnavBridge.Camera
