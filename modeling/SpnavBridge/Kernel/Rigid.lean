/-
# Kernel.Rigid -- a motion turns and shifts the camera, and does nothing else

Over the real numbers, `compute_new_affine` multiplies the upper-left block of the camera
by a rotation (`block_computeNewAffine`): the Euler rotation seen from the camera, whose
directions are the rows that Gram-Schmidt found in the block.  Whatever lengths and angles
the block had, drift included, the new one has (`MovesRigidly`).

Over a run of chains that each read back what the last one wrote, this holds as long as
the cameras read are not degenerate (`moved_rigidly`).  A camera that shortens no
direction to 1e-8 stays so (`KeepsLengths.moved`), and then nothing has to be asked of
the later ones.
-/
import Mathlib.LinearAlgebra.Matrix.DotProduct
import SpnavBridge.Camera.Euler
import SpnavBridge.Kernel.Controller

namespace SpnavBridge.Kernel

open SpnavBridge.Theory SpnavBridge.Camera Matrix

set_option autoImplicit false

/-! ## One motion -/

/-- The camera keeps its last column, and its block every length, angle and orientation. -/
structure MovesRigidly (a b : Mat4 ℝ) : Prop where
  lastColumn : LastColumn b
  gram : block b * (block b)ᵀ = block a * (block a)ᵀ
  det : (block b).det = (block a).det

theorem MovesRigidly.refl {a : Mat4 ℝ} (lastColumn : LastColumn a) : MovesRigidly a a :=
  ⟨lastColumn, rfl, rfl⟩

theorem MovesRigidly.trans {a b c : Mat4 ℝ} (ab : MovesRigidly a b) (bc : MovesRigidly b c) :
    MovesRigidly a c :=
  ⟨bc.lastColumn, bc.gram.trans ab.gram, bc.det.trans ab.det⟩

/-- A rotation from the right is a rigid motion. -/
theorem MovesRigidly.of_rotation {a b : Mat4 ℝ} {w : Matrix (Fin 3) (Fin 3) ℝ}
    (lastColumn : LastColumn b) (rotation : Rotation w) (turned : block b = block a * w) :
    MovesRigidly a b := by
  obtain ⟨orthogonal, det⟩ := mem_specialOrthogonalGroup_iff.mp rotation
  have inverse : w * wᵀ = 1 := (mem_orthogonalGroup_iff _ _).mp orthogonal
  refine ⟨lastColumn, ?_, ?_⟩
  · calc block b * (block b)ᵀ
        = block a * (w * wᵀ) * (block a)ᵀ := by
          rw [turned, transpose_mul, Matrix.mul_assoc, Matrix.mul_assoc, Matrix.mul_assoc]
      _ = block a * (block a)ᵀ := by rw [inverse, Matrix.mul_one]
  · rw [turned, det_mul, det, mul_one]

/-- A rotation seen from other orthogonal axes. -/
theorem rotation_conj {q w : Matrix (Fin 3) (Fin 3) ℝ} (axes : q ∈ orthogonalGroup (Fin 3) ℝ)
    (rotation : Rotation w) : Rotation (q * w * qᵀ) := by
  obtain ⟨orthogonal, det⟩ := mem_specialOrthogonalGroup_iff.mp rotation
  have inverse : q * qᵀ = 1 := (mem_orthogonalGroup_iff _ _).mp axes
  have back : qᵀ ∈ orthogonalGroup (Fin 3) ℝ := transpose_mem_unitaryGroup_iff.mpr axes
  refine mem_specialOrthogonalGroup_iff.mpr ⟨mul_mem (mul_mem axes orthogonal) back, ?_⟩
  have unit : q.det * qᵀ.det = 1 := by rw [← det_mul, inverse, det_one]
  rw [det_mul, det_mul, det, mul_one, unit]

/-- The rotation of a motion, in the coordinates of the model. -/
noncomputable def worldRotation (sensitivity : ℝ) (a : Mat4 ℝ) (ev : SbEvent) : Mat3 ℝ :=
  let rCam := mat4ExtractOrthonormalRotation a
  let rDelta := mat3FromEulerXyzDeg
    (CFloat.ofInt ev.rx * CFloat.lit (2 / 100) * sensitivity)
    (CFloat.ofInt ev.ry * CFloat.lit (2 / 100) * sensitivity)
    (CFloat.ofInt (-ev.rz) * CFloat.lit (2 / 100) * sensitivity)
  mat3Mul (mat3Mul rCam rDelta) (mat3Transpose rCam)

theorem worldRotation_rotation (sensitivity : ℝ) {a : Mat4 ℝ} (nondegenerate : Nondegenerate a)
    (ev : SbEvent) : Rotation (matrix3 (worldRotation sensitivity a ev)) := by
  rw [worldRotation, matrix3_mul, matrix3_mul, matrix3_transpose]
  exact rotation_conj (extract_orthogonal nondegenerate) (euler_rotation _ _ _)

/-- **The new block is the old one, turned.**  The pivot and the shift leave no trace in it. -/
theorem block_computeNewAffine (sensitivity : ℝ) (modelExtents : Fin 6 → ℝ) {a : Mat4 ℝ}
    (lastColumn : LastColumn a) (ev : SbEvent) :
    LastColumn (computeNewAffine sensitivity modelExtents a ev) ∧
      block (computeNewAffine sensitivity modelExtents a ev) =
        block a * matrix3 (worldRotation sensitivity a ev) := by
  have toPivot := lastColumn_translation
  have turn := lastColumn_fromRot3 (worldRotation sensitivity a ev)
  refine ⟨?_, ?_⟩
  · exact (toPivot _ _ _).mul (lastColumn.mul (((toPivot _ _ _).mul turn).mul (toPivot _ _ _)))
  · show block (mat4Mul _ (mat4Mul a (mat4Mul (mat4Mul _
      (mat4FromRot3 (worldRotation sensitivity a ev))) _))) = _
    rw [block_mul (toPivot _ _ _), block_translation, Matrix.one_mul, block_mul lastColumn,
      block_mul ((toPivot _ _ _).mul turn), block_translation, Matrix.mul_one,
      block_mul (toPivot _ _ _), block_translation, Matrix.one_mul, block_fromRot3]

theorem computeNewAffine_rigid (sensitivity : ℝ) (modelExtents : Fin 6 → ℝ) {a : Mat4 ℝ}
    (lastColumn : LastColumn a) (nondegenerate : Nondegenerate a) (ev : SbEvent) :
    MovesRigidly a (computeNewAffine sensitivity modelExtents a ev) := by
  obtain ⟨last, turned⟩ := block_computeNewAffine sensitivity modelExtents lastColumn ev
  exact .of_rotation last (worldRotation_rotation sensitivity nondegenerate ev) turned

/-! ## Many motions -/

/-- What one motion chain computes with besides the camera. -/
structure Push where
  sensitivity : ℝ
  modelExtents : Fin 6 → ℝ
  ev : SbEvent

noncomputable def Push.move (push : Push) (a : Mat4 ℝ) : Mat4 ℝ :=
  computeNewAffine push.sensitivity push.modelExtents a push.ev

/-- The camera after chains that each read back what the last one wrote. -/
noncomputable def moved (a : Mat4 ℝ) (pushes : List Push) : Mat4 ℝ :=
  pushes.foldl (fun a push => push.move a) a

theorem moved_snoc (a : Mat4 ℝ) (pushes : List Push) (push : Push) :
    moved a (pushes ++ [push]) = push.move (moved a pushes) := by
  simp [moved]

/-- No camera that a chain reads is degenerate. -/
def ReadsNondegenerate (a : Mat4 ℝ) (pushes : List Push) : Prop :=
  Along (fun past _ => Nondegenerate (moved a past)) pushes

theorem moved_rigidly {a : Mat4 ℝ} (lastColumn : LastColumn a) {pushes : List Push}
    (reads : ReadsNondegenerate a pushes) : MovesRigidly a (moved a pushes) := by
  induction pushes using List.reverseRecOn with
  | nil => exact .refl lastColumn
  | append_singleton past push ih =>
      obtain ⟨before, last⟩ := (along_snoc past push).mp reads
      have so_far := ih before
      rw [moved_snoc]
      exact so_far.trans (computeNewAffine_rigid _ _ so_far.lastColumn last _)

/-! ## Cameras that stay readable -/

noncomputable def length3 (v : Vec3 ℝ) : ℝ := Real.sqrt (v ⬝ᵥ v)

/-- The block shortens no direction to 1e-8 or below. -/
def KeepsLengths (a : Mat4 ℝ) : Prop :=
  ∀ v : Vec3 ℝ, v ≠ 0 → shortest * length3 v < length3 (block a *ᵥ v)

/-- A combination of the columns in which one column counts once is long. -/
theorem KeepsLengths.column {a : Mat4 ℝ} (keeps : KeepsLengths a) {v : Vec3 ℝ} {i : Fin 3}
    (once : v i = 1) : shortest < length3 (block a *ᵥ v) := by
  have nonzero : v ≠ 0 := by
    rintro rfl
    simp at once
  have square : 1 ≤ v ⬝ᵥ v := by
    have others : v i * v i ≤ v ⬝ᵥ v :=
      Finset.single_le_sum (fun j _ => mul_self_nonneg (v j)) (Finset.mem_univ i)
    rwa [once, mul_one] at others
  have long : 1 ≤ length3 v := Real.one_le_sqrt.mpr square
  have positive : 0 < shortest := by norm_num [shortest]
  calc shortest = shortest * 1 := (mul_one _).symm
    _ ≤ shortest * length3 v := mul_le_mul_of_nonneg_left long positive.le
    _ < length3 (block a *ᵥ v) := keeps v nonzero

theorem mat3Row_transposedBlock (a : Mat4 ℝ) (k : Fin 3) :
    mat3Row (transposedBlock a) k = fun j => block a j k :=
  congrFun (matrix3_transposedBlock a) k

theorem mulVec_columns (m : Matrix (Fin 3) (Fin 3) ℝ) (x y z : ℝ) :
    m *ᵥ ![x, y, z] = x • (fun j => m j 0) + y • (fun j => m j 1) + z • (fun j => m j 2) := by
  funext j
  simp [mulVec, dotProduct, Fin.sum_univ_three, mul_comm]

/-- Such a camera is not degenerate: a residual is a column, less some of the earlier ones. -/
theorem KeepsLengths.nondegenerate {a : Mat4 ℝ} (keeps : KeepsLengths a) : Nondegenerate a := by
  have columns : ∀ k, mat3Row (transposedBlock a) k = fun j => block a j k :=
    mat3Row_transposedBlock a
  have combination : ∀ i, ∃ v : Vec3 ℝ, v i = 1 ∧
      residuals (transposedBlock a) i = block a *ᵥ v := by
    intro i
    fin_cases i
    · refine ⟨![1, 0, 0], rfl, ?_⟩
      rw [mulVec_columns, ← columns, ← columns, ← columns]
      simp [residuals]
    · obtain ⟨x, one⟩ := residuals_one (transposedBlock a)
      refine ⟨![-x, 1, 0], rfl, ?_⟩
      rw [mulVec_columns, ← columns, ← columns, ← columns]
      show residuals _ 1 = _
      rw [one]
      module
    · obtain ⟨x, y, two⟩ := residuals_two (transposedBlock a)
      refine ⟨![-x, -y, 1], rfl, ?_⟩
      rw [mulVec_columns, ← columns, ← columns, ← columns]
      show residuals _ 2 = _
      rw [two]
      module
  intro i
  obtain ⟨v, once, residual⟩ := combination i
  rw [residual]
  exact keeps.column once

/-- A rotation keeps every length. -/
theorem length3_rotation {w : Matrix (Fin 3) (Fin 3) ℝ} (rotation : Rotation w) (v : Vec3 ℝ) :
    length3 (w *ᵥ v) = length3 v := by
  obtain ⟨orthogonal, -⟩ := mem_specialOrthogonalGroup_iff.mp rotation
  have inverse : wᵀ * w = 1 := (mem_orthogonalGroup_iff' _ _).mp orthogonal
  unfold length3
  rw [dotProduct_mulVec, ← mulVec_transpose, mulVec_mulVec, inverse, one_mulVec]

/-- A motion keeps such a camera such. -/
theorem KeepsLengths.move {a : Mat4 ℝ} (lastColumn : LastColumn a) (keeps : KeepsLengths a)
    (push : Push) : KeepsLengths (push.move a) := by
  intro v nonzero
  have turned := (block_computeNewAffine push.sensitivity push.modelExtents lastColumn push.ev).2
  have rotation := worldRotation_rotation push.sensitivity keeps.nondegenerate push.ev
  have same := length3_rotation rotation v
  have nonzero' : matrix3 (worldRotation push.sensitivity a push.ev) *ᵥ v ≠ 0 := by
    intro zero
    rw [zero] at same
    have none_ : v ⬝ᵥ v = 0 := by
      have empty : length3 v = 0 := by rw [← same, length3, zero_dotProduct, Real.sqrt_zero]
      exact (Real.sqrt_eq_zero (Finset.sum_nonneg fun j _ => mul_self_nonneg (v j))).mp empty
    exact nonzero (dotProduct_self_eq_zero.mp none_)
  have long := keeps _ nonzero'
  rw [same, mulVec_mulVec, ← turned] at long
  exact long

/-- Chains that start from such a camera read no other. -/
theorem KeepsLengths.moved {a : Mat4 ℝ} (lastColumn : LastColumn a) (keeps : KeepsLengths a)
    (pushes : List Push) : ReadsNondegenerate a pushes ∧ KeepsLengths (moved a pushes) := by
  induction pushes using List.reverseRecOn with
  | nil => exact ⟨along_nil, keeps⟩
  | append_singleton past push ih =>
      obtain ⟨reads, so_far⟩ := ih
      refine ⟨(along_snoc past push).mpr ⟨reads, so_far.nondegenerate⟩, ?_⟩
      rw [moved_snoc]
      exact so_far.move (moved_rigidly lastColumn reads).lastColumn push

/-- **Motion is rigid.**  Of every camera that is not degenerate, over every run of chains
that read no degenerate one, and in particular from every camera that keeps lengths. -/
theorem motion_rigid (a : Mat4 ℝ) (lastColumn : LastColumn a) :
    (∀ (sensitivity : ℝ) (modelExtents : Fin 6 → ℝ) (ev : SbEvent), Nondegenerate a →
      MovesRigidly a (computeNewAffine sensitivity modelExtents a ev)) ∧
    (∀ pushes, ReadsNondegenerate a pushes → MovesRigidly a (moved a pushes)) ∧
    (KeepsLengths a → ∀ pushes, MovesRigidly a (moved a pushes)) := by
  refine ⟨fun sensitivity modelExtents ev nondegenerate => ?_, fun pushes reads => ?_,
    fun keeps pushes => ?_⟩
  · exact computeNewAffine_rigid sensitivity modelExtents lastColumn nondegenerate ev
  · exact moved_rigidly lastColumn reads
  · exact moved_rigidly lastColumn (keeps.moved lastColumn pushes).1

/-- A push along and about the axes, at twice the original speed. -/
noncomputable def screwed : Push := ⟨2, ![-1, -2, -3, 1, 2, 3], ⟨.motion, 350, 0, -20, 90, 0, 7⟩⟩

/-- A camera that is turned, with a third axis that leans by a hundredth, and moved away. -/
noncomputable def drifted : Mat4 ℝ := fun i =>
  (([4 / 5, 3 / 5, 0, 0, -3 / 5, 4 / 5, 0, 0, 1 / 100, 0, 1, 0, 5, -2, 7, 1] : List ℚ).getD i 0 : ℚ)

theorem motion_rigid_drifted :
    block drifted * (block drifted)ᵀ ≠ 1 ∧ LastColumn drifted ∧ Nondegenerate drifted ∧
      MovesRigidly drifted (screwed.move drifted) ∧
      MovesRigidly drifted (moved drifted [screwed, screwed]) := by
  have last : LastColumn drifted := by
    intro i
    fin_cases i <;> simp [drifted, ix4]
  have rows : block drifted = !![4 / 5, 3 / 5, 0; -3 / 5, 4 / 5, 0; 1 / 100, 0, 1] := by
    ext i j
    fin_cases i <;> fin_cases j <;> simp [block, drifted, ix4]
  have leans : block drifted * (block drifted)ᵀ ≠ 1 := by
    intro orthogonal
    have entry := congrFun (congrFun orthogonal 0) 2
    rw [rows, mul_apply, Fin.sum_univ_three] at entry
    simp at entry
  have keeps : KeepsLengths drifted := by
    intro v nonzero
    have positive : 0 < v ⬝ᵥ v :=
      lt_of_le_of_ne (Finset.sum_nonneg fun j _ => mul_self_nonneg (v j))
        fun zero => nonzero (dotProduct_self_eq_zero.mp zero.symm)
    -- it shortens no direction to less than a half
    have half : 1 / 4 * (v ⬝ᵥ v) ≤ block drifted *ᵥ v ⬝ᵥ block drifted *ᵥ v := by
      rw [rows]
      simp only [dotProduct, mulVec, Fin.sum_univ_three]
      simp
      nlinarith [sq_nonneg (v 0 / 100 + 2 * v 2), sq_nonneg (v 0), sq_nonneg (v 1), sq_nonneg (v 2)]
    rw [length3, length3, ← Real.sqrt_sq (show 0 ≤ shortest by norm_num [shortest]),
      ← Real.sqrt_mul (sq_nonneg _)]
    refine Real.sqrt_lt_sqrt (mul_nonneg (sq_nonneg _) positive.le) (lt_of_lt_of_le ?_ half)
    exact mul_lt_mul_of_pos_right (by norm_num [shortest]) positive
  obtain ⟨once, -, always⟩ := motion_rigid drifted last
  exact ⟨leans, last, keeps.nondegenerate, once _ _ _ keeps.nondegenerate, always keeps _⟩

/-! ## A camera that does not stay readable -/

/-- The first column is short, and the second leans over it.  A quarter turn has Gram-Schmidt
begin with the second, which leaves less than 1e-8 of the first. -/
noncomputable def skew : Mat4 ℝ := fun i =>
  (([3 / 200000000, 4, 0, 0, 0, 3, 0, 0, 0, 0, 1, 0, 0, 0, 0, 1] : List ℚ).getD i 0 : ℚ)

/-- 90 degrees about the third axis, at the highest sensitivity. -/
noncomputable def quarterTurn : Push := ⟨((10 : ℤ) : ℝ), fun _ => 0, ⟨.motion, 0, 0, 0, 0, 0, -450⟩⟩

theorem lastColumn_skew : LastColumn skew := by
  intro i
  fin_cases i <;> simp [skew, ix4]

theorem block_skew : block skew = !![3 / 200000000, 4, 0; 0, 3, 0; 0, 0, 1] := by
  ext i j
  fin_cases i <;> fin_cases j <;> simp [block, skew, ix4]

/-- The length of a vector, from its square. -/
theorem sqrt_dot_eq {v : Vec3 ℝ} {l : ℝ} (nonneg : 0 ≤ l) (square : v ⬝ᵥ v = l * l) :
    √(v ⬝ᵥ v) = l := by
  rw [square, Real.sqrt_mul_self nonneg]

theorem residuals_skew (i : Fin 3) :
    residuals (transposedBlock skew) i = ![![3 / 200000000, 0, 0], ![0, 3, 0], ![0, 0, 1]] i := by
  have rows : ∀ i, mat3Row (transposedBlock skew) i =
      ![![3 / 200000000, 0, 0], ![4, 3, 0], ![0, 0, 1]] i := by
    intro i
    rw [mat3Row_transposedBlock, block_skew]
    funext j
    fin_cases i <;> fin_cases j <;> rfl
  have first : (√(![(3 / 200000000 : ℝ), 0, 0] ⬝ᵥ ![3 / 200000000, 0, 0]))⁻¹ •
      ![(3 / 200000000 : ℝ), 0, 0] = ![1, 0, 0] := by
    rw [sqrt_dot_eq (l := 3 / 200000000) (by norm_num) (by simp)]
    simp
  have row0 := rows 0
  have row1 := rows 1
  have row2 := rows 2
  simp only [cons_val_zero, cons_val_one, cons_val_two] at row0 row1 row2
  simp only [residuals, row0, row1, row2, first]
  funext j
  fin_cases i <;> fin_cases j <;> simp

theorem length_skew (i : Fin 3) :
    √(residuals (transposedBlock skew) i ⬝ᵥ residuals (transposedBlock skew) i) =
      ![3 / 200000000, 3, 1] i := by
  rw [residuals_skew]
  fin_cases i <;> exact sqrt_dot_eq (by norm_num) (by simp)

theorem nondegenerate_skew : Nondegenerate skew := by
  intro i
  rw [length_skew]
  fin_cases i <;> norm_num [shortest]

theorem extract_skew : matrix3 (mat4ExtractOrthonormalRotation skew) = 1 := by
  ext i j
  show mat3Row (gramSchmidt3 (transposedBlock skew)) i j = _
  rw [gramSchmidt3_row nondegenerate_skew, vnormalize_eq (nondegenerate_skew i), length_skew,
    residuals_skew]
  fin_cases i <;> fin_cases j <;> norm_num

/-- The quarter turn as the camera makes it. -/
noncomputable def quarter : Matrix (Fin 3) (Fin 3) ℝ := !![0, -1, 0; 1, 0, 0; 0, 0, 1]

/-- What the camera sees of the turn is a quarter turn, about whatever Gram-Schmidt found. -/
theorem worldRotation_quarterTurn (a : Mat4 ℝ) :
    matrix3 (worldRotation quarterTurn.sensitivity a quarterTurn.ev) =
      matrix3 (mat4ExtractOrthonormalRotation a) * quarter *
        (matrix3 (mat4ExtractOrthonormalRotation a))ᵀ := by
  have none_ : turnX 0 = 1 ∧ turnY 0 = 1 := by
    simp [turnX, turnY, radians, one_fin_three]
  have right : radians 90 = Real.pi / 2 := by
    unfold radians
    ring
  have turned : turnZ 90 = quarter := by
    rw [turnZ, right, Real.sin_pi_div_two, Real.cos_pi_div_two, quarter]
  rw [worldRotation, matrix3_mul, matrix3_mul, matrix3_transpose, matrix3_euler]
  have angles : ((0 : ℤ) : ℝ) * ((2 / 100 : ℚ) : ℝ) * ((10 : ℤ) : ℝ) = 0 ∧
      ((450 : ℤ) : ℝ) * ((2 / 100 : ℚ) : ℝ) * ((10 : ℤ) : ℝ) = 90 := by
    constructor <;> norm_num
  have euler : turnX (CFloat.ofInt quarterTurn.ev.rx * CFloat.lit (2 / 100) *
        quarterTurn.sensitivity) * turnY (CFloat.ofInt quarterTurn.ev.ry * CFloat.lit (2 / 100) *
        quarterTurn.sensitivity) * turnZ (CFloat.ofInt (-quarterTurn.ev.rz) *
        CFloat.lit (2 / 100) * quarterTurn.sensitivity) = quarter := by
    show turnX (((0 : ℤ) : ℝ) * ((2 / 100 : ℚ) : ℝ) * ((10 : ℤ) : ℝ)) *
      turnY (((0 : ℤ) : ℝ) * ((2 / 100 : ℚ) : ℝ) * ((10 : ℤ) : ℝ)) *
      turnZ (((450 : ℤ) : ℝ) * ((2 / 100 : ℚ) : ℝ) * ((10 : ℤ) : ℝ)) = quarter
    rw [angles.1, angles.2, none_.1, none_.2, Matrix.one_mul, Matrix.one_mul, turned]
  rw [euler]

theorem block_quarterTurn {a : Mat4 ℝ} (lastColumn : LastColumn a) :
    block (quarterTurn.move a) = block a * (matrix3 (mat4ExtractOrthonormalRotation a) * quarter *
      (matrix3 (mat4ExtractOrthonormalRotation a))ᵀ) := by
  rw [← worldRotation_quarterTurn]
  exact (block_computeNewAffine _ _ lastColumn _).2

theorem block_skew_turned :
    block (quarterTurn.move skew) = !![4, -(3 / 200000000), 0; 3, 0, 0; 0, 0, 1] := by
  rw [block_quarterTurn lastColumn_skew, extract_skew, block_skew, quarter]
  ext i j
  fin_cases i <;> fin_cases j <;> simp [mul_apply, Fin.sum_univ_three]

/-- Of the turned camera no orthogonal matrix is extracted: its second row is 9e-9 long. -/
theorem det_extract_turned :
    (matrix3 (mat4ExtractOrthonormalRotation (quarterTurn.move skew))).det = 9 / 1000000000 := by
  have rows : ∀ i, mat3Row (transposedBlock (quarterTurn.move skew)) i =
      ![![4, 3, 0], ![-(3 / 200000000), 0, 0], ![0, 0, 1]] i := by
    intro i
    rw [mat3Row_transposedBlock, block_skew_turned]
    funext j
    fin_cases i <;> fin_cases j <;> rfl
  have long : √(![(4 : ℝ), 3, 0] ⬝ᵥ ![4, 3, 0]) = 5 := sqrt_dot_eq (by norm_num) (by norm_num)
  have row0 : mat3Row (gramSchmidt3 (transposedBlock (quarterTurn.move skew))) 0 =
      ![4 / 5, 3 / 5, 0] := by
    rw [gramSchmidt3_zero, rows, cons_val_zero, vnormalize_eq (by rw [long]; norm_num [shortest]), long]
    funext j
    fin_cases j <;> simp <;> norm_num
  have row1 : mat3Row (gramSchmidt3 (transposedBlock (quarterTurn.move skew))) 1 =
      ![-(27 / 5000000000), 9 / 1250000000, 0] := by
    have rest : vsubScaled ![-(3 / 200000000), 0, 0]
        (vdot ![-(3 / 200000000), 0, 0] ![(4 / 5 : ℝ), 3 / 5, 0]) ![4 / 5, 3 / 5, 0] =
          ![-(27 / 5000000000), 9 / 1250000000, 0] := by
      funext j
      fin_cases j <;> simp [vsubScaled, vdot] <;> norm_num
    have short : √(vdot ![-(27 / 5000000000), 9 / 1250000000, 0]
        ![-(27 / 5000000000), 9 / 1250000000, 0]) = 9 / 1000000000 := by
      rw [vdot_eq]
      exact sqrt_dot_eq (by norm_num) (by simp; norm_num)
    have kept : ¬ CFloat.lt (CFloat.lit (1 / 100000000) : ℝ)
        (CFloat.sqrt (vdot ![-(27 / 5000000000), 9 / 1250000000, 0]
          ![-(27 / 5000000000), 9 / 1250000000, 0])) = true := by
      rw [real_lt, real_sqrt, short, real_lit]
      norm_num
    rw [gramSchmidt3_one, row0, rows, cons_val_one, cons_val_zero, rest, vnormalize, if_neg kept]
  have row2 : mat3Row (gramSchmidt3 (transposedBlock (quarterTurn.move skew))) 2 = ![0, 0, 1] := by
    have third : mat3Row (transposedBlock (quarterTurn.move skew)) 2 = ![0, 0, 1] := rows 2
    have rest : vsubScaled ![0, 0, 1] (vdot ![0, 0, 1] ![(4 / 5 : ℝ), 3 / 5, 0]) ![4 / 5, 3 / 5, 0] =
        ![0, 0, 1] := vsubScaled_of_right (by simp)
    rw [gramSchmidt3_two, thirdRest, row0, row1, third, rest, vsubScaled_of_right (by simp),
      vnormalize_of_unit (by simp)]
  have entry : ∀ i j, matrix3 (mat4ExtractOrthonormalRotation (quarterTurn.move skew)) i j =
      mat3Row (gramSchmidt3 (transposedBlock (quarterTurn.move skew))) i j := fun _ _ => rfl
  rw [det_fin_three]
  simp only [entry, row0, row1, row2]
  simp
  norm_num

/-- **A camera that is not degenerate can be flattened**, by turns that each read back what the
last one wrote. -/
theorem skew_flattened :
    LastColumn skew ∧ Nondegenerate skew ∧ ¬ Nondegenerate (moved skew [quarterTurn]) ∧
      ¬ MovesRigidly skew (moved skew [quarterTurn, quarterTurn]) := by
  have once : MovesRigidly skew (quarterTurn.move skew) :=
    computeNewAffine_rigid _ _ lastColumn_skew nondegenerate_skew _
  suffices flat : ¬ MovesRigidly skew (moved skew [quarterTurn, quarterTurn]) from
    ⟨lastColumn_skew, nondegenerate_skew, fun nondegenerate =>
      flat (once.trans (computeNewAffine_rigid _ _ once.lastColumn nondegenerate _)), flat⟩
  intro rigid
  have det := rigid.det
  have first : (block (quarterTurn.move skew)).det = 9 / 200000000 := by
    rw [block_skew_turned, det_fin_three]
    simp
    norm_num
  have start : (block skew).det = 9 / 200000000 := by
    rw [block_skew, det_fin_three]
    simp
    norm_num
  have turn : quarter.det = 1 := by
    rw [quarter, det_fin_three]
    simp
  have second : (block (moved skew [quarterTurn, quarterTurn])).det =
      9 / 200000000 * (9 / 1000000000 * (9 / 1000000000)) := by
    show (block (quarterTurn.move (quarterTurn.move skew))).det = _
    rw [block_quarterTurn once.lastColumn, det_mul, det_mul, det_mul, det_transpose, first, turn,
      det_extract_turned, mul_one]
  rw [second, start] at det
  norm_num at det

end SpnavBridge.Kernel
