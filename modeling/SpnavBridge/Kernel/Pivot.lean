/-
# Kernel.Pivot -- a motion in the frame of the camera, about the middle of the model

Of a rigid camera Gram-Schmidt extracts the transposed block, and the six products of
`compute_new_affine` come down to this: the block is turned by the Euler matrix from the
left, and the position is shifted along the camera's own axes and then turned about the
pivot (`block_turned`, `position_turned`).

So a pure rotation keeps the pivot where the camera sees it, a pure translation keeps the
orientation, and no motion at all keeps the camera.
-/
import SpnavBridge.Camera.Euler
import SpnavBridge.Kernel.Rigid

namespace SpnavBridge.Kernel

open SpnavBridge.Theory SpnavBridge.Camera Matrix

set_option autoImplicit false

/-! ## The motion of an event -/

/-- The Euler matrix of the scaled angles. -/
noncomputable def cameraTurn (sensitivity : ℝ) (ev : SbEvent) : Matrix (Fin 3) (Fin 3) ℝ :=
  matrix3 (mat3FromEulerXyzDeg (ev.rx * 0.02 * sensitivity) (ev.ry * 0.02 * sensitivity)
    (-ev.rz * 0.02 * sensitivity))

/-- The shift along the axes of the camera. -/
noncomputable def cameraShift (sensitivity : ℝ) (ev : SbEvent) : Vec3 ℝ :=
  (0.0005 * sensitivity) • ![-(ev.x : ℝ), -(ev.y : ℝ), (ev.z : ℝ)]

/-- The middle of the box `model.extents`. -/
noncomputable def pivot (modelExtents : Fin 6 → ℝ) : Vec3 ℝ :=
  fun i => (modelExtents (i.castAdd 3) + modelExtents (i.natAdd 3)) / (2 : ℕ)

/-- An orthogonal block above a position. -/
structure RigidCamera (a : Mat4 ℝ) : Prop where
  lastColumn : LastColumn a
  orthogonal : block a * (block a)ᵀ = 1

/-- Where the point `q` of the camera's space is in the model. -/
noncomputable def place (a : Mat4 ℝ) (q : Vec3 ℝ) : Vec3 ℝ := q ᵥ* block a + position a

theorem cameraTurn_of_noTurn (sensitivity : ℝ) {ev : SbEvent}
    (noTurn : ev.rx = 0 ∧ ev.ry = 0 ∧ ev.rz = 0) : cameraTurn sensitivity ev = 1 := by
  simp [cameraTurn, noTurn, euler_zero]

theorem cameraShift_of_noShift (sensitivity : ℝ) {ev : SbEvent}
    (noShift : ev.x = 0 ∧ ev.y = 0 ∧ ev.z = 0) : cameraShift sensitivity ev = 0 := by
  funext j
  fin_cases j <;> simp [cameraShift, noShift]

/-- Orthonormal rows keep the length of what is multiplied from the left. -/
theorem length3_vecMul {w : Matrix (Fin 3) (Fin 3) ℝ} (orthogonal : w * wᵀ = 1) (v : Vec3 ℝ) :
    length3 (v ᵥ* w) = length3 v := by
  unfold length3
  rw [← dotProduct_mulVec, ← mulVec_transpose, mulVec_mulVec, orthogonal, one_mulVec]

theorem worldRotation_eq (sensitivity : ℝ) {a : Mat4 ℝ} (rigid : RigidCamera a) (ev : SbEvent) :
    matrix3 (worldRotation sensitivity a ev) =
      (block a)ᵀ * cameraTurn sensitivity ev * block a := by
  have extracted := extract_of_orthogonal ((mem_orthogonalGroup_iff _ _).mpr rigid.orthogonal)
  have turn : matrix3 (mat3FromEulerXyzDeg
      (CFloat.ofInt ev.rx * CFloat.lit (2 / 100) * sensitivity)
      (CFloat.ofInt ev.ry * CFloat.lit (2 / 100) * sensitivity)
      (CFloat.ofInt (-ev.rz) * CFloat.lit (2 / 100) * sensitivity)) = cameraTurn sensitivity ev := by
    rw [cameraTurn]
    norm_num [neg_mul]
  rw [worldRotation, matrix3_mul, matrix3_mul, matrix3_transpose, extracted, transpose_transpose,
    turn]

/-! ## The closed form -/

section Motion

variable (sensitivity : ℝ) (modelExtents : Fin 6 → ℝ) {a : Mat4 ℝ} (rigid : RigidCamera a)
  (ev : SbEvent)

include rigid

/-- The block is turned from the left: about the camera's own axes. -/
theorem block_turned :
    block (computeNewAffine sensitivity modelExtents a ev) =
      cameraTurn sensitivity ev * block a := by
  have turned := (block_computeNewAffine sensitivity modelExtents rigid.lastColumn ev).2
  rw [turned, worldRotation_eq sensitivity rigid ev]
  calc block a * ((block a)ᵀ * cameraTurn sensitivity ev * block a)
      = block a * (block a)ᵀ * (cameraTurn sensitivity ev * block a) := by
        simp only [Matrix.mul_assoc]
    _ = cameraTurn sensitivity ev * block a := by rw [rigid.orthogonal, Matrix.one_mul]

/-- The position is shifted in the camera's axes, and then turned about the pivot. -/
theorem position_turned :
    position (computeNewAffine sensitivity modelExtents a ev) =
      (cameraShift sensitivity ev ᵥ* block a + position a - pivot modelExtents) ᵥ*
          ((block a)ᵀ * cameraTurn sensitivity ev * block a) + pivot modelExtents := by
  have shift : ![CFloat.ofInt (-ev.x) * CFloat.lit (5 / 10000) * sensitivity,
      CFloat.ofInt (-ev.y) * CFloat.lit (5 / 10000) * sensitivity,
      CFloat.ofInt ev.z * CFloat.lit (5 / 10000) * sensitivity] =
        cameraShift sensitivity ev := by
    funext j
    fin_cases j <;> simp [cameraShift] <;> ring
  have middle : ![(modelExtents 0 + modelExtents 3) * CFloat.lit (5 / 10),
      (modelExtents 1 + modelExtents 4) * CFloat.lit (5 / 10),
      (modelExtents 2 + modelExtents 5) * CFloat.lit (5 / 10)] = pivot modelExtents := by
    funext j
    fin_cases j <;> simp [pivot] <;> ring
  have back : ![-((modelExtents 0 + modelExtents 3) * CFloat.lit (5 / 10)),
      -((modelExtents 1 + modelExtents 4) * CFloat.lit (5 / 10)),
      -((modelExtents 2 + modelExtents 5) * CFloat.lit (5 / 10))] = -pivot modelExtents := by
    rw [← middle]
    simp
  have toPivot := lastColumn_translation
  have turn := lastColumn_fromRot3 (worldRotation sensitivity a ev)
  rw [← worldRotation_eq sensitivity rigid ev]
  show position (mat4Mul _ (mat4Mul a (mat4Mul (mat4Mul _
    (mat4FromRot3 (worldRotation sensitivity a ev))) _))) = _
  rw [position_mul (toPivot _ _ _), position_mul rigid.lastColumn, block_mul rigid.lastColumn,
    position_mul ((toPivot _ _ _).mul turn), position_mul (toPivot _ _ _),
    block_mul ((toPivot _ _ _).mul turn), block_mul (toPivot _ _ _), block_translation,
    block_translation, block_fromRot3, position_fromRot3, position_translation,
    position_translation, position_translation, shift, middle, back]
  simp only [Matrix.one_mul, Matrix.mul_one, vecMul_one, add_zero, neg_vecMul, sub_vecMul,
    add_vecMul, vecMul_vecMul]
  abel

/-- A pure rotation turns the position about the pivot. -/
theorem position_about_pivot (noShift : ev.x = 0 ∧ ev.y = 0 ∧ ev.z = 0) :
    position (computeNewAffine sensitivity modelExtents a ev) - pivot modelExtents =
      (position a - pivot modelExtents) ᵥ*
        ((block a)ᵀ * cameraTurn sensitivity ev * block a) := by
  rw [position_turned sensitivity modelExtents rigid, cameraShift_of_noShift sensitivity noShift,
    zero_vecMul, zero_add, add_sub_cancel_right]

/-- What the camera has at the pivot stays there. -/
theorem place_pivot (noShift : ev.x = 0 ∧ ev.y = 0 ∧ ev.z = 0) {q : Vec3 ℝ}
    (there : place a q = pivot modelExtents) :
    place (computeNewAffine sensitivity modelExtents a ev) q = pivot modelExtents := by
  have turned := position_about_pivot sensitivity modelExtents rigid ev noShift
  have seen : position a - pivot modelExtents = -(q ᵥ* block a) := by
    rw [← there, place]
    abel
  have back : q ᵥ* block a ᵥ* ((block a)ᵀ * cameraTurn sensitivity ev * block a) =
      q ᵥ* (cameraTurn sensitivity ev * block a) := by
    rw [vecMul_vecMul, ← Matrix.mul_assoc, ← Matrix.mul_assoc, rigid.orthogonal, Matrix.one_mul]
  rw [seen, neg_vecMul, back] at turned
  rw [place, block_turned sensitivity modelExtents rigid, sub_eq_iff_eq_add.mp turned]
  abel

/-- The camera keeps its distance. -/
theorem distance_to_pivot (noShift : ev.x = 0 ∧ ev.y = 0 ∧ ev.z = 0) :
    length3 (position (computeNewAffine sensitivity modelExtents a ev) - pivot modelExtents) =
      length3 (position a - pivot modelExtents) := by
  have axes := transpose_mem_unitaryGroup_iff.mpr
    ((mem_orthogonalGroup_iff _ _).mpr rigid.orthogonal)
  have conjugate := rotation_conj axes (euler_rotation (ev.rx * 0.02 * sensitivity)
    (ev.ry * 0.02 * sensitivity) (-ev.rz * 0.02 * sensitivity))
  rw [transpose_transpose] at conjugate
  obtain ⟨orthogonal, -⟩ := mem_specialOrthogonalGroup_iff.mp conjugate
  rw [position_about_pivot sensitivity modelExtents rigid ev noShift]
  exact length3_vecMul ((mem_orthogonalGroup_iff _ _).mp orthogonal) _

/-- A pure translation moves along the camera's axes and turns nothing. -/
theorem pure_translation (noTurn : ev.rx = 0 ∧ ev.ry = 0 ∧ ev.rz = 0) :
    block (computeNewAffine sensitivity modelExtents a ev) = block a ∧
      position (computeNewAffine sensitivity modelExtents a ev) =
        position a + cameraShift sensitivity ev ᵥ* block a := by
  have none_ := cameraTurn_of_noTurn sensitivity noTurn
  have columns : (block a)ᵀ * block a = 1 :=
    (mem_orthogonalGroup_iff' _ _).mp ((mem_orthogonalGroup_iff _ _).mpr rigid.orthogonal)
  constructor
  · rw [block_turned sensitivity modelExtents rigid, none_, Matrix.one_mul]
  · rw [position_turned sensitivity modelExtents rigid, none_, Matrix.mul_one, columns, vecMul_one]
    abel

end Motion

/-- **A motion in the camera's frame, about the pivot.**  The closed form, and what it says of
an event that only turns, only shifts, or does nothing. -/
theorem camera_frame (sensitivity : ℝ) (modelExtents : Fin 6 → ℝ) {a : Mat4 ℝ}
    (rigid : RigidCamera a) (ev : SbEvent) :
    (LastColumn (computeNewAffine sensitivity modelExtents a ev) ∧
      block (computeNewAffine sensitivity modelExtents a ev) =
        cameraTurn sensitivity ev * block a ∧
      position (computeNewAffine sensitivity modelExtents a ev) =
        (cameraShift sensitivity ev ᵥ* block a + position a - pivot modelExtents) ᵥ*
            ((block a)ᵀ * cameraTurn sensitivity ev * block a) + pivot modelExtents) ∧
    (ev.x = 0 ∧ ev.y = 0 ∧ ev.z = 0 →
      (∀ q, place a q = pivot modelExtents →
        place (computeNewAffine sensitivity modelExtents a ev) q = pivot modelExtents) ∧
      length3 (position (computeNewAffine sensitivity modelExtents a ev) - pivot modelExtents) =
        length3 (position a - pivot modelExtents)) ∧
    (ev.rx = 0 ∧ ev.ry = 0 ∧ ev.rz = 0 →
      block (computeNewAffine sensitivity modelExtents a ev) = block a ∧
        position (computeNewAffine sensitivity modelExtents a ev) =
          position a + cameraShift sensitivity ev ᵥ* block a) ∧
    ((ev.x = 0 ∧ ev.y = 0 ∧ ev.z = 0) ∧ (ev.rx = 0 ∧ ev.ry = 0 ∧ ev.rz = 0) →
      computeNewAffine sensitivity modelExtents a ev = a) := by
  have last := (block_computeNewAffine sensitivity modelExtents rigid.lastColumn ev).1
  refine ⟨⟨last, ?_, ?_⟩, fun noShift => ⟨fun q there => ?_, ?_⟩, fun noTurn => ?_, ?_⟩
  · exact block_turned sensitivity modelExtents rigid ev
  · exact position_turned sensitivity modelExtents rigid ev
  · exact place_pivot sensitivity modelExtents rigid ev noShift there
  · exact distance_to_pivot sensitivity modelExtents rigid ev noShift
  · exact pure_translation sensitivity modelExtents rigid ev noTurn
  · rintro ⟨noShift, noTurn⟩
    obtain ⟨blocks, moved⟩ := pure_translation sensitivity modelExtents rigid ev noTurn
    refine ext_of_parts last rigid.lastColumn blocks ?_
    rw [moved, cameraShift_of_noShift sensitivity noShift, zero_vecMul, add_zero]

/-- A camera that is turned about z and stands in the middle of the box. -/
def standingEntries : List ℤ := [0, -1, 0, 0, 1, 0, 0, 0, 0, 0, 1, 0, 1, 2, 3, 1]

noncomputable def standing : Mat4 ℝ := fun i => (standingEntries[i] : ℤ)

def aroundCorners : List ℤ := [0, 0, 0, 2, 4, 6]

noncomputable def around : Fin 6 → ℝ := fun i => (aroundCorners[i] : ℤ)

theorem camera_frame_standing :
    place (computeNewAffine 2 around standing ⟨.motion, 0, 0, 0, 90, -7, 3⟩) 0 = pivot around ∧
      block (computeNewAffine 2 around standing ⟨.motion, 350, 0, -20, 0, 0, 0⟩) =
        block standing ∧
      computeNewAffine 2 around standing ⟨.motion, 0, 0, 0, 0, 0, 0⟩ = standing := by
  have rigid : RigidCamera standing := by
    constructor
    · intro i
      fin_cases i <;> simp [standing, standingEntries, ix4]
    · ext i j
      fin_cases i <;> fin_cases j <;>
        simp [block, standing, standingEntries, ix4, mul_apply, Fin.sum_univ_three]
  have middle : place standing 0 = pivot around := by
    have box : pivot around = ![1, 2, 3] := by
      funext j
      fin_cases j <;> simp [pivot, around, aroundCorners] <;> norm_num
    rw [place, zero_vecMul, zero_add, box]
    funext j
    fin_cases j <;> simp [position, standing, standingEntries, ix4]
  refine ⟨?_, ?_, ?_⟩
  · exact ((camera_frame 2 around rigid ⟨.motion, 0, 0, 0, 90, -7, 3⟩).2.1 ⟨rfl, rfl, rfl⟩).1
      0 middle
  · exact ((camera_frame 2 around rigid ⟨.motion, 350, 0, -20, 0, 0, 0⟩).2.2.1
      ⟨rfl, rfl, rfl⟩).1
  · exact (camera_frame 2 around rigid ⟨.motion, 0, 0, 0, 0, 0, 0⟩).2.2.2
      ⟨⟨rfl, rfl, rfl⟩, rfl, rfl, rfl⟩

end SpnavBridge.Kernel
