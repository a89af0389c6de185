/-
# Kernel.Gestures -- what many motions come to

A motion turns the camera about its own axes and shifts it along them, and leaves the pivot
where it is in the picture.  So in the camera's own axes the way from the pivot to the camera
(`seenFrom`) changes by the shifts alone and the block by the turns alone (`moved_parts`):
shifts may come in any order and between any turns, and turns about one axis add up.

* `gestures_compose`: two runs of motions lead to one camera exactly if their turns have one
  product and their shifts one sum.
* `gestures_about_one_axis`: if they turn about one axis only, whole turns between their angles
  and one sum of the shifts; so the way back restores the camera.
-/
import SpnavBridge.Kernel.Pivot

namespace SpnavBridge.Kernel

open SpnavBridge.Theory SpnavBridge.Camera Matrix

set_option autoImplicit false

/-! ## One motion -/

/-- The way from `c` to the camera, along the camera's axes. -/
noncomputable def seenFrom (c : Vec3 ℝ) (a : Mat4 ℝ) : Vec3 ℝ := (position a - c) ᵥ* (block a)ᵀ

theorem RigidCamera.columns {a : Mat4 ℝ} (rigid : RigidCamera a) : (block a)ᵀ * block a = 1 :=
  (mem_orthogonalGroup_iff' _ _).mp ((mem_orthogonalGroup_iff _ _).mpr rigid.orthogonal)

theorem cameraTurn_orthogonal (sensitivity : ℝ) (ev : SbEvent) :
    cameraTurn sensitivity ev * (cameraTurn sensitivity ev)ᵀ = 1 := by
  have rotation := euler_rotation (ev.rx * 0.02 * sensitivity) (ev.ry * 0.02 * sensitivity)
    (-ev.rz * 0.02 * sensitivity)
  exact (mem_orthogonalGroup_iff _ _).mp (mem_specialOrthogonalGroup_iff.mp rotation).1

/-- Where a camera stands is what it sees the pivot from, and how it is turned. -/
theorem eq_of_seenFrom {a b : Mat4 ℝ} (rigid : RigidCamera a) (rigid' : RigidCamera b) (c : Vec3 ℝ)
    (blocks : block a = block b) (seen : seenFrom c a = seenFrom c b) : a = b := by
  refine ext_of_parts rigid.lastColumn rigid'.lastColumn blocks ?_
  have back : ∀ d : Mat4 ℝ, RigidCamera d → seenFrom c d ᵥ* block d + c = position d := by
    intro d rigid
    rw [seenFrom, vecMul_vecMul, rigid.columns, vecMul_one, sub_add_cancel]
  rw [← back a rigid, ← back b rigid', blocks, seen]

section Motion

variable {a : Mat4 ℝ} (rigid : RigidCamera a) (push : Push)
include rigid

theorem block_move : block (push.move a) = cameraTurn push.sensitivity push.ev * block a :=
  block_turned push.sensitivity push.modelExtents rigid push.ev

theorem RigidCamera.move : RigidCamera (push.move a) where
  lastColumn := (block_computeNewAffine push.sensitivity push.modelExtents rigid.lastColumn push.ev).1
  orthogonal := by
    rw [block_move rigid, transpose_mul]
    calc cameraTurn push.sensitivity push.ev * block a *
          ((block a)ᵀ * (cameraTurn push.sensitivity push.ev)ᵀ)
        = cameraTurn push.sensitivity push.ev * (block a * (block a)ᵀ) *
          (cameraTurn push.sensitivity push.ev)ᵀ := by simp only [Matrix.mul_assoc]
      _ = 1 := by rw [rigid.orthogonal, Matrix.mul_one, cameraTurn_orthogonal]

/-- **A turn leaves the pivot where it is in the picture**, and a shift is one along the axes. -/
theorem seenFrom_move : seenFrom (pivot push.modelExtents) (push.move a) =
    seenFrom (pivot push.modelExtents) a + cameraShift push.sensitivity push.ev := by
  have turned := position_turned push.sensitivity push.modelExtents rigid push.ev
  have around : (block a)ᵀ * cameraTurn push.sensitivity push.ev * block a *
      (cameraTurn push.sensitivity push.ev * block a)ᵀ = (block a)ᵀ := by
    rw [transpose_mul]
    calc (block a)ᵀ * cameraTurn push.sensitivity push.ev * block a *
          ((block a)ᵀ * (cameraTurn push.sensitivity push.ev)ᵀ)
        = (block a)ᵀ * (cameraTurn push.sensitivity push.ev * (block a * (block a)ᵀ) *
          (cameraTurn push.sensitivity push.ev)ᵀ) := by simp only [Matrix.mul_assoc]
      _ = (block a)ᵀ := by
        rw [rigid.orthogonal, Matrix.mul_one, cameraTurn_orthogonal, Matrix.mul_one]
  rw [seenFrom, block_move rigid, Push.move, turned, add_sub_cancel_right, vecMul_vecMul, around,
    seenFrom, add_sub_assoc, add_vecMul, vecMul_vecMul, rigid.orthogonal, vecMul_one, add_comm]

end Motion

/-! ## Many motions -/

/-- The turns, the last one in front. -/
noncomputable def turns (pushes : List Push) : Matrix (Fin 3) (Fin 3) ℝ :=
  (pushes.reverse.map fun push => cameraTurn push.sensitivity push.ev).prod

noncomputable def shifts (pushes : List Push) : Vec3 ℝ :=
  (pushes.map fun push => cameraShift push.sensitivity push.ev).sum

theorem turns_snoc (past : List Push) (push : Push) :
    turns (past ++ [push]) = cameraTurn push.sensitivity push.ev * turns past := by
  rw [turns, turns, List.reverse_append, List.map_append, List.prod_append, List.reverse_singleton,
    List.map_singleton, List.prod_singleton]

/-- The model stays: every motion is one about the same middle. -/
def About (c : Vec3 ℝ) (pushes : List Push) : Prop := ∀ push ∈ pushes, pivot push.modelExtents = c

/-- **What a run of motions comes to.** -/
theorem moved_parts {a : Mat4 ℝ} (rigid : RigidCamera a) {c : Vec3 ℝ} {pushes : List Push}
    (about : About c pushes) :
    RigidCamera (moved a pushes) ∧ block (moved a pushes) = turns pushes * block a ∧
      seenFrom c (moved a pushes) = seenFrom c a + shifts pushes := by
  induction pushes using List.reverseRecOn with
  | nil =>
      refine ⟨rigid, ?_, ?_⟩
      · rw [turns, List.reverse_nil, List.map_nil, List.prod_nil, Matrix.one_mul]
        rfl
      · rw [shifts, List.map_nil, List.sum_nil, add_zero]
        rfl
  | append_singleton past push ih =>
      obtain ⟨still, turned, seen⟩ := ih fun earlier mem => about earlier (by simp [mem])
      have middle : pivot push.modelExtents = c := about push (by simp)
      have shifted := seenFrom_move still push
      rw [middle] at shifted
      rw [moved_snoc]
      refine ⟨still.move push, ?_, ?_⟩
      · rw [block_move still, turned, turns_snoc, Matrix.mul_assoc]
      · rw [shifted, seen, shifts, shifts, List.map_append, List.sum_append, List.map_singleton,
          List.sum_singleton, add_assoc]

theorem moved_eq_iff {a : Mat4 ℝ} (rigid : RigidCamera a) {c : Vec3 ℝ} {pushes others : List Push}
    (about : About c pushes) (about' : About c others) :
    moved a pushes = moved a others ↔ turns pushes = turns others ∧ shifts pushes = shifts others := by
  obtain ⟨still, turned, seen⟩ := moved_parts rigid about
  obtain ⟨still', turned', seen'⟩ := moved_parts rigid about'
  constructor
  · intro same
    rw [same] at turned seen
    constructor
    · have blocks : turns pushes * block a * (block a)ᵀ = turns others * block a * (block a)ᵀ := by
        rw [← turned, ← turned']
      rwa [Matrix.mul_assoc, Matrix.mul_assoc, rigid.orthogonal, Matrix.mul_one,
        Matrix.mul_one] at blocks
    · exact add_left_cancel (seen.symm.trans seen')
  · rintro ⟨sameTurns, sameShifts⟩
    refine eq_of_seenFrom still still' c ?_ ?_
    · rw [turned, turned', sameTurns]
    · rw [seen, seen', sameShifts]

/-- **Two runs of motions lead to one camera** exactly if they turn and shift it alike, whatever
comes first. -/
theorem gestures_compose {a : Mat4 ℝ} (rigid : RigidCamera a) {c : Vec3 ℝ} {pushes : List Push}
    (about : About c pushes) :
    (RigidCamera (moved a pushes) ∧ block (moved a pushes) = turns pushes * block a ∧
      seenFrom c (moved a pushes) = seenFrom c a + shifts pushes) ∧
    ∀ others, About c others →
      (moved a pushes = moved a others ↔ turns pushes = turns others ∧ shifts pushes = shifts others) :=
  ⟨moved_parts rigid about, fun _ about' => moved_eq_iff rigid about about'⟩

theorem standing_rigid : RigidCamera standing where
  lastColumn i := by
    fin_cases i <;> simp [standing, standingEntries, ix4]
  orthogonal := by
    ext i j
    fin_cases i <;> fin_cases j <;>
      simp [block, standing, standingEntries, ix4, mul_apply, Fin.sum_univ_three]

/-- A shift along x and z, and a turn about y. -/
noncomputable def sideways : Push := ⟨1, around, ⟨.motion, 350, 0, -20, 0, 0, 0⟩⟩
noncomputable def nodding (ry : Int) : Push := ⟨1, around, ⟨.motion, 0, 0, 0, 0, ry, 0⟩⟩

theorem gestures_compose_standing :
    moved standing [sideways, nodding 90] = moved standing [nodding 90, sideways] := by
  have about : About (pivot around) [sideways, nodding 90] := by
    simp [About, sideways, nodding]
  have about' : About (pivot around) [nodding 90, sideways] := by
    simp [About, sideways, nodding]
  have level : cameraTurn sideways.sensitivity sideways.ev = 1 :=
    cameraTurn_of_noTurn _ ⟨rfl, rfl, rfl⟩
  refine ((gestures_compose standing_rigid about).2 _ about').mpr ⟨?_, ?_⟩
  · simp [turns, level]
  · simp [shifts, add_comm]

/-! ## One axis -/

/-- The turn about the camera's first, second or third axis. -/
noncomputable def axisTurn (axis : Fin 3) : ℝ → Matrix (Fin 3) (Fin 3) ℝ :=
  ![turnX, turnY, turnZ] axis

theorem radians_add (x y : ℝ) : radians (x + y) = radians x + radians y := by
  unfold radians
  ring

/-- Turns about one axis add up. -/
theorem axisTurn_add (axis : Fin 3) (x y : ℝ) :
    axisTurn axis (x + y) = axisTurn axis x * axisTurn axis y := by
  have cos := Real.cos_add (radians x) (radians y)
  have sin := Real.sin_add (radians x) (radians y)
  fin_cases axis
  · show turnX (x + y) = turnX x * turnX y
    ext i j
    fin_cases i <;> fin_cases j <;>
      simp [turnX, mul_apply, Fin.sum_univ_three, radians_add, cos, sin] <;> ring
  · show turnY (x + y) = turnY x * turnY y
    ext i j
    fin_cases i <;> fin_cases j <;>
      simp [turnY, mul_apply, Fin.sum_univ_three, radians_add, cos, sin] <;> ring
  · show turnZ (x + y) = turnZ x * turnZ y
    ext i j
    fin_cases i <;> fin_cases j <;>
      simp [turnZ, mul_apply, Fin.sum_univ_three, radians_add, cos, sin] <;> ring

theorem axisTurn_eq_one (axis : Fin 3) (x : ℝ) : axisTurn axis x = 1 ↔ WholeTurns x := by
  rw [← cos_radians_eq_one]
  constructor
  · intro none_
    fin_cases axis
    · exact congrFun (congrFun none_ 1) 1
    · exact congrFun (congrFun none_ 0) 0
    · exact congrFun (congrFun none_ 0) 0
  · intro cos
    have sin : Real.sin (radians x) = 0 := by
      have unit := Real.sin_sq_add_cos_sq (radians x)
      rw [cos] at unit
      nlinarith
    fin_cases axis
    · show turnX x = 1
      rw [turnX, cos, sin, neg_zero, one_fin_three]
    · show turnY x = 1
      rw [turnY, cos, sin, neg_zero, one_fin_three]
    · show turnZ x = 1
      rw [turnZ, cos, sin, neg_zero, one_fin_three]

theorem axisTurn_zero (axis : Fin 3) : axisTurn axis 0 = 1 :=
  (axisTurn_eq_one axis 0).mpr ⟨0, by norm_num⟩

/-- Two turns are one if whole turns are between them. -/
theorem axisTurn_eq_iff (axis : Fin 3) (x y : ℝ) :
    axisTurn axis x = axisTurn axis y ↔ WholeTurns (x - y) := by
  have apart : axisTurn axis x = axisTurn axis (x - y) * axisTurn axis y := by
    rw [← axisTurn_add, sub_add_cancel]
  have undone : axisTurn axis y * axisTurn axis (-y) = 1 := by
    rw [← axisTurn_add, add_neg_cancel, axisTurn_zero]
  rw [← axisTurn_eq_one axis, apart]
  constructor
  · intro same
    have back := congrArg (· * axisTurn axis (-y)) same
    rwa [Matrix.mul_assoc, undone, Matrix.mul_one] at back
  · intro none_
    rw [none_, Matrix.one_mul]

/-- The scaled angles of a motion. -/
noncomputable def Push.angles (push : Push) : Vec3 ℝ :=
  ![push.ev.rx * 0.02 * push.sensitivity, push.ev.ry * 0.02 * push.sensitivity,
    -push.ev.rz * 0.02 * push.sensitivity]

/-- No motion turns about another axis. -/
def OneAxis (axis : Fin 3) (pushes : List Push) : Prop :=
  ∀ push ∈ pushes, ∀ i, i ≠ axis → push.angles i = 0

noncomputable def totalAngle (axis : Fin 3) (pushes : List Push) : ℝ :=
  (pushes.map fun push => push.angles axis).sum

theorem cameraTurn_angles (push : Push) : cameraTurn push.sensitivity push.ev =
    axisTurn 0 (push.angles 0) * axisTurn 1 (push.angles 1) * axisTurn 2 (push.angles 2) :=
  matrix3_euler _ _ _

theorem cameraTurn_oneAxis {axis : Fin 3} {push : Push} (one : ∀ i, i ≠ axis → push.angles i = 0) :
    cameraTurn push.sensitivity push.ev = axisTurn axis (push.angles axis) := by
  have others : ∀ i, i ≠ axis → axisTurn i (push.angles i) = 1 := by
    intro i other
    rw [one i other, axisTurn_zero]
  rw [cameraTurn_angles]
  fin_cases axis
  · rw [others 1 (by decide), others 2 (by decide), Matrix.mul_one, Matrix.mul_one]
    rfl
  · rw [others 0 (by decide), others 2 (by decide), Matrix.one_mul, Matrix.mul_one]
    rfl
  · rw [others 0 (by decide), others 1 (by decide), Matrix.one_mul, Matrix.one_mul]
    rfl

theorem turns_oneAxis {axis : Fin 3} {pushes : List Push} (one : OneAxis axis pushes) :
    turns pushes = axisTurn axis (totalAngle axis pushes) := by
  induction pushes using List.reverseRecOn with
  | nil => exact (axisTurn_zero axis).symm
  | append_singleton past push ih =>
      have earlier := ih fun push mem => one push (by simp [mem])
      rw [turns_snoc, earlier, cameraTurn_oneAxis (one push (by simp)), ← axisTurn_add, totalAngle,
        totalAngle, List.map_append, List.sum_append, List.map_singleton, List.sum_singleton,
        add_comm]

/-- **Turns about one axis add up**: two runs of them lead to one camera exactly if whole turns are
between their angles and their shifts have one sum. -/
theorem gestures_about_one_axis {a : Mat4 ℝ} (rigid : RigidCamera a) {c : Vec3 ℝ} {axis : Fin 3}
    {pushes others : List Push} (about : About c (pushes ++ others))
    (one : OneAxis axis (pushes ++ others)) :
    moved a pushes = moved a others ↔
      WholeTurns (totalAngle axis pushes - totalAngle axis others) ∧ shifts pushes = shifts others := by
  obtain ⟨about, about'⟩ := List.forall_mem_append.mp about
  obtain ⟨one, one'⟩ := List.forall_mem_append.mp one
  rw [moved_eq_iff rigid about about', turns_oneAxis one, turns_oneAxis one', axisTurn_eq_iff]

theorem gestures_about_one_axis_standing : moved standing [nodding 90, nodding (-90)] = standing := by
  have about : About (pivot around) ([nodding 90, nodding (-90)] ++ []) := by
    simp [About, nodding]
  have nods : ∀ ry i, i ≠ 1 → (nodding ry).angles i = 0 := by
    intro ry i other
    fin_cases i
    · simp [Push.angles, nodding]
    · exact absurd rfl other
    · simp [Push.angles, nodding]
  have one : OneAxis 1 ([nodding 90, nodding (-90)] ++ []) := by
    intro push mem
    simp only [List.append_nil, List.mem_cons, List.not_mem_nil, or_false] at mem
    rcases mem with rfl | rfl
    · exact nods 90
    · exact nods (-90)
  have still : ∀ ry, cameraShift (nodding ry).sensitivity (nodding ry).ev = 0 :=
    fun ry => cameraShift_of_noShift _ ⟨rfl, rfl, rfl⟩
  refine (gestures_about_one_axis standing_rigid about one).mpr ⟨⟨0, ?_⟩, ?_⟩
  · simp [totalAngle, Push.angles, nodding]
  · simp [shifts, still]

end SpnavBridge.Kernel
