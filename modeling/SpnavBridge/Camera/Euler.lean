/-
# Camera.Euler -- the two readings of "xyz"

`mat3_from_euler_xyz_deg` multiplies the turns about the axes in the order x, y, z
(`matrix3_euler`).  The reference that mat4.h names takes lower-case letters for turns about
fixed axes, one after the other, which is the product in the opposite order
(`fromEulerXyz`).  The two agree on exactly the angles of `euler_agrees_iff`: two of the three
are half turns, and if the third is none they are the same half turn.
-/
import SpnavBridge.Camera.Exact

namespace SpnavBridge.Camera

open SpnavBridge.Theory Matrix

set_option autoImplicit false

/-! ## Turns about the axes -/

noncomputable def radians (degrees : ℝ) : ℝ := degrees * Real.pi / 180

/-- The turns about the axes, by an angle in degrees. -/
noncomputable def turnX (a : ℝ) : Matrix (Fin 3) (Fin 3) ℝ :=
  !![1, 0, 0;
    0, Real.cos (radians a), -Real.sin (radians a);
    0, Real.sin (radians a), Real.cos (radians a)]

noncomputable def turnY (b : ℝ) : Matrix (Fin 3) (Fin 3) ℝ :=
  !![Real.cos (radians b), 0, Real.sin (radians b);
    0, 1, 0;
    -Real.sin (radians b), 0, Real.cos (radians b)]

noncomputable def turnZ (c : ℝ) : Matrix (Fin 3) (Fin 3) ℝ :=
  !![Real.cos (radians c), -Real.sin (radians c), 0;
    Real.sin (radians c), Real.cos (radians c), 0;
    0, 0, 1]

theorem matrix3_euler (a b c : ℝ) :
    matrix3 (mat3FromEulerXyzDeg a b c) = turnX a * turnY b * turnZ c := by
  have zero : (CFloat.lit 0 : ℝ) = 0 := Rat.cast_zero
  have one : (CFloat.lit 1 : ℝ) = 1 := Rat.cast_one
  have rad : ∀ x : ℝ, x * CFloat.pi / CFloat.lit 180 = radians x := by
    intro x
    simp [radians, CFloat.pi]
  have flat : ∀ p q r s t u v w x : ℝ,
      matrix3 ![p, q, r, s, t, u, v, w, x] = !![p, q, r; s, t, u; v, w, x] := by
    intros
    ext i j
    fin_cases i <;> fin_cases j <;> rfl
  simp only [mat3FromEulerXyzDeg, matrix3_mul, zero, one, rad, flat]
  rfl

/-- No turn at all. -/
theorem euler_zero : matrix3 (mat3FromEulerXyzDeg 0 0 0) = 1 := by
  have unit : turnX 0 = 1 ∧ turnY 0 = 1 ∧ turnZ 0 = 1 := by
    simp [turnX, turnY, turnZ, radians, one_fin_three]
  rw [matrix3_euler, unit.1, unit.2.1, unit.2.2, Matrix.mul_one, Matrix.mul_one]

/-- `Rotation.from_euler("xyz", [a, b, c], degrees=True).as_matrix()`: about the fixed axes, x
first. -/
noncomputable def fromEulerXyz (a b c : ℝ) : Matrix (Fin 3) (Fin 3) ℝ :=
  turnZ c * turnY b * turnX a

/-! ## Where the orders agree -/

def HalfTurns (a : ℝ) : Prop := ∃ k : ℤ, a = k * 180

def WholeTurns (a : ℝ) : Prop := ∃ k : ℤ, a = k * 360

/-- Two of the angles are half turns, and the same one unless the third is a half turn too. -/
def OrdersAgree (a b c : ℝ) : Prop :=
  (HalfTurns a ∧ HalfTurns b ∧ (HalfTurns c ∨ WholeTurns (a - b))) ∨
    (HalfTurns a ∧ HalfTurns c ∧ (HalfTurns b ∨ WholeTurns (a - c))) ∨
      HalfTurns b ∧ HalfTurns c ∧ (HalfTurns a ∨ WholeTurns (b - c))

theorem sin_radians_eq_zero (a : ℝ) : Real.sin (radians a) = 0 ↔ HalfTurns a := by
  rw [Real.sin_eq_zero_iff]
  have pi := Real.pi_ne_zero
  refine exists_congr fun k => ?_
  unfold radians
  constructor
  · intro same
    field_simp at same
    linarith
  · rintro rfl
    field_simp

theorem cos_radians_eq_one (a : ℝ) : Real.cos (radians a) = 1 ↔ WholeTurns a := by
  rw [Real.cos_eq_one_iff]
  have pi := Real.pi_ne_zero
  refine exists_congr fun k => ?_
  unfold radians
  constructor
  · intro same
    field_simp at same
    linarith
  · rintro rfl
    field_simp
    ring

/-- Half turns have the same cosine if they are the same. -/
theorem cos_radians_eq_iff {a b : ℝ} (left : Real.sin (radians a) = 0)
    (right : Real.sin (radians b) = 0) :
    Real.cos (radians a) = Real.cos (radians b) ↔ WholeTurns (a - b) := by
  have difference : radians (a - b) = radians a - radians b := by
    unfold radians
    ring
  have unit := Real.sin_sq_add_cos_sq (radians b)
  have other := Real.sin_sq_add_cos_sq (radians a)
  rw [right] at unit
  rw [left] at other
  rw [← cos_radians_eq_one, difference, Real.cos_sub, left, right]
  constructor
  · intro same
    rw [same]
    linarith
  · intro product
    -- the squares are one as well
    nlinarith [sq_nonneg (Real.cos (radians a) - Real.cos (radians b))]

section Orders

variable {sa ca sb cb sc cc : ℝ}

/-- The two products of axis turns, entry by entry. -/
theorem products_eq_iff :
    !![1, 0, 0; 0, ca, -sa; 0, sa, ca] * !![cb, 0, sb; 0, 1, 0; -sb, 0, cb] *
        !![cc, -sc, 0; sc, cc, 0; 0, 0, 1] =
      !![cc, -sc, 0; sc, cc, 0; 0, 0, 1] * !![cb, 0, sb; 0, 1, 0; -sb, 0, cb] *
        !![1, 0, 0; 0, ca, -sa; 0, sa, ca] ↔
      sa * sb * sc = 0 ∧ sb = ca * cc * sb + sa * sc ∧ sb = ca * cc * sb - sa * sc ∧
        sc * (ca - cb) = sa * sb * cc ∧ sc * (ca - cb) = -(sa * sb * cc) ∧
          sa * (cb - cc) = -(ca * sb * sc) ∧ sa * (cb - cc) = ca * sb * sc := by
  rw [← Matrix.ext_iff]
  simp only [Fin.forall_fin_succ, Fin.forall_fin_zero, mul_apply, Fin.sum_univ_three]
  simp only [Fin.isValue, of_apply, cons_val', cons_val_zero, cons_val_fin_one, one_mul,
    cons_val_one, mul_zero, add_zero, cons_val, mul_neg, zero_mul, neg_zero, mul_one, zero_add,
    Fin.succ_zero_eq_one, neg_mul, Fin.succ_one_eq_two, neg_neg, and_true]
  constructor
  · rintro ⟨⟨-, e01, e02⟩, ⟨e10, e11, e12⟩, e20, e21, -⟩
    refine ⟨?_, ?_, ?_, ?_, ?_, ?_, ?_⟩ <;> linarith
  · rintro ⟨e11, e02, e20, e01, e10, e12, e21⟩
    refine ⟨⟨?_, ?_, ?_⟩, ⟨?_, ?_, ?_⟩, ?_, ?_, ?_⟩ <;> linarith

/-- The orders agree if two of the sines vanish, and the cosines that go with them are the
same unless the third vanishes too. -/
theorem products_agree_iff (unitA : sa ^ 2 + ca ^ 2 = 1) (unitC : sc ^ 2 + cc ^ 2 = 1) :
    !![1, 0, 0; 0, ca, -sa; 0, sa, ca] * !![cb, 0, sb; 0, 1, 0; -sb, 0, cb] *
        !![cc, -sc, 0; sc, cc, 0; 0, 0, 1] =
      !![cc, -sc, 0; sc, cc, 0; 0, 0, 1] * !![cb, 0, sb; 0, 1, 0; -sb, 0, cb] *
        !![1, 0, 0; 0, ca, -sa; 0, sa, ca] ↔
      (sa = 0 ∧ sb = 0 ∧ (sc = 0 ∨ ca = cb)) ∨ (sa = 0 ∧ sc = 0 ∧ (sb = 0 ∨ ca = cc)) ∨
        sb = 0 ∧ sc = 0 ∧ (sa = 0 ∨ cb = cc) := by
  rw [products_eq_iff]
  constructor
  · rintro ⟨abc, plus, minus, left, right, back, forth⟩
    have outer : sa * sc = 0 := by linarith
    have first : sa * (cb - cc) = 0 := by linarith
    have last : sc * (ca - cb) = 0 := by linarith
    rcases eq_or_ne sb 0 with flat | tilted
    · -- then only one of the others is left
      rcases mul_eq_zero.mp outer with none_ | none_
      · rcases mul_eq_zero.mp last with also | same
        · exact Or.inl ⟨none_, flat, Or.inl also⟩
        · exact Or.inl ⟨none_, flat, Or.inr (sub_eq_zero.mp same)⟩
      · rcases mul_eq_zero.mp first with also | same
        · exact Or.inr (Or.inr ⟨flat, none_, Or.inl also⟩)
        · exact Or.inr (Or.inr ⟨flat, none_, Or.inr (sub_eq_zero.mp same)⟩)
    · -- then the product of the outer cosines is one
      have product : ca * cc = 1 := by
        have scaled : sb * (ca * cc - 1) = 0 := by linarith
        rcases mul_eq_zero.mp scaled with zero | one
        · exact absurd zero tilted
        · linarith
      have bound : sa ^ 2 + sc ^ 2 + (ca - cc) ^ 2 = 0 := by nlinarith
      have noA : sa = 0 := by nlinarith [sq_nonneg sa, sq_nonneg sc, sq_nonneg (ca - cc)]
      have noC : sc = 0 := by nlinarith [sq_nonneg sa, sq_nonneg sc, sq_nonneg (ca - cc)]
      have same : ca - cc = 0 := by nlinarith [sq_nonneg sa, sq_nonneg sc, sq_nonneg (ca - cc)]
      exact Or.inr (Or.inl ⟨noA, noC, Or.inr (sub_eq_zero.mp same)⟩)
  · rintro (⟨rfl, rfl, rfl | rfl⟩ | ⟨rfl, rfl, rfl | rfl⟩ | ⟨rfl, rfl, rfl | rfl⟩)
    · simp
    · simp
    · simp
    · have square : ca * ca = 1 := by linarith
      simp [square]
    · simp
    · simp

end Orders

/-- **The two readings agree** where two of the angles are half turns, and the same half turn
unless the third is one too. -/
theorem euler_agrees_iff (a b c : ℝ) :
    matrix3 (mat3FromEulerXyzDeg a b c) = fromEulerXyz a b c ↔ OrdersAgree a b c := by
  rw [matrix3_euler, fromEulerXyz, turnX, turnY, turnZ,
    products_agree_iff (Real.sin_sq_add_cos_sq _) (Real.sin_sq_add_cos_sq _)]
  simp only [OrdersAgree, ← sin_radians_eq_zero]
  have swap : ∀ {p q r s t : Prop}, (p → q → (s ↔ t)) → (p ∧ q ∧ (r ∨ s) ↔ p ∧ q ∧ (r ∨ t)) := by
    intro p q r s t same
    refine and_congr_right fun holds => and_congr_right fun too => ?_
    rw [same holds too]
  rw [swap fun left right => cos_radians_eq_iff left right,
    swap fun left right => cos_radians_eq_iff left right,
    swap fun left right => cos_radians_eq_iff left right]

/-- Two quarter turns do not commute. -/
theorem euler_disagrees : matrix3 (mat3FromEulerXyzDeg 90 90 0) ≠ fromEulerXyz 90 90 0 := by
  have quarter : radians 90 = Real.pi / 2 := by
    unfold radians
    ring
  have sine : Real.sin (radians 90) = 1 := by rw [quarter, Real.sin_pi_div_two]
  have cosine : Real.cos (radians 90) = 0 := by rw [quarter, Real.cos_pi_div_two]
  intro same
  rw [matrix3_euler, fromEulerXyz, turnX, turnY, sine, cosine] at same
  have entry := congrFun (congrFun same 0) 1
  simp [turnZ, radians, mul_apply, Fin.sum_univ_three] at entry

end SpnavBridge.Camera
