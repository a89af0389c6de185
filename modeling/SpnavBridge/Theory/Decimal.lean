/-
# Theory.Decimal -- decimals of few digits, and the nearest one to a number

`HasDigits p d` says that `d` is written with at most `p` significant digits.  `toDigits p q`
is the decimal of that kind that a conversion with `p` digits prints for `q`: the digits are
those of the integer next to `q` in units of its last digit, ties to even.

* `hasDigits_toDigits`: it has at most `p` digits.
* `toDigits_eq_of_near`: a decimal of `p` digits that is near enough to `q` is the one printed
  for it, across a power of ten, too.
* `le_toDigits`, `toDigits_le`: a power of ten on one side of `q` stays there.
-/
import Mathlib.Data.Int.Log
import Mathlib.Data.Rat.Floor
import Mathlib.Tactic.FieldSimp
import Mathlib.Tactic.Positivity
import SpnavBridge.Theory.Ieee

namespace SpnavBridge.Theory

set_option autoImplicit false

/-! ## The nearest integer -/

/-- The integer next to a number that is not negative, an even one if there are two. -/
def nearest (q : ℚ) : Nat := halfEven q.num.natAbs q.den

theorem natAbs_num_eq {q : ℚ} (pos : 0 ≤ q) : (q.num.natAbs : ℚ) = q * q.den := by
  have sign : (q.num.natAbs : Int) = q.num := Int.natAbs_of_nonneg (Rat.num_nonneg.mpr pos)
  calc (q.num.natAbs : ℚ)
      = ((q.num.natAbs : Int) : ℚ) := (Int.cast_natCast _).symm
    _ = q.num := by rw [sign]
    _ = q * q.den := (Rat.mul_den_eq_num q).symm

theorem nearest_le {q : ℚ} {k : Nat} (pos : 0 ≤ q) (le : q ≤ k) : nearest q ≤ k := by
  have scaled : q.num.natAbs ≤ k * q.den := by
    have den : (0 : ℚ) ≤ q.den := Nat.cast_nonneg _
    have product : (q.num.natAbs : ℚ) ≤ k * q.den := by
      rw [natAbs_num_eq pos]
      exact mul_le_mul_of_nonneg_right le den
    exact_mod_cast product
  exact (halfEven_mono q.den scaled).trans_eq (halfEven_mul k q.den_pos)

theorem le_nearest {q : ℚ} {k : Nat} (le : (k : ℚ) ≤ q) : k ≤ nearest q := by
  have pos : 0 ≤ q := (Nat.cast_nonneg k).trans le
  have scaled : k * q.den ≤ q.num.natAbs := by
    have den : (0 : ℚ) ≤ q.den := Nat.cast_nonneg _
    have product : (k : ℚ) * q.den ≤ q.num.natAbs := by
      rw [natAbs_num_eq pos]
      exact mul_le_mul_of_nonneg_right le den
    exact_mod_cast product
  exact (halfEven_mul k q.den_pos).symm.trans_le (halfEven_mono q.den scaled)

/-- Less than half a step away there is one integer only. -/
theorem nearest_eq_of_near {q : ℚ} {k : Nat} (pos : 0 ≤ q) (near : |q - k| < 1 / 2) :
    nearest q = k := by
  have den : (0 : ℚ) < q.den := by exact_mod_cast q.den_pos
  have num := natAbs_num_eq pos
  obtain ⟨low, high⟩ := abs_lt.mp near
  -- in units of the denominator
  have above : 2 * (k * q.den) < 2 * q.num.natAbs + q.den := by
    have scaled : (2 : ℚ) * (k * q.den) < 2 * q.num.natAbs + q.den := by
      rw [num]
      nlinarith
    exact_mod_cast scaled
  have below : 2 * q.num.natAbs < 2 * (k * q.den) + q.den := by
    have scaled : (2 : ℚ) * q.num.natAbs < 2 * (k * q.den) + q.den := by
      rw [num]
      nlinarith
    exact_mod_cast scaled
  rw [nearest]
  generalize q.num.natAbs = n at above below
  have step := q.den_pos
  generalize q.den = d at above below step
  have parts := Nat.div_add_mod n d
  have quotient : n / d = k ∨ n / d + 1 = k := by
    have most : n / d < k + 1 := by
      rw [Nat.div_lt_iff_lt_mul step, Nat.add_mul]
      omega
    have least : k ≤ n / d + 1 := by
      by_contra less
      have far : (n / d + 2) * d ≤ k * d := Nat.mul_le_mul_right d (by omega)
      have rem := Nat.mod_lt n step
      rw [Nat.add_mul, Nat.mul_comm (n / d)] at far
      omega
    omega
  unfold halfEven
  rcases quotient with rfl | rfl
  · rw [Nat.mul_comm (n / d)] at above below
    rw [if_pos (by omega)]
  · rw [Nat.add_mul, Nat.mul_comm (n / d)] at above below
    rw [if_neg (by omega)]

/-! ## Significant digits -/

/-- A number that is written with at most `p` significant digits. -/
def HasDigits (p : Nat) (d : ℚ) : Prop := ∃ n : Nat, n < 10 ^ p ∧ ∃ e : Int, d = n * 10 ^ e

/-- The digits a number is printed with, and the power of ten of their last one. -/
def digitsOf (p : Nat) (q : ℚ) : Nat × Int :=
  let last := Int.log 10 q + 1 - p
  (nearest (q / 10 ^ last), last)

/-- The number that is printed. -/
def toDigits (p : Nat) (q : ℚ) : ℚ := (digitsOf p q).1 * 10 ^ (digitsOf p q).2

section Digits

variable {p : Nat} {q d : ℚ}

/-- A decimal is a whole number of units of a last digit that it may have. -/
theorem HasDigits.units (digits : HasDigits p d) {y : Int} (large : (10 : ℚ) ^ y ≤ d) :
    ∃ k : Nat, d = k * 10 ^ (y + 1 - p) := by
  obtain ⟨n, small, e, rfl⟩ := digits
  have ten : (1 : ℚ) < 10 := by norm_num
  have below : (10 : ℚ) ^ y < 10 ^ (p + e) := by
    have step : (0 : ℚ) < 10 ^ e := zpow_pos (by norm_num) e
    have few : (n : ℚ) < 10 ^ p := by exact_mod_cast small
    calc (10 : ℚ) ^ y ≤ n * 10 ^ e := large
      _ < 10 ^ p * 10 ^ e := mul_lt_mul_of_pos_right few step
      _ = 10 ^ (p + e) := by rw [zpow_add₀ (by norm_num), zpow_natCast]
  have order : y < p + e := (zpow_lt_zpow_iff_right₀ ten).mp below
  refine ⟨n * 10 ^ (e - (y + 1 - p)).toNat, ?_⟩
  have exponent : ((e - (y + 1 - p)).toNat : Int) + (y + 1 - p) = e := by omega
  calc (n : ℚ) * 10 ^ e
      = n * 10 ^ (((e - (y + 1 - p)).toNat : Int) + (y + 1 - p)) := by rw [exponent]
    _ = (n * 10 ^ (e - (y + 1 - p)).toNat : Nat) * 10 ^ (y + 1 - p) := by
        rw [zpow_add₀ (by norm_num), zpow_natCast, ← mul_assoc]
        push_cast
        rfl

theorem unit_pos (y : Int) : (0 : ℚ) < 10 ^ y := zpow_pos (by norm_num) y

theorem zpow_log_le (pos : 0 < q) : (10 : ℚ) ^ Int.log 10 q ≤ q := by
  have low := Int.zpow_log_le_self (b := 10) (by decide) pos
  exact_mod_cast low

theorem lt_zpow_log (q : ℚ) : q < (10 : ℚ) ^ (Int.log 10 q + 1) := by
  have high := Int.lt_zpow_succ_log_self (b := 10) (by decide) q
  exact_mod_cast high

/-- Rounding up may carry through to one digit more. -/
theorem digitsOf_le (pos : 0 < q) : (digitsOf p q).1 ≤ 10 ^ p := by
  have unit := unit_pos (Int.log 10 q + 1 - p)
  refine nearest_le (div_nonneg pos.le unit.le) ?_
  rw [div_le_iff₀ unit]
  have high := (lt_zpow_log q).le
  have split : ((10 ^ p : Nat) : ℚ) * 10 ^ (Int.log 10 q + 1 - p) = 10 ^ (Int.log 10 q + 1) := by
    push_cast
    rw [← zpow_natCast, ← zpow_add₀ (by norm_num)]
    congr 1
    omega
  rwa [split]

/-- It has at most `p` digits, also where the last one carries through. -/
theorem hasDigits_toDigits (some_ : 0 < p) (pos : 0 < q) : HasDigits p (toDigits p q) := by
  rcases Nat.lt_or_eq_of_le (digitsOf_le (p := p) pos) with less | carry
  · exact ⟨_, less, _, rfl⟩
  · refine ⟨10 ^ (p - 1), Nat.pow_lt_pow_right (by decide) (by omega), Int.log 10 q + 2 - p, ?_⟩
    show ((digitsOf p q).1 : ℚ) * 10 ^ (Int.log 10 q + 1 - p) = _
    rw [carry]
    push_cast
    rw [← zpow_natCast, ← zpow_natCast, ← zpow_add₀ (by norm_num), ← zpow_add₀ (by norm_num)]
    congr 1
    omega

theorem pow_mul_unit (p : Nat) (y : Int) : (10 : ℚ) ^ p * 10 ^ (y - p) = 10 ^ y := by
  rw [← zpow_natCast, ← zpow_add₀ (by norm_num)]
  congr 1
  omega

/-- A decimal that is near to `q` is not below the power of ten below `q`: the next one there
is too far away. -/
theorem zpow_le_of_near (low : (10 : ℚ) ^ Int.log 10 q ≤ q) (digits : HasDigits p d)
    (near : q - d < q / (2 * 10 ^ p)) : (10 : ℚ) ^ Int.log 10 q ≤ d := by
  generalize Int.log 10 q = x at low ⊢
  have unit := unit_pos (x - p)
  have scale := pow_mul_unit p x
  have large : (1 : ℚ) ≤ 10 ^ p := one_le_pow₀ (by norm_num)
  have close : 2 * 10 ^ p * (q - d) < q := by
    rw [lt_div_iff₀ (by positivity)] at near
    linarith
  have half : 2 * (q - d) < q := by
    by_cases passes : q ≤ d
    · have power := unit_pos x
      linarith
    · have more := mul_le_mul_of_nonneg_right large (show 0 ≤ 2 * (q - d) by linarith)
      linarith
  have above : (10 : ℚ) ^ (x - 1) ≤ d := by
    have tenth : (10 : ℚ) ^ (x - 1) * 10 = 10 ^ x := by
      rw [← zpow_add_one₀ (by norm_num)]
      congr 1
      omega
    have power := unit_pos (x - 1)
    linarith
  obtain ⟨k, units⟩ := digits.units above
  have last : x - 1 + 1 - (p : Int) = x - p := by omega
  rw [last] at units
  have full : 10 ^ p ≤ k := by
    by_contra less
    have short : (k : ℚ) + 1 ≤ 10 ^ p := by exact_mod_cast Nat.lt_of_not_le less
    have below := mul_le_mul_of_nonneg_right short unit.le
    -- a unit is missing
    have far : (10 : ℚ) ^ (x - p) ≤ q - d := by linarith
    have product := mul_le_mul_of_nonneg_left far (show (0 : ℚ) ≤ 10 ^ p by positivity)
    have rest := mul_le_mul_of_nonneg_right large (show 0 ≤ q - 10 ^ x by linarith)
    nlinarith
  have enough : ((10 : ℚ) ^ p) ≤ k := by exact_mod_cast full
  rw [units, ← scale]
  exact mul_le_mul_of_nonneg_right enough unit.le

/-- **A decimal that is near is the one that is printed.** -/
theorem toDigits_eq_of_near (pos : 0 < q) (digits : HasDigits p d)
    (near : |q - d| < q / (2 * 10 ^ p)) : toDigits p q = d := by
  have unit := unit_pos (Int.log 10 q + 1 - p)
  obtain ⟨j, units⟩ := digits.units
    (zpow_le_of_near (zpow_log_le pos) digits (lt_of_abs_lt near))
  have half : q / (2 * 10 ^ p) < 1 / 2 * 10 ^ (Int.log 10 q + 1 - p) := by
    have high := lt_zpow_log q
    have scale := pow_mul_unit p (Int.log 10 q + 1)
    rw [div_lt_iff₀ (by positivity)]
    linarith
  have integer : nearest (q / 10 ^ (Int.log 10 q + 1 - p)) = j := by
    refine nearest_eq_of_near (div_nonneg pos.le unit.le) ?_
    have scaled : q / 10 ^ (Int.log 10 q + 1 - p) - j = (q - d) / 10 ^ (Int.log 10 q + 1 - p) := by
      rw [units, sub_div, mul_div_assoc, div_self unit.ne', mul_one]
    rw [scaled, abs_div, abs_of_pos unit, div_lt_iff₀ unit]
    exact near.trans half
  show (nearest (q / 10 ^ (Int.log 10 q + 1 - p)) : ℚ) * 10 ^ (Int.log 10 q + 1 - p) = d
  rw [integer, units]

/-- What is at most a decimal is printed as at most that. -/
theorem toDigits_le (pos : 0 < q) (digits : HasDigits p d) (le : q ≤ d) : toDigits p q ≤ d := by
  have unit := unit_pos (Int.log 10 q + 1 - p)
  obtain ⟨j, units⟩ := digits.units ((zpow_log_le pos).trans le)
  have most : nearest (q / 10 ^ (Int.log 10 q + 1 - p)) ≤ j := by
    refine nearest_le (div_nonneg pos.le unit.le) ?_
    rwa [div_le_iff₀ unit, ← units]
  have scaled : (nearest (q / 10 ^ (Int.log 10 q + 1 - p)) : ℚ) ≤ j := by exact_mod_cast most
  rw [units]
  exact mul_le_mul_of_nonneg_right scaled unit.le

/-- And what is at least a decimal as at least that. -/
theorem le_toDigits (some_ : 0 < p) (pos : 0 < q) (digits : HasDigits p d) (le : d ≤ q) :
    d ≤ toDigits p q := by
  have unit := unit_pos (Int.log 10 q + 1 - p)
  have units_le : ∀ k : Nat, (k : ℚ) * 10 ^ (Int.log 10 q + 1 - p) ≤ q →
      (k : ℚ) * 10 ^ (Int.log 10 q + 1 - p) ≤ toDigits p q := by
    intro k below
    have least : k ≤ nearest (q / 10 ^ (Int.log 10 q + 1 - p)) := by
      refine le_nearest ?_
      rwa [le_div_iff₀ unit]
    have scaled : (k : ℚ) ≤ nearest (q / 10 ^ (Int.log 10 q + 1 - p)) := by exact_mod_cast least
    exact mul_le_mul_of_nonneg_right scaled unit.le
  by_cases large : (10 : ℚ) ^ Int.log 10 q ≤ d
  · obtain ⟨j, units⟩ := digits.units large
    rw [units] at le ⊢
    exact units_le j le
  · -- the power of ten is between the two
    have power : ((10 ^ (p - 1) : Nat) : ℚ) * 10 ^ (Int.log 10 q + 1 - p) = 10 ^ Int.log 10 q := by
      push_cast
      rw [← zpow_natCast, ← zpow_add₀ (by norm_num)]
      congr 1
      omega
    have reached := units_le (10 ^ (p - 1)) (power.trans_le (zpow_log_le pos))
    rw [power] at reached
    linarith

end Digits

end SpnavBridge.Theory
