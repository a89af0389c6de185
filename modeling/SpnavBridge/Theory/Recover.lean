/-
# Theory.Recover -- a value is found again from a number that is near to it

Rounding is the way back: a number that is nearer to a value than half a unit of its last bit,
and a quarter where the units get smaller, is rounded to it (`round_of_near`).  A text with
enough digits is that near, so a value that is written with them, read with some error and
converted to its format is the value again (`narrow_of_near`).
-/
import SpnavBridge.Theory.Precision

namespace SpnavBridge.Theory

set_option autoImplicit false

/-- Less than half a step away there is one multiple only. -/
theorem halfEven_of_near {n d k : Nat} (below : 2 * n < 2 * (k * d) + d)
    (above : 2 * (k * d) < 2 * n + d) : halfEven n d = k := by
  have parts := Nat.div_add_mod n d
  have pos : 0 < d := by
    by_contra none_
    obtain rfl : d = 0 := by omega
    omega
  have rem := Nat.mod_lt n pos
  rw [Nat.mul_comm] at parts
  unfold halfEven
  rcases Nat.lt_trichotomy (n / d) k with less | same | more
  · have step : (n / d + 1) * d ≤ k * d := Nat.mul_le_mul_right d less
    rw [Nat.add_mul, Nat.one_mul] at step
    have next : n / d + 1 = k := by
      by_contra other
      have further : (n / d + 2) * d ≤ k * d := Nat.mul_le_mul_right d (by omega)
      rw [Nat.add_mul] at further
      omega
    subst next
    rw [Nat.add_mul, Nat.one_mul] at above below
    rw [if_neg (by omega)]
  · subst same
    rw [if_pos (by omega)]
  · have step : (k + 1) * d ≤ n / d * d := Nat.mul_le_mul_right d more
    rw [Nat.add_mul, Nat.one_mul] at step
    omega

/-- A multiple of a step below a power of two is a step below it. -/
theorem add_le_of_dvd {a m u : Nat} (less : m < a) (step : u ∣ m) (step' : u ∣ a) : m + u ≤ a := by
  obtain ⟨i, rfl⟩ := step
  obtain ⟨j, rfl⟩ := step'
  have order : i < j := Nat.lt_of_mul_lt_mul_left less
  calc u * i + u = u * (i + 1) := (Nat.mul_succ u i).symm
    _ ≤ u * j := Nat.mul_le_mul_left u order

namespace Format

variable (fmt : Format)

theorem largest_lt : fmt.largest < 2 ^ (fmt.precision + fmt.span) := by
  rw [Format.largest, Nat.pow_add]
  exact Nat.mul_lt_mul_of_pos_right (Nat.sub_lt (Nat.two_pow_pos _) Nat.one_pos)
    (Nat.two_pow_pos _)

section Near

variable {fmt} {m : Nat} {x : ℚ} (near : |x - m| * 2 ^ (fmt.precision + 1) < m)
include near

/-- No bit more is cut off a number than off the magnitude next to it. -/
theorem lt_of_near (bits : 2 ^ fmt.excess m ∣ m) :
    x < 2 ^ fmt.precision * 2 ^ fmt.excess m := by
  have room := add_le_of_dvd (fmt.lt_of_excess m) bits
    (Nat.pow_dvd_pow 2 (Nat.le_add_left _ fmt.precision))
  rw [Nat.pow_add] at room
  have room' : (m : ℚ) + 2 ^ fmt.excess m ≤ 2 ^ fmt.precision * 2 ^ fmt.excess m := by
    exact_mod_cast room
  have step : (0 : ℚ) < 2 ^ fmt.excess m := by positivity
  have some_ : (0 : ℚ) < 2 ^ fmt.precision := by positivity
  rw [pow_succ] at near
  generalize (2 : ℚ) ^ fmt.excess m = u at room' step ⊢
  generalize (2 : ℚ) ^ fmt.precision = t at near room' some_ ⊢
  have above : x * (t * 2) < m * (t * 2 + 1) := by
    have diff := mul_le_mul_of_nonneg_right (le_abs_self (x - m)) (by positivity : 0 ≤ t * 2)
    linarith
  have most : (m : ℚ) * (t * 2 + 1) ≤ (t * u - u) * (t * 2 + 1) :=
    mul_le_mul_of_nonneg_right (by linarith) (by positivity)
  have less : (t * u - u) * (t * 2 + 1) < t * u * (t * 2) := by
    have product := mul_pos some_ step
    linarith
  exact lt_of_mul_lt_mul_right (above.trans_le (most.trans less.le)) (by positivity)

/-- The magnitude is no more units than the number has room for. -/
theorem le_of_near (bits : 2 ^ fmt.excess m ∣ m) {e : Nat} (fewer : e ≤ fmt.excess m)
    (below : x < 2 ^ fmt.precision * 2 ^ e) : m ≤ 2 ^ (fmt.precision + e) := by
  by_contra more
  have less : e < fmt.excess m := by
    by_contra same
    have bound := fmt.lt_of_excess m
    rw [show fmt.excess m = e by omega] at bound
    omega
  have step : 2 ^ (e + 1) ∣ 2 ^ (fmt.precision + e) :=
    Nat.pow_dvd_pow 2 (by have := fmt.pos; omega)
  have far := add_le_of_dvd (Nat.lt_of_not_le more) step ((Nat.pow_dvd_pow 2 less).trans bits)
  rw [Nat.pow_add, Nat.pow_succ] at far
  have far' : (2 : ℚ) ^ fmt.precision * 2 ^ e + 2 ^ e * 2 ≤ m := by exact_mod_cast far
  have two : (2 : ℚ) ≤ 2 ^ fmt.precision := by
    calc (2 : ℚ) = 2 ^ 1 := (pow_one 2).symm
      _ ≤ 2 ^ fmt.precision := pow_le_pow_right₀ (by norm_num) fmt.pos
  have unit : (0 : ℚ) < 2 ^ e := by positivity
  rw [pow_succ] at near
  generalize (2 : ℚ) ^ e = v at far' below unit
  generalize (2 : ℚ) ^ fmt.precision = t at near far' below two
  have diff := mul_le_mul_of_nonneg_right (neg_abs_le (x - m)) (by positivity : 0 ≤ t * 2)
  have gap : (m - t * v) * (t * 2) < m := by
    have shift := mul_lt_mul_of_pos_right below (by positivity : 0 < t * 2)
    linarith
  have least := mul_le_mul_of_nonneg_right far' (by linarith : 0 ≤ t * 2 - 1)
  have product := mul_le_mul_of_nonneg_right two unit.le
  linarith

end Near

/-- **Rounding finds a magnitude again.** -/
theorem round_of_near {n d m : Nat} (pos : 0 < d) (bits : 2 ^ fmt.excess m ∣ m)
    (near : |(n : ℚ) / d - m| * 2 ^ (fmt.precision + 1) < m) : fmt.round n d = m := by
  have unit : (0 : ℚ) < d := by exact_mod_cast pos
  have fewer : fmt.excess (n / d) ≤ fmt.excess m := by
    have below := lt_of_near near bits
    rw [div_lt_iff₀ unit] at below
    refine fmt.excess_lt ((Nat.div_lt_iff_lt_mul pos).mpr ?_)
    rw [Nat.pow_add]
    exact_mod_cast below
  have inside : (n : ℚ) / d < 2 ^ fmt.precision * 2 ^ fmt.excess (n / d) := by
    have bound := fmt.lt_of_excess (n / d)
    rw [Nat.div_lt_iff_lt_mul pos, Nat.pow_add] at bound
    rw [div_lt_iff₀ unit]
    exact_mod_cast bound
  have most := le_of_near near bits fewer inside
  obtain ⟨k, shape⟩ := (Nat.pow_dvd_pow 2 fewer).trans bits
  rw [Nat.mul_comm] at shape
  unfold round
  generalize fmt.excess (n / d) = e at most shape ⊢
  have close : |(n : ℚ) / d - m| < 2 ^ e / 2 := by
    have most' : (m : ℚ) ≤ 2 ^ fmt.precision * 2 ^ e := by
      rw [Nat.pow_add] at most
      exact_mod_cast most
    have scale : (0 : ℚ) < 2 ^ fmt.precision := by positivity
    rw [pow_succ] at near
    refine lt_of_mul_lt_mul_right ?_ (by positivity : (0 : ℚ) ≤ 2 ^ fmt.precision * 2)
    linarith
  have multiple : (m : ℚ) = k * 2 ^ e := by rw [shape]; push_cast; rfl
  obtain ⟨low, high⟩ := abs_lt.mp close
  have units : (n : ℚ) / d * d = n := div_mul_cancel₀ _ unit.ne'
  have found : halfEven n (d * 2 ^ e) = k := by
    apply halfEven_of_near
    · have less : (2 : ℚ) * n < 2 * (k * (d * 2 ^ e)) + d * 2 ^ e := by
        have scaled := mul_lt_mul_of_pos_right high unit
        rw [multiple] at scaled
        linarith
      exact_mod_cast less
    · have less : (2 : ℚ) * (k * (d * 2 ^ e)) < 2 * n + d * 2 ^ e := by
        have scaled := mul_lt_mul_of_pos_right low unit
        rw [multiple] at scaled
        linarith
      exact_mod_cast less
  rw [found, shape]

end Format

namespace Value

/-- The sign of a number is that of its value. -/
theorem ofSigned_of_ofRat {fmt : Format} {q : ℚ} (nonneg : 0 ≤ q) {m : Nat} {held : fmt.Held m}
    (shape : (ofRat q : Value fmt) = .finite false m held) (negative : Bool) :
    (ofSigned negative q : Value fmt) = .finite negative m held := by
  rw [ofRat_eq nonneg, ofSigned, ofRatio] at shape
  rw [ofSigned, ofRatio]
  split_ifs at shape ⊢ with bounded
  injection shape with _ same
  subst same
  rfl

theorem ofRatio_congr {fmt : Format} {n d n' d' : Nat} (pos : 0 < d) (pos' : 0 < d')
    (same : fmt.round n d = fmt.round n' d') (negative : Bool) :
    (ofRatio negative n d pos : Value fmt) = ofRatio negative n' d' pos' := by
  unfold ofRatio
  simp only [same]

/-- **A conversion rounds the number** that a value stands for. -/
theorem convert_eq_ofRat {fmt : Format} (dst : Format) {m : Nat} (held : fmt.Held m) :
    (Value.finite false m held : Value fmt).convert dst = ofRat (m / 2 ^ fmt.least) := by
  have nonneg : (0 : ℚ) ≤ m / 2 ^ fmt.least := by positivity
  have parts := natAbs_num_eq nonneg
  rw [ofRat_eq nonneg]
  generalize number : (m : ℚ) / 2 ^ fmt.least = q at parts ⊢
  have unit : (2 : ℚ) ^ fmt.least ≠ 0 := by positivity
  have cross : q.num.natAbs * 2 ^ fmt.least = m * q.den := by
    have scaled : (q.num.natAbs : ℚ) * 2 ^ fmt.least = m * q.den := by
      rw [parts, ← number]
      field_simp
    exact_mod_cast scaled
  refine ofRatio_congr (Nat.two_pow_pos _) q.den_pos ?_ false
  calc dst.round (m * 2 ^ dst.least) (2 ^ fmt.least)
      = dst.round (m * 2 ^ dst.least * q.den) (2 ^ fmt.least * q.den) :=
        (dst.round_scale _ q.den_pos).symm
    _ = dst.round (q.num.natAbs * 2 ^ dst.least * 2 ^ fmt.least) (q.den * 2 ^ fmt.least) := by
        rw [Nat.mul_right_comm, ← cross, Nat.mul_right_comm, Nat.mul_comm q.den]
    _ = dst.round (q.num.natAbs * 2 ^ dst.least) q.den :=
        dst.round_scale _ (Nat.two_pow_pos _)
/-- Far from being denormal, as a `double`. -/
theorem key_ofRat_small : (ofRat (1 / 2 ^ 150) : Value binary64).key = some ((2 ^ 924 : Nat) : Int) := by
  decide +kernel

section Narrow

variable {m : Nat} (held : binary32.Held m) (some_ : m ≠ 0) {q : ℚ}
  (near : |q - (m : ℚ) / 2 ^ binary32.least| ≤ (m : ℚ) / 2 ^ binary32.least / 2 ^ 40)
include held some_ near

theorem bounds_of_near : 1 / 2 ^ 150 ≤ q ∧ q ≤ 2 ^ 130 := by
  have least : (1 : ℚ) ≤ m := by exact_mod_cast Nat.one_le_iff_ne_zero.mpr some_
  have most : (m : ℚ) ≤ 2 ^ 24 * 2 ^ 253 := by
    have bounded : m ≤ 2 ^ 24 * 2 ^ 253 := held.bounded.trans (Nat.mul_le_mul_right _ (by decide))
    exact_mod_cast bounded
  obtain ⟨low, high⟩ := abs_le.mp near
  have low' : 1 / 2 ^ 149 ≤ (m : ℚ) / 2 ^ binary32.least :=
    div_le_div_of_nonneg_right least (by positivity)
  have high' : (m : ℚ) / 2 ^ binary32.least ≤ 2 ^ 128 := by
    rw [div_le_iff₀ (by positivity)]
    calc (m : ℚ) ≤ 2 ^ 24 * 2 ^ 253 := most
      _ = 2 ^ 128 * 2 ^ binary32.least := by rw [← pow_add, ← pow_add]; rfl
  generalize (m : ℚ) / 2 ^ binary32.least = f at low high low' high'
  constructor
  · have half : (1 : ℚ) / 2 ^ 149 = 2 * (1 / 2 ^ 150) := by norm_num
    rw [half] at low'
    have small : f / 2 ^ 40 ≤ f / 2 := by
      have pos : 0 ≤ f := le_trans (by positivity) low'
      exact div_le_div_of_nonneg_left pos (by norm_num) (by norm_num)
    linarith
  · have double : (2 : ℚ) ^ 130 = 4 * 2 ^ 128 := by norm_num
    have small : f / 2 ^ 40 ≤ 2 ^ 128 :=
      (div_le_div_of_nonneg_right high' (by positivity)).trans (by norm_num)
    have some_ : (0 : ℚ) ≤ 2 ^ 128 := by positivity
    rw [double]
    linarith

/-- The `double` next to a number near a `float`. -/
theorem double_of_near : ∃ (r : Nat) (held' : binary64.Held r),
    (ofRat q : Value binary64) = .finite false r held' ∧
      |(r : ℚ) / 2 ^ binary64.least - q| ≤ q / 2 ^ 53 := by
  obtain ⟨low, high⟩ := bounds_of_near held some_ near
  have nonneg : 0 ≤ q := le_trans (by positivity) low
  have fits : (ofRat (2 ^ 130) : Value binary64).isFinite = true := by decide +kernel
  obtain ⟨r, held', shape⟩ := ofRat_finite nonneg high fits
  have large : 2 ^ binary64.precision < r := by
    have above : (ofRat _ : Value binary64).le (ofRat q) = true := ofRat_mono (by positivity) low
    obtain ⟨a, b, place, place', order⟩ := le_eq_true.mp above
    rw [key_ofRat_small] at place
    rw [shape] at place'
    obtain rfl := Option.some.inj place
    obtain rfl : (r : Int) = b := Option.some.inj place'
    exact lt_of_lt_of_le (Nat.pow_lt_pow_right (by decide) (by decide)) (Int.ofNat_le.mp order)
  exact ⟨r, held', shape, ofRat_near nonneg shape large⟩

/-- **A `float` is read back** from any number that is near to it, through a `double`. -/
theorem narrow_of_near (negative : Bool) :
    (ofSigned negative q : Value binary64).convert binary32 = .finite negative m held := by
  obtain ⟨low, high⟩ := bounds_of_near held some_ near
  have nonneg : 0 ≤ q := le_trans (by positivity) low
  obtain ⟨r, held', shape, close⟩ := double_of_near held some_ near
  rw [ofSigned_of_ofRat nonneg shape negative]
  have pos : (0 : ℚ) < m := by exact_mod_cast Nat.pos_of_ne_zero some_
  have back : binary32.round (r * 2 ^ binary32.least) (2 ^ binary64.least) = m := by
    refine binary32.round_of_near (Nat.two_pow_pos _) held.bits ?_
    have unit : (0 : ℚ) < 2 ^ binary32.least := by positivity
    have scaled : ((r * 2 ^ binary32.least : Nat) : ℚ) / ((2 ^ binary64.least : Nat) : ℚ) - m =
        (r / 2 ^ binary64.least - m / 2 ^ binary32.least) * 2 ^ binary32.least := by
      push_cast
      rw [sub_mul, div_mul_cancel₀ _ unit.ne', div_mul_eq_mul_div]
    rw [scaled, abs_mul, abs_of_pos unit]
    have size : (m : ℚ) = m / 2 ^ binary32.least * 2 ^ binary32.least :=
      (div_mul_cancel₀ _ unit.ne').symm
    have some' : 0 < (m : ℚ) / 2 ^ binary32.least := div_pos pos unit
    rw [show binary32.precision = 24 from rfl, mul_right_comm]
    nth_rewrite 2 [size]
    refine mul_lt_mul_of_pos_right ?_ unit
    obtain ⟨near₁, near₂⟩ := abs_le.mp near
    obtain ⟨close₁, close₂⟩ := abs_le.mp close
    generalize (r : ℚ) / 2 ^ binary64.least = y at close₁ close₂ ⊢
    generalize (m : ℚ) / 2 ^ binary32.least = f at near₁ near₂ some' ⊢
    norm_num at near₁ near₂ close₁ close₂ ⊢
    have total : |y - f| ≤ f / 2 ^ 30 := by
      rw [abs_le]
      constructor <;> linarith
    linarith
  unfold convert ofRatio
  simp only [back, dif_pos held.bounded]

end Narrow

end Value

end SpnavBridge.Theory
