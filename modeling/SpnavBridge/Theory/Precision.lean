/-
# Theory.Precision -- how far rounding goes, and what is not rounded

Rounding moves a number by at most half a unit of the last bit that is kept.  As soon as bits
are cut off at all, that is at most the number times `2 ^ -precision` (`round_near`).  A
magnitude that fits is not moved (`round_of_bits`), so that a conversion to a format with more
of everything changes no value (`convert_widen`).  For the value of a rational number
(`ofRat`) that means that it is near to the number (`ofRat_near`) and in its order
(`ofRat_mono`).
-/
import Mathlib.Tactic.FieldSimp
import Mathlib.Tactic.Positivity
import SpnavBridge.Theory.Decimal

namespace SpnavBridge.Theory

set_option autoImplicit false

/-- The nearest integer is at most half a step away. -/
theorem halfEven_near (n : Nat) {d : Nat} (pos : 0 < d) :
    2 * n ≤ 2 * (halfEven n d * d) + d ∧ 2 * (halfEven n d * d) ≤ 2 * n + d := by
  have parts := Nat.div_add_mod n d
  have rem := Nat.mod_lt n pos
  rw [Nat.mul_comm] at parts
  unfold halfEven
  split_ifs
  · omega
  · rw [Nat.add_mul]
    omega

namespace Format

variable (fmt : Format)

/-- **The error of rounding**, where bits are cut off. -/
theorem round_near {n d : Nat} (pos : 0 < d) (cut : 0 < fmt.excess (n / d)) :
    |(fmt.round n d : ℚ) - n / d| ≤ n / d / 2 ^ fmt.precision := by
  have large := fmt.le_of_excess cut
  unfold round
  generalize fmt.excess (n / d) = e at cut large ⊢
  rw [Nat.le_div_iff_mul_le pos] at large
  obtain ⟨low, high⟩ := halfEven_near n (Nat.mul_pos pos (Nat.two_pow_pos e))
  generalize halfEven n (d * 2 ^ e) = k at low high ⊢
  have some_ := fmt.pos
  have bits : 2 ^ (fmt.precision + e - 1) * 2 = 2 ^ fmt.precision * 2 ^ e := by
    rw [← Nat.pow_succ, ← Nat.pow_add]
    congr 1
    omega
  -- half a step, in units of `1 / d`
  have step : 2 ^ fmt.precision * (d * 2 ^ e) ≤ 2 * n := by
    calc 2 ^ fmt.precision * (d * 2 ^ e)
        = 2 ^ (fmt.precision + e - 1) * 2 * d := by rw [bits]; ring
      _ ≤ 2 * n := by rw [Nat.mul_right_comm]; omega
  have unit : (0 : ℚ) < d := by exact_mod_cast pos
  have low' : (2 : ℚ) * n ≤ 2 * (k * (d * 2 ^ e)) + d * 2 ^ e := by exact_mod_cast low
  have high' : (2 : ℚ) * (k * (d * 2 ^ e)) ≤ 2 * n + d * 2 ^ e := by exact_mod_cast high
  have step' : (2 : ℚ) ^ fmt.precision * (d * 2 ^ e) ≤ 2 * n := by exact_mod_cast step
  have moved : ((k * 2 ^ e : Nat) : ℚ) - n / d = (k * (d * 2 ^ e) - n) / d := by
    push_cast
    field_simp
  have scale : (0 : ℚ) < 2 ^ fmt.precision := by positivity
  have error : |(k : ℚ) * (d * 2 ^ e) - n| ≤ d * 2 ^ e / 2 := by
    rw [abs_le]
    constructor <;> linarith
  rw [moved, abs_div, abs_of_pos unit, div_right_comm]
  refine div_le_div_of_nonneg_right (error.trans ?_) unit.le
  rw [le_div_iff₀ scale]
  linarith

/-- A magnitude with few enough bits is not moved. -/
theorem round_of_bits {k d : Nat} (pos : 0 < d) (bits : 2 ^ fmt.excess k ∣ k) :
    fmt.round (k * d) d = k := by
  have whole : k * d / d = k := Nat.mul_div_cancel k pos
  unfold round
  rw [whole]
  obtain ⟨j, shape⟩ := bits
  generalize fmt.excess k = e at shape ⊢
  have product : k * d = j * (d * 2 ^ e) := by rw [shape]; ring
  rw [product, halfEven_mul j (Nat.mul_pos pos (Nat.two_pow_pos e)), shape, Nat.mul_comm]

theorem halfEven_scale (n : Nat) {d k : Nat} (scale : 0 < k) :
    halfEven (n * k) (d * k) = halfEven n d := by
  have parts : 2 * (n % d * k) < d * k ↔ 2 * (n % d) < d := by
    rw [← Nat.mul_assoc]
    exact Nat.mul_lt_mul_right scale
  have ties : 2 * (n % d * k) = d * k ↔ 2 * (n % d) = d := by
    rw [← Nat.mul_assoc]
    exact Nat.mul_left_inj scale.ne'
  simp only [halfEven, Nat.mul_mod_mul_right, Nat.mul_div_mul_right n d scale, parts, ties]

/-- Only the ratio counts. -/
theorem round_scale (n : Nat) {d k : Nat} (scale : 0 < k) :
    fmt.round (n * k) (d * k) = fmt.round n d := by
  rw [round, Nat.mul_div_mul_right n d scale, Nat.mul_right_comm d, halfEven_scale n scale, round]

theorem excess_mul_two_pow (m j : Nat) : fmt.excess (m * 2 ^ j) ≤ fmt.excess m + j := by
  refine fmt.excess_lt ?_
  have below := fmt.lt_of_excess m
  calc m * 2 ^ j < 2 ^ (fmt.precision + fmt.excess m) * 2 ^ j :=
        Nat.mul_lt_mul_of_pos_right below (Nat.two_pow_pos j)
    _ = 2 ^ (fmt.precision + (fmt.excess m + j)) := by rw [← Nat.pow_add, Nat.add_assoc]

end Format

namespace Value

variable {fmt : Format}

/-- **A wider format holds every value** of a narrower one. -/
theorem convert_widen {dst : Format} (precision : fmt.precision ≤ dst.precision)
    (least : fmt.least ≤ dst.least)
    (largest : fmt.largest * 2 ^ (dst.least - fmt.least) ≤ dst.largest) (negative : Bool)
    {m : Nat} (held : fmt.Held m) :
    ∃ held', (Value.finite negative m held : Value fmt).convert dst =
      .finite negative (m * 2 ^ (dst.least - fmt.least)) held' := by
  have scale : m * 2 ^ dst.least = m * 2 ^ (dst.least - fmt.least) * 2 ^ fmt.least := by
    rw [Nat.mul_assoc, ← Nat.pow_add, Nat.sub_add_cancel least]
  generalize dst.least - fmt.least = j at largest scale ⊢
  have bits : 2 ^ dst.excess (m * 2 ^ j) ∣ m * 2 ^ j := by
    have fewer : dst.excess (m * 2 ^ j) ≤ fmt.excess m + j := by
      have narrow := fmt.excess_mul_two_pow m j
      unfold Format.excess at narrow ⊢
      omega
    calc 2 ^ dst.excess (m * 2 ^ j) ∣ 2 ^ (fmt.excess m + j) := Nat.pow_dvd_pow 2 fewer
      _ = 2 ^ fmt.excess m * 2 ^ j := Nat.pow_add ..
      _ ∣ m * 2 ^ j := Nat.mul_dvd_mul_right held.bits _
  have same : dst.round (m * 2 ^ dst.least) (2 ^ fmt.least) = m * 2 ^ j := by
    rw [scale]
    exact dst.round_of_bits (Nat.two_pow_pos _) bits
  have bounded : m * 2 ^ j ≤ dst.largest := (Nat.mul_le_mul_right _ held.bounded).trans largest
  refine ⟨⟨bits, bounded⟩, ?_⟩
  unfold convert ofRatio
  simp only [same, dif_pos bounded]

/-! ### Rational numbers -/

/-- A magnitude with a sign of its own, as it is read from a text: `-0` keeps its sign. -/
def ofSigned (negative : Bool) (q : ℚ) : Value fmt :=
  ofRatio negative (q.num.natAbs * 2 ^ fmt.least) q.den q.den_pos

theorem ofRat_eq {q : ℚ} (nonneg : 0 ≤ q) : (ofRat q : Value fmt) = ofSigned false q := by
  rw [ofRat, ofSigned, decide_eq_false (not_lt.mpr nonneg)]

/-- **The order of numbers is kept.** -/
theorem ofRat_mono {p q : ℚ} (nonneg : 0 ≤ p) (le : p ≤ q) :
    (ofRat p : Value fmt).le (ofRat q) = true := by
  have cross : p.num.natAbs * 2 ^ fmt.least * q.den ≤ q.num.natAbs * 2 ^ fmt.least * p.den := by
    have products : (p.num.natAbs : ℚ) * q.den ≤ q.num.natAbs * p.den := by
      rw [natAbs_num_eq nonneg, natAbs_num_eq (nonneg.trans le), mul_right_comm q]
      exact mul_le_mul_of_nonneg_right (mul_le_mul_of_nonneg_right le (Nat.cast_nonneg _))
        (Nat.cast_nonneg _)
    have products' : p.num.natAbs * q.den ≤ q.num.natAbs * p.den := by exact_mod_cast products
    rw [Nat.mul_right_comm, Nat.mul_right_comm q.num.natAbs]
    exact Nat.mul_le_mul_right _ products'
  have rounded : fmt.round (p.num.natAbs * 2 ^ fmt.least) p.den ≤
      fmt.round (q.num.natAbs * 2 ^ fmt.least) q.den := by
    rw [← fmt.round_scale _ q.den_pos, ← fmt.round_scale (q.num.natAbs * 2 ^ fmt.least) p.den_pos,
      Nat.mul_comm q.den]
    exact fmt.round_mono (Nat.mul_pos p.den_pos q.den_pos) cross
  rw [ofRat_eq nonneg, ofRat_eq (nonneg.trans le)]
  refine le_eq_true.mpr ⟨_, _, key_ofRatio .., key_ofRatio .., ?_⟩
  rw [signed, if_neg Bool.false_ne_true, signed, if_neg Bool.false_ne_true]
  omega

/-- Numbers up to one that fits do so, too. -/
theorem ofRat_finite {q bound : ℚ} (nonneg : 0 ≤ q) (le : q ≤ bound)
    (fits : (ofRat bound : Value fmt).isFinite = true) :
    ∃ (m : Nat) (held : fmt.Held m), ofRat q = .finite false m held := by
  obtain ⟨a, b, place, place', order⟩ := le_eq_true.mp (ofRat_mono nonneg le)
  rw [ofRat_eq nonneg] at place ⊢
  rw [ofSigned, key_ofRatio, signed, if_neg Bool.false_ne_true] at place
  obtain rfl := Option.some.inj place
  have least : b < (fmt.largest + 1 : Nat) := by
    cases shape : (ofRat bound : Value fmt) with
    | nan => rw [shape] at fits; cases fits
    | inf negative => rw [shape] at fits; cases fits
    | finite negative m held =>
        rw [shape] at place'
        obtain rfl := Option.some.inj place'
        have bounded := held.bounded
        unfold signed
        split_ifs <;> omega
  have bounded : fmt.round (q.num.natAbs * 2 ^ fmt.least) q.den ≤ fmt.largest := by omega
  exact ⟨_, _, by rw [ofSigned, ofRatio, dif_pos bounded]⟩

/-- **A value is near to the number it stands for.** -/
theorem ofRat_near {q : ℚ} (nonneg : 0 ≤ q) {m : Nat} {held : fmt.Held m}
    (shape : ofRat q = .finite false m held) (large : 2 ^ fmt.precision < m) :
    |(m : ℚ) / 2 ^ fmt.least - q| ≤ q / 2 ^ fmt.precision := by
  have value : fmt.round (q.num.natAbs * 2 ^ fmt.least) q.den = m := by
    rw [ofRat_eq nonneg, ofSigned, ofRatio] at shape
    split_ifs at shape
    injection shape
  have cut : 0 < fmt.excess (q.num.natAbs * 2 ^ fmt.least / q.den) := by
    by_contra none_
    have small := fmt.halfEven_excess_le (q.num.natAbs * 2 ^ fmt.least) q.den_pos
    have same : fmt.round (q.num.natAbs * 2 ^ fmt.least) q.den =
        halfEven (q.num.natAbs * 2 ^ fmt.least)
          (q.den * 2 ^ fmt.excess (q.num.natAbs * 2 ^ fmt.least / q.den)) := by
      rw [Format.round, Nat.eq_zero_of_not_pos none_, Nat.pow_zero, Nat.mul_one]
    omega
  have near := fmt.round_near q.den_pos cut
  have units : ((q.num.natAbs * 2 ^ fmt.least : Nat) : ℚ) / q.den = q * 2 ^ fmt.least := by
    have den : (q.den : ℚ) ≠ 0 := by exact_mod_cast q.den_pos.ne'
    push_cast
    rw [natAbs_num_eq nonneg]
    field_simp
  have scale : (0 : ℚ) < 2 ^ fmt.least := by positivity
  rw [value, units] at near
  have moved : (m : ℚ) / 2 ^ fmt.least - q = (m - q * 2 ^ fmt.least) / 2 ^ fmt.least := by
    field_simp
  rw [moved, abs_div, abs_of_pos scale, div_le_iff₀ scale]
  calc |(m : ℚ) - q * 2 ^ fmt.least| ≤ q * 2 ^ fmt.least / 2 ^ fmt.precision := near
    _ = q / 2 ^ fmt.precision * 2 ^ fmt.least := div_mul_eq_mul_div .. |>.symm

end Value

end SpnavBridge.Theory
