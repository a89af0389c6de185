/-
# Theory.Ieee -- binary floating point: values, order, rounding and conversion

A finite value of a format is a sign and a magnitude, which counts the least positive value of
the format.  A magnitude is held by a format when its significant bits fit the precision and
it is not beyond the largest one; that it is held is a field of the value.

Rounding is to the nearest, ties to even, and goes to infinity beyond the largest value.

* `round_mono`: rounding keeps the order.
* `convert_mono`: so does a conversion from one format to another.

`Single` and `Double` are C's `float` and `double` with these constants, comparisons and
conversions, whatever the remaining operations do (`Arithmetic`).
-/
import SpnavBridge.Theory.CNumber
import Mathlib.Data.Nat.Log
import Mathlib.Data.Rat.Defs
import Mathlib.Tactic.Common
import Mathlib.Tactic.Linarith
import Mathlib.Tactic.Ring

namespace SpnavBridge.Theory

set_option autoImplicit false

/-! ## Rounding to an integer -/

/-- The integer that is nearest to `n / d`, an even one if there are two. -/
def halfEven (n d : Nat) : Nat :=
  if 2 * (n % d) < d ∨ (2 * (n % d) = d ∧ n / d % 2 = 0) then n / d else n / d + 1

theorem le_halfEven (n d : Nat) : n / d ≤ halfEven n d := by
  unfold halfEven
  split <;> omega

theorem halfEven_le (n d : Nat) : halfEven n d ≤ n / d + 1 := by
  unfold halfEven
  split <;> omega

theorem halfEven_mul (k : Nat) {d : Nat} (pos : 0 < d) : halfEven (k * d) d = k := by
  unfold halfEven
  rw [Nat.mul_mod_left, Nat.mul_div_cancel k pos, if_pos (Or.inl (by omega))]

theorem halfEven_mono {n m : Nat} (d : Nat) (le : n ≤ m) : halfEven n d ≤ halfEven m d := by
  have quotients : n / d ≤ m / d := Nat.div_le_div_right le
  rcases Nat.lt_or_eq_of_le quotients with less | same
  · exact ((halfEven_le n d).trans less).trans (le_halfEven m d)
  · -- the same integer part, so that the remainders are in order
    have remainders : n % d ≤ m % d := by
      have first := Nat.div_add_mod n d
      have second := Nat.div_add_mod m d
      rw [same] at first
      omega
    unfold halfEven
    rw [same]
    split_ifs <;> omega

/-! ## Formats -/

/-- A binary format.  Its least positive value is `2 ^ -least`, and its largest value is that
times `(2 ^ precision - 1) * 2 ^ span`. -/
structure Format where
  precision : Nat
  least : Nat
  span : Nat
  pos : 0 < precision

def binary32 : Format := ⟨24, 149, 253, by decide⟩
def binary64 : Format := ⟨53, 1074, 2045, by decide⟩

namespace Format

variable (fmt : Format)

def largest : Nat := (2 ^ fmt.precision - 1) * 2 ^ fmt.span

/-- How many bits of a magnitude the precision leaves no room for. -/
def excess (m : Nat) : Nat := Nat.log2 m + 1 - fmt.precision

/-- The format has this magnitude. -/
structure Held (m : Nat) : Prop where
  bits : 2 ^ fmt.excess m ∣ m
  bounded : m ≤ fmt.largest

/-- Rounds `n / d` to as many bits as there are. -/
def round (n d : Nat) : Nat :=
  halfEven n (d * 2 ^ fmt.excess (n / d)) * 2 ^ fmt.excess (n / d)

theorem excess_mono {m n : Nat} (le : m ≤ n) : fmt.excess m ≤ fmt.excess n := by
  have logs : Nat.log2 m ≤ Nat.log2 n := by
    rw [Nat.log2_eq_log_two, Nat.log2_eq_log_two]
    exact Nat.log_mono_right le
  unfold excess
  omega

/-- Below a power of two, so far as the excess goes. -/
theorem lt_of_excess (m : Nat) : m < 2 ^ (fmt.precision + fmt.excess m) := by
  have below := Nat.lt_log2_self (n := m)
  refine below.trans_le (Nat.pow_le_pow_right (by decide) ?_)
  unfold excess
  omega

theorem le_of_excess {m : Nat} (some_ : 0 < fmt.excess m) :
    2 ^ (fmt.precision + fmt.excess m - 1) ≤ m := by
  have nonzero : m ≠ 0 := by
    rintro rfl
    have pos := fmt.pos
    unfold excess at some_
    rw [Nat.log2_zero] at some_
    omega
  have above := Nat.log2_self_le nonzero
  have exponent : fmt.precision + fmt.excess m - 1 = Nat.log2 m := by
    unfold excess at some_ ⊢
    omega
  rw [exponent]
  exact above

theorem excess_lt {m k : Nat} (less : m < 2 ^ (fmt.precision + k)) : fmt.excess m ≤ k := by
  by_contra more
  have above := fmt.le_of_excess (m := m) (by omega)
  have power : 2 ^ (fmt.precision + k) ≤ 2 ^ (fmt.precision + fmt.excess m - 1) :=
    Nat.pow_le_pow_right (by decide) (by omega)
  omega

/-- What is rounded has at most the bits there are, or is the next power of two. -/
theorem halfEven_excess_le (n : Nat) {d : Nat} (pos : 0 < d) :
    halfEven n (d * 2 ^ fmt.excess (n / d)) ≤ 2 ^ fmt.precision := by
  generalize size : fmt.excess (n / d) = e
  have below := fmt.lt_of_excess (n / d)
  rw [size, Nat.div_lt_iff_lt_mul pos] at below
  have units : 0 < d * 2 ^ e := Nat.mul_pos pos (Nat.two_pow_pos e)
  have whole : 2 ^ (fmt.precision + e) * d = 2 ^ fmt.precision * (d * 2 ^ e) := by ring
  rw [whole] at below
  calc halfEven n (d * 2 ^ e)
      ≤ halfEven (2 ^ fmt.precision * (d * 2 ^ e)) (d * 2 ^ e) := halfEven_mono _ below.le
    _ = 2 ^ fmt.precision := halfEven_mul _ units

/-- **Rounding keeps the order.** -/
theorem round_mono {n m d : Nat} (pos : 0 < d) (le : n ≤ m) : fmt.round n d ≤ fmt.round m d := by
  have quotients : n / d ≤ m / d := Nat.div_le_div_right le
  have small := fmt.halfEven_excess_le n pos
  unfold round
  rcases Nat.lt_or_eq_of_le (fmt.excess_mono quotients) with less | same
  · -- there is a power of two between the two
    generalize fmt.excess (n / d) = e at less small ⊢
    have above := fmt.le_of_excess (m := m / d) (by omega)
    generalize fmt.excess (m / d) = e' at less above ⊢
    have units : 0 < d * 2 ^ e' := Nat.mul_pos pos (Nat.two_pow_pos e')
    have large : 2 ^ (fmt.precision - 1) ≤ halfEven m (d * 2 ^ e') := by
      refine le_trans ?_ (le_halfEven m _)
      rw [Nat.le_div_iff_mul_le units]
      rw [Nat.le_div_iff_mul_le pos] at above
      have exponent : 2 ^ (fmt.precision + e' - 1) = 2 ^ (fmt.precision - 1) * 2 ^ e' := by
        rw [← Nat.pow_add]
        congr 1
        have some_ := fmt.pos
        omega
      rw [exponent] at above
      calc 2 ^ (fmt.precision - 1) * (d * 2 ^ e')
          = 2 ^ (fmt.precision - 1) * 2 ^ e' * d := by ring
        _ ≤ m := above
    calc halfEven n (d * 2 ^ e) * 2 ^ e
        ≤ 2 ^ fmt.precision * 2 ^ e := Nat.mul_le_mul_right _ small
      _ = 2 ^ (fmt.precision + e) := (Nat.pow_add ..).symm
      _ ≤ 2 ^ (fmt.precision - 1 + e') := by
          refine Nat.pow_le_pow_right (by decide) ?_
          have some_ := fmt.pos
          omega
      _ = 2 ^ (fmt.precision - 1) * 2 ^ e' := Nat.pow_add ..
      _ ≤ halfEven m (d * 2 ^ e') * 2 ^ e' := Nat.mul_le_mul_right _ large
  · rw [same]
    exact Nat.mul_le_mul_right _ (halfEven_mono _ le)

/-- What is rounded fits the precision. -/
theorem round_bits (n : Nat) {d : Nat} (pos : 0 < d) :
    2 ^ fmt.excess (fmt.round n d) ∣ fmt.round n d := by
  have small := fmt.halfEven_excess_le n pos
  unfold round
  generalize fmt.excess (n / d) = e at small ⊢
  generalize halfEven n (d * 2 ^ e) = k at small ⊢
  rcases Nat.lt_or_eq_of_le small with less | rfl
  · have below : k * 2 ^ e < 2 ^ (fmt.precision + e) := by
      rw [Nat.pow_add]
      exact Nat.mul_lt_mul_of_pos_right less (Nat.two_pow_pos e)
    exact (Nat.pow_dvd_pow 2 (fmt.excess_lt below)).trans (Nat.dvd_mul_left _ _)
  · rw [← Nat.pow_add]
    refine Nat.pow_dvd_pow 2 ?_
    have below : 2 ^ (fmt.precision + e) < 2 ^ (fmt.precision + (e + 1)) :=
      Nat.pow_lt_pow_right (by decide) (by omega)
    have few := fmt.excess_lt below
    have some_ := fmt.pos
    omega

end Format

/-! ## Values -/

/-- A value of a format.  A zero has a sign, too. -/
inductive Value (fmt : Format) where
  | nan
  | inf (negative : Bool)
  | finite (negative : Bool) (magnitude : Nat) (held : fmt.Held magnitude)

namespace Value

variable {fmt : Format}

def signed (negative : Bool) (magnitude : Nat) : Int :=
  if negative then -(magnitude : Int) else magnitude

/-- Where the value is in the order.  Infinity comes next behind the largest value, and NaN
has no place. -/
def key : Value fmt → Option Int
  | .nan => none
  | .inf negative => some (signed negative (fmt.largest + 1))
  | .finite negative magnitude _ => some (signed negative magnitude)

/-- `<`, false for NaN -/
def lt (x y : Value fmt) : Bool :=
  match x.key, y.key with
  | some a, some b => a < b
  | _, _ => false

/-- `<=`, false for NaN -/
def le (x y : Value fmt) : Bool :=
  match x.key, y.key with
  | some a, some b => a ≤ b
  | _, _ => false

def isFinite : Value fmt → Bool
  | .finite _ _ _ => true
  | _ => false

theorem le_eq_true {x y : Value fmt} :
    x.le y = true ↔ ∃ a b, x.key = some a ∧ y.key = some b ∧ a ≤ b := by
  unfold le
  cases x.key with
  | none => simp
  | some a =>
      cases y.key with
      | none => simp
      | some b => simp

/-- Two values that have a place are in order one way or the other. -/
theorem lt_eq_false {x y : Value fmt} {a b : Int} (left : x.key = some a) (right : y.key = some b) :
    x.lt y = false ↔ y.le x = true := by
  unfold lt le
  rw [left, right]
  simp

theorem le_congr {x x' y y' : Value fmt} (left : x.key = x'.key) (right : y.key = y'.key) :
    x.le y = x'.le y' := by
  unfold le
  rw [left, right]

theorem key_of_isFinite {x : Value fmt} (finite : x.isFinite = true) : ∃ a, x.key = some a := by
  cases x with
  | finite negative magnitude held => exact ⟨_, rfl⟩
  | nan => cases finite
  | inf negative => cases finite

/-! ## Rounding and conversion -/

/-- `n / d` times the least positive value, rounded. -/
def ofRatio (negative : Bool) (n : Nat) (d : Nat) (pos : 0 < d) : Value fmt :=
  if bounded : fmt.round n d ≤ fmt.largest then
    .finite negative (fmt.round n d) ⟨fmt.round_bits n pos, bounded⟩
  else .inf negative

/-- A rational number, rounded: what a decimal constant denotes. -/
def ofRat (q : ℚ) : Value fmt :=
  ofRatio (q < 0) (q.num.natAbs * 2 ^ fmt.least) q.den q.den_pos

/-- The conversion to a format. -/
def convert (dst : Format) : Value fmt → Value dst
  | .nan => .nan
  | .inf negative => .inf negative
  | .finite negative magnitude _ =>
      ofRatio negative (magnitude * 2 ^ dst.least) (2 ^ fmt.least) (Nat.two_pow_pos _)

theorem key_ofRatio (negative : Bool) (n d : Nat) (pos : 0 < d) :
    (ofRatio negative n d pos : Value fmt).key =
      some (signed negative (min (fmt.round n d) (fmt.largest + 1))) := by
  unfold ofRatio
  split
  · rename_i bounded
    rw [Nat.min_eq_left (bounded.trans (Nat.le_succ _))]
    rfl
  · rename_i beyond
    rw [Nat.min_eq_right (by omega)]
    rfl

/-- A rational number is no NaN. -/
theorem key_ofRat (q : ℚ) : ∃ a, (ofRat q : Value fmt).key = some a :=
  ⟨_, key_ofRatio _ _ _ q.den_pos⟩

/-- Where the conversion puts a magnitude. -/
def carried (fmt dst : Format) (magnitude : Nat) : Nat :=
  if magnitude ≤ fmt.largest then
    min (dst.round (magnitude * 2 ^ dst.least) (2 ^ fmt.least)) (dst.largest + 1)
  else dst.largest + 1

theorem carried_mono (fmt dst : Format) {m n : Nat} (le : m ≤ n) :
    carried fmt dst m ≤ carried fmt dst n := by
  have scaled : m * 2 ^ dst.least ≤ n * 2 ^ dst.least := Nat.mul_le_mul_right _ le
  have rounded := dst.round_mono (Nat.two_pow_pos fmt.least) scaled
  unfold carried
  split_ifs <;> omega

/-- The conversion of a sign and a magnitude, and of a place in the order. -/
def carriedKey (fmt dst : Format) (a : Int) : Int :=
  if a < 0 then -(carried fmt dst a.natAbs : Int) else carried fmt dst a.natAbs

theorem carriedKey_mono {dst : Format} {a b : Int} (le : a ≤ b) :
    carriedKey fmt dst a ≤ carriedKey fmt dst b := by
  unfold carriedKey
  split_ifs with left right right
  · have magnitudes := carried_mono fmt dst (show b.natAbs ≤ a.natAbs by omega)
    omega
  · omega
  · omega
  · have magnitudes := carried_mono fmt dst (show a.natAbs ≤ b.natAbs by omega)
    omega

theorem carried_zero (dst : Format) : carried fmt dst 0 = 0 := by
  have zero : dst.round (0 * 2 ^ dst.least) (2 ^ fmt.least) = 0 := by
    rw [Nat.zero_mul, Format.round]
    have rounded := halfEven_mul 0 (Nat.mul_pos (Nat.two_pow_pos fmt.least)
      (Nat.two_pow_pos (dst.excess (0 / 2 ^ fmt.least))))
    rw [Nat.zero_mul] at rounded
    rw [rounded, Nat.zero_mul]
  unfold carried
  rw [if_pos (Nat.zero_le _), zero]
  exact Nat.zero_min _

theorem carriedKey_signed (dst : Format) (negative : Bool) (m : Nat) :
    carriedKey fmt dst (signed negative m) = signed negative (carried fmt dst m) := by
  unfold carriedKey signed
  cases negative with
  | false =>
      rw [if_neg Bool.false_ne_true, if_neg Bool.false_ne_true, if_neg (by omega)]
      rfl
  | true =>
      rw [if_pos rfl, if_pos rfl, Int.natAbs_neg]
      split
      · rfl
      · -- a zero that is negative
        obtain rfl : m = 0 := by omega
        show (carried fmt dst 0 : Int) = -(carried fmt dst 0 : Int)
        rw [carried_zero]
        rfl

theorem key_convert (dst : Format) (x : Value fmt) :
    (x.convert dst).key = x.key.map (carriedKey fmt dst) := by
  cases x with
  | nan => rfl
  | inf negative =>
      show some _ = some (carriedKey fmt dst (signed negative (fmt.largest + 1)))
      rw [carriedKey_signed, carried, if_neg (by omega)]
  | finite negative magnitude held =>
      show (ofRatio _ _ _ (Nat.two_pow_pos fmt.least)).key =
        some (carriedKey fmt dst (signed negative magnitude))
      rw [key_ofRatio, carriedKey_signed, carried, if_pos held.bounded]

/-- **A conversion keeps the order.** -/
theorem convert_mono (dst : Format) {x y : Value fmt} (ordered : x.le y = true) :
    (x.convert dst).le (y.convert dst) = true := by
  obtain ⟨a, b, left, right, le⟩ := le_eq_true.mp ordered
  refine le_eq_true.mpr ⟨carriedKey fmt dst a, carriedKey fmt dst b, ?_, ?_, carriedKey_mono le⟩
  · rw [key_convert, left]
    rfl
  · rw [key_convert, right]
    rfl

end Value

/-! ## C's `float` and `double` -/

/-- The operations that the constants, the comparisons and the conversions say nothing about. -/
structure Arithmetic where
  add : Value binary32 → Value binary32 → Value binary32
  sub : Value binary32 → Value binary32 → Value binary32
  mul : Value binary32 → Value binary32 → Value binary32
  div : Value binary32 → Value binary32 → Value binary32
  neg : Value binary32 → Value binary32
  ofInt : Int → Value binary32
  pi : Value binary32
  sqrt : Value binary32 → Value binary32
  sin : Value binary32 → Value binary32
  cos : Value binary32 → Value binary32
  /-- `(int)d` -/
  toInt : Value binary64 → Int

def Single (_ : Arithmetic) : Type := Value binary32
def Double (_ : Arithmetic) : Type := Value binary64

instance (a : Arithmetic) : CFloat (Single a) where
  add := a.add
  sub := a.sub
  mul := a.mul
  div := a.div
  neg := a.neg
  lit q := (Value.ofRat q : Value binary32)
  ofInt := a.ofInt
  pi := a.pi
  sqrt := a.sqrt
  sin := a.sin
  cos := a.cos
  lt x y := (show Value binary32 from x).lt y
  isfinite x := (show Value binary32 from x).isFinite

instance (a : Arithmetic) : CDouble (Double a) (Single a) where
  lit q := (Value.ofRat q : Value binary64)
  lt x y := (show Value binary64 from x).lt y
  toInt := a.toInt
  nonzero d := (show Value binary64 from d).key ≠ some 0
  narrow d := (show Value binary64 from d).convert binary32
  widen f := (show Value binary32 from f).convert binary64

end SpnavBridge.Theory
