/-
# Wire.PrintNumber -- how cJSON writes a number, and what is read of it

`print_number` writes an `int` as one, and any other number with fifteen digits, or with
seventeen where the number is not found again.  Its text is a number of the grammar that fits
the buffer (`printNumber_reads`), and what is read of it is so near to the number that a
`float` comes back as it was (`narrow_printNumber`), but for the sign of a zero.
-/
import SpnavBridge.Theory.PrecisionText
import SpnavBridge.Theory.Recover
import SpnavBridge.Wire.Grammar

namespace SpnavBridge.Wire

open SpnavBridge.Theory

set_option autoImplicit false

/-! ## Writing -/

/-- `(int)d`, towards zero. -/
def truncated : Value binary64 → Int
  | .finite negative magnitude _ => Value.signed negative (magnitude / 2 ^ binary64.least)
  | _ => 0

/-- `valueint` of a number, which stops at the bounds of `int`. -/
def valueint (d : Value binary64) : Int :=
  if (Value.ofRat 2147483647 : Value binary64).le d then 2147483647
  else if d.le (Value.ofRat (-2147483648)) then -2147483648
  else truncated d

/-- `%d` -/
def integerText (i : Int) : List UInt8 :=
  (if i < 0 then [45] else []) ++
    if i = 0 then [48] else digitText (Nat.digits 10 i.natAbs)

/-- `sscanf` with `%lg`. -/
def scanDouble (text : List UInt8) : Option (Value binary64) :=
  match scanNumeral text with
  | some (negative, .number q, _) => some (.ofSigned negative q)
  | some (negative, .inf, _) => some (.inf negative)
  | some (_, .nan, _) => some .nan
  | none => none

/-- `compare_double`: the difference and the product are rounded once each. -/
def compareDouble : Value binary64 → Value binary64 → Bool
  | .finite s m _, .finite t n _ =>
      let a : ℚ := Value.signed s m / 2 ^ binary64.least
      let b : ℚ := Value.signed t n / 2 ^ binary64.least
      (Value.ofRat |a - b| : Value binary64).le (Value.ofRat (max |a| |b| / 2 ^ 52))
  | .nan, _ => false
  | _, .nan => false
  -- the difference of the two infinities is infinite, and that of one to itself is no number
  | .inf s, .inf t => s != t
  | _, _ => true

/-- `print_number` -/
def printNumber (d : Value binary64) : List UInt8 :=
  if d.isFinite then
    if d.key = (Value.ofRat (valueint d) : Value binary64).key then integerText (valueint d)
    else
      let found := match scanDouble (formatPrecision 15 d) with
        | some test => compareDouble test d
        | none => false
      if found then formatPrecision 15 d else formatPrecision 17 d
  else ascii "null"

/-! ## Numbers of the grammar -/

/-- `int [ frac ] [ exp ]` -/
inductive IsUnsigned : List UInt8 → Prop
  | mk (int frac exp : List UInt8)
      (int_ : int = [48] ∨ (Digits int ∧ int.head? ≠ some 48))
      (frac_ : frac = [] ∨ ∃ digits, Digits digits ∧ frac = 46 :: digits)
      (exp_ : exp = [] ∨ ∃ e mark digits, (e = 101 ∨ e = 69) ∧
        (mark = [] ∨ mark = [43] ∨ mark = [45]) ∧ Digits digits ∧ exp = e :: (mark ++ digits)) :
      IsUnsigned (int ++ (frac ++ exp))

theorem IsUnsigned.isNumber {body : List UInt8} (unsigned : IsUnsigned body) (negative : Bool) :
    IsNumber ((if negative then [45] else []) ++ body) := by
  obtain ⟨int, frac, exp, int_, frac_, exp_⟩ := unsigned
  cases negative with
  | false => exact .mk [] int frac exp (Or.inl rfl) int_ frac_ exp_
  | true => exact .mk [45] int frac exp (Or.inr rfl) int_ frac_ exp_

theorem digits_digitText {ds : List Nat} (some_ : ds ≠ []) (small : ∀ d ∈ ds, d < 10) :
    Digits (digitText ds) := by
  refine ⟨by simpa [digitText] using some_, fun b mem => ?_⟩
  obtain ⟨d, inside, rfl⟩ := List.mem_map.mp mem
  have digit : ∀ d < 10, isdigit (digitByte d) = true := by decide
  exact digit d (small d (List.mem_reverse.mp inside))

/-- Digits without a zero in front, or a zero. -/
theorem int_digitText {ds : List Nat} (some_ : ds ≠ []) (small : ∀ d ∈ ds, d < 10)
    (first : ds = [0] ∨ ds.getLast? ≠ some 0) :
    digitText ds = [48] ∨ (Digits (digitText ds) ∧ (digitText ds).head? ≠ some 48) := by
  rcases first with rfl | last
  · exact Or.inl rfl
  · refine Or.inr ⟨digits_digitText some_ small, ?_⟩
    rw [digitText, List.head?_map, List.head?_reverse]
    intro zero
    obtain ⟨d, is, same⟩ := Option.map_eq_some_iff.mp zero
    have inside : d ∈ ds := List.mem_of_getLast? is
    have only : ∀ d < 10, digitByte d = 48 → d = 0 := by decide
    exact last (only d (small d inside) same ▸ is)

theorem frac_pointText {p n : Nat} {whole fraction : List Nat} (written : Written p n whole fraction) :
    ∃ frac, pointText whole fraction = digitText whole ++ frac ∧
      (frac = [] ∨ ∃ digits, Digits digits ∧ frac = 46 :: digits) := by
  refine ⟨_, rfl, ?_⟩
  split_ifs with none_
  · exact Or.inl rfl
  · exact Or.inr ⟨_, digits_digitText none_ fun d inside =>
      written.digits' d ((List.dropWhile_sublist _).subset inside), rfl⟩

theorem exp_exponentText (x : Int) : ∃ e mark digits, (e = 101 ∨ e = 69) ∧
    (mark = [] ∨ mark = [43] ∨ mark = [45]) ∧ Digits digits ∧
      exponentText x = e :: (mark ++ digits) := by
  have small : ∀ d ∈ Nat.digitsAppend 10 2 x.natAbs, d < 10 := fun d mem =>
    Nat.lt_of_mem_digitsAppend (by decide) _ d mem
  have some_ : Nat.digitsAppend 10 2 x.natAbs ≠ [] := by
    intro none_
    have length := congrArg List.length none_
    rw [Nat.digitsAppend, List.length_append, List.length_replicate, List.length_nil] at length
    omega
  refine ⟨101, [if x < 0 then 45 else 43], _, Or.inl rfl, ?_, digits_digitText some_ small, rfl⟩
  split_ifs <;> simp

/-- What `%g` writes is a number of the grammar. -/
theorem isUnsigned_precisionForm {p : Nat} (some_ : 0 < p) {q : ℚ} (pos : 0 < q) :
    IsUnsigned (precisionForm p q) := by
  obtain ⟨n, whole, fraction, written, shape⟩ := precisionForm_eq some_ pos
  obtain ⟨frac, text, frac_⟩ := frac_pointText written
  have int_ := int_digitText written.some_ written.digits written.first
  rcases shape with ⟨plain, -⟩ | ⟨x, scientific, -⟩
  · rw [plain, text, ← List.append_nil frac]
    exact .mk _ _ _ int_ frac_ (Or.inl rfl)
  · rw [scientific, text, List.append_assoc]
    exact .mk _ _ _ int_ frac_ (Or.inr (exp_exponentText x))

/-! ## Reading -/

/-- The text is a number of the grammar, short enough for `number_buffer`, and is read so. -/
structure ReadsAs (text : List UInt8) (negative : Bool) (q : ℚ) : Prop where
  isNumber : IsNumber text
  scan : scanNumeral text = some (negative, .number q, [])
  short : text.length ≤ 25

theorem IsUnsigned.scan {body : List UInt8} {q : ℚ} (unsigned : IsUnsigned body)
    (scanned : scanNumber 10 10 101 body = some (q, [])) (negative : Bool) :
    scanNumeral ((if negative then [45] else []) ++ body) = some (negative, .number q, []) := by
  have plain : ∀ b ∈ body, tolower b ≠ 110 ∧ tolower b ≠ 120 := fun b mem =>
    isNumberByte_tolower ((unsigned.isNumber false).numeric b mem)
  obtain ⟨int, frac, exp, int_, frac_, exp_⟩ := unsigned
  obtain ⟨d, small, rest, first⟩ := (isNumber_int int_).head
  cases negative with
  | false =>
      have head : (int ++ (frac ++ exp)).head? = some (digitByte d) := by rw [first]; rfl
      rw [if_neg Bool.false_ne_true, List.nil_append, scanNumeral_decimal small head plain, scanned]
      rfl
  | true =>
      have front : scanSign (([45] ++ (int ++ (frac ++ exp))).dropWhile isspace) =
          (true, int ++ (frac ++ exp)) := rfl
      rw [if_pos rfl, scanNumeral, front, scanUnsigned_decimal plain, scanned]
      rfl

/-- `parse_number` reads a number that fits into `number_buffer` to its end. -/
theorem IsNumber.parseNumber {D : Type} (number : Bool → ℚ → D) {text rest : List UInt8}
    {negative : Bool} {q : ℚ} (isNumber : IsNumber text)
    (scan : scanNumeral text = some (negative, .number q, [])) (short : text.length ≤ 63)
    (stops : ¬ GoesOn rest) : parseNumber number (text ++ rest) = some (number negative q, rest) := by
  have copied : ((text ++ rest).take 63).takeWhile isNumberByte = text := by
    rw [List.take_append, List.take_of_length_le short,
      List.takeWhile_append_of_pos isNumber.numeric]
    have none_ : (rest.take (63 - text.length)).takeWhile isNumberByte = [] := by
      cases rest with
      | nil => rw [List.take_nil, List.takeWhile_nil]
      | cons b rest =>
          have other : ¬ isNumberByte b = true := fun numeric => stops ⟨b, rfl, numeric⟩
          cases 63 - text.length with
          | zero => rfl
          | succ k => rw [List.take_succ_cons, List.takeWhile_cons_of_neg other]
    rw [none_, List.append_nil]
  unfold Wire.parseNumber
  rw [copied]
  dsimp only
  rw [scan]
  dsimp only
  rw [List.length_nil, Nat.sub_zero, List.drop_left]

theorem ReadsAs.parseNumber {D : Type} (number : Bool → ℚ → D) {text rest : List UInt8}
    {negative : Bool} {q : ℚ} (reads : ReadsAs text negative q) (stops : ¬ GoesOn rest) :
    parseNumber number (text ++ rest) = some (number negative q, rest) :=
  reads.isNumber.parseNumber number reads.scan (reads.short.trans (by decide)) stops

/-! ### Integers -/

theorem readsAs_integerText {i : Int} (bounded : i.natAbs < 10 ^ 10) :
    ReadsAs (integerText i) (decide (i < 0)) i.natAbs := by
  by_cases zero : i = 0
  · subst zero
    have unsigned : IsUnsigned [48] := .mk [48] [] [] (Or.inl rfl) (Or.inl rfl) (Or.inl rfl)
    have scanned : scanNumber 10 10 101 [48] = some (0, []) := by decide +kernel
    exact ⟨unsigned.isNumber false, unsigned.scan scanned false, by decide⟩
  · have nonzero : i.natAbs ≠ 0 := Int.natAbs_ne_zero.mpr zero
    have some_ : Nat.digits 10 i.natAbs ≠ [] := Nat.digits_ne_nil_iff_ne_zero.mpr nonzero
    have small : ∀ d ∈ Nat.digits 10 i.natAbs, d < 10 := fun d mem =>
      Nat.digits_lt_base (by decide) mem
    have length : (Nat.digits 10 i.natAbs).length ≤ 10 :=
      (Nat.digits_length_le_iff (by decide) _).mpr bounded
    have last : (Nat.digits 10 i.natAbs).getLast? ≠ some 0 := by
      rw [List.getLast?_eq_some_getLast some_]
      exact fun same => Nat.getLast_digit_ne_zero 10 nonzero (Option.some.inj same)
    have unsigned : IsUnsigned (digitText (Nat.digits 10 i.natAbs)) := by
      have made := IsUnsigned.mk _ [] [] (int_digitText some_ small (Or.inr last)) (Or.inl rfl)
        (Or.inl rfl)
      simpa using made
    have scanned : scanNumber 10 10 101 (digitText (Nat.digits 10 i.natAbs)) =
        some ((i.natAbs : ℚ), []) := by
      have stop : scanDigits 10 [] = ([], []) := rfl
      have whole := scanDigits_append small stop
      rw [List.append_nil] at whole
      rw [scanNumber, whole]
      simp [scanFraction, scanExponent, some_, Nat.ofDigits_digits]
    have text : integerText i = (if decide (i < 0) then [45] else []) ++
        digitText (Nat.digits 10 i.natAbs) := by
      rw [integerText, if_neg zero]
      simp
    rw [text]
    refine ⟨unsigned.isNumber _, unsigned.scan scanned _, ?_⟩
    rw [List.length_append, digitText, List.length_map, List.length_reverse]
    have sign : (if decide (i < 0) then [(45 : UInt8)] else []).length ≤ 1 := by
      split_ifs <;> simp
    omega

/-! ### Any other number -/

theorem length_exponentText {x : Int} (bounded : x.natAbs < 1000) :
    (exponentText x).length ≤ 5 := by
  have digits : (Nat.digits 10 x.natAbs).length ≤ 3 :=
    (Nat.digits_length_le_iff (by decide) _).mpr bounded
  rw [exponentText, digitText, Nat.digitsAppend]
  simp only [List.length_cons, List.length_map, List.length_reverse, List.length_append,
    List.length_replicate]
  omega

theorem length_precisionForm {p : Nat} (some_ : 0 < p) {q : ℚ} (low : (10 : ℚ) ^ (-900 : Int) ≤ q)
    (high : q < 10 ^ (900 : Int)) : (precisionForm p q).length ≤ p + 6 := by
  have pos : 0 < q := lt_of_lt_of_le (unit_pos _) low
  have bottom : -900 ≤ Int.log 10 q := (Int.zpow_le_iff_le_log (by decide) pos).mp (by exact_mod_cast low)
  have top : Int.log 10 q < 900 := (Int.lt_zpow_iff_log_lt (by decide) pos).mp (by exact_mod_cast high)
  obtain ⟨n, whole, fraction, written, ⟨text, -, length⟩ | ⟨x, text, -, length, least, most⟩⟩ :=
    precisionForm_eq some_ pos
  · have mantissa := @length_pointText_le whole fraction
    rw [text]
    omega
  · have mantissa := @length_pointText_le whole fraction
    have exponent := length_exponentText (x := x) (by omega)
    rw [text, List.length_append]
    omega

/-! ### Both -/

/-- An `int` is a `double`. -/
theorem key_ofRat_int {i : Int} (bounded : i.natAbs < 2 ^ 53) :
    (Value.ofRat i : Value binary64).key = some (i * 2 ^ binary64.least) := by
  have few : binary64.excess i.natAbs = 0 := by
    have fits := binary64.excess_lt (m := i.natAbs) (k := 0) bounded
    omega
  have bits : 2 ^ binary64.excess (i.natAbs * 2 ^ binary64.least) ∣ i.natAbs * 2 ^ binary64.least := by
    have fewer := binary64.excess_mul_two_pow i.natAbs binary64.least
    rw [few, Nat.zero_add] at fewer
    exact (Nat.pow_dvd_pow 2 fewer).trans (Nat.dvd_mul_left _ _)
  have rounded := binary64.round_of_bits Nat.one_pos bits
  rw [Nat.mul_one] at rounded
  have room : i.natAbs * 2 ^ binary64.least ≤ binary64.largest + 1 := by
    have span : 2 ^ binary64.least * 2 ≤ 2 ^ binary64.span := by
      rw [← Nat.pow_succ]
      exact Nat.pow_le_pow_right (by decide) (by decide)
    have few' : i.natAbs ≤ (2 ^ binary64.precision - 1) * 2 := by
      have precision : binary64.precision = 53 := rfl
      rw [precision]
      omega
    calc i.natAbs * 2 ^ binary64.least
        ≤ (2 ^ binary64.precision - 1) * 2 * 2 ^ binary64.least := Nat.mul_le_mul_right _ few'
      _ = (2 ^ binary64.precision - 1) * (2 ^ binary64.least * 2) := by ring
      _ ≤ binary64.largest := by
          rw [Format.largest]
          exact Nat.mul_le_mul_left _ span
      _ ≤ binary64.largest + 1 := Nat.le_add_right _ 1
  have sign : decide ((i : ℚ) < 0) = decide (i < 0) := by simp
  rw [Value.ofRat, Value.key_ofRatio, Rat.num_intCast, Rat.den_intCast, rounded,
    Nat.min_eq_left room, sign, Value.signed]
  congr 1
  push_cast
  split_ifs with below
  · rw [decide_eq_true_eq] at below
    rw [abs_of_neg below, Int.neg_mul, neg_neg]
  · rw [decide_eq_true_eq] at below
    rw [abs_of_nonneg (not_lt.mp below)]

theorem natAbs_signed (negative : Bool) (k : Nat) : (Value.signed negative k).natAbs = k := by
  unfold Value.signed
  split_ifs <;> simp

theorem le_iff_of_key {fmt : Format} {x y : Value fmt} {a b : Int} (left : x.key = some a)
    (right : y.key = some b) : x.le y = true ↔ a ≤ b := by
  unfold Value.le
  rw [left, right]
  exact decide_eq_true_iff

theorem valueint_bounded {negative : Bool} {m : Nat} (held : binary64.Held m) :
    (valueint (.finite negative m held)).natAbs ≤ 2147483648 := by
  have high := key_ofRat_int (i := 2147483647) (by decide)
  have low := key_ofRat_int (i := -2147483648) (by decide)
  push_cast at high low
  unfold valueint
  split_ifs with above below
  · decide
  · decide
  · have place : (Value.finite negative m held).key = some (Value.signed negative m) := rfl
    rw [le_iff_of_key high place] at above
    rw [le_iff_of_key place low] at below
    have less : m < 2147483648 * 2 ^ binary64.least := by
      have unit := Nat.two_pow_pos binary64.least
      have cast : ((2 ^ binary64.least : Nat) : Int) = 2 ^ binary64.least := Nat.cast_pow 2 _
      rw [← cast] at above below
      generalize 2 ^ binary64.least = u at above below unit ⊢
      unfold Value.signed at above below
      cases negative with
      | false =>
          rw [if_neg Bool.false_ne_true] at above
          omega
      | true =>
          rw [if_pos rfl] at below
          omega
    have quotient : m / 2 ^ binary64.least < 2147483648 :=
      Nat.div_lt_of_lt_mul (by rw [Nat.mul_comm]; exact less)
    show (Value.signed negative (m / 2 ^ binary64.least)).natAbs ≤ _
    rw [natAbs_signed]
    exact quotient.le

theorem signed_zero (negative : Bool) : Value.signed negative 0 = 0 := by
  cases negative <;> rfl

theorem valueint_zero (negative : Bool) (held : binary64.Held 0) :
    valueint (.finite negative 0 held) = 0 := by
  have high := key_ofRat_int (i := 2147483647) (by decide)
  have low := key_ofRat_int (i := -2147483648) (by decide)
  push_cast at high low
  have place : (Value.finite negative 0 held).key = some (Value.signed negative 0) := rfl
  have unit : (0 : Int) < 2 ^ binary64.least := by positivity
  rw [signed_zero] at place
  unfold valueint
  split_ifs with above below
  · rw [le_iff_of_key high place] at above
    linarith
  · rw [le_iff_of_key place low] at below
    linarith
  · rw [truncated, Nat.zero_div, signed_zero]

/-- A `double` that is an `int`. -/
theorem int_of_key {negative : Bool} {m : Nat} {i : Int}
    (same : Value.signed negative m = i * 2 ^ binary64.least) :
    m = i.natAbs * 2 ^ binary64.least ∧ (negative && decide (m ≠ 0)) = decide (i < 0) := by
  have cast : ((2 ^ binary64.least : Nat) : Int) = 2 ^ binary64.least := Nat.cast_pow 2 _
  have unit := Nat.two_pow_pos binary64.least
  rw [← cast] at same
  generalize 2 ^ binary64.least = u at same unit ⊢
  have size := congrArg Int.natAbs same
  rw [natAbs_signed, Int.natAbs_mul, Int.natAbs_natCast] at size
  refine ⟨size, ?_⟩
  have unit' : (0 : Int) < u := by exact_mod_cast unit
  rw [Bool.eq_iff_iff, Bool.and_eq_true, decide_eq_true_eq, decide_eq_true_eq]
  unfold Value.signed at same
  cases negative with
  | false =>
      rw [if_neg Bool.false_ne_true] at same
      refine ⟨fun below => absurd below.1 Bool.false_ne_true, fun below => ?_⟩
      have product := mul_neg_of_neg_of_pos below unit'
      omega
  | true =>
      rw [if_pos rfl] at same
      constructor
      · rintro ⟨-, some_⟩
        by_contra nonneg
        have product := mul_nonneg (not_lt.mp nonneg) unit'.le
        omega
      · intro below
        have product := mul_neg_of_neg_of_pos below unit'
        exact ⟨rfl, by omega⟩

section Digits

variable {m : Nat} (held : binary64.Held m) (some_ : m ≠ 0)
include held some_

theorem double_bounds : (10 : ℚ) ^ (-900 : Int) ≤ m / 2 ^ binary64.least ∧
    (m : ℚ) / 2 ^ binary64.least < 10 ^ (900 : Int) := by
  have least : (1 : ℚ) ≤ m := by exact_mod_cast Nat.one_le_iff_ne_zero.mpr some_
  have power : (8 : ℚ) ^ 900 ≤ 10 ^ 900 := pow_le_pow_left₀ (by norm_num) (by norm_num) _
  obtain ⟨bits, room⟩ : ∃ bits : Nat, bits = 3 * 900 := ⟨_, rfl⟩
  have octal : (8 : ℚ) ^ 900 = 2 ^ bits := by
    rw [room, pow_mul]
    norm_num only
  have fits : binary64.precision + binary64.span ≤ bits := by
    rw [room]
    decide
  have most : (m : ℚ) < 2 ^ bits := by
    have bounded : m < 2 ^ bits := by
      calc m ≤ binary64.largest := held.bounded
        _ < 2 ^ (binary64.precision + binary64.span) := binary64.largest_lt
        _ ≤ 2 ^ bits := Nat.pow_le_pow_right (by decide) fits
    exact_mod_cast bounded
  have scale : (2 : ℚ) ^ binary64.least ≤ 2 ^ bits :=
    pow_le_pow_right₀ (by norm_num) (le_trans (by decide) fits)
  have one : (1 : ℚ) ≤ 2 ^ binary64.least := one_le_pow₀ (by norm_num)
  have unit : (0 : ℚ) < 2 ^ binary64.least := by positivity
  rw [octal] at power
  generalize (2 : ℚ) ^ binary64.least = u at scale one unit ⊢
  generalize (2 : ℚ) ^ bits = v at most scale power
  rw [zpow_neg, show ((900 : Int)) = ((900 : Nat) : Int) from rfl, zpow_natCast]
  generalize (10 : ℚ) ^ 900 = w at power ⊢
  constructor
  · rw [le_div_iff₀ unit, inv_mul_le_iff₀ (by linarith)]
    nlinarith
  · rw [div_lt_iff₀ unit]
    nlinarith

theorem formatPrecision_readsAs (negative : Bool) {p : Nat} (some' : 0 < p) (most : p ≤ 18) :
    ReadsAs (formatPrecision p (.finite negative m held)) negative
      (toDigits p (m / 2 ^ binary64.least)) := by
  obtain ⟨low, high⟩ := double_bounds held some_
  have pos : 0 < (m : ℚ) / 2 ^ binary64.least := lt_of_lt_of_le (unit_pos _) low
  have text : formatPrecision p (.finite negative m held) = (if negative then [45] else []) ++
      precisionForm p (m / 2 ^ binary64.least) := by
    rw [formatPrecision, if_neg some_]
  have unsigned := isUnsigned_precisionForm some' pos
  have ends : Stops [] := ⟨rfl, rfl, rfl, List.forall_mem_nil _⟩
  have scanned := scanNumber_precisionForm some' pos ends
  have length := length_precisionForm some' low high
  have sign : (if negative then [(45 : UInt8)] else []).length ≤ 1 := by
    split_ifs <;> simp
  rw [List.append_nil] at scanned
  rw [text]
  refine ⟨unsigned.isNumber negative, unsigned.scan scanned negative, ?_⟩
  rw [List.length_append]
  omega

/-- Fifteen digits or more. -/
theorem formatPrecision_reads (negative : Bool) {p : Nat} (enough : 15 ≤ p) (most : p ≤ 18) :
    ReadsAs (formatPrecision p (.finite negative m held)) negative
        (toDigits p (m / 2 ^ binary64.least)) ∧
      |toDigits p (m / 2 ^ binary64.least) - (m : ℚ) / 2 ^ binary64.least| ≤
        (m : ℚ) / 2 ^ binary64.least / 2 ^ 40 := by
  refine ⟨formatPrecision_readsAs held some_ negative (by omega) most, ?_⟩
  have pos : 0 < (m : ℚ) / 2 ^ binary64.least :=
    lt_of_lt_of_le (unit_pos _) (double_bounds held some_).1
  have near := toDigits_near p pos
  generalize (m : ℚ) / 2 ^ binary64.least = q at pos near ⊢
  have scale : (10 : ℚ) ^ 15 ≤ 10 ^ p := pow_le_pow_right₀ (by norm_num) enough
  have error := mul_le_mul_of_nonneg_left scale (abs_nonneg (toDigits p q - q))
  rw [le_div_iff₀ (by positivity)]
  norm_num at error ⊢
  linarith

end Digits

/-- **Every finite number is written as a number of the grammar**, which is read as one that is
near to it.  A zero loses its sign. -/
theorem printNumber_reads (negative : Bool) {m : Nat} (held : binary64.Held m) :
    ∃ q, ReadsAs (printNumber (.finite negative m held)) (negative && decide (m ≠ 0)) q ∧
      |q - (m : ℚ) / 2 ^ binary64.least| ≤ (m : ℚ) / 2 ^ binary64.least / 2 ^ 40 := by
  have bounded : (valueint (.finite negative m held)).natAbs ≤ 2147483648 := valueint_bounded held
  have place : (Value.finite negative m held).key = some (Value.signed negative m) := rfl
  have exact_ := key_ofRat_int (i := valueint (.finite negative m held)) (by omega)
  have finite : (Value.finite negative m held).isFinite = true := rfl
  unfold printNumber
  rw [if_pos finite, place, exact_]
  by_cases same : Value.signed negative m = valueint (.finite negative m held) * 2 ^ binary64.least
  · rw [if_pos (congrArg some same)]
    obtain ⟨size, sign⟩ := int_of_key same
    refine ⟨_, sign ▸ readsAs_integerText (by omega), ?_⟩
    have unit : (2 : ℚ) ^ binary64.least ≠ 0 := by positivity
    have value : (m : ℚ) / 2 ^ binary64.least =
        ((valueint (.finite negative m held)).natAbs : ℚ) := by
      rw [div_eq_iff unit]
      have cast : ((2 ^ binary64.least : Nat) : ℚ) = 2 ^ binary64.least := Nat.cast_pow 2 _
      rw [← cast, ← Nat.cast_mul, ← size]
    rw [value, sub_self, abs_zero]
    exact div_nonneg (Nat.cast_nonneg _) (by norm_num)
  · rw [if_neg fun other => same (Option.some.inj other)]
    have some_ : m ≠ 0 := by
      rintro rfl
      rw [valueint_zero, signed_zero, Int.zero_mul] at same
      exact same rfl
    have sign : (negative && decide (m ≠ 0)) = negative := by simp [some_]
    rw [sign]
    dsimp only
    split_ifs
    · exact ⟨_, formatPrecision_reads held some_ negative le_rfl (by decide)⟩
    · exact ⟨_, formatPrecision_reads held some_ negative (by decide) (by decide)⟩

/-! ## A `float` -/

/-- The value without the sign of a zero. -/
def plainZero {fmt : Format} : Value fmt → Value fmt
  | .finite negative m held => .finite (negative && decide (m ≠ 0)) m held
  | .inf negative => .inf negative
  | .nan => .nan

/-- A `float` that becomes a `double` keeps its bits. -/
theorem widen_finite (negative : Bool) {m : Nat} (held : binary32.Held m) :
    ∃ held', (Value.finite negative m held : Value binary32).convert binary64 =
      .finite negative (m * 2 ^ (binary64.least - binary32.least)) held' := by
  have precision : binary32.precision ≤ binary64.precision := by decide
  have least : binary32.least ≤ binary64.least := by decide
  exact Value.convert_widen precision least (by decide +kernel) negative held

theorem ofSigned_zero (fmt : Format) (negative : Bool) :
    ∃ held, (Value.ofSigned negative 0 : Value fmt) = .finite negative 0 held := by
  have same : fmt.round ((0 : ℚ).num.natAbs * 2 ^ fmt.least) (0 : ℚ).den = 0 := by
    rw [Rat.num_zero, Int.natAbs_zero, Nat.zero_mul, ← Nat.zero_mul (0 : ℚ).den]
    exact fmt.round_of_bits (Rat.den_pos 0) (Nat.dvd_zero _)
  refine ⟨⟨Nat.dvd_zero _, Nat.zero_le _⟩, ?_⟩
  unfold Value.ofSigned Value.ofRatio
  simp only [same, dif_pos (Nat.zero_le fmt.largest)]

theorem convert_zero {fmt : Format} (dst : Format) (negative : Bool) (held : fmt.Held 0) :
    ∃ held', (Value.finite negative 0 held : Value fmt).convert dst = .finite negative 0 held' := by
  have none_ := dst.round_of_bits (Nat.two_pow_pos fmt.least) (Nat.dvd_zero (2 ^ dst.excess 0))
  have same : dst.round (0 * 2 ^ dst.least) (2 ^ fmt.least) = 0 := by
    rw [Nat.zero_mul] at none_ ⊢
    exact none_
  refine ⟨⟨Nat.dvd_zero _, Nat.zero_le _⟩, ?_⟩
  unfold Value.convert Value.ofRatio
  simp only [same, dif_pos (Nat.zero_le dst.largest)]

/-- **A `float` comes back as it was**, but for the sign of a zero. -/
theorem narrow_printNumber {v : Value binary32} (finite : v.isFinite = true) {rest : List UInt8}
    (stops : ¬ GoesOn rest) :
    ∃ w : Value binary64,
      parseNumber Value.ofSigned (printNumber (v.convert binary64) ++ rest) = some (w, rest) ∧
      w.convert binary32 = plainZero v := by
  cases v with
  | nan => cases finite
  | inf negative => cases finite
  | finite negative m held =>
      obtain ⟨held', wide⟩ := widen_finite negative held
      obtain ⟨q, reads, near⟩ := printNumber_reads negative held'
      rw [wide]
      refine ⟨_, reads.parseNumber Value.ofSigned stops, ?_⟩
      have split : binary64.least = binary64.least - binary32.least + binary32.least := rfl
      have units : ((m * 2 ^ (binary64.least - binary32.least) : Nat) : ℚ) / 2 ^ binary64.least =
          m / 2 ^ binary32.least := by
        push_cast
        generalize binary64.least = wider at split ⊢
        generalize wider - binary32.least = more at split ⊢
        rw [split, pow_add, mul_comm (m : ℚ)]
        exact mul_div_mul_left _ _ (by positivity)
      have nonzero : m * 2 ^ (binary64.least - binary32.least) ≠ 0 ↔ m ≠ 0 := by
        rw [ne_eq, Nat.mul_eq_zero, not_or]
        exact and_iff_left (Nat.two_pow_pos _).ne'
      rw [units] at near
      by_cases zero : m = 0
      · subst zero
        have same : q = 0 := by simpa using near
        subst same
        have sign : (negative && decide (0 * 2 ^ (binary64.least - binary32.least) ≠ 0)) = false := by
          rw [decide_eq_false (mt nonzero.mp (fun some_ => some_ rfl)), Bool.and_false]
        obtain ⟨held₁, shape⟩ := ofSigned_zero binary64 false
        obtain ⟨held₂, back⟩ := convert_zero binary32 false held₁
        rw [sign, shape, back, plainZero, decide_eq_false (fun some_ => some_ rfl), Bool.and_false]
      · rw [plainZero, decide_eq_true (nonzero.mpr zero), decide_eq_true zero]
        exact Value.narrow_of_near held zero near _

end SpnavBridge.Wire
