/-
# Theory.NumberText -- the numbers in texts: `%g`, and what `strtof` reads

`scanNumeral` is how the `strto` functions read a text in the "C" locale: blanks, a sign, and
then an infinity, a NaN, a hexadecimal or a decimal number, as far as it goes.  `formatG` is
how `%g` writes a value: six significant digits, without the zeros behind the point, and in
the style with an exponent where the number is very large or very small.

* `scanNumeral_formatG`: what `%g` writes for a number of a middling size is read as the
  decimal of six digits that it stands for (`toDigits`), whatever ends it.
-/
import Mathlib.Data.Nat.Digits.Lemmas
import SpnavBridge.Theory.CString
import SpnavBridge.Theory.Decimal

namespace SpnavBridge.Theory

set_option autoImplicit false

/-! ## Reading -/

/-- The value of a digit, also of a hexadecimal one. -/
def digitValue (b : UInt8) : Option Nat :=
  if isdigit b then some (b.toNat - 48)
  else if 97 ≤ tolower b ∧ tolower b ≤ 102 then some ((tolower b).toNat - 87)
  else none

/-- The digits in front, the first one first, and what is behind them. -/
def scanDigits (base : Nat) : List UInt8 → List Nat × List UInt8
  | [] => ([], [])
  | b :: l =>
      match (digitValue b).filter (· < base) with
      | some d => (d :: (scanDigits base l).1, (scanDigits base l).2)
      | none => ([], b :: l)

def scanFraction (base : Nat) : List UInt8 → List Nat × List UInt8
  | 46 :: l => scanDigits base l
  | l => ([], l)

/-- Whether there is a minus, and what is behind the sign. -/
def scanSign : List UInt8 → Bool × List UInt8
  | 45 :: l => (true, l)
  | 43 :: l => (false, l)
  | l => (false, l)

/-- An exponent that has no digits is none. -/
def scanExponent (mark : UInt8) : List UInt8 → Int × List UInt8
  | [] => (0, [])
  | b :: l =>
      let digits := scanDigits 10 (scanSign l).2
      if tolower b = mark ∧ digits.1 ≠ [] then
        let size : Nat := Nat.ofDigits 10 digits.1.reverse
        (if (scanSign l).1 then -size else size, digits.2)
      else (0, b :: l)

/-- A number with at least one digit.  The exponent counts powers of `radix`. -/
def scanNumber (base radix : Nat) (mark : UInt8) (l : List UInt8) : Option (ℚ × List UInt8) :=
  let whole := scanDigits base l
  let fraction := scanFraction base whole.2
  let exponent := scanExponent mark fraction.2
  if whole.1 ++ fraction.1 = [] then none
  else
    let digits : Nat := Nat.ofDigits base (whole.1 ++ fraction.1).reverse
    some (digits / base ^ fraction.1.length * radix ^ exponent.1, exponent.2)

/-- What is behind a word, in upper or lower case. -/
def afterWord (word l : List UInt8) : Option (List UInt8) :=
  if (l.take word.length).map tolower = word then some (l.drop word.length) else none

/-- What is behind the `(...)` of a NaN. -/
def afterPayload : List UInt8 → List UInt8
  | 40 :: l =>
      match l.dropWhile fun b => isdigit b || (97 ≤ tolower b && tolower b ≤ 122) || b = 95 with
      | 41 :: rest => rest
      | _ => 40 :: l
  | l => l

inductive Numeral where
  | nan
  | inf
  | number (q : ℚ)

def scanUnsigned (l : List UInt8) : Option (Numeral × List UInt8) :=
  match afterWord (ascii "infinity") l <|> afterWord (ascii "inf") l with
  | some rest => some (.inf, rest)
  | none =>
      match afterWord (ascii "nan") l with
      | some rest => some (.nan, afterPayload rest)
      | none =>
          -- without a digit behind it, the `0` of `0x` is all there is
          match (afterWord (ascii "0x") l).bind (scanNumber 16 2 112) <|>
              scanNumber 10 10 101 l with
          | some (q, rest) => some (.number q, rest)
          | none => none

/-- Whether there is a minus, the numeral, and what is behind it. -/
def scanNumeral (l : List UInt8) : Option (Bool × Numeral × List UInt8) :=
  let signed := scanSign (l.dropWhile isspace)
  (scanUnsigned signed.2).map fun read => (signed.1, read)

/-! ## Writing -/

def digitByte (d : Nat) : UInt8 := .ofNat (48 + d)

/-- Digits, of which the last one is given first. -/
def digitText (digits : List Nat) : List UInt8 := digits.reverse.map digitByte

/-- A number in front of a point and behind it, without the zeros at the end. -/
def pointText (whole fraction : List Nat) : List UInt8 :=
  let kept := fraction.dropWhile (· = 0)
  digitText whole ++ if kept = [] then [] else 46 :: digitText kept

/-- `n / 10 ^ k`, where `n` has six digits -/
def fixedText (n k : Nat) : List UInt8 :=
  let digits := Nat.digitsAppend 10 (max 6 (k + 1)) n
  pointText (digits.drop k) (digits.take k)

/-- Six digits with the point behind the first one, and an exponent of at least two. -/
def scientificText (n : Nat) (exponent : Int) : List UInt8 :=
  let digits := Nat.digitsAppend 10 6 n
  pointText (digits.drop 5) (digits.take 5) ++
    101 :: (if exponent < 0 then 45 else 43) ::
      digitText (Nat.digitsAppend 10 2 exponent.natAbs)

/-- Six digits, when the last one has carried through to a seventh, too. -/
def sixDigits (q : ℚ) : Nat × Int :=
  let printed := digitsOf 6 q
  if printed.1 = 10 ^ 6 then (10 ^ 5, printed.2 + 1) else printed

def positiveText (q : ℚ) : List UInt8 :=
  let printed := sixDigits q
  let exponent := printed.2 + 5
  if -4 ≤ exponent ∧ exponent < 6 then fixedText printed.1 (-printed.2).toNat
  else scientificText printed.1 exponent

variable {fmt : Format}

/-- `%g` -/
def formatG : Value fmt → CStr
  | .nan => .lit "nan"
  | .inf negative => .lit (if negative then "-inf" else "inf")
  | .finite negative magnitude _ =>
      .ofBytes ((if negative then [45] else []) ++
        if magnitude = 0 then [48] else positiveText (magnitude / 2 ^ fmt.least))

/-! ## What is written is read back -/

/-- A text that goes on with no number. -/
structure Stops (rest : List UInt8) : Prop where
  digits : scanDigits 10 rest = ([], rest)
  fraction : scanFraction 10 rest = ([], rest)
  exponent : scanExponent 101 rest = (0, rest)
  plain : ∀ b ∈ rest, tolower b ≠ 110 ∧ tolower b ≠ 120

theorem digitValue_digitByte : ∀ d < 10, digitValue (digitByte d) = some d := by decide

/-- A digit or the point. -/
def Plain (b : UInt8) : Prop := (∃ d < 10, b = digitByte d) ∨ b = 46

theorem Plain.of_digits {P : UInt8 → Prop} (digit : ∀ d < 10, P (digitByte d)) (point : P 46)
    {b : UInt8} (plain : Plain b) : P b := by
  rcases plain with ⟨d, small, rfl⟩ | rfl
  · exact digit d small
  · exact point

theorem scanDigits_append {digits : List Nat} (small : ∀ d ∈ digits, d < 10) {rest : List UInt8}
    (stop : scanDigits 10 rest = ([], rest)) :
    scanDigits 10 (digitText digits ++ rest) = (digits.reverse, rest) := by
  have small' : ∀ d ∈ digits.reverse, d < 10 := by simpa using small
  rw [digitText]
  generalize digits.reverse = ds at small' ⊢
  induction ds with
  | nil => exact stop
  | cons d ds ih =>
      have digit : d < 10 := small' d (by simp)
      have further := ih fun e mem => small' e (by simp [mem])
      rw [List.map_cons, List.cons_append, scanDigits, digitValue_digitByte d digit,
        Option.filter_some, if_pos (by simpa using digit)]
      simp [further]

/-- The zeros at the end of a fraction do not count. -/
theorem ofDigits_dropWhile (fraction whole : List Nat) :
    ((Nat.ofDigits 10 (fraction.dropWhile (· = 0) ++ whole) : Nat) : ℚ) /
        10 ^ (fraction.dropWhile (· = 0)).length =
      ((Nat.ofDigits 10 (fraction ++ whole) : Nat) : ℚ) / 10 ^ fraction.length := by
  induction fraction with
  | nil => rfl
  | cons d ds ih =>
      by_cases zero : d = 0
      · subst zero
        rw [List.dropWhile_cons_of_pos (by simp), ih, List.cons_append, Nat.ofDigits_cons,
          List.length_cons, pow_succ]
        push_cast
        field_simp
        simp
      · rw [List.dropWhile_cons_of_neg (by simpa using zero)]

section PointText

variable {whole fraction : List Nat}

theorem pointText_bytes (small : ∀ d ∈ whole, d < 10) (small' : ∀ d ∈ fraction, d < 10) :
    ∀ b ∈ pointText whole fraction, Plain b := by
  have digit : ∀ ds : List Nat, (∀ d ∈ ds, d < 10) → ∀ b ∈ digitText ds, Plain b := by
    intro ds small b mem
    obtain ⟨d, inside, rfl⟩ := List.mem_map.mp mem
    exact .inl ⟨d, small d (List.mem_reverse.mp inside), rfl⟩
  intro b mem
  rw [pointText, List.mem_append] at mem
  rcases mem with front | back
  · exact digit whole small b front
  · split_ifs at back
    · simp at back
    · rcases List.mem_cons.mp back with point | back
      · exact .inr point
      · refine digit _ (fun d inside => small' d ?_) b back
        exact (List.dropWhile_sublist _).subset inside

theorem pointText_cons (some_ : whole ≠ []) (small : ∀ d ∈ whole, d < 10) :
    ∃ d < 10, ∃ rest, pointText whole fraction = digitByte d :: rest := by
  obtain ⟨d, ds, shape⟩ := List.exists_cons_of_ne_nil (List.reverse_ne_nil_iff.mpr some_)
  have inside : d ∈ whole := by
    rw [← List.mem_reverse, shape]
    simp
  exact ⟨d, small d inside, _, by rw [pointText, digitText, shape, List.map_cons, List.cons_append]⟩

theorem length_pointText_le :
    (pointText whole fraction).length ≤ whole.length + fraction.length + 1 := by
  have kept : (fraction.dropWhile (· = 0)).length ≤ fraction.length :=
    (List.dropWhile_sublist _).length_le
  rw [pointText]
  split_ifs
  · simp [digitText]
    omega
  · simp only [digitText, List.length_append, List.length_map, List.length_reverse,
      List.length_cons]
    omega

theorem scanNumber_pointText (some_ : whole ≠ []) (small : ∀ d ∈ whole, d < 10)
    (small' : ∀ d ∈ fraction, d < 10) {rest : List UInt8} (stops : Stops rest) :
    scanNumber 10 10 101 (pointText whole fraction ++ rest) =
      some (((Nat.ofDigits 10 (fraction ++ whole) : Nat) : ℚ) / 10 ^ fraction.length, rest) := by
  have kept_small : ∀ d ∈ fraction.dropWhile (· = 0), d < 10 := fun d inside =>
    small' d ((List.dropWhile_sublist _).subset inside)
  have number : ∀ l : List UInt8, scanDigits 10 l = ([], l) →
      scanFraction 10 l = ((fraction.dropWhile (· = 0)).reverse, rest) →
      scanNumber 10 10 101 (digitText whole ++ l) =
        some (((Nat.ofDigits 10 (fraction ++ whole) : Nat) : ℚ) / 10 ^ fraction.length, rest) := by
    intro l stop behind
    have first : whole.reverse ++ (fraction.dropWhile (· = 0)).reverse ≠ [] := by simp [some_]
    rw [scanNumber]
    simp only [scanDigits_append small stop, behind, stops.exponent, if_neg first]
    rw [List.reverse_append, List.reverse_reverse, List.reverse_reverse, List.length_reverse,
      zpow_zero, mul_one]
    congr 2
    exact_mod_cast ofDigits_dropWhile fraction whole
  rw [pointText, List.append_assoc]
  split_ifs with none_
  · refine number rest stops.digits ?_
    rw [stops.fraction, none_]
    rfl
  · exact number _ rfl (scanDigits_append kept_small stops.digits)

end PointText

/-! ## Numbers of a middling size -/

theorem afterWord_eq_none {word l : List UInt8} {b : UInt8} (inside : b ∈ word)
    (clean : ∀ c ∈ l, tolower c ≠ b) : afterWord word l = none := by
  refine if_neg fun same => ?_
  rw [← same] at inside
  obtain ⟨c, mem, lower⟩ := List.mem_map.mp inside
  exact clean c (List.mem_of_mem_take mem) lower

/-- A text of a decimal number is not mistaken for anything else. -/
theorem scanUnsigned_decimal {l : List UInt8} (plain : ∀ b ∈ l, tolower b ≠ 110 ∧ tolower b ≠ 120) :
    scanUnsigned l = (scanNumber 10 10 101 l).map fun read => (.number read.1, read.2) := by
  have infinity : afterWord (ascii "infinity") l = none :=
    afterWord_eq_none (b := 110) (by decide) fun c mem => (plain c mem).1
  have inf : afterWord (ascii "inf") l = none :=
    afterWord_eq_none (b := 110) (by decide) fun c mem => (plain c mem).1
  have nan : afterWord (ascii "nan") l = none :=
    afterWord_eq_none (b := 110) (by decide) fun c mem => (plain c mem).1
  have hex : afterWord (ascii "0x") l = none :=
    afterWord_eq_none (b := 120) (by decide) fun c mem => (plain c mem).2
  rw [scanUnsigned, infinity, inf, nan, hex]
  cases scanNumber 10 10 101 l <;> rfl

theorem scanNumeral_decimal {l : List UInt8} {d : Nat} (digit : d < 10)
    (first : l.head? = some (digitByte d))
    (plain : ∀ b ∈ l, tolower b ≠ 110 ∧ tolower b ≠ 120) :
    scanNumeral l = (scanNumber 10 10 101 l).map fun read => (false, .number read.1, read.2) := by
  obtain ⟨rest, rfl⟩ : ∃ rest, l = digitByte d :: rest := List.head?_eq_some_iff.mp first
  have start : ∀ d < 10, isspace (digitByte d) = false ∧ digitByte d ≠ 45 ∧ digitByte d ≠ 43 := by
    decide
  obtain ⟨blank, minus, plus⟩ := start d digit
  have front : scanSign ((digitByte d :: rest).dropWhile isspace) = (false, digitByte d :: rest) := by
    rw [List.dropWhile_cons_of_neg (by simp [blank])]
    unfold scanSign
    split <;> simp_all
  rw [scanNumeral, front, scanUnsigned_decimal plain]
  cases scanNumber 10 10 101 (digitByte d :: rest) <;> rfl

section FixedText

variable {n : Nat} (k : Nat) (small : n < 10 ^ 6)
include small

theorem fixedText_eq : ∃ whole fraction : List Nat,
    fixedText n k = pointText whole fraction ∧ whole ≠ [] ∧ (∀ d ∈ whole, d < 10) ∧
      (∀ d ∈ fraction, d < 10) ∧ fraction.length = k ∧
      whole.length + fraction.length = max 6 (k + 1) ∧
      Nat.ofDigits 10 (fraction ++ whole) = n := by
  have fits : n < 10 ^ max 6 (k + 1) :=
    small.trans_le (Nat.pow_le_pow_right (by decide) (Nat.le_max_left ..))
  have length := Nat.length_digitsAppend (by decide : 1 < 10) _ fits
  have digit : ∀ d ∈ Nat.digitsAppend 10 (max 6 (k + 1)) n, d < 10 := fun d mem =>
    Nat.lt_of_mem_digitsAppend (by decide) _ d mem
  refine ⟨_, _, rfl, ?_, fun d mem => digit d (List.mem_of_mem_drop mem),
    fun d mem => digit d (List.mem_of_mem_take mem), ?_, ?_, ?_⟩
  · rw [Ne, List.drop_eq_nil_iff, length]
    omega
  · rw [List.length_take, length]
    omega
  · rw [List.length_drop, List.length_take, length]
    omega
  · rw [List.take_append_drop, Nat.digitsAppend, Nat.ofDigits_append_replicate_zero,
      Nat.ofDigits_digits]

theorem scanNumeral_fixedText {rest : List UInt8} (stops : Stops rest) :
    scanNumeral (fixedText n k ++ rest) = some (false, .number (n / 10 ^ k), rest) := by
  obtain ⟨whole, fraction, shape, some_, digits, digits', places, -, value⟩ :=
    fixedText_eq k small
  obtain ⟨d, digit, further, first⟩ := pointText_cons some_ digits
  rw [shape, scanNumeral_decimal digit (by rw [first]; rfl),
    scanNumber_pointText some_ digits digits' stops, value, places]
  · rfl
  · intro b mem
    rcases List.mem_append.mp mem with front | back
    · exact Plain.of_digits (P := fun b => tolower b ≠ 110 ∧ tolower b ≠ 120) (by decide)
        (by decide) (pointText_bytes digits digits' b front)
    · exact stops.plain b back

theorem fixedText_bytes : ∀ b ∈ fixedText n k, Plain b := by
  obtain ⟨whole, fraction, shape, -, digits, digits', -⟩ := fixedText_eq k small
  rw [shape]
  exact pointText_bytes digits digits'

theorem fixedText_ne_nil : fixedText n k ≠ [] := by
  obtain ⟨whole, fraction, shape, some_, digits, -⟩ := fixedText_eq k small
  obtain ⟨d, -, rest, first⟩ := pointText_cons some_ digits
  rw [shape, first]
  exact List.cons_ne_nil _ _

theorem length_fixedText_le : (fixedText n k).length ≤ max 6 (k + 1) + 1 := by
  obtain ⟨whole, fraction, shape, -, -, -, -, length, -⟩ := fixedText_eq k small
  rw [shape, ← length]
  exact length_pointText_le

end FixedText

theorem sixDigits_spec {q : ℚ} (pos : 0 < q) :
    (sixDigits q).1 < 10 ^ 6 ∧ (sixDigits q).1 * 10 ^ (sixDigits q).2 = toDigits 6 q ∧
      Int.log 10 q - 5 ≤ (sixDigits q).2 ∧ (sixDigits q).2 ≤ Int.log 10 q - 4 := by
  have most := digitsOf_le (p := 6) pos
  have last : (digitsOf 6 q).2 = Int.log 10 q + 1 - 6 := rfl
  unfold sixDigits
  dsimp only
  split_ifs with carry
  · refine ⟨by norm_num, ?_, by dsimp only; omega, by dsimp only; omega⟩
    rw [toDigits, carry, zpow_add_one₀ (by norm_num)]
    push_cast
    ring
  · exact ⟨by omega, rfl, by omega, by omega⟩

/-- Where `%g` has no exponent, and few digits in front of the point and behind it. -/
theorem positiveText_eq {q : ℚ} (low : 1 / 10 ^ 4 ≤ q) (high : q < 10 ^ 5) :
    ∃ n k : Nat, n < 10 ^ 6 ∧ k < 10 ∧ positiveText q = fixedText n k ∧
      (n : ℚ) / 10 ^ k = toDigits 6 q := by
  have pos : 0 < q := lt_of_lt_of_le (by norm_num) low
  obtain ⟨small, value, least, most⟩ := sixDigits_spec pos
  have bottom : -4 ≤ Int.log 10 q := by
    rw [← Int.zpow_le_iff_le_log (by decide) pos]
    norm_num at low ⊢
    exact low
  have top : Int.log 10 q < 5 := by
    rw [← Int.lt_zpow_iff_log_lt (by decide) pos]
    exact_mod_cast high
  refine ⟨_, (-(sixDigits q).2).toNat, small, by omega, ?_, ?_⟩
  · rw [positiveText]
    exact if_pos ⟨by omega, by omega⟩
  · have places : ((-(sixDigits q).2).toNat : Int) = -(sixDigits q).2 := by omega
    rw [← value, ← zpow_natCast, places, zpow_neg, div_inv_eq_mul]

section FormatG

variable {m : Nat} (held : fmt.Held m) (low : 1 / 10 ^ 4 ≤ (m : ℚ) / 2 ^ fmt.least)
  (high : (m : ℚ) / 2 ^ fmt.least < 10 ^ 5)
include low high

theorem formatG_eq : ∃ n k : Nat, n < 10 ^ 6 ∧ k < 10 ∧
    (formatG (.finite false m held)).bytes = fixedText n k ∧
      (n : ℚ) / 10 ^ k = toDigits 6 (m / 2 ^ fmt.least) := by
  obtain ⟨n, k, small, few, text, value⟩ := positiveText_eq low high
  have nonzero : m ≠ 0 := by
    rintro rfl
    norm_num at low
  refine ⟨n, k, small, few, ?_, value⟩
  rw [formatG, if_neg Bool.false_ne_true, if_neg nonzero, text, List.nil_append]
  refine CStr.bytes_ofBytes fun zero => ?_
  exact Plain.of_digits (P := (· ≠ 0)) (by decide) (by decide) (fixedText_bytes k small 0 zero) rfl

/-- **What `%g` writes is read as the decimal it stands for.** -/
theorem scanNumeral_formatG {rest : List UInt8} (stops : Stops rest) :
    scanNumeral ((formatG (.finite false m held)).bytes ++ rest) =
      some (false, .number (toDigits 6 (m / 2 ^ fmt.least)), rest) := by
  obtain ⟨n, k, small, -, text, value⟩ := formatG_eq held low high
  rw [text, scanNumeral_fixedText k small stops, value]

theorem formatG_ne_nil : (formatG (.finite false m held)).bytes ≠ [] := by
  obtain ⟨n, k, small, -, text, -⟩ := formatG_eq held low high
  rw [text]
  exact fixedText_ne_nil k small

theorem length_formatG_le : (formatG (.finite false m held)).bytes.length ≤ 11 := by
  obtain ⟨n, k, small, few, text, -⟩ := formatG_eq held low high
  have length := length_fixedText_le k small
  rw [text]
  omega

theorem formatG_bytes :
    ∀ b ∈ (formatG (.finite false m held)).bytes, Plain b := by
  obtain ⟨n, k, small, -, text, -⟩ := formatG_eq held low high
  rw [text]
  exact fixedText_bytes k small

end FormatG

end SpnavBridge.Theory
