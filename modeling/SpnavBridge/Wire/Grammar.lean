/-
# Wire.Grammar -- the grammar of JSON, and where cJSON's reading of a text ends

The relations are the productions of RFC 8259 over bytes: `JsonValue t r` says that a value
stands in front of `t` and that `r` is behind it.  cJSON reads more than the grammar derives, but
where the two agree on a beginning they agree on the end: a value of the grammar that cJSON
reads is read to its last byte, unless cJSON stops inside a number (`JsonValue.ends`), which
no bracket or comma can follow.

* `JsonArray.ends`: so an array of the grammar that cJSON reads is read as a whole.
* `jsonArrayText_iff`: and whether a payload is one array can be told from what is left of it.
-/
import SpnavBridge.Wire.Parse

namespace SpnavBridge.Wire

open SpnavBridge.Theory

set_option autoImplicit false

/-! ## The grammar -/

/-- `ws`: space, tab, LF and CR. -/
def Blanks (t r : List UInt8) : Prop :=
  ∃ blanks, (∀ b ∈ blanks, b ∈ [(32 : UInt8), 9, 10, 13]) ∧ t = blanks ++ r

/-- `digit+` -/
structure Digits (l : List UInt8) : Prop where
  some_ : l ≠ []
  digit : ∀ b ∈ l, isdigit b = true

/-- `[ "-" ] int [ frac ] [ exp ]` -/
inductive IsNumber : List UInt8 → Prop
  | mk (sign int frac exp : List UInt8) (sign_ : sign = [] ∨ sign = [45])
      (int_ : int = [48] ∨ (Digits int ∧ int.head? ≠ some 48))
      (frac_ : frac = [] ∨ ∃ digits, Digits digits ∧ frac = 46 :: digits)
      (exp_ : exp = [] ∨ ∃ e mark digits, (e = 101 ∨ e = 69) ∧
        (mark = [] ∨ mark = [43] ∨ mark = [45]) ∧ Digits digits ∧ exp = e :: (mark ++ digits)) :
      IsNumber (sign ++ (int ++ (frac ++ exp)))

/-- `*char quotation-mark`, behind the first quotation mark. -/
inductive JsonChars : List UInt8 → List UInt8 → Prop
  | close (r : List UInt8) : JsonChars (34 :: r) r
  | unescaped (b : UInt8) {t r : List UInt8} (plain : 32 ≤ b ∧ b ≠ 34 ∧ b ≠ 92)
      (rest : JsonChars t r) : JsonChars (b :: t) r
  | escape (b : UInt8) {t r : List UInt8} (known : b ∈ ascii "\"\\/bfnrt")
      (rest : JsonChars t r) : JsonChars (92 :: b :: t) r
  | unicode (hex : List UInt8) {t r : List UInt8} (length : hex.length = 4)
      (digits : ∀ b ∈ hex, (digitValue b).isSome = true) (rest : JsonChars t r) :
      JsonChars (92 :: 117 :: (hex ++ t)) r

mutual

inductive JsonValue : List UInt8 → List UInt8 → Prop
  | null (r : List UInt8) : JsonValue (ascii "null" ++ r) r
  | false_ (r : List UInt8) : JsonValue (ascii "false" ++ r) r
  | true_ (r : List UInt8) : JsonValue (ascii "true" ++ r) r
  | string {t r : List UInt8} (chars : JsonChars t r) : JsonValue (34 :: t) r
  | number {n : List UInt8} (isNumber : IsNumber n) (r : List UInt8) : JsonValue (n ++ r) r
  | array {t r : List UInt8} (array : JsonArray t r) : JsonValue (91 :: t) r
  | object {t r : List UInt8} (object : JsonObject t r) : JsonValue (123 :: t) r

/-- An array, behind its bracket. -/
inductive JsonArray : List UInt8 → List UInt8 → Prop
  | empty {t r : List UInt8} (blanks : Blanks t (93 :: r)) : JsonArray t r
  | elements {t r : List UInt8} (elements : JsonElements t r) : JsonArray t r

/-- `value *( value-separator value ) end-array` -/
inductive JsonElements : List UInt8 → List UInt8 → Prop
  | last {t v e r : List UInt8} (before : Blanks t v) (value : JsonValue v e)
      (behind : Blanks e (93 :: r)) : JsonElements t r
  | more {t v e t' r : List UInt8} (before : Blanks t v) (value : JsonValue v e)
      (behind : Blanks e (44 :: t')) (rest : JsonElements t' r) : JsonElements t r

/-- An object, behind its brace. -/
inductive JsonObject : List UInt8 → List UInt8 → Prop
  | empty {t r : List UInt8} (blanks : Blanks t (125 :: r)) : JsonObject t r
  | members {t r : List UInt8} (members : JsonMembers t r) : JsonObject t r

/-- `member *( value-separator member ) end-object` -/
inductive JsonMembers : List UInt8 → List UInt8 → Prop
  | last {t n c f v e r : List UInt8} (before : Blanks t (34 :: n)) (name : JsonChars n c)
      (colon : Blanks c (58 :: f)) (between : Blanks f v) (value : JsonValue v e)
      (behind : Blanks e (125 :: r)) : JsonMembers t r
  | more {t n c f v e t' r : List UInt8} (before : Blanks t (34 :: n)) (name : JsonChars n c)
      (colon : Blanks c (58 :: f)) (between : Blanks f v) (value : JsonValue v e)
      (behind : Blanks e (44 :: t')) (rest : JsonMembers t' r) : JsonMembers t r

end

theorem JsonElements.first {t r : List UInt8} (elements : JsonElements t r) :
    ∃ v e, Blanks t v ∧ JsonValue v e := by
  cases elements with
  | last before value behind => exact ⟨_, _, before, value⟩
  | more before value behind rest => exact ⟨_, _, before, value⟩

theorem JsonMembers.first {t r : List UInt8} (members : JsonMembers t r) :
    ∃ n, Blanks t (34 :: n) := by
  cases members with
  | last before name colon between value behind => exact ⟨_, before⟩
  | more before name colon between value behind rest => exact ⟨_, before⟩

/-! ## Where things end -/

theorem Blanks.refl (t : List UInt8) : Blanks t t := ⟨[], by simp, rfl⟩

/-- Blanks of the grammar are among what cJSON skips. -/
theorem Blanks.skip {t r : List UInt8} {b : UInt8} (blanks : Blanks t (b :: r))
    (stays : isSkipped b = false) : bufferSkipWhitespace t = b :: r := by
  obtain ⟨w, known, rfl⟩ := blanks
  have all : ∀ b ∈ ([32, 9, 10, 13] : List UInt8), isSkipped b = true := by
    simp [isSkipped]
  exact bufferSkipWhitespace_front (fun b mem => all b (known b mem)) stays r

/-- A number goes on with this byte, or with none. -/
def GoesOn (l : List UInt8) : Prop := ∃ b ∈ l.head?, isNumberByte b = true

/-- What is behind a value in an array or an object is no part of a number. -/
theorem Blanks.not_goesOn {t r : List UInt8} {b : UInt8} (blanks : Blanks t (b :: r))
    (other : isNumberByte b = false) : ¬ GoesOn t := by
  obtain ⟨w, known, rfl⟩ := blanks
  have all : ∀ b ∈ ([32, 9, 10, 13] : List UInt8), isNumberByte b = false := by
    simp [isNumberByte, isdigit]
  rintro ⟨c, first, numeric⟩
  cases w with
  | nil =>
      obtain rfl := Option.some.inj first
      rw [other] at numeric
      cases numeric
  | cons d w =>
      obtain rfl := Option.some.inj first
      rw [all d (known d (by simp))] at numeric
      cases numeric

theorem JsonChars.ends {t r : List UInt8} (chars : JsonChars t r) :
    ∃ body, scanString t = some (body, r) := by
  induction chars with
  | close r => exact ⟨[], scanString_quote r⟩
  | unescaped b plain rest ih =>
      obtain ⟨body, scanned⟩ := ih
      exact ⟨b :: body, by rw [scanString_plain plain.2.1 plain.2.2, scanned, Option.map_some]⟩
  | escape b known rest ih =>
      obtain ⟨body, scanned⟩ := ih
      exact ⟨92 :: b :: body, by rw [scanString_escape, scanned, Option.map_some]⟩
  | @unicode hex t r length digits rest ih =>
      obtain ⟨body, scanned⟩ := ih
      have plain : ∀ b : UInt8, (digitValue b).isSome = true → b ≠ 34 ∧ b ≠ 92 := by
        intro b some_
        constructor
        · rintro rfl
          cases some_
        · rintro rfl
          cases some_
      have behind : scanString (hex ++ t) = some (hex ++ body, r) := by
        clear length
        induction hex with
        | nil => exact scanned
        | cons b hex ih =>
            obtain ⟨notQuote, other⟩ := plain b (digits b (by simp))
            rw [List.cons_append, scanString_plain notQuote other,
              ih fun c mem => digits c (by simp [mem]), Option.map_some]
            rfl
      exact ⟨92 :: 117 :: (hex ++ body), by rw [scanString_escape, behind, Option.map_some]⟩

/-- A string of the grammar that is read is read to its closing quote. -/
theorem JsonChars.parseString_ends {t r rest : List UInt8} {s : CStr} (chars : JsonChars t r)
    (parsed : parseString (34 :: t) = some (s, rest)) : rest = r := by
  obtain ⟨body, scanned⟩ := chars.ends
  rw [parseString, if_pos rfl, scanned] at parsed
  obtain ⟨bytes, -, same⟩ := Option.map_eq_some_iff.mp parsed
  exact (Prod.mk.inj same).2.symm

/-! ## Numbers -/

theorem isdigit_exists {b : UInt8} (digit : isdigit b = true) : ∃ d < 10, b = digitByte d := by
  rw [isdigit, Bool.and_eq_true, decide_eq_true_eq, decide_eq_true_eq, UInt8.le_iff_toNat_le,
    UInt8.le_iff_toNat_le] at digit
  obtain ⟨low, high⟩ := digit
  change 48 ≤ b.toNat at low
  change b.toNat ≤ 57 at high
  refine ⟨b.toNat - 48, by omega, ?_⟩
  rw [digitByte, Nat.add_sub_cancel' low, UInt8.ofNat_toNat]

/-- Digits are read up to what is none. -/
theorem Digits.scan {l : List UInt8} (digits : Digits l) {rest : List UInt8}
    (stop : scanDigits 10 rest = ([], rest)) :
    ∃ ds, scanDigits 10 (l ++ rest) = (ds, rest) ∧ ds ≠ [] := by
  have all : ∀ l : List UInt8, (∀ b ∈ l, isdigit b = true) →
      ∃ ds, scanDigits 10 (l ++ rest) = (ds, rest) ∧ ds.length = l.length := by
    intro l digit
    induction l with
    | nil => exact ⟨[], stop, rfl⟩
    | cons b l ih =>
        obtain ⟨ds, scanned, length⟩ := ih fun c mem => digit c (by simp [mem])
        obtain ⟨d, small, rfl⟩ := isdigit_exists (digit b (by simp))
        refine ⟨d :: ds, ?_, by rw [List.length_cons, List.length_cons, length]⟩
        rw [List.cons_append, scanDigits, digitValue_digitByte d small, Option.filter_some,
          if_pos (by simpa using small), scanned]
  obtain ⟨ds, scanned, length⟩ := all l digits.digit
  refine ⟨ds, scanned, fun none_ => digits.some_ ?_⟩
  rw [none_] at length
  exact List.length_eq_zero_iff.mp length.symm

theorem Digits.head {l : List UInt8} (digits : Digits l) :
    ∃ d < 10, ∃ rest, l = digitByte d :: rest := by
  obtain ⟨b, rest, rfl⟩ := List.exists_cons_of_ne_nil digits.some_
  obtain ⟨d, small, rfl⟩ := isdigit_exists (digits.digit b (by simp))
  exact ⟨d, small, rest, rfl⟩

/-- The mantissa and the exponent of a number are read as a whole. -/
theorem scanNumber_grammar {int frac exp : List UInt8}
    (int_ : Digits int) (frac_ : frac = [] ∨ ∃ digits, Digits digits ∧ frac = 46 :: digits)
    (exp_ : exp = [] ∨ ∃ e mark digits, (e = 101 ∨ e = 69) ∧
      (mark = [] ∨ mark = [43] ∨ mark = [45]) ∧ Digits digits ∧ exp = e :: (mark ++ digits)) :
    ∃ q, scanNumber 10 10 101 (int ++ (frac ++ exp)) = some (q, []) := by
  -- where there is no exponent mark there is nothing
  have noDigits : scanDigits 10 exp = ([], exp) := by
    rcases exp_ with rfl | ⟨e, mark, digits, rfl | rfl, -, -, rfl⟩ <;> rfl
  have exponent : ∃ x, scanExponent 101 exp = (x, []) := by
    rcases exp_ with rfl | ⟨e, mark, digits, letter, sign, some_, rfl⟩
    · exact ⟨0, rfl⟩
    · obtain ⟨ds, scanned, nonempty⟩ := some_.scan (show scanDigits 10 [] = ([], []) from rfl)
      rw [List.append_nil] at scanned
      have unsigned : ∃ negative, scanSign (mark ++ digits) = (negative, digits) := by
        rcases sign with rfl | rfl | rfl
        · obtain ⟨d, small, rest, rfl⟩ := some_.head
          have start : ∀ d < 10, digitByte d ≠ 45 ∧ digitByte d ≠ 43 := by decide
          obtain ⟨minus, plus⟩ := start d small
          refine ⟨false, ?_⟩
          rw [List.nil_append]
          unfold scanSign
          split <;> simp_all
        · exact ⟨false, rfl⟩
        · exact ⟨true, rfl⟩
      obtain ⟨negative, unsigned⟩ := unsigned
      have lower : tolower e = 101 := by rcases letter with rfl | rfl <;> decide
      rw [scanExponent, unsigned]
      dsimp only
      rw [scanned, if_pos ⟨lower, nonempty⟩]
      exact ⟨_, rfl⟩
  obtain ⟨x, exponent⟩ := exponent
  have fraction : ∃ ds, scanFraction 10 (frac ++ exp) = (ds, exp) := by
    rcases frac_ with rfl | ⟨digits, some_, rfl⟩
    · refine ⟨[], ?_⟩
      rcases exp_ with rfl | ⟨e, mark, digits, rfl | rfl, -, -, rfl⟩ <;> rfl
    · obtain ⟨ds, scanned, -⟩ := some_.scan noDigits
      exact ⟨ds, scanned⟩
  obtain ⟨fs, fraction⟩ := fraction
  have stop : scanDigits 10 (frac ++ exp) = ([], frac ++ exp) := by
    rcases frac_ with rfl | ⟨digits, some_, rfl⟩
    · exact noDigits
    · rfl
  obtain ⟨ds, whole, nonempty⟩ := int_.scan stop
  rw [scanNumber, whole]
  dsimp only
  rw [fraction, exponent, if_neg (by simp [nonempty])]
  exact ⟨_, rfl⟩

theorem Digits.numeric {l : List UInt8} (digits : Digits l) : ∀ b ∈ l, isNumberByte b = true := by
  intro b mem
  rw [isNumberByte, digits.digit b mem, Bool.true_or]

theorem isNumber_int {int : List UInt8}
    (int_ : int = [48] ∨ (Digits int ∧ int.head? ≠ some 48)) : Digits int := by
  rcases int_ with rfl | ⟨digits, -⟩
  · exact ⟨by decide, by simp [isdigit]⟩
  · exact digits

theorem IsNumber.numeric {n : List UInt8} (isNumber : IsNumber n) :
    ∀ b ∈ n, isNumberByte b = true := by
  obtain ⟨sign, int, frac, exp, sign_, int_, frac_, exp_⟩ := isNumber
  intro b mem
  simp only [List.mem_append] at mem
  rcases mem with mem | mem | mem | mem
  · rcases sign_ with rfl | rfl
    · cases mem
    · rw [List.mem_singleton.mp mem]
      rfl
  · exact (isNumber_int int_).numeric b mem
  · rcases frac_ with rfl | ⟨digits, some_, rfl⟩
    · cases mem
    · rcases List.mem_cons.mp mem with rfl | mem
      · rfl
      · exact some_.numeric b mem
  · rcases exp_ with rfl | ⟨e, mark, digits, letter, sign, some_, rfl⟩
    · cases mem
    · rcases List.mem_cons.mp mem with rfl | mem
      · rcases letter with rfl | rfl <;> rfl
      · rcases List.mem_append.mp mem with mem | mem
        · rcases sign with rfl | rfl | rfl
          · cases mem
          · rw [List.mem_singleton.mp mem]
            rfl
          · rw [List.mem_singleton.mp mem]
            rfl
        · exact some_.numeric b mem

theorem isNumberByte_tolower {b : UInt8} (numeric : isNumberByte b = true) :
    tolower b ≠ 110 ∧ tolower b ≠ 120 := by
  rw [isNumberByte, Bool.or_eq_true] at numeric
  rcases numeric with digit | sign
  · obtain ⟨d, small, rfl⟩ := isdigit_exists digit
    have all : ∀ d < 10, tolower (digitByte d) ≠ 110 ∧ tolower (digitByte d) ≠ 120 := by decide
    exact all d small
  · have all : ∀ b ∈ ([43, 45, 101, 69, 46] : List UInt8), tolower b ≠ 110 ∧ tolower b ≠ 120 := by
      simp [tolower]
    exact all b (of_decide_eq_true sign)

theorem isSkipped_of_numeric {b : UInt8} (numeric : isNumberByte b = true) :
    isSkipped b = false := by
  rw [isNumberByte, Bool.or_eq_true] at numeric
  rcases numeric with digit | sign
  · obtain ⟨d, small, rfl⟩ := isdigit_exists digit
    have all : ∀ d < 10, isSkipped (digitByte d) = false := by decide
    exact all d small
  · have all : ∀ b ∈ ([43, 45, 101, 69, 46] : List UInt8), isSkipped b = false := by
      simp [isSkipped]
    exact all b (of_decide_eq_true sign)

theorem IsNumber.head {n : List UInt8} (isNumber : IsNumber n) :
    ∃ b rest, n = b :: rest ∧ (b = 45 ∨ isdigit b = true) := by
  obtain ⟨sign, int, frac, exp, sign_, int_, -, -⟩ := isNumber
  obtain ⟨d, small, rest, rfl⟩ := (isNumber_int int_).head
  rcases sign_ with rfl | rfl
  · have digit : ∀ d < 10, isdigit (digitByte d) = true := by decide
    exact ⟨_, _, rfl, Or.inr (digit d small)⟩
  · exact ⟨_, _, rfl, Or.inl rfl⟩

theorem IsNumber.scan {n : List UInt8} (isNumber : IsNumber n) :
    ∃ negative q, scanNumeral n = some (negative, .number q, []) := by
  have numeric := isNumber.numeric
  obtain ⟨sign, int, frac, exp, sign_, int_, frac_, exp_⟩ := isNumber
  obtain ⟨q, scanned⟩ := scanNumber_grammar (isNumber_int int_) frac_ exp_
  obtain ⟨d, small, rest, first⟩ := (isNumber_int int_).head
  have plain : ∀ b ∈ int ++ (frac ++ exp), tolower b ≠ 110 ∧ tolower b ≠ 120 := fun b mem =>
    isNumberByte_tolower (numeric b (List.mem_append_right _ mem))
  rcases sign_ with rfl | rfl
  · refine ⟨false, q, ?_⟩
    rw [List.nil_append, scanNumeral_decimal small (by rw [first]; rfl) plain, scanned]
    rfl
  · refine ⟨true, q, ?_⟩
    have front : scanSign (([45] ++ (int ++ (frac ++ exp))).dropWhile isspace) =
        (true, int ++ (frac ++ exp)) := rfl
    rw [scanNumeral, front, scanUnsigned_decimal plain, scanned]
    rfl

/-- A number of the grammar that is read is read as a whole, or the buffer was too short. -/
theorem IsNumber.parseNumber_ends {D : Type} {number : Bool → ℚ → D} {n r rest : List UInt8} {d : D}
    (isNumber : IsNumber n) (stops : ¬ GoesOn r)
    (parsed : parseNumber number (n ++ r) = some (d, rest)) : rest = r ∨ GoesOn rest := by
  by_cases short : n.length ≤ 63
  · have text : ((n ++ r).take 63).takeWhile isNumberByte = n := by
      rw [List.take_append, List.take_of_length_le short,
        List.takeWhile_append_of_pos isNumber.numeric]
      have none_ : (r.take (63 - n.length)).takeWhile isNumberByte = [] := by
        cases r with
        | nil => rw [List.take_nil, List.takeWhile_nil]
        | cons b r =>
            have other : ¬ isNumberByte b = true := fun numeric => stops ⟨b, rfl, numeric⟩
            cases 63 - n.length with
            | zero => rfl
            | succ k => rw [List.take_succ_cons, List.takeWhile_cons_of_neg other]
      rw [none_, List.append_nil]
    obtain ⟨negative, q, scanned⟩ := isNumber.scan
    rw [parseNumber, text, scanned] at parsed
    obtain ⟨-, rfl⟩ := Prod.mk.inj (Option.some.inj parsed)
    left
    rw [List.length_nil, Nat.sub_zero, List.drop_left]
  · right
    obtain ⟨k, few, rfl, -⟩ := parseNumber_some number parsed
    have some_ : n.drop k ≠ [] := by
      rw [Ne, List.drop_eq_nil_iff]
      omega
    obtain ⟨b, left, cut⟩ := List.exists_cons_of_ne_nil some_
    refine ⟨b, ?_, isNumber.numeric b (List.mem_of_mem_drop (i := k) (by simp [cut]))⟩
    rw [List.drop_append_of_le_length (by omega), cut]
    rfl

/-! ## Values -/

section Values

variable {D : Type} {number : Bool → ℚ → D}

/-- A value begins with a byte that is not skipped and closes nothing. -/
theorem JsonValue.head {t r : List UInt8} (value : JsonValue t r) :
    ∃ b rest, t = b :: rest ∧ isSkipped b = false ∧ b ≠ 93 := by
  cases value with
  | null r => exact ⟨_, _, rfl, by decide, by decide⟩
  | false_ r => exact ⟨_, _, rfl, by decide, by decide⟩
  | true_ r => exact ⟨_, _, rfl, by decide, by decide⟩
  | string chars => exact ⟨_, _, rfl, by decide, by decide⟩
  | number isNumber r =>
      have numeric := isNumber.numeric
      obtain ⟨b, rest, rfl, -⟩ := isNumber.head
      refine ⟨b, rest ++ r, rfl, isSkipped_of_numeric (numeric b (by simp)), ?_⟩
      rintro rfl
      cases numeric 93 (by simp)
  | array array => exact ⟨_, _, rfl, by decide, by decide⟩
  | object object => exact ⟨_, _, rfl, by decide, by decide⟩

theorem Blanks.skip_value {t v r : List UInt8} (blanks : Blanks t v) (value : JsonValue v r) :
    bufferSkipWhitespace t = v := by
  obtain ⟨b, rest, rfl, visible, -⟩ := value.head
  exact blanks.skip visible

/-- cJSON reads a value to its end, or stops in a number. -/
def EndsAt (number : Bool → ℚ → D) (t r : List UInt8) : Prop :=
  ∀ (budget : Nat) (item : Json D) (rest : List UInt8),
    parseValue number budget t = some (item, rest) → ¬ GoesOn r → rest = r ∨ GoesOn rest

/-- Behind a value that is read comes what the grammar has behind it. -/
theorem EndsAt.skip {v e r behind after : List UInt8} {b c : UInt8} {budget : Nat} {item : Json D}
    (ends : EndsAt number v e) (before : Blanks e (b :: r)) (stays : isSkipped b = false)
    (other : isNumberByte b = false) (read : parseValue number budget v = some (item, behind))
    (next : bufferSkipWhitespace behind = c :: after) (noNumber : isNumberByte c = false) :
    c = b ∧ after = r := by
  rcases ends budget item behind read (before.not_goesOn other) with rfl | ⟨d, first, numeric⟩
  · rw [before.skip stays] at next
    obtain ⟨rfl, rfl⟩ := List.cons.inj next
    exact ⟨rfl, rfl⟩
  · -- a byte of a number is not skipped
    obtain ⟨rest, rfl⟩ := List.head?_eq_some_iff.mp first
    have same : bufferSkipWhitespace (d :: rest) = d :: rest :=
      bufferSkipWhitespace_front (List.forall_mem_nil _) (isSkipped_of_numeric numeric) rest
    rw [next] at same
    obtain ⟨rfl, -⟩ := List.cons.inj same
    rw [noNumber] at numeric
    cases numeric

variable (number)

mutual

/-- **A value of the grammar that is read is read to its end**, or reading stops in a number. -/
theorem JsonValue.ends {t r : List UInt8} : JsonValue t r → EndsAt number t r
  | .null r => fun budget item rest parsed _ => by
      rw [parseValue_null] at parsed
      exact Or.inl (Prod.mk.inj (Option.some.inj parsed)).2.symm
  | .false_ r => fun budget item rest parsed _ => by
      rw [parseValue_false] at parsed
      exact Or.inl (Prod.mk.inj (Option.some.inj parsed)).2.symm
  | .true_ r => fun budget item rest parsed _ => by
      rw [parseValue_true] at parsed
      exact Or.inl (Prod.mk.inj (Option.some.inj parsed)).2.symm
  | .string chars => fun budget item rest parsed _ => by
      rw [parseValue_string] at parsed
      obtain ⟨⟨s, left⟩, read, same⟩ := Option.map_eq_some_iff.mp parsed
      obtain ⟨-, rfl⟩ := Prod.mk.inj same
      exact Or.inl (chars.parseString_ends read)
  | .number isNumber r => fun budget item rest parsed stops => by
      obtain ⟨b, n, shape, numeric⟩ := isNumber.head
      subst shape
      rw [List.cons_append, parseValue_number _ _ _ numeric] at parsed
      obtain ⟨⟨d, left⟩, read, same⟩ := Option.map_eq_some_iff.mp parsed
      obtain ⟨-, rfl⟩ := Prod.mk.inj same
      exact isNumber.parseNumber_ends stops read
  | .array array => fun budget item rest parsed _ => by
      cases budget with
      | zero =>
          rw [parseValue_deep _ _ (Or.inl rfl)] at parsed
          cases parsed
      | succ deeper =>
          rw [parseValue_array] at parsed
          obtain ⟨⟨items, left⟩, read, same⟩ := Option.map_eq_some_iff.mp parsed
          obtain ⟨-, rfl⟩ := Prod.mk.inj same
          exact Or.inl (array.ends deeper items left read)
  | .object object => fun budget item rest parsed _ => by
      cases budget with
      | zero =>
          rw [parseValue_deep _ _ (Or.inr rfl)] at parsed
          cases parsed
      | succ deeper =>
          rw [parseValue_object] at parsed
          obtain ⟨⟨members, left⟩, read, same⟩ := Option.map_eq_some_iff.mp parsed
          obtain ⟨-, rfl⟩ := Prod.mk.inj same
          exact Or.inl (object.ends deeper members left read)

theorem JsonArray.ends {t r : List UInt8} : JsonArray t r →
    ∀ (budget : Nat) (items : List (Json D)) (rest : List UInt8),
      parseArray (fun l => parseValue number budget l) t = some (items, rest) → rest = r
  | .empty blanks => fun budget items rest parsed => by
      rw [parseArray, blanks.skip rfl] at parsed
      exact (Prod.mk.inj (Option.some.inj parsed)).2.symm
  | .elements elements => fun budget items rest parsed => by
      rcases parseArray_some parsed with ⟨closed, -⟩ | ⟨fuel, read⟩
      · obtain ⟨v, e, before, value⟩ := elements.first
        rw [before.skip_value value] at closed
        obtain ⟨b, l, rfl, -, open_⟩ := value.head
        exact absurd (List.cons.inj closed).1 open_
      · exact elements.ends budget fuel items rest read

theorem JsonElements.ends {t r : List UInt8} : JsonElements t r →
    ∀ (budget fuel : Nat) (items : List (Json D)) (rest : List UInt8),
      parseElements (fun l => parseValue number budget l) fuel t = some (items, rest) → rest = r
  | .last before value behind => fun budget fuel items rest parsed => by
      cases fuel with
      | zero => cases parsed
      | succ fuel =>
          obtain ⟨item, left, read, next⟩ := parseElements_some parsed
          rw [before.skip_value value] at read
          rcases next with ⟨after, more, comma, -, -⟩ | ⟨bracket, -⟩
          · have same := (value.ends).skip behind rfl rfl read comma rfl
            exact absurd same.1 (by decide)
          · exact ((value.ends).skip behind rfl rfl read bracket rfl).2
  | .more before value behind further => fun budget fuel items rest parsed => by
      cases fuel with
      | zero => cases parsed
      | succ fuel =>
          obtain ⟨item, left, read, next⟩ := parseElements_some parsed
          rw [before.skip_value value] at read
          rcases next with ⟨after, more, comma, read', -⟩ | ⟨bracket, -⟩
          · rw [((value.ends).skip behind rfl rfl read comma rfl).2] at read'
            exact further.ends budget fuel more rest read'
          · have same := (value.ends).skip behind rfl rfl read bracket rfl
            exact absurd same.1 (by decide)

theorem JsonObject.ends {t r : List UInt8} : JsonObject t r →
    ∀ (budget : Nat) (members : List (CStr × Json D)) (rest : List UInt8),
      parseObject (fun l => parseValue number budget l) t = some (members, rest) → rest = r
  | .empty blanks => fun budget members rest parsed => by
      rw [parseObject, blanks.skip rfl] at parsed
      exact (Prod.mk.inj (Option.some.inj parsed)).2.symm
  | .members members => fun budget items rest parsed => by
      rcases parseObject_some parsed with ⟨closed, -⟩ | ⟨fuel, read⟩
      · obtain ⟨n, before⟩ := members.first
        rw [before.skip rfl] at closed
        exact absurd (List.cons.inj closed).1 (by decide)
      · exact members.ends budget fuel items rest read

theorem JsonMembers.ends {t r : List UInt8} : JsonMembers t r →
    ∀ (budget fuel : Nat) (members : List (CStr × Json D)) (rest : List UInt8),
      parseMembers (fun l => parseValue number budget l) fuel t = some (members, rest) → rest = r
  | .last before name colon between value behind => fun budget fuel members rest parsed => by
      cases fuel with
      | zero => cases parsed
      | succ fuel =>
          obtain ⟨s, c, f, item, left, named, skip, read, next⟩ := parseMembers_some parsed
          rw [before.skip rfl] at named
          rw [name.parseString_ends named, colon.skip rfl] at skip
          rw [← (List.cons.inj skip).2, between.skip_value value] at read
          rcases next with ⟨after, more, comma, -, -⟩ | ⟨brace, -⟩
          · have same := (value.ends).skip behind rfl rfl read comma rfl
            exact absurd same.1 (by decide)
          · exact ((value.ends).skip behind rfl rfl read brace rfl).2
  | .more before name colon between value behind further => fun budget fuel members rest parsed => by
      cases fuel with
      | zero => cases parsed
      | succ fuel =>
          obtain ⟨s, c, f, item, left, named, skip, read, next⟩ := parseMembers_some parsed
          rw [before.skip rfl] at named
          rw [name.parseString_ends named, colon.skip rfl] at skip
          rw [← (List.cons.inj skip).2, between.skip_value value] at read
          rcases next with ⟨after, more, comma, read', -⟩ | ⟨brace, -⟩
          · rw [((value.ends).skip behind rfl rfl read comma rfl).2] at read'
            exact further.ends budget fuel more rest read'
          · have same := (value.ends).skip behind rfl rfl read brace rfl
            exact absurd same.1 (by decide)

end

end Values

/-! ## Whole texts -/

/-- `ws array ws`, behind a byte order mark or not. -/
def JsonArrayText (payload : List UInt8) : Prop :=
  ∃ t array r, (payload = t ∨ payload = bom ++ t) ∧ Blanks t (91 :: array) ∧ JsonArray array r ∧
    Blanks r []

/-- What cJSON skips in front of an array, a byte order mark apart, and what it leaves behind it
are blanks of the grammar, and what it reads in between is an array of the grammar. -/
structure ReadWhole (payload rest : List UInt8) : Prop where
  front : Blanks (skipUtf8Bom payload) (bufferSkipWhitespace (skipUtf8Bom payload))
  array : ∃ array, bufferSkipWhitespace (skipUtf8Bom payload) = 91 :: array ∧ JsonArray array rest
  behind : Blanks rest []

theorem skipUtf8Bom_eq (payload : List UInt8) :
    payload = skipUtf8Bom payload ∨ payload = bom ++ skipUtf8Bom payload := by
  unfold skipUtf8Bom
  split_ifs with marked
  · right
    rw [← marked.2, List.take_append_drop]
  · exact Or.inl rfl

theorem JsonArray.ne_nil {t r : List UInt8} (array : JsonArray t r) : t ≠ [] := by
  rintro rfl
  cases array with
  | empty blanks =>
      obtain ⟨w, -, shape⟩ := blanks
      simp at shape
  | elements elements =>
      obtain ⟨v, e, ⟨w, -, shape⟩, value⟩ := elements.first
      obtain ⟨b, l, rfl, -⟩ := value.head
      simp at shape

/-- The mark is skipped if there is one, and nothing else is. -/
theorem Blanks.skipUtf8Bom {payload t array r : List UInt8} (start : payload = t ∨ payload = bom ++ t)
    (blanks : Blanks t (91 :: array)) (isArray : JsonArray array r) :
    skipUtf8Bom payload = t := by
  obtain ⟨w, known, rfl⟩ := blanks
  rcases start with rfl | rfl
  · refine if_neg fun marked => ?_
    have first : (w ++ 91 :: array).head? = some 0xEF := by
      have head := congrArg List.head? marked.2
      rwa [List.head?_take, if_neg (by decide)] at head
    have plain : ∀ b ∈ ([32, 9, 10, 13] : List UInt8), b ≠ 0xEF := by simp
    cases w with
    | nil => cases first
    | cons b w => exact plain b (known b (by simp)) (Option.some.inj first)
  · have some_ := List.length_pos_iff.mpr isArray.ne_nil
    have long : 4 < (bom ++ (w ++ 91 :: array)).length := by
      simp only [List.length_append, List.length_cons, bom, List.length_nil]
      omega
    exact if_pos ⟨long, rfl⟩

/-- **Where cJSON reads an array, the text is one as a whole** exactly if cJSON leaves nothing
but blanks and has read by the grammar. -/
theorem jsonArrayText_iff {D : Type} {number : Bool → ℚ → D} {payload rest : List UInt8}
    {items : List (Json D)}
    (parsed : parseWithLengthOpts number payload = some (.array items, rest)) :
    JsonArrayText payload ↔ ReadWhole payload rest := by
  constructor
  · rintro ⟨t, array, r, start, blanks, isArray, behind⟩
    have skipped := blanks.skipUtf8Bom start isArray
    have front : bufferSkipWhitespace t = 91 :: array := blanks.skip rfl
    have ends : rest = r := by
      unfold parseWithLengthOpts at parsed
      split_ifs at parsed
      rw [skipped, front, nestingLimit, parseValue_array] at parsed
      obtain ⟨⟨read, left⟩, read_, same⟩ := Option.map_eq_some_iff.mp parsed
      obtain ⟨-, rfl⟩ := Prod.mk.inj same
      exact isArray.ends number _ _ _ read_
    subst ends
    refine ⟨?_, ⟨array, by rw [skipped, front], isArray⟩, behind⟩
    rw [skipped, front]
    exact blanks
  · rintro ⟨front, ⟨array, shape, isArray⟩, behind⟩
    rw [shape] at front
    exact ⟨_, array, rest, skipUtf8Bom_eq payload, front, isArray, behind⟩

example : JsonArrayText (ascii " [2,\"a\"]\n") := by
  have two : IsNumber [50] :=
    .mk [] [50] [] [] (.inl rfl) (.inr ⟨⟨by decide, by simp [isdigit]⟩, by decide⟩) (.inl rfl) (.inl rfl)
  have name : JsonChars (ascii "a\"]\n") (ascii "]\n") :=
    .unescaped 97 (by decide) (.close _)
  refine ⟨ascii " [2,\"a\"]\n", ascii "2,\"a\"]\n", ascii "\n", .inl rfl, ⟨[32], by decide +kernel, rfl⟩,
    .elements (.more (.refl _) (.number two _) (.refl _) (.last (.refl _) (.string name) (.refl _))),
    ⟨ascii "\n", by decide +kernel, rfl⟩⟩

end SpnavBridge.Wire
