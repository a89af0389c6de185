/-
# Wire.Spelling -- the strings and numbers of JSON, and what they stand for

A string is spelled in letters: bytes, escapes, and units of UTF-16, of which two surrogates
make one character.  A number is written in figures.  `spelled` and `Figures.value` say what
they stand for, without a word of how cJSON reads them; it reads them so:

* `parseString_letters`: a string as it is spelled, and none with a surrogate that is alone.
* `Figures.scan`: a number as the rational that its figures stand for.
-/
import SpnavBridge.Wire.RoundTrip

namespace SpnavBridge.Wire

open SpnavBridge.Theory

set_option autoImplicit false

/-! ## Strings -/

def Hex (hex : List UInt8) : Prop := hex.length = 4 ∧ ∀ b ∈ hex, (digitValue b).isSome = true

def hexValue (hex : List UInt8) : Nat := Nat.ofDigits 16 (hex.filterMap digitValue).reverse

/-- What stands between quotes. -/
inductive Letter where
  | byte (b : UInt8) (plain : 32 ≤ b ∧ b ≠ 34 ∧ b ≠ 92)
  | escape (b : UInt8) (known : b ∈ ascii "\"\\/bfnrt")
  | unit (hex : List UInt8) (isHex : Hex hex)

def Letter.text : Letter → List UInt8
  | .byte b _ => [b]
  | .escape b _ => [92, b]
  | .unit hex _ => 92 :: 117 :: hex

/-- The character that is escaped. -/
def escapes (b : UInt8) : UInt8 :=
  match b with
  | 98 => 8
  | 102 => 12
  | 110 => 10
  | 114 => 13
  | 116 => 9
  | b => b

def HighSurrogate (n : Nat) : Prop := 0xD800 ≤ n ∧ n ≤ 0xDBFF
def LowSurrogate (n : Nat) : Prop := 0xDC00 ≤ n ∧ n ≤ 0xDFFF

instance (n : Nat) : Decidable (HighSurrogate n) := inferInstanceAs (Decidable (_ ∧ _))
instance (n : Nat) : Decidable (LowSurrogate n) := inferInstanceAs (Decidable (_ ∧ _))

/-- The code point of a pair. -/
def paired (high low : Nat) : Nat := 0x10000 + (high - 0xD800) * 0x400 + (low - 0xDC00)

/-- The characters of a string in UTF-8. -/
def spelled : List Letter → Option (List UInt8)
  | [] => some []
  | .byte b _ :: rest => (spelled rest).map (b :: ·)
  | .escape b _ :: rest => (spelled rest).map (escapes b :: ·)
  | .unit hex _ :: rest =>
      if LowSurrogate (hexValue hex) then none
      else if HighSurrogate (hexValue hex) then
        match rest with
        | .unit hex' _ :: rest =>
            if LowSurrogate (hexValue hex') then
              (spelled rest).map (encodeUtf8 (paired (hexValue hex) (hexValue hex')) ++ ·)
            else none
        | _ => none
      else (spelled rest).map (encodeUtf8 (hexValue hex) ++ ·)

theorem scanString_letters (letters : List Letter) (r : List UInt8) :
    scanString (letters.flatMap Letter.text ++ 34 :: r) = some (letters.flatMap Letter.text, r) := by
  induction letters with
  | nil => exact scanString_quote r
  | cons letter letters ih =>
      rw [List.flatMap_cons, List.append_assoc]
      cases letter with
      | byte b plain =>
          rw [Letter.text, List.singleton_append, scanString_plain plain.2.1 plain.2.2, ih]
          rfl
      | escape b known =>
          rw [Letter.text, List.cons_append, List.singleton_append, scanString_escape, ih]
          rfl
      | unit hex isHex =>
          have digits := isHex.2
          have behind : scanString (hex ++ (letters.flatMap Letter.text ++ 34 :: r)) =
              some (hex ++ letters.flatMap Letter.text, r) := by
            clear isHex
            induction hex with
            | nil => exact ih
            | cons b hex further =>
                have some_ := digits b (by simp)
                have notQuote : b ≠ 34 := by
                  rintro rfl
                  cases some_
                have other : b ≠ 92 := by
                  rintro rfl
                  cases some_
                rw [List.cons_append, scanString_plain notQuote other,
                  further fun c mem => digits c (by simp [mem])]
                rfl
          rw [Letter.text, List.cons_append, List.cons_append, scanString_escape, behind]
          rfl

theorem parseHex4_hex {hex : List UInt8} (isHex : Hex hex) (r : List UInt8) :
    parseHex4 (hex ++ r) = hexValue hex := by
  have all : ∀ l : List UInt8, (∀ b ∈ l, (digitValue b).isSome = true) →
      l.mapM digitValue = some (l.filterMap digitValue) := by
    intro l digits
    induction l with
    | nil => rfl
    | cons b l ih =>
        obtain ⟨d, value⟩ := Option.isSome_iff_exists.mp (digits b (by simp))
        rw [List.mapM_cons, value, ih fun c mem => digits c (by simp [mem]),
          List.filterMap_cons_some value]
        rfl
  rw [parseHex4, ← isHex.1, List.take_left, all hex isHex.2]
  rfl

theorem unescaped_known : ∀ b ∈ ascii "\"\\/bfnrt", unescaped b = some (escapes b) ∧ b ≠ 117 := by
  have known : ascii "\"\\/bfnrt" = [34, 92, 47, 98, 102, 110, 114, 116] := by decide
  rw [known]
  simp [unescaped, escapes]

/-- A unit is put together with what comes behind it. -/
theorem decodeString_unit (hex r : List UInt8) :
    decodeString 0 (92 :: 117 :: (hex ++ r)) =
      (utf16LiteralToUtf8 (92 :: 117 :: (hex ++ r))).bind fun read =>
        (decodeString (read.2 - 1) (117 :: (hex ++ r))).map (read.1 ++ ·) := by
  simp only [decodeString, ne_eq, not_true_eq_false, if_false, if_true]
  cases utf16LiteralToUtf8 (92 :: 117 :: (hex ++ r)) <;> rfl

theorem utf16LiteralToUtf8_eq (l : List UInt8) : utf16LiteralToUtf8 l =
    if l.length < 6 ∨ LowSurrogate (parseHex4 (l.drop 2)) then none
    else if HighSurrogate (parseHex4 (l.drop 2)) then
      if 12 ≤ l.length ∧ (l.drop 6).take 2 = [92, 117] ∧ LowSurrogate (parseHex4 (l.drop 8)) then
        some (encodeUtf8 (paired (parseHex4 (l.drop 2)) (parseHex4 (l.drop 8))), 12)
      else none
    else some (encodeUtf8 (parseHex4 (l.drop 2)), 6) := by
  unfold utf16LiteralToUtf8
  generalize parseHex4 (l.drop 2) = first
  generalize parseHex4 (l.drop 8) = second
  change (if l.length < 6 then none else if LowSurrogate first then none
    else if HighSurrogate first then
      if l.length < 12 ∨ (l.drop 6).take 2 ≠ [92, 117] then none
      else if second < 0xDC00 ∨ 0xDFFF < second then none
      else some (encodeUtf8 (0x10000 + first % 1024 * 1024 + second % 1024), 12)
    else some (encodeUtf8 first, 6)) = _
  by_cases short : l.length < 6
  · rw [if_pos short, if_pos (Or.inl short)]
  rw [if_neg short]
  by_cases low : LowSurrogate first
  · rw [if_pos low, if_pos (Or.inr low)]
  rw [if_neg low, if_neg (not_or.mpr ⟨short, low⟩)]
  by_cases high : HighSurrogate first
  · rw [if_pos high, if_pos high]
    by_cases behind : l.length < 12 ∨ (l.drop 6).take 2 ≠ [92, 117]
    · rw [if_pos behind, if_neg fun pair =>
        behind.elim (Nat.not_lt_of_le pair.1) fun other => other pair.2.1]
    · rw [if_neg behind]
      rw [not_or, not_not, Nat.not_lt] at behind
      by_cases low' : LowSurrogate second
      · have point : 0x10000 + first % 1024 * 1024 + second % 1024 = paired first second := by
          obtain ⟨least, most⟩ := high
          obtain ⟨least', most'⟩ := low'
          unfold paired
          omega
        have pair := low'
        obtain ⟨least', most'⟩ := low'
        rw [if_neg (by omega), if_pos ⟨behind.1, behind.2, pair⟩, point]
      · rw [LowSurrogate, not_and_or, Nat.not_le, Nat.not_le] at low'
        rw [if_pos low', if_neg fun pair => low'.elim (Nat.not_lt_of_le pair.2.2.1)
          (Nat.not_lt_of_le pair.2.2.2)]
  · rw [if_neg high, if_neg high]

section Unit

variable {hex : List UInt8} (isHex : Hex hex) (r : List UInt8)
include isHex

theorem Hex.literal : utf16LiteralToUtf8 (92 :: 117 :: (hex ++ r)) =
    if LowSurrogate (hexValue hex) then none
    else if HighSurrogate (hexValue hex) then
      if 6 ≤ r.length ∧ r.take 2 = [92, 117] ∧ LowSurrogate (parseHex4 (r.drop 2)) then
        some (encodeUtf8 (paired (hexValue hex) (parseHex4 (r.drop 2))), 12)
      else none
    else some (encodeUtf8 (hexValue hex), 6) := by
  have value : parseHex4 ((92 :: 117 :: (hex ++ r)).drop 2) = hexValue hex := parseHex4_hex isHex r
  have behind : (92 :: 117 :: (hex ++ r)).drop 6 = r := by
    show (hex ++ r).drop 4 = r
    rw [← isHex.1, List.drop_left]
  have behind' : (92 :: 117 :: (hex ++ r)).drop 8 = r.drop 2 := by
    rw [show 8 = 6 + 2 from rfl, ← List.drop_drop, behind]
  have length : (92 :: 117 :: (hex ++ r)).length = r.length + 6 := by
    rw [List.length_cons, List.length_cons, List.length_append, isHex.1]
    omega
  rw [utf16LiteralToUtf8_eq, value, behind, behind', length]
  have long : ¬ r.length + 6 < 6 := by omega
  have room : 12 ≤ r.length + 6 ↔ 6 ≤ r.length := by omega
  simp only [long, room, false_or]

end Unit

/-- **Strings are read as they are spelled.** -/
theorem decodeString_letters (letters : List Letter) :
    decodeString 0 (letters.flatMap Letter.text) = spelled letters := by
  fun_induction spelled letters with
  | case1 => rfl
  | case2 b plain rest ih =>
      rw [List.flatMap_cons, Letter.text, List.singleton_append, decodeString_cons plain.2.2, ih]
  | case3 b known rest ih =>
      obtain ⟨value, other⟩ := unescaped_known b known
      rw [List.flatMap_cons, Letter.text, List.cons_append, List.singleton_append,
        decodeString_byte other value, ih]
  | case4 hex isHex rest low =>
      rw [List.flatMap_cons, Letter.text, List.cons_append, List.cons_append, decodeString_unit,
        isHex.literal, if_pos low]
      rfl
  | case5 hex isHex low high hex' isHex' rest low' ih =>
      -- both units are consumed at the backslash of the first one
      have value : parseHex4 (hex' ++ rest.flatMap Letter.text) = hexValue hex' :=
        parseHex4_hex isHex' _
      have long : 6 ≤ (92 :: 117 :: (hex' ++ rest.flatMap Letter.text)).length := by
        rw [List.length_cons, List.length_cons, List.length_append, isHex'.1]
        omega
      have behind : (117 :: (hex ++ 92 :: 117 :: (hex' ++ rest.flatMap Letter.text))).drop 11 =
          rest.flatMap Letter.text := by
        have length : (117 :: (hex ++ 92 :: 117 :: hex')).length = 11 := by
          simp only [List.length_cons, List.length_append, isHex.1, isHex'.1]
        have shape : 117 :: (hex ++ 92 :: 117 :: (hex' ++ rest.flatMap Letter.text)) =
            117 :: (hex ++ 92 :: 117 :: hex') ++ rest.flatMap Letter.text := by simp
        rw [shape, List.drop_left' length]
      rw [List.flatMap_cons, List.flatMap_cons, Letter.text, Letter.text, List.cons_append,
        List.cons_append, List.cons_append, List.cons_append, decodeString_unit, isHex.literal,
        if_neg low, if_pos high, if_pos ⟨long, rfl, value ▸ low'⟩]
      rw [Option.bind_some, decodeString_skip]
      dsimp only
      rw [behind, ih]
      have second : (92 :: 117 :: (hex' ++ rest.flatMap Letter.text)).drop 2 =
          hex' ++ rest.flatMap Letter.text := rfl
      rw [second, value]
  | case6 hex isHex low high hex' isHex' rest low' =>
      have value : parseHex4 (hex' ++ rest.flatMap Letter.text) = hexValue hex' :=
        parseHex4_hex isHex' _
      rw [List.flatMap_cons, List.flatMap_cons, Letter.text, Letter.text, List.cons_append,
        List.cons_append, List.cons_append, List.cons_append, decodeString_unit, isHex.literal,
        if_neg low, if_pos high, if_neg fun pair => low' (value ▸ pair.2.2)]
      rfl
  | case7 hex isHex rest low high alone =>
      -- no other letter begins with the two bytes that a unit begins with
      have single : (rest.flatMap Letter.text).take 2 ≠ [92, 117] := by
        cases rest with
        | nil => exact List.cons_ne_nil _ _ ∘ Eq.symm
        | cons letter rest =>
            rw [List.flatMap_cons]
            cases letter with
            | byte b plain => exact fun same => plain.2.2 (List.cons.inj same).1
            | escape b known =>
                exact fun same =>
                  (unescaped_known b known).2 (List.cons.inj (List.cons.inj same).2).1
            | unit hex' isHex' => exact absurd rfl (alone hex' isHex' rest)
      rw [List.flatMap_cons, Letter.text, List.cons_append, List.cons_append, decodeString_unit,
        isHex.literal, if_neg low, if_pos high, if_neg fun pair => single pair.2.1]
      rfl
  | case8 hex isHex rest low high ih =>
      have behind : (117 :: (hex ++ rest.flatMap Letter.text)).drop 5 = rest.flatMap Letter.text := by
        show (hex ++ _).drop 4 = _
        rw [← isHex.1, List.drop_left]
      rw [List.flatMap_cons, Letter.text, List.cons_append, List.cons_append, decodeString_unit,
        isHex.literal, if_neg low, if_neg high]
      show (decodeString 5 _).map _ = _
      rw [decodeString_skip, behind, ih]

theorem parseString_letters (letters : List Letter) (r : List UInt8) :
    parseString (34 :: (letters.flatMap Letter.text ++ 34 :: r)) =
      (spelled letters).map fun bytes => (.ofBytes bytes, r) := by
  rw [parseString, if_pos rfl, scanString_letters]
  dsimp only
  rw [decodeString_letters]

/-! ## Numbers -/

/-- `exp` -/
structure Power where
  capital : Bool
  /-- Whether there is a sign, and whether it is a minus. -/
  sign : Option Bool
  figures : List Nat
  some_ : figures ≠ []
  small : ∀ d ∈ figures, d < 10

def signText : Option Bool → List UInt8
  | none => []
  | some true => [45]
  | some false => [43]

def Power.text (power : Power) : List UInt8 :=
  (if power.capital then 69 else 101) :: (signText power.sign ++ power.figures.map digitByte)

def Power.value (power : Power) : Int :=
  let size : Nat := Nat.ofDigits 10 power.figures.reverse
  if power.sign = some true then -size else size

/-- `[ "-" ] int [ frac ] [ exp ]`; without figures there is no fraction. -/
structure Figures where
  negative : Bool
  whole : List Nat
  fraction : List Nat
  power : Option Power
  some_ : whole ≠ []
  leading : whole = [0] ∨ whole.head? ≠ some 0
  small : ∀ d ∈ whole ++ fraction, d < 10

namespace Figures

variable (n : Figures)

def fractionText : List UInt8 := if n.fraction = [] then [] else 46 :: n.fraction.map digitByte

def powerText : List UInt8 := n.power.elim [] Power.text

def text : List UInt8 :=
  (if n.negative then [45] else []) ++ (n.whole.map digitByte ++ (n.fractionText ++ n.powerText))

def value : ℚ :=
  (Nat.ofDigits 10 (n.whole ++ n.fraction).reverse : Nat) / 10 ^ n.fraction.length *
    10 ^ n.power.elim 0 Power.value

end Figures

theorem scanDigits_map {ds : List Nat} (small : ∀ d ∈ ds, d < 10) {rest : List UInt8}
    (stop : scanDigits 10 rest = ([], rest)) :
    scanDigits 10 (ds.map digitByte ++ rest) = (ds, rest) := by
  have scanned : scanDigits 10 (digitText ds.reverse ++ rest) = _ :=
    scanDigits_append (by simpa using small) stop
  rwa [digitText, List.reverse_reverse] at scanned

theorem digits_map {ds : List Nat} (small : ∀ d ∈ ds, d < 10) (some_ : ds ≠ []) :
    Digits (ds.map digitByte) where
  some_ := by simpa using some_
  digit := by
    have digit : ∀ d < 10, isdigit (digitByte d) = true := by decide
    intro b mem
    obtain ⟨d, inside, rfl⟩ := List.mem_map.mp mem
    exact digit d (small d inside)

theorem Power.scan (power : Power) : scanExponent 101 power.text = (power.value, []) := by
  have scanned := scanDigits_map power.small (show scanDigits 10 [] = ([], []) from rfl)
  rw [List.append_nil] at scanned
  have unsigned : scanSign (signText power.sign ++ power.figures.map digitByte) =
      (decide (power.sign = some true), power.figures.map digitByte) := by
    cases power.sign with
    | none =>
        obtain ⟨d, ds, shape⟩ := List.exists_cons_of_ne_nil power.some_
        have start : ∀ d < 10, digitByte d ≠ 45 ∧ digitByte d ≠ 43 := by decide
        obtain ⟨minus, plus⟩ := start d (power.small d (by simp [shape]))
        rw [shape, List.map_cons, signText, List.nil_append]
        unfold scanSign
        split <;> simp_all
    | some minus => cases minus <;> rfl
  have lower : tolower (if power.capital then 69 else 101) = 101 := by
    cases power.capital <;> decide
  rw [Power.text, scanExponent, unsigned]
  dsimp only
  rw [scanned, if_pos ⟨lower, power.some_⟩, Power.value]
  simp only [decide_eq_true_eq]

namespace Figures

variable (n : Figures)

theorem whole_small : ∀ d ∈ n.whole, d < 10 := fun d mem => n.small d (by simp [mem])

theorem fraction_small : ∀ d ∈ n.fraction, d < 10 := fun d mem => n.small d (by simp [mem])

theorem isUnsigned : IsUnsigned (n.whole.map digitByte ++ (n.fractionText ++ n.powerText)) := by
  refine .mk (n.whole.map digitByte) n.fractionText n.powerText ?_ ?_ ?_
  · rcases n.leading with zero | leading
    · rw [zero]
      exact Or.inl rfl
    · refine Or.inr ⟨digits_map n.whole_small n.some_, ?_⟩
      have zero : ∀ d < 10, digitByte d = 48 → d = 0 := by decide
      obtain ⟨d, ds, shape⟩ := List.exists_cons_of_ne_nil n.some_
      rw [shape] at leading ⊢
      intro first
      refine leading (congrArg some (zero d (n.whole_small d (by simp [shape])) ?_))
      exact Option.some.inj first
  · unfold fractionText
    split_ifs with none_
    · exact Or.inl rfl
    · exact Or.inr ⟨_, digits_map n.fraction_small none_, rfl⟩
  · unfold powerText
    cases n.power with
    | none => exact Or.inl rfl
    | some power =>
        refine Or.inr ⟨_, signText power.sign, power.figures.map digitByte, ?_, ?_,
          digits_map power.small power.some_, rfl⟩
        · cases power.capital
          · exact Or.inl rfl
          · exact Or.inr rfl
        · rcases power.sign with _ | minus
          · exact Or.inl rfl
          · cases minus
            · exact Or.inr (Or.inl rfl)
            · exact Or.inr (Or.inr rfl)

theorem isNumber : IsNumber n.text := n.isUnsigned.isNumber n.negative

/-- **A number is read as what its figures stand for.** -/
theorem scan : scanNumeral n.text = some (n.negative, .number n.value, []) := by
  have noDigits : scanDigits 10 n.powerText = ([], n.powerText) := by
    unfold powerText
    cases n.power with
    | none => rfl
    | some power => cases capital : power.capital <;> simp [Power.text, capital] <;> rfl
  have exponent : scanExponent 101 n.powerText = (n.power.elim 0 Power.value, []) := by
    unfold powerText
    cases n.power with
    | none => rfl
    | some power => exact power.scan
  have fraction : scanFraction 10 (n.fractionText ++ n.powerText) = (n.fraction, n.powerText) := by
    unfold fractionText
    split_ifs with none_
    · rw [none_, List.nil_append]
      unfold powerText
      cases n.power with
      | none => rfl
      | some power => cases capital : power.capital <;> simp [Power.text, capital] <;> rfl
    · exact scanDigits_map n.fraction_small noDigits
  have stop : scanDigits 10 (n.fractionText ++ n.powerText) =
      ([], n.fractionText ++ n.powerText) := by
    unfold fractionText
    split_ifs
    · exact noDigits
    · rfl
  refine n.isUnsigned.scan ?_ n.negative
  rw [scanNumber, scanDigits_map n.whole_small stop]
  dsimp only
  rw [fraction, exponent, if_neg (by simp [n.some_])]
  rfl

end Figures

end SpnavBridge.Wire
