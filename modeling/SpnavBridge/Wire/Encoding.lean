/-
# Wire.Encoding -- cJSON keeps UTF-8

A text that is UTF-8 is read into strings that are (`cJson_faithful`), and a tree of such strings is
printed as UTF-8 (`Faithful.print`).

A `\u` escape without four hex digits may end inside a character.  It reads as a NUL, and the
string ends there, so that what follows is not seen (`decodeString_utf8`).
-/
import Mathlib.Data.Nat.Digits.Defs
import SpnavBridge.Theory.Utf8
import SpnavBridge.Wire.Parse
import SpnavBridge.Wire.Wamp

namespace SpnavBridge.Wire

open SpnavBridge.Theory

set_option autoImplicit false
set_option linter.unusedSectionVars false

/-- A string that is UTF-8. -/
def IsText (s : CStr) : Prop := Utf8 s.bytes

theorem IsText.lit (s : String) : IsText (.lit s) := Utf8.lit s

/-! ## Code points -/

theorem val_ofNat {n : Nat} (valid : n.isValidChar) : (Char.ofNat n).val.toNat = n := by
  rw [Char.ofNat, dif_pos valid]
  rfl

/-- Where there is such a character, it is encoded as it should be. -/
theorem encodeUtf8_char {n : Nat} (valid : n.isValidChar) :
    encodeUtf8 n = String.utf8EncodeChar (Char.ofNat n) := by
  have small : n < 1114112 := by
    rcases valid with low | high <;> omega
  have same : ∀ {i j : Nat}, i = j → UInt8.ofNat i = UInt8.ofNat j := fun eq => congrArg _ eq
  unfold encodeUtf8 String.utf8EncodeChar tailByte
  rw [val_ofNat valid]
  dsimp only
  by_cases one : n < 0x80
  · rw [if_pos one, if_pos (show n ≤ 0x7F by omega)]
  rw [if_neg one, if_neg (show ¬ n ≤ 0x7F by omega)]
  by_cases two : n < 0x800
  · rw [if_pos two, if_pos (show n ≤ 0x7FF by omega)]
    simp only [List.cons.injEq, and_true]
    exact ⟨same (by omega), same (by omega)⟩
  rw [if_neg two, if_neg (show ¬ n ≤ 0x7FF by omega)]
  by_cases three : n < 0x10000
  · rw [if_pos three, if_pos (show n ≤ 0xFFFF by omega)]
    simp only [List.cons.injEq, and_true]
    exact ⟨same (by omega), same (by omega), same (by omega)⟩
  · rw [if_neg three, if_neg (show ¬ n ≤ 0xFFFF by omega)]
    simp only [List.cons.injEq, and_true]
    exact ⟨same (by omega), same (by omega), same (by omega), same (by omega)⟩

theorem utf8_encodeUtf8 {n : Nat} (valid : n.isValidChar) : Utf8 (encodeUtf8 n) := by
  rw [encodeUtf8_char valid]
  exact .one _

/-! ## Escapes -/

theorem digitValue_some {b : UInt8} {d : Nat} (read : digitValue b = some d) :
    b < 128 ∧ d < 16 := by
  have all : ∀ n < 256, (digitValue (.ofNat n)).all
      fun d => decide (UInt8.ofNat n < 128 ∧ d < 16) := by decide +kernel
  have this := all b.toNat b.toNat_lt
  rw [UInt8.ofNat_toNat, read] at this
  exact of_decide_eq_true this

theorem digits_some {l : List UInt8} {digits : List Nat} (read : l.mapM digitValue = some digits) :
    (∀ b ∈ l, b < 128) ∧ (∀ d ∈ digits, d < 16) ∧ digits.length = l.length := by
  induction l generalizing digits with
  | nil =>
      cases read
      simp
  | cons b l ih =>
      rw [List.mapM_cons] at read
      obtain ⟨d, one, read⟩ := Option.bind_eq_some_iff.mp read
      obtain ⟨more, rest, read⟩ := Option.bind_eq_some_iff.mp read
      cases read
      obtain ⟨plain, digit⟩ := digitValue_some one
      obtain ⟨plains, small, length⟩ := ih rest
      exact ⟨List.forall_mem_cons.mpr ⟨plain, plains⟩, List.forall_mem_cons.mpr ⟨digit, small⟩,
        by rw [List.length_cons, List.length_cons, length]⟩

/-- Four digits are a number of 16 bits. -/
theorem parseHex4_lt (l : List UInt8) : parseHex4 l < 0x10000 := by
  unfold parseHex4
  split
  · rename_i digits read
    obtain ⟨-, small, length⟩ := digits_some read
    have bound : Nat.ofDigits 16 digits.reverse < 16 ^ digits.reverse.length :=
      Nat.ofDigits_lt_base_pow_length (by decide) fun d mem => small d (List.mem_reverse.mp mem)
    rw [List.length_reverse, length] at bound
    exact bound.trans_le (Nat.pow_le_pow_right (by decide) (List.length_take_le 4 l))
  · decide

/-- What is no NUL was written in digits. -/
theorem parseHex4_plain {l : List UInt8} (nonzero : parseHex4 l ≠ 0) : ∀ b ∈ l.take 4, b < 128 := by
  unfold parseHex4 at nonzero
  split at nonzero
  · rename_i digits read
    exact (digits_some read).1
  · exact absurd rfl nonzero

/-- A `\u` escape is a NUL, or a character that is written in ASCII. -/
theorem utf16LiteralToUtf8_some {l bytes : List UInt8} {n : Nat}
    (escape : l.take 2 = [92, 117]) (read : utf16LiteralToUtf8 l = some (bytes, n)) :
    1 ≤ n ∧ (bytes = [0] ∨ Utf8 bytes ∧ ∀ b ∈ l.take n, b < 128) := by
  have front : ∀ b ∈ l.take 2, b < 128 := by
    rw [escape]
    simp
  have hex := parseHex4_lt (l.drop 2)
  have six : parseHex4 (l.drop 2) ≠ 0 → ∀ b ∈ l.take 6, b < 128 := by
    intro nonzero
    rw [show 6 = 2 + 4 from rfl, List.take_add]
    exact List.forall_mem_append.mpr ⟨front, parseHex4_plain nonzero⟩
  unfold utf16LiteralToUtf8 at read
  dsimp only at read
  split_ifs at read with short low high second range
  · obtain ⟨rfl, rfl⟩ := Prod.mk.inj (Option.some.inj read)
    have other := parseHex4_lt (l.drop 8)
    have mark : (l.drop 6).take 2 = [92, 117] := by
      by_contra not
      exact second (Or.inr not)
    refine ⟨by decide, Or.inr ⟨utf8_encodeUtf8 ?_, ?_⟩⟩
    · exact Or.inr (by omega)
    have low_ : parseHex4 (l.drop 8) ≠ 0 := by omega
    rw [show 12 = 6 + (2 + 4) from rfl, List.take_add, List.take_add, mark, List.drop_drop]
    refine List.forall_mem_append.mpr ⟨six (by omega), List.forall_mem_append.mpr ⟨by simp, ?_⟩⟩
    exact parseHex4_plain low_
  · obtain ⟨rfl, rfl⟩ := Prod.mk.inj (Option.some.inj read)
    refine ⟨by decide, ?_⟩
    by_cases zero : parseHex4 (l.drop 2) = 0
    · left
      rw [zero]
      rfl
    · refine Or.inr ⟨utf8_encodeUtf8 ?_, six zero⟩
      rcases Nat.lt_or_ge (parseHex4 (l.drop 2)) 0xD800 with below | above
      · exact Or.inl below
      · exact Or.inr (by omega)

theorem unescaped_plain {e byte : UInt8} (read : unescaped e = some byte) :
    e < 128 ∧ byte < 128 := by
  unfold unescaped at read
  split_ifs at read with b f n r t same
  all_goals
    obtain rfl := Option.some.inj read
    first | (subst_vars; decide) | (rcases same with rfl | rfl | rfl <;> decide)

/-! ## Strings -/

theorem decodeString_skip (n : Nat) (l : List UInt8) :
    decodeString n l = decodeString 0 (l.drop n) := by
  induction n generalizing l with
  | zero => rfl
  | succ n ih =>
      cases l with
      | nil => rfl
      | cons b l => exact ih l

theorem decodeString_cons {b : UInt8} (plain : b ≠ 92) (l : List UInt8) :
    decodeString 0 (b :: l) = (decodeString 0 l).map (b :: ·) := by
  cases l <;> simp [decodeString, plain]

/-- Bytes that are no backslash stay as they are. -/
theorem decodeString_plain {l : List UInt8} (plain : ∀ b ∈ l, b ≠ 92) (rest : List UInt8) :
    decodeString 0 (l ++ rest) = (decodeString 0 rest).map (l ++ ·) := by
  induction l with
  | nil => simp
  | cons b l ih =>
      rw [List.cons_append, decodeString_cons (plain b List.mem_cons_self),
        ih fun b mem => plain b (List.mem_cons_of_mem _ mem), Option.map_map]
      rfl

/-- A `\u` escape, and what follows it. -/
theorem decodeString_escape {rest bytes : List UInt8}
    (decoded : decodeString 0 (92 :: 117 :: rest) = some bytes) :
    ∃ char n more, utf16LiteralToUtf8 (92 :: 117 :: rest) = some (char, n) ∧
      decodeString (n - 1) (117 :: rest) = some more ∧ bytes = char ++ more := by
  simp only [decodeString, ne_eq, not_true_eq_false, if_false, if_true] at decoded
  split at decoded
  · rename_i char n read
    obtain ⟨more, behind, rfl⟩ := Option.map_eq_some_iff.mp decoded
    exact ⟨char, n, more, read, behind, rfl⟩
  · cases decoded

theorem decodeString_unescaped {e : UInt8} (other : e ≠ 117) {rest bytes : List UInt8}
    (decoded : decodeString 0 (92 :: e :: rest) = some bytes) :
    ∃ byte more, unescaped e = some byte ∧ decodeString 0 rest = some more ∧
      bytes = byte :: more := by
  simp only [decodeString, ne_eq, not_true_eq_false, if_false, if_neg other] at decoded
  split at decoded
  · rename_i byte read
    obtain ⟨more, behind, rfl⟩ := Option.map_eq_some_iff.mp decoded
    exact ⟨byte, more, read, behind, rfl⟩
  · cases decoded

/-- Decoding is over, or goes on behind some characters. -/
def DecodesOn (l bytes : List UInt8) : Prop :=
  Utf8 (bytes.takeWhile (· != 0)) ∨
    ∃ front left more, Utf8 front ∧ Utf8 left ∧ left.length < l.length ∧
      decodeString 0 left = some more ∧ bytes = front ++ more

/-- Behind a backslash. -/
theorem decodeString_slash {l bytes : List UInt8} (valid : Utf8 l)
    (decoded : decodeString 0 (92 :: l) = some bytes) : DecodesOn (92 :: l) bytes := by
  cases l with
  | nil =>
      obtain rfl := Option.some.inj decoded
      exact Or.inl ((Utf8.nil.cons (b := 34) (by decide)).takeWhile_ne (by decide))
  | cons e l =>
      by_cases unicode : e = 117
      · subst unicode
        obtain ⟨char, n, more, read, behind, rfl⟩ := decodeString_escape decoded
        obtain ⟨positive, nul | ⟨char_, plain⟩⟩ := utf16LiteralToUtf8_some rfl read
        · left
          rw [nul]
          exact .nil
        · have left_ : Utf8 ((92 :: 117 :: l).drop n) := (valid.cons (by decide)).drop plain
          obtain ⟨n, rfl⟩ := Nat.exists_eq_succ_of_ne_zero (Nat.ne_zero_of_lt positive)
          rw [decodeString_skip] at behind
          refine Or.inr ⟨char, _, more, char_, left_, ?_, behind, rfl⟩
          simp only [List.drop_succ_cons, List.length_drop, List.length_cons]
          omega
      · obtain ⟨byte, more, read, behind, rfl⟩ := decodeString_unescaped unicode decoded
        obtain ⟨plain, plain'⟩ := unescaped_plain read
        refine Or.inr ⟨[byte], l, more, .of_ascii ?_, valid.tail plain, ?_, behind, rfl⟩
        · simpa using plain'
        · simp

theorem decodeString_step {l bytes : List UInt8} (valid : Utf8 l)
    (decoded : decodeString 0 l = some bytes) : DecodesOn l bytes := by
  cases valid with
  | nil =>
      obtain rfl := Option.some.inj decoded
      exact Or.inl .nil
  | @char c l rest =>
      by_cases slash : 92 ∈ String.utf8EncodeChar c
      · have one : String.utf8EncodeChar c = [92] := by
          rcases encodeChar_bytes c with ⟨b, -, one⟩ | high
          · rw [one, List.mem_singleton] at slash
            rw [one, slash]
          · exact absurd (high 92 slash) (by decide)
        rw [one] at decoded ⊢
        exact decodeString_slash rest decoded
      · rw [decodeString_plain fun b mem is => slash (is ▸ mem)] at decoded
        obtain ⟨more, behind, rfl⟩ := Option.map_eq_some_iff.mp decoded
        have some_ := List.length_pos_of_ne_nil (String.utf8EncodeChar_ne_nil (c := c))
        refine Or.inr ⟨_, l, more, .one c, rest, ?_, behind, rfl⟩
        rw [List.length_append]
        omega

/-- **A string in a text is UTF-8** up to its first NUL. -/
theorem decodeString_utf8 {l bytes : List UInt8} (valid : Utf8 l)
    (decoded : decodeString 0 l = some bytes) : Utf8 (bytes.takeWhile (· != 0)) := by
  induction length : l.length using Nat.strongRecOn generalizing l bytes with
  | ind size ih =>
      subst length
      rcases decodeString_step valid decoded with ended | ⟨front, left, more, front_, left_, shorter,
        behind, rfl⟩
      · exact ended
      · exact front_.takeWhile_append (by decide) (ih left.length shorter left_ behind rfl)

/-! ## Reading -/

theorem utf8_kept : Kept Utf8 IsText where
  skip l valid := by
    unfold bufferSkipWhitespace
    have plain : ∀ b ∈ l.takeWhile isSkipped, b < 128 := by
      intro b mem
      have blank : isSkipped b = true := List.mem_takeWhile_imp mem
      exact UInt8.lt_of_le_of_lt (of_decide_eq_true blank) (by decide)
    split_ifs with all
    · refine valid.drop fun b mem => plain b ?_
      rw [List.takeWhile_eq_self_iff.mpr (List.dropWhile_eq_nil_iff.mp all)]
      exact List.mem_of_mem_take mem
    · rw [← List.takeWhile_append_dropWhile (p := isSkipped) (l := l)] at valid
      exact Utf8.of_append (.of_ascii plain) valid
  byte b l plain valid := valid.tail plain
  string l s rest valid read := by
    obtain ⟨body, bytes, rfl, decoded, rfl⟩ := parseString_eq read
    obtain ⟨body_, rest_⟩ := (valid.tail (by decide)).cut (by decide)
    exact ⟨decodeString_utf8 body_ decoded, rest_⟩
  drop l n plain valid := valid.drop plain

theorem skipUtf8Bom_utf8 {l : List UInt8} (valid : Utf8 l) : Utf8 (skipUtf8Bom l) := by
  unfold skipUtf8Bom
  split_ifs with marked
  · rw [← List.take_append_drop 3 l, marked.2] at valid
    exact Utf8.of_append (Utf8.one (.ofNat 0xFEFF)) valid
  · exact valid

/-! ## Printing -/

theorem escaped_of_ascii {b : UInt8} (plain : b < 128) : ∀ d ∈ escaped b, d < 128 := by
  have all := ascii_induction (P := fun b => (escaped b).all (· < 128) = true)
    (by decide +kernel) plain
  intro d mem
  exact of_decide_eq_true (List.all_eq_true.mp all d mem)

theorem escaped_of_high {b : UInt8} (high : 128 ≤ b) : escaped b = [b] := by
  rw [escaped, if_pos]
  simp only [gt_iff_lt, UInt8.lt_iff_toNat_lt, UInt8.le_iff_toNat_le, ne_eq, ← UInt8.toNat_inj,
    UInt8.reduceToNat] at high ⊢
  omega

/-- Escaping keeps UTF-8. -/
theorem escaped_utf8 {l : List UInt8} (valid : Utf8 l) : Utf8 (l.flatMap escaped) := by
  induction valid with
  | nil => exact .nil
  | char c rest ih =>
      rw [List.flatMap_append]
      refine Utf8.append ?_ ih
      rcases encodeChar_bytes c with ⟨b, plain, one⟩ | high
      · rw [one, List.flatMap_singleton]
        exact .of_ascii (escaped_of_ascii plain)
      · have same : (String.utf8EncodeChar c).flatMap escaped = String.utf8EncodeChar c := by
          rw [List.flatMap_congr fun b mem => escaped_of_high (high b mem), List.flatMap_singleton']
        rw [same]
        exact .one c

/-- A text that was cut between two characters can be told from one that was not when both are
escaped. -/
theorem escaped_take_iff {l : List UInt8} (valid : Utf8 l) (n : Nat) :
    Utf8 ((l.take n).flatMap escaped) ↔ Utf8 (l.take n) := by
  refine ⟨fun front => (valid.take_iff n).mpr fun b at_ => ?_, escaped_utf8⟩
  by_cases plain : b < 128
  · exact first_of_ascii plain
  obtain ⟨inside, rfl⟩ := List.getElem?_eq_some_iff.mp at_
  have whole := escaped_utf8 valid
  rw [← List.take_append_drop n l, List.flatMap_append, List.drop_eq_getElem_cons inside,
    List.flatMap_cons, escaped_of_high (UInt8.not_lt.mp plain)] at whole
  exact (Utf8.of_append front whole).first

theorem printString_utf8 {s : CStr} (text : IsText s) : Utf8 (printString s) :=
  ((escaped_utf8 text).cons (b := 34) (by decide)).append (.cons (by decide) .nil)

section Print

variable {D : Type} {printNumber : D → List UInt8} (numbers : ∀ d, Utf8 (printNumber d))
include numbers

mutual

theorem printValue_utf8 : ∀ v : Json D, v.All IsText → Utf8 (printValue printNumber v)
  | .null, _ => .ascii "null"
  | .bool true, _ => .ascii "true"
  | .bool false, _ => .ascii "false"
  | .number d, _ => numbers d
  | .string _, text => printString_utf8 text
  | .array items, texts =>
      ((printArray_utf8 items texts).cons (b := 91) (by decide)).append (.cons (by decide) .nil)
  | .object members, texts =>
      ((printObject_utf8 members texts).cons (b := 123) (by decide)).append (.cons (by decide) .nil)

theorem printArray_utf8 :
    ∀ items : List (Json D), AllItems IsText items → Utf8 (printArray printNumber items)
  | [], _ => .nil
  | [item], texts => (printValue_utf8 item texts.1).append .nil
  | item :: next :: rest, texts =>
      (printValue_utf8 item texts.1).append
        ((printArray_utf8 (next :: rest) texts.2).cons (by decide))

theorem printObject_utf8 : ∀ members : List (CStr × Json D), AllMembers IsText members →
    Utf8 (printObject printNumber members)
  | [], _ => .nil
  | [(_, item)], texts =>
      ((printString_utf8 texts.1).append
        ((printValue_utf8 item texts.2.1).cons (by decide))).append .nil
  | (_, item) :: next :: rest, texts =>
      ((printString_utf8 texts.1).append
        ((printValue_utf8 item texts.2.1).cons (by decide))).append
          ((printObject_utf8 (next :: rest) texts.2.2).cons (by decide))

end

/-- The description is in the text of a CALLERROR. -/
theorem desc_of_callerror {F : Type} [CDouble D F] {callId errorUri desc : CStr}
    (id : IsText callId) (uri : IsText errorUri)
    (whole : Utf8 (printValue printNumber (wampBuildCallerror (F := F) callId errorUri desc))) :
    Utf8 (desc.bytes.flatMap escaped) := by
  simp only [wampBuildCallerror, createNumber, printValue, printArray, List.isEmpty_cons,
    List.isEmpty_nil, if_true, if_false, Bool.false_eq_true, List.cons_append,
    List.append_assoc] at whole
  have list := Utf8.of_append (numbers _) (whole.tail (by decide))
  have list := Utf8.of_append (printString_utf8 id) (list.tail (by decide))
  have list := Utf8.of_append (printString_utf8 uri) (list.tail (by decide))
  have list := list.tail (by decide)
  simp only [printString, List.cons_append, List.append_assoc] at list
  exact ((list.tail (by decide)).cut (by decide)).1

end Print

/-! ## The library -/

/-- A library that reads texts into texts, and writes numbers as texts. -/
structure Faithful {D : Type} (lib : CJson D) : Prop where
  parse : ∀ l v, Utf8 l → lib.parseWithLength l = some v → v.All IsText
  number : ∀ d, Utf8 (lib.printNumber d)

theorem Faithful.print {D : Type} {lib : CJson D} (faithful : Faithful lib) {v : Json D}
    (texts : v.All IsText) : Utf8 (lib.printUnformatted v) :=
  printValue_utf8 faithful.number v texts

/-- **cJSON is such a library**, as its numbers are ASCII. -/
theorem cJson_faithful {D : Type} (number : Bool → ℚ → D) {printNumber : D → List UInt8}
    (plain : ∀ d, ∀ b ∈ printNumber d, b < 128) : Faithful (cJson number printNumber) where
  parse l v valid parsed := by
    obtain ⟨⟨tree, rest⟩, read, rfl⟩ := Option.map_eq_some_iff.mp parsed
    unfold parseWithLengthOpts at read
    split at read
    · cases read
    · exact (parseValue_keeps utf8_kept (utf8_kept.skip _ (skipUtf8Bom_utf8 valid)) read).1
  number d := .of_ascii (plain d)

end SpnavBridge.Wire
