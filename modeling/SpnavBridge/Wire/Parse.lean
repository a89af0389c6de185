/-
# Wire.Parse -- how cJSON.c reads a text

The parse buffer is what is left of the text, so that `can_access_at_index` asks for its
length.  `budget` is how much deeper arrays and objects may nest, and `number` the `double` that
`strtod` gives for a decimal with its sign.

The loops over items are given more steps than the text has bytes, which is enough
(`parseValue_fuel`): every round reads a byte at least.
-/
import Mathlib.Data.List.DropRight
import SpnavBridge.Theory.NumberText
import SpnavBridge.Wire.Json

namespace SpnavBridge.Wire

open SpnavBridge.Theory

set_option autoImplicit false

/-! ## Blanks -/

/-- `CJSON_NESTING_LIMIT` -/
def nestingLimit : Nat := 1000

def isSkipped (b : UInt8) : Bool := b ≤ 32

/-- `buffer_skip_whitespace`.  At the end it steps back onto the last blank. -/
def bufferSkipWhitespace (l : List UInt8) : List UInt8 :=
  if l.dropWhile isSkipped = [] then l.drop (l.length - 1) else l.dropWhile isSkipped

def bom : List UInt8 := [0xEF, 0xBB, 0xBF]

/-- `skip_utf8_bom` -/
def skipUtf8Bom (l : List UInt8) : List UInt8 :=
  if 4 < l.length ∧ l.take 3 = bom then l.drop 3 else l

/-! ## Strings -/

/-- `parse_hex4` of the four bytes in front, 0 if they are no digits. -/
def parseHex4 (l : List UInt8) : Nat :=
  match (l.take 4).mapM digitValue with
  | some digits => Nat.ofDigits 16 digits.reverse
  | none => 0

/-- A byte of an encoded character behind the first one. -/
def tailByte (n : Nat) : UInt8 := .ofNat (0x80 + n % 64)

/-- The code point in UTF-8. -/
def encodeUtf8 (codepoint : Nat) : List UInt8 :=
  if codepoint < 0x80 then [.ofNat codepoint]
  else if codepoint < 0x800 then [.ofNat (0xC0 + codepoint / 64), tailByte codepoint]
  else if codepoint < 0x10000 then
    [.ofNat (0xE0 + codepoint / 4096), tailByte (codepoint / 64), tailByte codepoint]
  else
    [.ofNat (0xF0 + codepoint / 262144), tailByte (codepoint / 4096), tailByte (codepoint / 64),
      tailByte codepoint]

/-- `utf16_literal_to_utf8` at the backslash of a `\u`: the bytes, and `sequence_length`. -/
def utf16LiteralToUtf8 (l : List UInt8) : Option (List UInt8 × Nat) :=
  if l.length < 6 then none
  else
    let first := parseHex4 (l.drop 2)
    if 0xDC00 ≤ first ∧ first ≤ 0xDFFF then none
    else if 0xD800 ≤ first ∧ first ≤ 0xDBFF then
      let second := parseHex4 (l.drop 8)
      if l.length < 12 ∨ (l.drop 6).take 2 ≠ [92, 117] then none
      else if second < 0xDC00 ∨ 0xDFFF < second then none
      else some (encodeUtf8 (0x10000 + first % 1024 * 1024 + second % 1024), 12)
    else some (encodeUtf8 first, 6)

/-- The other escapes. -/
def unescaped (b : UInt8) : Option UInt8 :=
  if b = 98 then some 8
  else if b = 102 then some 12
  else if b = 110 then some 10
  else if b = 114 then some 13
  else if b = 116 then some 9
  else if b = 34 ∨ b = 92 ∨ b = 47 then some b
  else none

/-- The string between its quotes without the escapes, behind `skip` bytes that are dealt
with.  An escape that was taken apart may leave a backslash at the end: the byte behind it is
the closing quote. -/
def decodeString : Nat → List UInt8 → Option (List UInt8)
  | _, [] => some []
  | skip + 1, _ :: l => decodeString skip l
  | 0, b :: l =>
      if b ≠ 92 then (decodeString 0 l).map (b :: ·)
      else
        match l with
        | [] => some [34]
        | e :: rest =>
            if e = 117 then
              match utf16LiteralToUtf8 (b :: e :: rest) with
              | some (bytes, length) => (decodeString (length - 1) (e :: rest)).map (bytes ++ ·)
              | none => none
            else
              match unescaped e with
              | some byte => (decodeString 1 (e :: rest)).map (byte :: ·)
              | none => none

/-- What is in front of the closing quote and behind it. -/
def scanString : List UInt8 → Option (List UInt8 × List UInt8)
  | [] => none
  | b :: l =>
      if b = 34 then some ([], l)
      else if b = 92 then
        match l with
        | [] => none
        | e :: rest => (scanString rest).map fun s => (b :: e :: s.1, s.2)
      else (scanString l).map fun s => (b :: s.1, s.2)

@[simp] theorem scanString_quote (l : List UInt8) : scanString (34 :: l) = some ([], l) := by
  cases l <;> simp [scanString]

@[simp] theorem scanString_escape (e : UInt8) (l : List UInt8) :
    scanString (92 :: e :: l) = (scanString l).map fun s => (92 :: e :: s.1, s.2) := by
  simp [scanString]

theorem scanString_plain {b : UInt8} (notQuote : b ≠ 34) (plain : b ≠ 92) (l : List UInt8) :
    scanString (b :: l) = (scanString l).map fun s => (b :: s.1, s.2) := by
  cases l <;> simp [scanString, notQuote, plain]

/-- `parse_string` -/
def parseString : List UInt8 → Option (CStr × List UInt8)
  | [] => none
  | b :: l =>
      if b = 34 then
        match scanString l with
        | some (body, rest) => (decodeString 0 body).map fun bytes => (.ofBytes bytes, rest)
        | none => none
      else none

/-! ## Numbers -/

/-- A byte that is copied for `strtod`: a digit or one of `+-eE.` -/
def isNumberByte (b : UInt8) : Bool := isdigit b || b ∈ [43, 45, 101, 69, 46]

variable {D : Type} (number : Bool → ℚ → D)

/-- `parse_number`, whose buffer has room for 63 bytes. -/
def parseNumber (l : List UInt8) : Option (D × List UInt8) :=
  let text := (l.take 63).takeWhile isNumberByte
  match scanNumeral text with
  | some (negative, .number q, rest) => some (number negative q, l.drop (text.length - rest.length))
  | _ => none

/-! ## Values -/

section Items

variable (value : List UInt8 → Option (Json D × List UInt8))

/-- The loop of `parse_array`, in front of an item. -/
def parseElements : Nat → List UInt8 → Option (List (Json D) × List UInt8)
  | 0, _ => none
  | fuel + 1, l =>
      match value (bufferSkipWhitespace l) with
      | none => none
      | some (item, rest) =>
          match bufferSkipWhitespace rest with
          | [] => none
          | b :: after =>
              if b = 44 then
                (parseElements fuel after).map fun read => (item :: read.1, read.2)
              else if b = 93 then some ([item], after)
              else none

/-- `parse_array` behind the bracket. -/
def parseArray (l : List UInt8) : Option (List (Json D) × List UInt8) :=
  match bufferSkipWhitespace l with
  | [] => none
  | b :: after =>
      if b = 93 then some ([], after)
      else parseElements value ((b :: after).length + 1) (b :: after)

/-- The loop of `parse_object`, in front of a name. -/
def parseMembers : Nat → List UInt8 → Option (List (CStr × Json D) × List UInt8)
  | 0, _ => none
  | fuel + 1, l =>
      match parseString (bufferSkipWhitespace l) with
      | none => none
      | some (name, rest) =>
          match bufferSkipWhitespace rest with
          | [] => none
          | colon :: behind =>
              if colon = 58 then
                match value (bufferSkipWhitespace behind) with
                | none => none
                | some (item, rest) =>
                    match bufferSkipWhitespace rest with
                    | [] => none
                    | b :: after =>
                        if b = 44 then
                          (parseMembers fuel after).map fun read =>
                            ((name, item) :: read.1, read.2)
                        else if b = 125 then some ([(name, item)], after)
                        else none
              else none

/-- `parse_object` behind the brace. -/
def parseObject (l : List UInt8) : Option (List (CStr × Json D) × List UInt8) :=
  match bufferSkipWhitespace l with
  | [] => none
  | b :: after =>
      if b = 125 then some ([], after)
      else parseMembers value ((b :: after).length + 1) (b :: after)

end Items

/-- `parse_value` -/
def parseValue : Nat → List UInt8 → Option (Json D × List UInt8)
  | budget, l =>
      if ascii "null" <+: l then some (.null, l.drop 4)
      else if ascii "false" <+: l then some (.bool false, l.drop 5)
      else if ascii "true" <+: l then some (.bool true, l.drop 4)
      else
        match l with
        | [] => none
        | b :: rest =>
            if b = 34 then (parseString (b :: rest)).map fun read => (.string read.1, read.2)
            else if b = 45 ∨ isdigit b then
              (parseNumber number (b :: rest)).map fun read => (.number read.1, read.2)
            else if b = 91 then
              match budget with
              | 0 => none
              | deeper + 1 =>
                  (parseArray (fun l => parseValue deeper l) rest).map fun read =>
                    (.array read.1, read.2)
            else if b = 123 then
              match budget with
              | 0 => none
              | deeper + 1 =>
                  (parseObject (fun l => parseValue deeper l) rest).map fun read =>
                    (.object read.1, read.2)
            else none

section Values

variable (budget : Nat) (l : List UInt8)

theorem ascii_null : ascii "null" = [110, 117, 108, 108] := by decide
theorem ascii_false : ascii "false" = [102, 97, 108, 115, 101] := by decide
theorem ascii_true : ascii "true" = [116, 114, 117, 101] := by decide

theorem parseValue_null : parseValue number budget (ascii "null" ++ l) = some (.null, l) := by
  cases budget <;> rfl

theorem parseValue_false :
    parseValue number budget (ascii "false" ++ l) = some (.bool false, l) := by
  cases budget <;> rfl

theorem parseValue_true :
    parseValue number budget (ascii "true" ++ l) = some (.bool true, l) := by
  cases budget <;> rfl

theorem parseValue_string : parseValue number budget (34 :: l) =
    (parseString (34 :: l)).map fun read => (.string read.1, read.2) := by
  cases budget <;> rfl

theorem parseValue_number {b : UInt8} (numeric : b = 45 ∨ isdigit b = true) :
    parseValue number budget (b :: l) =
      (parseNumber number (b :: l)).map fun read => (.number read.1, read.2) := by
  have other : b ≠ 110 ∧ b ≠ 102 ∧ b ≠ 116 ∧ b ≠ 34 := by
    rcases numeric with rfl | digit
    · decide
    · refine ⟨?_, ?_, ?_, ?_⟩ <;> rintro rfl <;> cases digit
  cases budget <;> simp [parseValue, ascii_null, ascii_false, ascii_true, numeric, other,
    other.1.symm, other.2.1.symm, other.2.2.1.symm]

theorem parseValue_array : parseValue number (budget + 1) (91 :: l) =
    (parseArray (fun l => parseValue number budget l) l).map fun read =>
      (.array read.1, read.2) := rfl

theorem parseValue_object : parseValue number (budget + 1) (123 :: l) =
    (parseObject (fun l => parseValue number budget l) l).map fun read =>
      (.object read.1, read.2) := rfl

/-- Nothing nests any deeper. -/
theorem parseValue_deep {b : UInt8} (opens : b = 91 ∨ b = 123) :
    parseValue number 0 (b :: l) = none := by
  rcases opens with rfl | rfl <;> rfl

end Values

/-- `strtod` where every decimal is a number. -/
def signedRat (negative : Bool) (q : ℚ) : ℚ := if negative then -q else q

/-- `cJSON_ParseWithLengthOpts` with no terminator asked for: the tree, and what is left. -/
def parseWithLengthOpts (l : List UInt8) : Option (Json D × List UInt8) :=
  if l = [] then none
  else parseValue number nestingLimit (bufferSkipWhitespace (skipUtf8Bom l))

/-- cJSON, with `strtod` and `print_number` as they may be. -/
def cJson (number : Bool → ℚ → D) (printNumber : D → List UInt8) : CJson D where
  parseWithLength l := (parseWithLengthOpts number l).map (·.1)
  printNumber := printNumber

/-! ## What is left is the end of the text -/

theorem bufferSkipWhitespace_suffix (l : List UInt8) : bufferSkipWhitespace l <:+ l := by
  unfold bufferSkipWhitespace
  split_ifs
  · exact List.drop_suffix _ l
  · exact List.dropWhile_suffix _

/-- Blanks in front of something else are skipped. -/
theorem bufferSkipWhitespace_front {blanks : List UInt8} (skipped : ∀ b ∈ blanks, isSkipped b = true)
    {b : UInt8} (stays : isSkipped b = false) (rest : List UInt8) :
    bufferSkipWhitespace (blanks ++ b :: rest) = b :: rest := by
  have kept : (b :: rest).dropWhile isSkipped = b :: rest :=
    List.dropWhile_cons_of_neg (by rw [stays]; exact Bool.false_ne_true)
  rw [bufferSkipWhitespace, List.dropWhile_append_of_pos skipped, kept,
    if_neg (List.cons_ne_nil _ _)]

theorem bufferSkipWhitespace_idem (l : List UInt8) :
    bufferSkipWhitespace (bufferSkipWhitespace l) = bufferSkipWhitespace l := by
  by_cases all : l.dropWhile isSkipped = []
  · have blank : ∀ b ∈ l, isSkipped b = true := List.dropWhile_eq_nil_iff.mp all
    have last : (l.drop (l.length - 1)).dropWhile isSkipped = [] :=
      List.dropWhile_eq_nil_iff.mpr fun b mem => blank b (List.mem_of_mem_drop mem)
    have once : bufferSkipWhitespace l = l.drop (l.length - 1) := if_pos all
    rw [once, bufferSkipWhitespace, if_pos last, List.drop_drop, List.length_drop]
    congr 1
    omega
  · have once : bufferSkipWhitespace l = l.dropWhile isSkipped := if_neg all
    rw [once, bufferSkipWhitespace, List.dropWhile_idempotent, if_neg all]

theorem scanString_eq {l body rest : List UInt8} (scanned : scanString l = some (body, rest)) :
    l = body ++ 34 :: rest := by
  fun_induction scanString l generalizing body rest with
  | case1 => cases scanned
  | case2 l =>
      obtain ⟨rfl, rfl⟩ := Prod.mk.inj (Option.some.inj scanned)
      rfl
  | case3 => cases scanned
  | case4 l e notQuote ih =>
      obtain ⟨⟨front, back⟩, inside, same⟩ := Option.map_eq_some_iff.mp scanned
      obtain ⟨rfl, rfl⟩ := Prod.mk.inj same
      rw [ih inside]
      rfl
  | case5 b l notQuote plain ih =>
      obtain ⟨⟨front, back⟩, inside, same⟩ := Option.map_eq_some_iff.mp scanned
      obtain ⟨rfl, rfl⟩ := Prod.mk.inj same
      rw [ih inside]
      rfl

/-- A string stands between quotes. -/
theorem parseString_eq {l rest : List UInt8} {s : CStr} (parsed : parseString l = some (s, rest)) :
    ∃ body bytes, l = 34 :: (body ++ 34 :: rest) ∧ decodeString 0 body = some bytes ∧
      s = .ofBytes bytes := by
  unfold parseString at parsed
  split at parsed
  · cases parsed
  · rename_i b l
    split_ifs at parsed with quote
    split at parsed
    · rename_i body after scanned
      obtain ⟨bytes, decoded, same⟩ := Option.map_eq_some_iff.mp parsed
      obtain ⟨rfl, rfl⟩ := Prod.mk.inj same
      exact ⟨body, bytes, by rw [quote, scanString_eq scanned], decoded, rfl⟩
    · cases parsed

theorem parseString_suffix {l rest : List UInt8} {s : CStr}
    (parsed : parseString l = some (s, rest)) : rest <:+ l := by
  obtain ⟨body, -, rfl, -⟩ := parseString_eq parsed
  exact ⟨34 :: body ++ [34], by simp⟩

theorem isNumberByte_lt {b : UInt8} (numeric : isNumberByte b = true) : b < 128 := by
  rw [isNumberByte, Bool.or_eq_true] at numeric
  rcases numeric with digit | sign
  · rw [isdigit, Bool.and_eq_true, decide_eq_true_eq, decide_eq_true_eq] at digit
    exact UInt8.lt_of_le_of_lt digit.2 (by decide)
  · have known : ∀ b ∈ ([43, 45, 101, 69, 46] : List UInt8), b < 128 := by simp
    exact known b (of_decide_eq_true sign)

/-- A number is taken off the front of the text. -/
theorem parseNumber_some {l rest : List UInt8} {d : D}
    (parsed : parseNumber number l = some (d, rest)) :
    ∃ n ≤ 63, rest = l.drop n ∧ ∀ b ∈ l.take n, isNumberByte b = true := by
  unfold parseNumber at parsed
  dsimp only at parsed
  split at parsed
  · rename_i negative q left scanned
    obtain ⟨-, rfl⟩ := Prod.mk.inj (Option.some.inj parsed)
    have short : ((l.take 63).takeWhile isNumberByte).length ≤ 63 :=
      (List.takeWhile_prefix _).length_le.trans (List.length_take_le 63 l)
    refine ⟨_, (Nat.sub_le ..).trans short, rfl, fun b mem => ?_⟩
    have front : (l.take 63).takeWhile isNumberByte <+: l :=
      (List.takeWhile_prefix _).trans (List.take_prefix 63 l)
    have numeric : ∀ b ∈ (l.take 63).takeWhile isNumberByte, isNumberByte b = true :=
      fun b inside => List.mem_takeWhile_imp inside
    generalize (l.take 63).takeWhile isNumberByte = text at front numeric mem scanned
    refine numeric b ?_
    rw [List.prefix_iff_eq_take.mp front]
    refine List.mem_of_mem_take (i := text.length - left.length) ?_
    rwa [List.take_take, Nat.min_eq_left (Nat.sub_le ..)]
  · cases parsed

/-! ### One round of the loops -/

section Items

variable {value : List UInt8 → Option (Json D × List UInt8)}

/-- An item, and then a comma or the end. -/
theorem parseElements_some {fuel : Nat} {l rest : List UInt8} {items : List (Json D)}
    (parsed : parseElements value (fuel + 1) l = some (items, rest)) :
    ∃ item behind, value (bufferSkipWhitespace l) = some (item, behind) ∧
      ((∃ after more, bufferSkipWhitespace behind = 44 :: after ∧
          parseElements value fuel after = some (more, rest) ∧ items = item :: more) ∨
        (bufferSkipWhitespace behind = 93 :: rest ∧ items = [item])) := by
  unfold parseElements at parsed
  split at parsed
  · cases parsed
  · rename_i item behind read
    refine ⟨item, behind, read, ?_⟩
    split at parsed
    · cases parsed
    · rename_i b after skip
      split_ifs at parsed with comma bracket
      · obtain ⟨⟨more, back⟩, further, same⟩ := Option.map_eq_some_iff.mp parsed
        obtain ⟨rfl, rfl⟩ := Prod.mk.inj same
        exact Or.inl ⟨after, more, by rw [skip, comma], further, rfl⟩
      · obtain ⟨rfl, rfl⟩ := Prod.mk.inj (Option.some.inj parsed)
        exact Or.inr ⟨by rw [skip, bracket], rfl⟩

/-- A name, a colon and a value, and then a comma or the end. -/
theorem parseMembers_some {fuel : Nat} {l rest : List UInt8} {members : List (CStr × Json D)}
    (parsed : parseMembers value (fuel + 1) l = some (members, rest)) :
    ∃ name colon from_ item behind,
      parseString (bufferSkipWhitespace l) = some (name, colon) ∧
      bufferSkipWhitespace colon = 58 :: from_ ∧
      value (bufferSkipWhitespace from_) = some (item, behind) ∧
      ((∃ after more, bufferSkipWhitespace behind = 44 :: after ∧
          parseMembers value fuel after = some (more, rest) ∧ members = (name, item) :: more) ∨
        (bufferSkipWhitespace behind = 125 :: rest ∧ members = [(name, item)])) := by
  unfold parseMembers at parsed
  split at parsed
  · cases parsed
  · rename_i name colon named
    split at parsed
    · cases parsed
    · rename_i c from_ between
      split_ifs at parsed with isColon
      split at parsed
      · cases parsed
      · rename_i item behind read
        refine ⟨name, colon, from_, item, behind, named, by rw [between, isColon], read, ?_⟩
        split at parsed
        · cases parsed
        · rename_i b after skip
          split_ifs at parsed with comma brace
          · obtain ⟨⟨more, back⟩, further, same⟩ := Option.map_eq_some_iff.mp parsed
            obtain ⟨rfl, rfl⟩ := Prod.mk.inj same
            exact Or.inl ⟨after, more, by rw [skip, comma], further, rfl⟩
          · obtain ⟨rfl, rfl⟩ := Prod.mk.inj (Option.some.inj parsed)
            exact Or.inr ⟨by rw [skip, brace], rfl⟩

/-- Where the loop begins does not depend on who skips the blanks. -/
theorem parseElements_skip (fuel : Nat) (l : List UInt8) :
    parseElements value fuel (bufferSkipWhitespace l) = parseElements value fuel l := by
  cases fuel with
  | zero => rfl
  | succ fuel => simp only [parseElements, bufferSkipWhitespace_idem]

theorem parseMembers_skip (fuel : Nat) (l : List UInt8) :
    parseMembers value fuel (bufferSkipWhitespace l) = parseMembers value fuel l := by
  cases fuel with
  | zero => rfl
  | succ fuel => simp only [parseMembers, bufferSkipWhitespace_idem]

/-- An array is empty, or what the loop reads. -/
theorem parseArray_some {l rest : List UInt8} {items : List (Json D)}
    (parsed : parseArray value l = some (items, rest)) :
    (bufferSkipWhitespace l = 93 :: rest ∧ items = []) ∨
      ∃ fuel, parseElements value fuel l = some (items, rest) := by
  unfold parseArray at parsed
  split at parsed
  · cases parsed
  · rename_i b after skip
    split_ifs at parsed with bracket
    · obtain ⟨rfl, rfl⟩ := Prod.mk.inj (Option.some.inj parsed)
      exact Or.inl ⟨by rw [skip, bracket], rfl⟩
    · rw [← skip, parseElements_skip] at parsed
      exact Or.inr ⟨_, parsed⟩

theorem parseObject_some {l rest : List UInt8} {members : List (CStr × Json D)}
    (parsed : parseObject value l = some (members, rest)) :
    (bufferSkipWhitespace l = 125 :: rest ∧ members = []) ∨
      ∃ fuel, parseMembers value fuel l = some (members, rest) := by
  unfold parseObject at parsed
  split at parsed
  · cases parsed
  · rename_i b after skip
    split_ifs at parsed with brace
    · obtain ⟨rfl, rfl⟩ := Prod.mk.inj (Option.some.inj parsed)
      exact Or.inl ⟨by rw [skip, brace], rfl⟩
    · rw [← skip, parseMembers_skip] at parsed
      exact Or.inr ⟨_, parsed⟩

end Items

/-- What `parse_value` reads. -/
inductive Reads (budget : Nat) (l : List UInt8) : Json D → List UInt8 → Prop
  | null (front : ascii "null" <+: l) : Reads budget l .null (l.drop 4)
  | false_ (front : ascii "false" <+: l) : Reads budget l (.bool false) (l.drop 5)
  | true_ (front : ascii "true" <+: l) : Reads budget l (.bool true) (l.drop 4)
  | string (s : CStr) (rest : List UInt8) (read : parseString l = some (s, rest)) :
      Reads budget l (.string s) rest
  | number (d : D) (rest : List UInt8) (read : parseNumber number l = some (d, rest)) :
      Reads budget l (.number d) rest
  | array (deeper : Nat) (behind : List UInt8) (items : List (Json D)) (rest : List UInt8)
      (room : budget = deeper + 1) (front : l = 91 :: behind)
      (read : parseArray (fun l => parseValue number deeper l) behind = some (items, rest)) :
      Reads budget l (.array items) rest
  | object (deeper : Nat) (behind : List UInt8) (members : List (CStr × Json D))
      (rest : List UInt8) (room : budget = deeper + 1) (front : l = 123 :: behind)
      (read : parseObject (fun l => parseValue number deeper l) behind = some (members, rest)) :
      Reads budget l (.object members) rest

variable {number}

theorem parseValue_some {budget : Nat} {l rest : List UInt8} {item : Json D}
    (parsed : parseValue number budget l = some (item, rest)) :
    Reads number budget l item rest := by
  unfold parseValue at parsed
  split_ifs at parsed with null false_ true_
  · obtain ⟨rfl, rfl⟩ := Prod.mk.inj (Option.some.inj parsed)
    exact .null null
  · obtain ⟨rfl, rfl⟩ := Prod.mk.inj (Option.some.inj parsed)
    exact .false_ false_
  · obtain ⟨rfl, rfl⟩ := Prod.mk.inj (Option.some.inj parsed)
    exact .true_ true_
  · split at parsed
    · cases parsed
    · rename_i b behind
      split_ifs at parsed with quote digit bracket brace
      · obtain ⟨⟨s, left⟩, read, same⟩ := Option.map_eq_some_iff.mp parsed
        obtain ⟨rfl, rfl⟩ := Prod.mk.inj same
        exact .string s left read
      · obtain ⟨⟨d, left⟩, read, same⟩ := Option.map_eq_some_iff.mp parsed
        obtain ⟨rfl, rfl⟩ := Prod.mk.inj same
        exact .number d left read
      · split at parsed
        · cases parsed
        · rename_i deeper
          obtain ⟨⟨items, left⟩, read, same⟩ := Option.map_eq_some_iff.mp parsed
          obtain ⟨rfl, rfl⟩ := Prod.mk.inj same
          exact .array deeper behind items left rfl (by rw [bracket]) read
      · split at parsed
        · cases parsed
        · rename_i deeper
          obtain ⟨⟨members, left⟩, read, same⟩ := Option.map_eq_some_iff.mp parsed
          obtain ⟨rfl, rfl⟩ := Prod.mk.inj same
          exact .object deeper behind members left rfl (by rw [brace]) read

/-! ## What reading keeps -/

mutual

/-- All strings of a tree, names among them, are of a kind. -/
def Json.All (S : CStr → Prop) : Json D → Prop
  | .string s => S s
  | .array items => AllItems S items
  | .object members => AllMembers S members
  | _ => True

def AllItems (S : CStr → Prop) : List (Json D) → Prop
  | [] => True
  | item :: rest => item.All S ∧ AllItems S rest

def AllMembers (S : CStr → Prop) : List (CStr × Json D) → Prop
  | [] => True
  | (name, item) :: rest => S name ∧ item.All S ∧ AllMembers S rest

end

/-- `P` goes from a text to what is left of it, wherever reading may stop, and strings that are
read in a text with `P` are in `S`. -/
structure Kept (P : List UInt8 → Prop) (S : CStr → Prop) : Prop where
  skip : ∀ l, P l → P (bufferSkipWhitespace l)
  byte : ∀ b l, b < 128 → P (b :: l) → P l
  string : ∀ l s rest, P l → parseString l = some (s, rest) → S s ∧ P rest
  drop : ∀ l n, (∀ b ∈ l.take n, b < 128) → P l → P (l.drop n)

section Kept

variable {P : List UInt8 → Prop} {S : CStr → Prop} (kept : Kept P S)
include kept

section Items

variable {value : List UInt8 → Option (Json D × List UInt8)}
  (reads : ∀ l item rest, P l → value l = some (item, rest) → item.All S ∧ P rest)
include reads

theorem parseElements_keeps {fuel : Nat} {l rest : List UInt8} {items : List (Json D)} (start : P l)
    (parsed : parseElements value fuel l = some (items, rest)) : AllItems S items ∧ P rest := by
  induction fuel generalizing l items with
  | zero => cases parsed
  | succ fuel ih =>
      obtain ⟨item, behind, read, next⟩ := parseElements_some parsed
      obtain ⟨good, left⟩ := reads _ _ _ (kept.skip _ start) read
      have left' := kept.skip _ left
      rcases next with ⟨after, more, comma, further, rfl⟩ | ⟨bracket, rfl⟩
      · rw [comma] at left'
        obtain ⟨rest_, done⟩ := ih (kept.byte _ _ (by decide) left') further
        exact ⟨⟨good, rest_⟩, done⟩
      · rw [bracket] at left'
        exact ⟨⟨good, trivial⟩, kept.byte _ _ (by decide) left'⟩

theorem parseMembers_keeps {fuel : Nat} {l rest : List UInt8} {members : List (CStr × Json D)}
    (start : P l) (parsed : parseMembers value fuel l = some (members, rest)) :
    AllMembers S members ∧ P rest := by
  induction fuel generalizing l members with
  | zero => cases parsed
  | succ fuel ih =>
      obtain ⟨name, colon, from_, item, behind, named, between, read, next⟩ :=
        parseMembers_some parsed
      obtain ⟨good, left⟩ := kept.string _ _ _ (kept.skip _ start) named
      have left' := kept.skip _ left
      rw [between] at left'
      obtain ⟨good', left⟩ := reads _ _ _ (kept.skip _ (kept.byte _ _ (by decide) left')) read
      have left' := kept.skip _ left
      rcases next with ⟨after, more, comma, further, rfl⟩ | ⟨brace, rfl⟩
      · rw [comma] at left'
        obtain ⟨rest_, done⟩ := ih (kept.byte _ _ (by decide) left') further
        exact ⟨⟨good, good', rest_⟩, done⟩
      · rw [brace] at left'
        exact ⟨⟨good, good', trivial⟩, kept.byte _ _ (by decide) left'⟩

theorem parseArray_keeps {l rest : List UInt8} {items : List (Json D)} (start : P l)
    (parsed : parseArray value l = some (items, rest)) : AllItems S items ∧ P rest := by
  rcases parseArray_some parsed with ⟨bracket, rfl⟩ | ⟨fuel, parsed⟩
  · have left := kept.skip _ start
    rw [bracket] at left
    exact ⟨trivial, kept.byte _ _ (by decide) left⟩
  · exact parseElements_keeps kept reads start parsed

theorem parseObject_keeps {l rest : List UInt8} {members : List (CStr × Json D)} (start : P l)
    (parsed : parseObject value l = some (members, rest)) : AllMembers S members ∧ P rest := by
  rcases parseObject_some parsed with ⟨brace, rfl⟩ | ⟨fuel, parsed⟩
  · have left := kept.skip _ start
    rw [brace] at left
    exact ⟨trivial, kept.byte _ _ (by decide) left⟩
  · exact parseMembers_keeps kept reads start parsed

end Items

/-- **Reading a value keeps it.** -/
theorem parseValue_keeps {budget : Nat} {l rest : List UInt8} {item : Json D} (start : P l)
    (parsed : parseValue number budget l = some (item, rest)) : item.All S ∧ P rest := by
  have word : ∀ (w : String) (n : Nat) (l : List UInt8), P l → (ascii w).length = n →
      (ascii w).all (· < 128) = true → ascii w <+: l → P (l.drop n) := by
    intro w n l start length plain front
    refine kept.drop l _ (fun b mem => of_decide_eq_true (List.all_eq_true.mp plain b ?_)) start
    rwa [← length, ← List.prefix_iff_eq_take.mp front] at mem
  induction budget using Nat.strongRecOn generalizing l rest item with
  | ind budget ih =>
      cases parseValue_some parsed with
      | null front => exact ⟨trivial, word "null" 4 l start rfl (by decide) front⟩
      | false_ front => exact ⟨trivial, word "false" 5 l start rfl (by decide) front⟩
      | true_ front => exact ⟨trivial, word "true" 4 l start rfl (by decide) front⟩
      | string s rest read => exact kept.string _ _ _ start read
      | number d rest read =>
          obtain ⟨n, -, rfl, numeric⟩ := parseNumber_some number read
          exact ⟨trivial, kept.drop l n (fun b mem => isNumberByte_lt (numeric b mem)) start⟩
      | array deeper behind items rest room front read =>
          rw [front] at start
          exact parseArray_keeps kept (fun _ _ _ => ih deeper (by omega))
            (kept.byte _ _ (by decide) start) read
      | object deeper behind members rest room front read =>
          rw [front] at start
          exact parseObject_keeps kept (fun _ _ _ => ih deeper (by omega))
            (kept.byte _ _ (by decide) start) read

end Kept

/-! ## Enough steps -/

theorem kept_suffix (l : List UInt8) : Kept (· <:+ l) fun _ => True where
  skip m left := (bufferSkipWhitespace_suffix m).trans left
  byte b m _ left := (List.suffix_cons b m).trans left
  string _ _ _ left read := ⟨trivial, (parseString_suffix read).trans left⟩
  drop m n _ left := (List.drop_suffix n m).trans left

theorem parseValue_suffix {budget : Nat} {l rest : List UInt8} {item : Json D}
    (parsed : parseValue number budget l = some (item, rest)) : rest <:+ l :=
  (parseValue_keeps (kept_suffix l) (List.suffix_refl l) parsed).2

section Fuel

variable {value : List UInt8 → Option (Json D × List UInt8)}
  (suffix : ∀ l item rest, value l = some (item, rest) → rest <:+ l)
include suffix

/-- What follows a byte that was found behind a value is shorter than the text. -/
theorem length_lt_of_read {l behind after : List UInt8} {item : Json D} {b : UInt8}
    (read : value (bufferSkipWhitespace l) = some (item, behind))
    (skip : bufferSkipWhitespace behind = b :: after) : after.length < l.length := by
  have first := (bufferSkipWhitespace_suffix behind).length_le
  have second := (suffix _ _ _ read).length_le
  have third := (bufferSkipWhitespace_suffix l).length_le
  rw [skip, List.length_cons] at first
  omega

/-- **The items of an array never run out of steps**: more of them change nothing. -/
theorem parseElements_fuel {fuel fuel' : Nat} {l : List UInt8} (enough : l.length < fuel)
    (enough' : l.length < fuel') :
    parseElements value fuel l = parseElements value fuel' l := by
  induction fuel generalizing l fuel' with
  | zero => exact absurd enough (Nat.not_lt_zero _)
  | succ fuel ih =>
      obtain ⟨fuel', rfl⟩ := Nat.exists_eq_succ_of_ne_zero (Nat.ne_zero_of_lt enough')
      unfold parseElements
      cases read : value (bufferSkipWhitespace l) with
      | none => rfl
      | some item =>
          obtain ⟨item, behind⟩ := item
          dsimp only
          cases skip : bufferSkipWhitespace behind with
          | nil => rfl
          | cons b after =>
              have shorter := length_lt_of_read suffix read skip
              dsimp only
              have further : parseElements value fuel after = parseElements value fuel' after :=
                ih (by omega) (by omega)
              rw [further]

/-- Nor do the members of an object. -/
theorem parseMembers_fuel {fuel fuel' : Nat} {l : List UInt8} (enough : l.length < fuel)
    (enough' : l.length < fuel') :
    parseMembers value fuel l = parseMembers value fuel' l := by
  induction fuel generalizing l fuel' with
  | zero => exact absurd enough (Nat.not_lt_zero _)
  | succ fuel ih =>
      obtain ⟨fuel', rfl⟩ := Nat.exists_eq_succ_of_ne_zero (Nat.ne_zero_of_lt enough')
      unfold parseMembers
      cases named : parseString (bufferSkipWhitespace l) with
      | none => rfl
      | some name =>
          obtain ⟨name, colon⟩ := name
          dsimp only
          cases between : bufferSkipWhitespace colon with
          | nil => rfl
          | cons c from_ =>
              have first := (bufferSkipWhitespace_suffix colon).length_le
              have second := (parseString_suffix named).length_le
              have third := (bufferSkipWhitespace_suffix l).length_le
              rw [between, List.length_cons] at first
              dsimp only
              cases read : value (bufferSkipWhitespace from_) with
              | none => rfl
              | some item =>
                  obtain ⟨item, behind⟩ := item
                  dsimp only
                  cases skip : bufferSkipWhitespace behind with
                  | nil => rfl
                  | cons b after =>
                      have shorter := length_lt_of_read suffix read skip
                      dsimp only
                      have further : parseMembers value fuel after = parseMembers value fuel' after :=
                        ih (by omega) (by omega)
                      rw [further]

end Fuel

/-- **The loops of `parse_value` never run out of steps.** -/
theorem parseValue_fuel (deeper : Nat) {fuel : Nat} {l : List UInt8} (enough : l.length < fuel) :
    parseElements (fun l => parseValue number deeper l) fuel l =
        parseElements (fun l => parseValue number deeper l) (l.length + 1) l ∧
      parseMembers (fun l => parseValue number deeper l) fuel l =
        parseMembers (fun l => parseValue number deeper l) (l.length + 1) l := by
  have suffix : ∀ l item rest, parseValue number deeper l = some (item, rest) → rest <:+ l :=
    fun _ _ _ => parseValue_suffix
  exact ⟨parseElements_fuel suffix enough (Nat.lt_succ_self _),
    parseMembers_fuel suffix enough (Nat.lt_succ_self _)⟩

end SpnavBridge.Wire
