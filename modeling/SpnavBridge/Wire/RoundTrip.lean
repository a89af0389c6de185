/-
# Wire.RoundTrip -- what cJSON prints is JSON, and cJSON reads it back

`printValue_grammar` puts every printed tree into the grammar, and `parseValue_printed` reads it
back: names, strings and structure as they were, and in the place of a number what is read of
its text.  `print_value` has no limit for nesting where `parse_value` has one, so a tree is read
back exactly if it is no deeper than that (`parseWithLength_printed`).
-/
import SpnavBridge.Wire.Encoding
import SpnavBridge.Wire.Nesting
import SpnavBridge.Wire.PrintNumber

namespace SpnavBridge.Wire

open SpnavBridge.Theory

set_option autoImplicit false
set_option linter.unusedSectionVars false

/-! ## Trees -/

section Trees

variable {D : Type}

variable (reread : D → Json D)

mutual

/-- The tree with every number read again. -/
def Json.rereads : Json D → Json D
  | .number d => reread d
  | .array items => .array (itemsReread items)
  | .object members => .object (membersReread members)
  | .null => .null
  | .bool value => .bool value
  | .string s => .string s

def itemsReread : List (Json D) → List (Json D)
  | [] => []
  | item :: rest => item.rereads :: itemsReread rest

def membersReread : List (CStr × Json D) → List (CStr × Json D)
  | [] => []
  | (name, item) :: rest => (name, item.rereads) :: membersReread rest

end

end Trees

/-! ## Strings -/

theorem parseHex4_control : ∀ n < 32,
    parseHex4 [48, 48, hexDigit (n / 16), hexDigit (n % 16)] = n ∧
      encodeUtf8 n = [UInt8.ofNat n] := by
  decide

/-- A byte that is written as `\u00..` is read back. -/
theorem decodeString_control {n : Nat} (control : n < 32) (rest : List UInt8) :
    decodeString 0 (92 :: 117 :: 48 :: 48 :: hexDigit (n / 16) :: hexDigit (n % 16) :: rest) =
      (decodeString 0 rest).map (UInt8.ofNat n :: ·) := by
  obtain ⟨value, char⟩ := parseHex4_control n control
  have read : utf16LiteralToUtf8
      (92 :: 117 :: 48 :: 48 :: hexDigit (n / 16) :: hexDigit (n % 16) :: rest) =
        some ([UInt8.ofNat n], 6) := by
    have first : parseHex4
        ((92 :: 117 :: 48 :: 48 :: hexDigit (n / 16) :: hexDigit (n % 16) :: rest).drop 2) = n := value
    unfold utf16LiteralToUtf8
    dsimp only
    rw [if_neg (by simp), first, if_neg (by omega), if_neg (by omega), char]
  simp only [decodeString, ne_eq, not_true_eq_false, if_false, if_true, read]
  rfl

theorem decodeString_byte {e byte : UInt8} (other : e ≠ 117) (known : unescaped e = some byte)
    (rest : List UInt8) :
    decodeString 0 (92 :: e :: rest) = (decodeString 0 rest).map (byte :: ·) := by
  simp only [decodeString, ne_eq, not_true_eq_false, if_false, if_neg other, known]

/-- What is written for a byte is read back. -/
theorem decodeString_escaped (b : UInt8) (rest : List UInt8) :
    decodeString 0 (escaped b ++ rest) = (decodeString 0 rest).map (b :: ·) := by
  unfold escaped
  split_ifs with plain same backspace feed line return_ tab
  · exact decodeString_cons plain.2.2 rest
  · rcases same with rfl | rfl
    · exact decodeString_byte (by decide) rfl rest
    · exact decodeString_byte (by decide) rfl rest
  · subst backspace
    exact decodeString_byte (by decide) rfl rest
  · subst feed
    exact decodeString_byte (by decide) rfl rest
  · subst line
    exact decodeString_byte (by decide) rfl rest
  · subst return_
    exact decodeString_byte (by decide) rfl rest
  · subst tab
    exact decodeString_byte (by decide) rfl rest
  · have control : b.toNat < 32 := by
      by_contra large
      have above : b > 31 := by
        show (31 : UInt8) < b
        rw [UInt8.lt_iff_toNat_lt]
        exact Nat.lt_of_not_le fun le => large (Nat.lt_succ_of_le le)
      exact plain ⟨above, fun quote => same (Or.inr quote), fun slash => same (Or.inl slash)⟩
    have read := decodeString_control control rest
    rw [UInt8.ofNat_toNat] at read
    exact read

/-- **A string is read back** from what is written between its quotes. -/
theorem decodeString_flatMap (bytes : List UInt8) :
    decodeString 0 (bytes.flatMap escaped) = some bytes := by
  induction bytes with
  | nil => rfl
  | cons b bytes ih => rw [List.flatMap_cons, decodeString_escaped, ih]; rfl

/-- In what is written for a byte there is no closing quote. -/
theorem scanString_escaped (b : UInt8) (rest : List UInt8) :
    scanString (escaped b ++ rest) = (scanString rest).map fun s => (escaped b ++ s.1, s.2) := by
  have digit : ∀ n < 16, hexDigit n ≠ 34 ∧ hexDigit n ≠ 92 := by decide
  unfold escaped
  split_ifs with plain
  · exact scanString_plain plain.2.1 plain.2.2 rest
  · exact scanString_escape b rest
  · exact scanString_escape 98 rest
  · exact scanString_escape 102 rest
  · exact scanString_escape 110 rest
  · exact scanString_escape 114 rest
  · exact scanString_escape 116 rest
  · have high := digit (b.toNat / 16) (by have := b.toNat_lt; omega)
    have low := digit (b.toNat % 16) (Nat.mod_lt _ (by decide))
    simp only [List.cons_append, List.nil_append]
    rw [scanString_escape, scanString_plain (by decide) (by decide),
      scanString_plain (by decide) (by decide), scanString_plain high.1 high.2,
      scanString_plain low.1 low.2]
    simp only [Option.map_map]
    rfl

theorem scanString_flatMap (bytes rest : List UInt8) :
    scanString (bytes.flatMap escaped ++ 34 :: rest) = some (bytes.flatMap escaped, rest) := by
  induction bytes with
  | nil => exact scanString_quote rest
  | cons b bytes ih =>
      rw [List.flatMap_cons, List.append_assoc, scanString_escaped, ih]
      rfl

theorem printString_cons (s : CStr) (r : List UInt8) :
    printString s ++ r = 34 :: (s.bytes.flatMap escaped ++ 34 :: r) := by
  rw [printString, List.cons_append, List.cons_append, List.append_assoc]
  rfl

theorem parseString_printed (s : CStr) (rest : List UInt8) :
    parseString (printString s ++ rest) = some (s, rest) := by
  rw [printString_cons, parseString, if_pos rfl, scanString_flatMap]
  dsimp only
  rw [decodeString_flatMap, Option.map_some]
  congr 2
  exact CStr.ext (CStr.bytes_ofBytes s.noNul)

/-! ## The grammar -/

theorem jsonChars_escaped (b : UInt8) {t r : List UInt8} (rest : JsonChars t r) :
    JsonChars (escaped b ++ t) r := by
  have digit : ∀ n < 16, (digitValue (hexDigit n)).isSome = true := by decide
  unfold escaped
  split_ifs with plain same
  · refine .unescaped b ⟨?_, plain.2.1, plain.2.2⟩ rest
    rw [UInt8.le_iff_toNat_le]
    exact UInt8.lt_iff_toNat_lt.mp plain.1
  · refine .escape b ?_ rest
    rcases same with rfl | rfl <;> decide
  · exact .escape 98 (by decide) rest
  · exact .escape 102 (by decide) rest
  · exact .escape 110 (by decide) rest
  · exact .escape 114 (by decide) rest
  · exact .escape 116 (by decide) rest
  · refine .unicode [48, 48, hexDigit (b.toNat / 16), hexDigit (b.toNat % 16)] rfl ?_ rest
    have high := digit (b.toNat / 16) (by have := b.toNat_lt; omega)
    have low := digit (b.toNat % 16) (Nat.mod_lt _ (by decide))
    have zero : (digitValue 48).isSome = true := by decide
    simp [high, low, zero]

theorem jsonChars_printed (bytes r : List UInt8) :
    JsonChars (bytes.flatMap escaped ++ 34 :: r) r := by
  induction bytes with
  | nil => exact .close r
  | cons b bytes ih =>
      rw [List.flatMap_cons, List.append_assoc]
      exact jsonChars_escaped b ih

section Print

variable {D : Type} {printNumber : D → List UInt8}
  (numbers : ∀ d r, JsonValue (printNumber d ++ r) r)
include numbers

mutual

/-- **What is printed is JSON**, of the grammar. -/
theorem printValue_grammar : ∀ (v : Json D) (r : List UInt8),
    JsonValue (printValue printNumber v ++ r) r
  | .null, r => by rw [printValue]; exact .null r
  | .bool true, r => by rw [printValue]; exact .true_ r
  | .bool false, r => by rw [printValue]; exact .false_ r
  | .number d, r => by rw [printValue]; exact numbers d r
  | .string s, r => by
      rw [printValue, printString_cons]
      exact .string (jsonChars_printed s.bytes r)
  | .array items, r => by
      rw [printValue, List.cons_append, List.cons_append, List.append_assoc]
      exact .array (printArray_grammar items r)
  | .object members, r => by
      rw [printValue, List.cons_append, List.cons_append, List.append_assoc]
      exact .object (printObject_grammar members r)

theorem printArray_grammar : ∀ (items : List (Json D)) (r : List UInt8),
    JsonArray (printArray printNumber items ++ 93 :: r) r
  | [], r => .empty (.refl _)
  | item :: rest, r => .elements (printElements_grammar (item :: rest) (List.cons_ne_nil _ _) r)

theorem printElements_grammar : ∀ (items : List (Json D)), items ≠ [] → ∀ r : List UInt8,
    JsonElements (printArray printNumber items ++ 93 :: r) r
  | [], some_, _ => absurd rfl some_
  | [item], _, r => by
      rw [printArray, List.isEmpty_nil, if_pos rfl, List.append_nil]
      exact .last (.refl _) (printValue_grammar item _) (.refl _)
  | item :: next :: more, _, r => by
      rw [printArray, List.isEmpty_cons, if_neg Bool.false_ne_true, List.append_assoc,
        List.cons_append]
      exact .more (.refl _) (printValue_grammar item _) (.refl _)
        (printElements_grammar (next :: more) (List.cons_ne_nil _ _) r)

theorem printObject_grammar : ∀ (members : List (CStr × Json D)) (r : List UInt8),
    JsonObject (printObject printNumber members ++ 125 :: r) r
  | [], r => .empty (.refl _)
  | member :: rest, r => .members (printMembers_grammar (member :: rest) (List.cons_ne_nil _ _) r)

theorem printMembers_grammar : ∀ (members : List (CStr × Json D)), members ≠ [] →
    ∀ r : List UInt8, JsonMembers (printObject printNumber members ++ 125 :: r) r
  | [], some_, _ => absurd rfl some_
  | [(name, item)], _, r => by
      rw [printObject, List.isEmpty_nil, if_pos rfl, List.append_nil, List.append_assoc,
        List.cons_append, printString_cons]
      exact .last (.refl _) (jsonChars_printed name.bytes _) (.refl _) (.refl _)
        (printValue_grammar item _) (.refl _)
  | (name, item) :: next :: more, _, r => by
      rw [printObject, List.isEmpty_cons, if_neg Bool.false_ne_true, List.append_assoc,
        List.append_assoc, List.cons_append, List.cons_append, printString_cons]
      exact .more (.refl _) (jsonChars_printed name.bytes _) (.refl _) (.refl _)
        (printValue_grammar item _) (.refl _)
        (printMembers_grammar (next :: more) (List.cons_ne_nil _ _) r)

end

end Print

/-- A value begins with a character of ASCII. -/
theorem JsonValue.head_ascii {t r : List UInt8} (value : JsonValue t r) :
    ∃ b rest, t = b :: rest ∧ b < 128 := by
  cases value with
  | null r => exact ⟨_, _, rfl, by decide⟩
  | false_ r => exact ⟨_, _, rfl, by decide⟩
  | true_ r => exact ⟨_, _, rfl, by decide⟩
  | string chars => exact ⟨_, _, rfl, by decide⟩
  | number isNumber r =>
      have numeric := isNumber.numeric
      obtain ⟨b, rest, rfl, -⟩ := isNumber.head
      exact ⟨b, rest ++ r, rfl, isNumberByte_lt (numeric b List.mem_cons_self)⟩
  | array array => exact ⟨_, _, rfl, by decide⟩
  | object object => exact ⟨_, _, rfl, by decide⟩

/-- A value begins with its first byte, which is no blank and no byte order mark. -/
theorem JsonValue.parseWithLengthOpts {D : Type} (number : Bool → ℚ → D) {l r : List UInt8}
    (value : JsonValue l r) :
    parseWithLengthOpts number l = parseValue number nestingLimit l := by
  obtain ⟨b, rest, shape, plain⟩ := value.head_ascii
  have some_ : l ≠ [] := by
    rw [shape]
    exact List.cons_ne_nil _ _
  have start : skipUtf8Bom l = l := by
    refine if_neg fun marked => ?_
    have head := congrArg List.head? marked.2
    rw [List.head?_take, if_neg (by decide), shape] at head
    obtain rfl : b = 0xEF := Option.some.inj head
    exact absurd plain (by decide)
  rw [Wire.parseWithLengthOpts, if_neg some_, start, (Blanks.refl l).skip_value value]

/-! ## Reading back -/

/-- The text of a number is read as the tree that `reread` gives, whatever ends it. -/
structure Rereads {D : Type} (number : Bool → ℚ → D) (printNumber : D → List UInt8)
    (reread : D → Json D) : Prop where
  grammar : ∀ d r, JsonValue (printNumber d ++ r) r
  reads : ∀ budget d r, ¬ GoesOn r →
    parseValue number budget (printNumber d ++ r) = some (reread d, r)

theorem not_goesOn_nil : ¬ GoesOn [] := by
  rintro ⟨b, none_, -⟩
  cases none_

theorem not_goesOn_cons {b : UInt8} (other : isNumberByte b = false) (r : List UInt8) :
    ¬ GoesOn (b :: r) := by
  rintro ⟨c, first, numeric⟩
  obtain rfl := Option.some.inj first
  rw [other] at numeric
  cases numeric

theorem skip_cons {b : UInt8} (stays : isSkipped b = false) (r : List UInt8) :
    bufferSkipWhitespace (b :: r) = b :: r := (Blanks.refl (b :: r)).skip stays

section Read

variable {D : Type} {number : Bool → ℚ → D} {printNumber : D → List UInt8} {reread : D → Json D}
  (rereads : Rereads number printNumber reread)
include rereads

theorem skip_printed (v : Json D) (r : List UInt8) :
    bufferSkipWhitespace (printValue printNumber v ++ r) = printValue printNumber v ++ r :=
  (Blanks.refl _).skip_value (printValue_grammar rereads.grammar v r)

mutual

/-- **What is printed is read back.** -/
theorem parseValue_printed : ∀ (v : Json D) (budget : Nat), v.depth ≤ budget →
    ∀ r : List UInt8, ¬ GoesOn r →
      parseValue number budget (printValue printNumber v ++ r) = some (v.rereads reread, r)
  | .null, budget, _, r, _ => by
      rw [printValue, Json.rereads]
      exact parseValue_null number budget r
  | .bool true, budget, _, r, _ => by
      rw [printValue, Json.rereads]
      exact parseValue_true number budget r
  | .bool false, budget, _, r, _ => by
      rw [printValue, Json.rereads]
      exact parseValue_false number budget r
  | .number d, budget, _, r, stops => by
      rw [printValue, Json.rereads]
      exact rereads.reads budget d r stops
  | .string s, budget, _, r, _ => by
      have quoted := parseString_printed s r
      rw [printValue, Json.rereads]
      rw [printString_cons] at quoted ⊢
      rw [parseValue_string, quoted]
      rfl
  | .array items, budget, fits, r, _ => by
      rw [Json.depth] at fits
      obtain ⟨deeper, rfl⟩ := Nat.exists_eq_succ_of_ne_zero (Nat.ne_zero_of_lt fits)
      rw [printValue, Json.rereads, List.cons_append, List.cons_append, List.append_assoc,
        List.singleton_append, parseValue_array,
        parseArray_printed items deeper (Nat.le_of_succ_le_succ fits) r]
      rfl
  | .object members, budget, fits, r, _ => by
      rw [Json.depth] at fits
      obtain ⟨deeper, rfl⟩ := Nat.exists_eq_succ_of_ne_zero (Nat.ne_zero_of_lt fits)
      rw [printValue, Json.rereads, List.cons_append, List.cons_append, List.append_assoc,
        List.singleton_append, parseValue_object,
        parseObject_printed members deeper (Nat.le_of_succ_le_succ fits) r]
      rfl

theorem parseArray_printed : ∀ (items : List (Json D)) (budget : Nat), itemsDepth items ≤ budget →
    ∀ r : List UInt8, parseArray (fun l => parseValue number budget l)
      (printArray printNumber items ++ 93 :: r) = some (itemsReread reread items, r)
  | [], budget, _, r => by
      rw [printArray, List.nil_append, parseArray, skip_cons (by decide)]
      rfl
  | item :: rest, budget, fits, r => by
      have loop := parseElements_printed (item :: rest) (List.cons_ne_nil _ _) budget fits
        (printArray printNumber (item :: rest) ++ 93 :: r).length r
      rw [(parseValue_fuel budget (by rw [List.length_cons]; omega)).1] at loop
      obtain ⟨b, text, shape, visible, other⟩ :
          ∃ b text, printArray printNumber (item :: rest) ++ 93 :: r = b :: text ∧
            isSkipped b = false ∧ b ≠ 93 := by
        rw [printArray, List.append_assoc]
        exact (printValue_grammar rereads.grammar item _).head
      rw [shape] at loop ⊢
      rw [parseArray, skip_cons visible]
      dsimp only
      rw [if_neg other, loop]

theorem parseElements_printed : ∀ (items : List (Json D)), items ≠ [] → ∀ (budget : Nat),
    itemsDepth items ≤ budget → ∀ (extra : Nat) (r : List UInt8),
      parseElements (fun l => parseValue number budget l) (items.length + extra)
        (printArray printNumber items ++ 93 :: r) = some (itemsReread reread items, r)
  | [], some_, _, _, _, _ => absurd rfl some_
  | [item], _, budget, fits, extra, r => by
      rw [itemsDepth] at fits
      have read := parseValue_printed item budget (le_trans (le_max_left _ _) fits) (93 :: r)
        (not_goesOn_cons (by decide) r)
      rw [List.length_singleton, Nat.add_comm, printArray, List.isEmpty_nil, if_pos rfl,
        List.append_nil, parseElements, skip_printed rereads]
      rw [read]
      dsimp only
      rw [skip_cons (by decide)]
      rfl
  | item :: next :: more, _, budget, fits, extra, r => by
      rw [itemsDepth] at fits
      have read := parseValue_printed item budget (le_trans (le_max_left _ _) fits)
        (44 :: (printArray printNumber (next :: more) ++ 93 :: r)) (not_goesOn_cons (by decide) _)
      have loop := parseElements_printed (next :: more) (List.cons_ne_nil _ _) budget
        (le_trans (le_max_right _ _) fits) extra r
      rw [List.length_cons, Nat.add_right_comm, printArray, List.isEmpty_cons,
        if_neg Bool.false_ne_true, List.append_assoc, List.cons_append, parseElements,
        skip_printed rereads]
      rw [read]
      dsimp only
      rw [skip_cons (by decide)]
      dsimp only
      rw [if_pos rfl, loop, itemsReread, itemsReread]
      rfl

theorem parseObject_printed : ∀ (members : List (CStr × Json D)) (budget : Nat),
    membersDepth members ≤ budget → ∀ r : List UInt8,
      parseObject (fun l => parseValue number budget l)
        (printObject printNumber members ++ 125 :: r) = some (membersReread reread members, r)
  | [], budget, _, r => by
      rw [printObject, List.nil_append, parseObject, skip_cons (by decide)]
      rfl
  | (name, item) :: rest, budget, fits, r => by
      have loop := parseMembers_printed ((name, item) :: rest) (List.cons_ne_nil _ _) budget fits
        (printObject printNumber ((name, item) :: rest) ++ 125 :: r).length r
      rw [(parseValue_fuel budget (by rw [List.length_cons]; omega)).2] at loop
      obtain ⟨text, shape⟩ : ∃ text,
          printObject printNumber ((name, item) :: rest) ++ 125 :: r = 34 :: text := by
        rw [printObject, List.append_assoc, List.append_assoc, printString_cons]
        exact ⟨_, rfl⟩
      rw [shape] at loop ⊢
      rw [parseObject, skip_cons (by decide)]
      dsimp only
      rw [if_neg (by decide), loop]

theorem parseMembers_printed : ∀ (members : List (CStr × Json D)), members ≠ [] →
    ∀ (budget : Nat), membersDepth members ≤ budget → ∀ (extra : Nat) (r : List UInt8),
      parseMembers (fun l => parseValue number budget l) (members.length + extra)
        (printObject printNumber members ++ 125 :: r) = some (membersReread reread members, r)
  | [], some_, _, _, _, _ => absurd rfl some_
  | [(name, item)], _, budget, fits, extra, r => by
      rw [membersDepth] at fits
      have read := parseValue_printed item budget (le_trans (le_max_left _ _) fits) (125 :: r)
        (not_goesOn_cons (by decide) r)
      have named := parseString_printed name (58 :: (printValue printNumber item ++ 125 :: r))
      rw [List.length_singleton, Nat.add_comm, printObject, List.isEmpty_nil, if_pos rfl,
        List.append_nil, List.append_assoc, List.cons_append, parseMembers]
      rw [printString_cons] at named ⊢
      rw [skip_cons (by decide), named]
      dsimp only
      rw [skip_cons (by decide)]
      dsimp only
      rw [if_pos rfl, skip_printed rereads, read]
      dsimp only
      rw [skip_cons (by decide)]
      rfl
  | (name, item) :: next :: more, _, budget, fits, extra, r => by
      rw [membersDepth] at fits
      have read := parseValue_printed item budget (le_trans (le_max_left _ _) fits)
        (44 :: (printObject printNumber (next :: more) ++ 125 :: r)) (not_goesOn_cons (by decide) _)
      have loop := parseMembers_printed (next :: more) (List.cons_ne_nil _ _) budget
        (le_trans (le_max_right _ _) fits) extra r
      have named := parseString_printed name (58 :: (printValue printNumber item ++
        44 :: (printObject printNumber (next :: more) ++ 125 :: r)))
      rw [List.length_cons, Nat.add_right_comm, printObject, List.isEmpty_cons,
        if_neg Bool.false_ne_true, List.append_assoc, List.append_assoc, List.cons_append,
        List.cons_append, parseMembers]
      rw [printString_cons] at named ⊢
      rw [skip_cons (by decide), named]
      dsimp only
      rw [skip_cons (by decide)]
      dsimp only
      rw [if_pos rfl, skip_printed rereads, read]
      dsimp only
      rw [skip_cons (by decide)]
      dsimp only
      rw [if_pos rfl, loop, membersReread, membersReread]
      rfl

end

/-! ### The whole text -/

theorem parseWithLengthOpts_printed (v : Json D) :
    parseWithLengthOpts number (printValue printNumber v) =
      parseValue number nestingLimit (printValue printNumber v ++ []) := by
  have value := printValue_grammar rereads.grammar v []
  rw [List.append_nil] at value ⊢
  exact value.parseWithLengthOpts number

end Read

section Depth

variable {D : Type} {reread : D → Json D} (flat : ∀ d, (reread d).depth = 0)
include flat

mutual

/-- Reading numbers again does not change how deep a tree is. -/
theorem depth_rereads : ∀ v : Json D, (v.rereads reread).depth = v.depth
  | .null => rfl
  | .bool _ => rfl
  | .number d => flat d
  | .string _ => rfl
  | .array items => by rw [Json.rereads, Json.depth, Json.depth, itemsDepth_reread items]
  | .object members => by rw [Json.rereads, Json.depth, Json.depth, membersDepth_reread members]

theorem itemsDepth_reread : ∀ items : List (Json D),
    itemsDepth (itemsReread reread items) = itemsDepth items
  | [] => rfl
  | item :: rest => by
      rw [itemsReread, itemsDepth, itemsDepth, depth_rereads item, itemsDepth_reread rest]

theorem membersDepth_reread : ∀ members : List (CStr × Json D),
    membersDepth (membersReread reread members) = membersDepth members
  | [] => rfl
  | (name, item) :: rest => by
      rw [membersReread, membersDepth, membersDepth, depth_rereads item, membersDepth_reread rest]

end

end Depth

/-! ## The library as it is -/

/-- cJSON, with IEEE's `double`. -/
def ieeeJson : CJson (Value binary64) := cJson Value.ofSigned printNumber

/-- What is read of the text of a number: a number, or `null`. -/
def reread (d : Value binary64) : Json (Value binary64) :=
  match parseValue Value.ofSigned 0 (printNumber d) with
  | some (item, _) => item
  | none => .null

/-- The text of a number is of the grammar and read the same wherever it stands. -/
theorem printNumber_item (d : Value binary64) :
    ∃ item : Json (Value binary64), item.depth = 0 ∧ ∀ r, JsonValue (printNumber d ++ r) r ∧
      ∀ budget, ¬ GoesOn r → parseValue Value.ofSigned budget (printNumber d ++ r) = some (item, r) := by
  have none_ : printNumber d = ascii "null" →
      ∃ item : Json (Value binary64), item.depth = 0 ∧ ∀ r, JsonValue (printNumber d ++ r) r ∧
        ∀ budget, ¬ GoesOn r →
          parseValue Value.ofSigned budget (printNumber d ++ r) = some (item, r) := by
    intro text
    rw [text]
    exact ⟨.null, rfl, fun r => ⟨.null r, fun budget _ => parseValue_null _ budget r⟩⟩
  cases d with
  | nan => exact none_ rfl
  | inf negative => exact none_ rfl
  | finite negative m held =>
      obtain ⟨q, reads, -⟩ := printNumber_reads negative held
      refine ⟨.number (.ofSigned (negative && decide (m ≠ 0)) q), rfl, fun r =>
        ⟨.number reads.isNumber r, fun budget stops => ?_⟩⟩
      have read := reads.parseNumber (Value.ofSigned : Bool → ℚ → Value binary64) stops
      obtain ⟨b, rest, shape, first⟩ := reads.isNumber.head
      rw [shape] at read ⊢
      rw [List.cons_append] at read ⊢
      rw [parseValue_number _ _ _ first, read]
      rfl

theorem rereads_printNumber : Rereads Value.ofSigned printNumber reread := by
  constructor
  · intro d r
    obtain ⟨item, -, read⟩ := printNumber_item d
    exact (read r).1
  · intro budget d r stops
    obtain ⟨item, -, read⟩ := printNumber_item d
    have alone := (read []).2 0 not_goesOn_nil
    rw [List.append_nil] at alone
    rw [(read r).2 budget stops, reread, alone]

theorem depth_reread (d : Value binary64) : (reread d).depth = 0 := by
  obtain ⟨item, flat, read⟩ := printNumber_item d
  have alone := (read []).2 0 not_goesOn_nil
  rw [List.append_nil] at alone
  rw [reread, alone]
  exact flat

/-- A number is read as `parse_number` reads it. -/
theorem reread_finite {d w : Value binary64} (finite : d.isFinite = true)
    (read : parseNumber Value.ofSigned (printNumber d) = some (w, [])) : reread d = .number w := by
  cases d with
  | nan => cases finite
  | inf negative => cases finite
  | finite negative m held =>
      obtain ⟨q, reads, -⟩ := printNumber_reads negative held
      obtain ⟨b, rest, shape, first⟩ := reads.isNumber.head
      rw [reread]
      rw [shape] at read ⊢
      rw [parseValue_number _ _ _ first, read]
      rfl

/-- **A tree is read back** exactly if it nests no deeper than cJSON reads. -/
theorem parseWithLength_printed (v : Json (Value binary64)) :
    ieeeJson.parseWithLength (ieeeJson.printUnformatted v) =
      if v.depth ≤ nestingLimit then some (v.rereads reread) else none := by
  have opts := parseWithLengthOpts_printed rereads_printNumber v
  show (parseWithLengthOpts Value.ofSigned (printValue printNumber v)).map (·.1) = _
  rw [opts]
  split_ifs with fits
  · rw [parseValue_printed rereads_printNumber v nestingLimit fits [] not_goesOn_nil]
    rfl
  · cases read : parseValue Value.ofSigned nestingLimit (printValue printNumber v ++ []) with
    | none => rfl
    | some found =>
        -- a larger budget would read the same, and that is a deeper tree
        obtain ⟨item, rest⟩ := found
        have deeper := parseValue_budget (Nat.le_of_not_le fits) read
        rw [parseValue_printed rereads_printNumber v _ le_rfl [] not_goesOn_nil] at deeper
        obtain ⟨rfl, -⟩ := Prod.mk.inj (Option.some.inj deeper)
        have bounded := parseValue_depth read
        rw [depth_rereads depth_reread] at bounded
        exact absurd bounded fits

/-- **What is printed is JSON**, with nothing behind it, however deep, and cJSON reads it back as
far as it reads. -/
theorem printUnformatted_read (v : Json (Value binary64)) :
    JsonValue (ieeeJson.printUnformatted v) [] ∧
      ieeeJson.parseWithLength (ieeeJson.printUnformatted v) =
        if v.depth ≤ nestingLimit then some (v.rereads reread) else none := by
  have grammar := printValue_grammar rereads_printNumber.grammar v []
  rw [List.append_nil] at grammar
  exact ⟨grammar, parseWithLength_printed v⟩

end SpnavBridge.Wire
