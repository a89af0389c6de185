/-
# Wire.Document -- cJSON reads JSON

Whatever derivation a text of the grammar has, cJSON reads what it means, as far as `budget`
lets it nest, and refuses it otherwise (`Means.parseValue`).

* `document_read`: so it is with whole documents, behind a byte order mark or not.  The mark is
  only looked for in front of two bytes or more, so a document of one byte must have none.
-/
import SpnavBridge.Wire.Meaning

namespace SpnavBridge.Wire

open SpnavBridge.Theory

set_option autoImplicit false

/-! ## Reading -/

variable {D : Type} {number : Bool → ℚ → D}

/-- What is read of a meaning: nothing if it is too deep. -/
def upTo {α : Type} (depth : α → Nat) (budget : Nat) (meaning : Option α) (r : List UInt8) :
    Option (α × List UInt8) :=
  (meaning.filter fun v => depth v ≤ budget).map (·, r)

section UpTo

variable {α : Type} {depth : α → Nat} {budget : Nat}

theorem upTo_of_le {v : α} (fits : depth v ≤ budget) (r : List UInt8) :
    upTo depth budget (some v) r = some (v, r) := by
  rw [upTo, Option.filter_some, if_pos (decide_eq_true fits)]
  rfl

theorem upTo_flat {v : α} (flat : depth v = 0) (r : List UInt8) :
    upTo depth budget (some v) r = some (v, r) := upTo_of_le (flat.trans_le (Nat.zero_le _)) r

theorem upTo_of_lt {v : α} (deep : budget < depth v) (r : List UInt8) :
    upTo depth budget (some v) r = none := by
  rw [upTo, Option.filter_some, if_neg (by simpa using deep)]
  rfl

theorem upTo_deep {β : Type} {f : β → α} (deep : ∀ v, budget < depth (f v)) (meaning : Option β)
    (r : List UInt8) : upTo depth budget (meaning.map f) r = none := by
  cases meaning with
  | none => rfl
  | some v => exact upTo_of_lt (deep v) r

/-- A part that is read as it is, in a whole that is as deep as it. -/
theorem upTo_map {β : Type} {depth' : β → Nat} {f : α → β} {budget' : Nat}
    (same : ∀ v, depth' (f v) ≤ budget' ↔ depth v ≤ budget) (meaning : Option α) (r : List UInt8) :
    (upTo depth budget meaning r).map (fun read => (f read.1, read.2)) =
      upTo depth' budget' (meaning.map f) r := by
  cases meaning with
  | none => rfl
  | some v =>
      rw [Option.map_some]
      by_cases fits : depth v ≤ budget
      · rw [upTo_of_le fits, upTo_of_le ((same v).mpr fits)]
        rfl
      · rw [upTo_of_lt (Nat.lt_of_not_le fits),
          upTo_of_lt (Nat.lt_of_not_le fun deep => fits ((same v).mp deep))]
        rfl

end UpTo

theorem parseElements_last {value : List UInt8 → Option (Json D × List UInt8)} {budget : Nat}
    {t v e r : List UInt8} {item : Option (Json D)} (front : bufferSkipWhitespace t = v)
    (read : value v = upTo Json.depth budget item e) (behind : bufferSkipWhitespace e = 93 :: r)
    (fuel : Nat) :
    parseElements value (fuel + 1) t = upTo itemsDepth budget (item.map ([·])) r := by
  rw [parseElements, front, read]
  cases item with
  | none => rfl
  | some v =>
      have depth : itemsDepth [v] = v.depth := Nat.max_zero _
      rw [Option.map_some]
      by_cases fits : v.depth ≤ budget
      · rw [upTo_of_le fits, upTo_of_le (le_of_eq_of_le depth fits)]
        dsimp only
        rw [behind]
        rfl
      · rw [upTo_of_lt (Nat.lt_of_not_le fits), upTo_of_lt (depth ▸ Nat.lt_of_not_le fits)]

theorem parseElements_more {value : List UInt8 → Option (Json D × List UInt8)} {budget : Nat}
    {t v e t' r : List UInt8} {item : Option (Json D)} {items : Option (List (Json D))}
    (front : bufferSkipWhitespace t = v) (read : value v = upTo Json.depth budget item e)
    (behind : bufferSkipWhitespace e = 44 :: t') {fuel : Nat}
    (loop : parseElements value fuel t' = upTo itemsDepth budget items r) :
    parseElements value (fuel + 1) t =
      upTo itemsDepth budget (item.bind fun item => items.map (item :: ·)) r := by
  rw [parseElements, front, read]
  cases item with
  | none => rfl
  | some v =>
      rw [Option.bind_some]
      by_cases fits : v.depth ≤ budget
      · rw [upTo_of_le fits]
        dsimp only
        rw [behind]
        dsimp only
        rw [if_pos rfl, loop]
        exact upTo_map (fun items => by rw [itemsDepth, max_le_iff, and_iff_right fits]) items r
      · rw [upTo_of_lt (Nat.lt_of_not_le fits)]
        cases items with
        | none => rfl
        | some items =>
            have deep : budget < itemsDepth (v :: items) :=
              lt_of_lt_of_le (Nat.lt_of_not_le fits) (le_max_left _ _)
            exact (upTo_of_lt deep r).symm

theorem parseMembers_last {value : List UInt8 → Option (Json D × List UInt8)} {budget : Nat}
    {t c f v e r : List UInt8} {name : Option CStr} {item : Option (Json D)}
    (named : parseString (bufferSkipWhitespace t) = name.map (·, c))
    (colon : bufferSkipWhitespace c = 58 :: f) (front : bufferSkipWhitespace f = v)
    (read : value v = upTo Json.depth budget item e) (behind : bufferSkipWhitespace e = 125 :: r)
    (fuel : Nat) :
    parseMembers value (fuel + 1) t = upTo membersDepth budget
      (name.bind fun name => item.map fun item => [(name, item)]) r := by
  rw [parseMembers, named]
  cases name with
  | none => rfl
  | some name =>
      rw [Option.map_some]
      dsimp only
      rw [colon]
      dsimp only
      rw [if_pos rfl, front, read]
      cases item with
      | none => rfl
      | some v =>
          have depth : membersDepth [(name, v)] = v.depth := Nat.max_zero _
          rw [Option.bind_some, Option.map_some]
          by_cases fits : v.depth ≤ budget
          · rw [upTo_of_le fits, upTo_of_le (le_of_eq_of_le depth fits)]
            dsimp only
            rw [behind]
            rfl
          · rw [upTo_of_lt (Nat.lt_of_not_le fits), upTo_of_lt (depth ▸ Nat.lt_of_not_le fits)]

theorem parseMembers_more {value : List UInt8 → Option (Json D × List UInt8)} {budget : Nat}
    {t c f v e t' r : List UInt8} {name : Option CStr} {item : Option (Json D)}
    {members : Option (List (CStr × Json D))}
    (named : parseString (bufferSkipWhitespace t) = name.map (·, c))
    (colon : bufferSkipWhitespace c = 58 :: f) (front : bufferSkipWhitespace f = v)
    (read : value v = upTo Json.depth budget item e) (behind : bufferSkipWhitespace e = 44 :: t')
    {fuel : Nat} (loop : parseMembers value fuel t' = upTo membersDepth budget members r) :
    parseMembers value (fuel + 1) t = upTo membersDepth budget
      (name.bind fun name => item.bind fun item => members.map ((name, item) :: ·)) r := by
  rw [parseMembers, named]
  cases name with
  | none => rfl
  | some name =>
      rw [Option.map_some]
      dsimp only
      rw [colon]
      dsimp only
      rw [if_pos rfl, front, read]
      cases item with
      | none => rfl
      | some v =>
          rw [Option.bind_some, Option.bind_some]
          by_cases fits : v.depth ≤ budget
          · rw [upTo_of_le fits]
            dsimp only
            rw [behind]
            dsimp only
            rw [if_pos rfl, loop]
            exact upTo_map (fun members => by rw [membersDepth, max_le_iff, and_iff_right fits])
              members r
          · rw [upTo_of_lt (Nat.lt_of_not_le fits)]
            cases members with
            | none => rfl
            | some members =>
                have deep : budget < membersDepth ((name, v) :: members) :=
                  lt_of_lt_of_le (Nat.lt_of_not_le fits) (le_max_left _ _)
                exact (upTo_of_lt deep r).symm

theorem Blanks.parseString {t c : List UInt8} {name : List Letter}
    (before : Blanks t (34 :: (name.flatMap Letter.text ++ 34 :: c))) :
    Wire.parseString (bufferSkipWhitespace t) =
      ((spelled name).map CStr.ofBytes).map (·, c) := by
  rw [before.skip rfl, parseString_letters, Option.map_map]
  rfl

mutual

/-- **A value is read as what it means**, unless it nests too deep. -/
theorem Means.parseValue {t r : List UInt8} {item : Option (Json D)} :
    Means number 63 t item r → ∀ budget : Nat, ¬ GoesOn r →
      parseValue number budget t = upTo Json.depth budget item r
  | .null r => fun budget _ => by
      rw [parseValue_null]
      exact (upTo_flat (by simp [Json.depth]) r).symm
  | .false_ r => fun budget _ => by
      rw [parseValue_false]
      exact (upTo_flat (by simp [Json.depth]) r).symm
  | .true_ r => fun budget _ => by
      rw [parseValue_true]
      exact (upTo_flat (by simp [Json.depth]) r).symm
  | .string letters r => fun budget _ => by
      rw [parseValue_string, parseString_letters]
      cases spelled letters with
      | none => rfl
      | some bytes =>
          rw [Option.map_some, Option.map_some, Option.map_some]
          exact (upTo_flat (by simp [Json.depth]) r).symm
  | .number n short r => fun budget stops => by
      have read := n.isNumber.parseNumber number n.scan short stops
      obtain ⟨b, rest, shape, numeric⟩ := n.isNumber.head
      rw [shape, List.cons_append] at read ⊢
      rw [parseValue_number _ _ _ numeric, read, Option.map_some]
      exact (upTo_flat (by simp [Json.depth]) r).symm
  | .array array => fun budget _ => by
      cases budget with
      | zero =>
          rw [parseValue_deep _ _ (Or.inl rfl)]
          exact (upTo_deep (fun items => by rw [Json.depth]; exact Nat.succ_pos _) _ r).symm
      | succ deeper =>
          rw [parseValue_array, array.parseArray deeper]
          exact upTo_map (fun items => by rw [Json.depth]; exact Nat.succ_le_succ_iff) _ r
  | .object object => fun budget _ => by
      cases budget with
      | zero =>
          rw [parseValue_deep _ _ (Or.inr rfl)]
          exact (upTo_deep (fun members => by rw [Json.depth]; exact Nat.succ_pos _) _ r).symm
      | succ deeper =>
          rw [parseValue_object, object.parseObject deeper]
          exact upTo_map (fun members => by rw [Json.depth]; exact Nat.succ_le_succ_iff) _ r

theorem MeansArray.parseArray {t r : List UInt8} {items : Option (List (Json D))} :
    MeansArray number 63 t items r → ∀ budget : Nat,
      parseArray (fun l => Wire.parseValue number budget l) t = upTo itemsDepth budget items r
  | .empty blanks => fun budget => by
      rw [Wire.parseArray, blanks.skip rfl, upTo_flat (by rw [itemsDepth])]
      rfl
  | .elements elements => fun budget => by
      obtain ⟨n, loop⟩ := elements.parseElements budget
      obtain ⟨v, e, before, value⟩ := elements.grammar.first
      obtain ⟨b, l, rfl, -, open_⟩ := value.head
      -- the loop is given a step for every byte, which is no fewer than it takes
      have read := loop (b :: l).length
      rw [← parseElements_skip, before.skip_value value,
        (parseValue_fuel budget (by omega)).1] at read
      rw [Wire.parseArray, before.skip_value value]
      dsimp only
      rw [if_neg open_, read]

theorem MeansElements.parseElements {t r : List UInt8} {items : Option (List (Json D))} :
    MeansElements number 63 t items r → ∀ budget : Nat, ∃ n, ∀ extra,
      parseElements (fun l => Wire.parseValue number budget l) (n + 1 + extra) t =
        upTo itemsDepth budget items r
  | .last before value behind => fun budget => by
      have read := value.parseValue budget (behind.not_goesOn rfl)
      refine ⟨0, fun extra => ?_⟩
      rw [Nat.zero_add, Nat.add_comm]
      exact parseElements_last (before.skip_value value.grammar) read (behind.skip rfl) extra
  | .more before value behind rest => fun budget => by
      have read := value.parseValue budget (behind.not_goesOn rfl)
      obtain ⟨n, loop⟩ := rest.parseElements budget
      refine ⟨n + 1, fun extra => ?_⟩
      rw [Nat.add_right_comm]
      exact parseElements_more (before.skip_value value.grammar) read (behind.skip rfl) (loop extra)

theorem MeansObject.parseObject {t r : List UInt8} {members : Option (List (CStr × Json D))} :
    MeansObject number 63 t members r → ∀ budget : Nat,
      parseObject (fun l => Wire.parseValue number budget l) t =
        upTo membersDepth budget members r
  | .empty blanks => fun budget => by
      rw [Wire.parseObject, blanks.skip rfl, upTo_flat (by rw [membersDepth])]
      rfl
  | .members members => fun budget => by
      obtain ⟨n, loop⟩ := members.parseMembers budget
      obtain ⟨name, before⟩ := members.grammar.first
      have read := loop (34 :: name).length
      rw [← parseMembers_skip, before.skip rfl, (parseValue_fuel budget (by omega)).2] at read
      rw [Wire.parseObject, before.skip rfl]
      dsimp only
      rw [if_neg (by decide), read]

theorem MeansMembers.parseMembers {t r : List UInt8} {members : Option (List (CStr × Json D))} :
    MeansMembers number 63 t members r → ∀ budget : Nat, ∃ n, ∀ extra,
      parseMembers (fun l => Wire.parseValue number budget l) (n + 1 + extra) t =
        upTo membersDepth budget members r
  | .last name before colon between value behind => fun budget => by
      have read := value.parseValue budget (behind.not_goesOn rfl)
      refine ⟨0, fun extra => ?_⟩
      have loop := parseMembers_last before.parseString (colon.skip rfl)
        (between.skip_value value.grammar) read (behind.skip rfl) extra
      rw [Option.bind_map] at loop
      rw [Nat.zero_add, Nat.add_comm]
      exact loop
  | .more name before colon between value behind rest => fun budget => by
      have read := value.parseValue budget (behind.not_goesOn rfl)
      obtain ⟨n, loop⟩ := rest.parseMembers budget
      refine ⟨n + 1, fun extra => ?_⟩
      have next := parseMembers_more before.parseString (colon.skip rfl)
        (between.skip_value value.grammar) read (behind.skip rfl) (loop extra)
      rw [Option.bind_map] at next
      rw [Nat.add_right_comm]
      exact next

end

/-! ## Documents -/

/-- A text with one value in it, behind a byte order mark or not, and what it means.  A mark in
front of a single byte is none: `skip_utf8_bom` asks whether the byte at index 4 can be read. -/
def IsDocument (number : Bool → ℚ → D) (limit : Nat) (payload : List UInt8)
    (item : Option (Json D)) : Prop :=
  ∃ t v r, (payload = t ∨ (payload = bom ++ t ∧ 1 < t.length)) ∧ Blanks t v ∧
    Means number limit v item r ∧ Blanks r []

/-- The same with nothing said of what it means, and the same exception behind a mark. -/
def JsonText (payload : List UInt8) : Prop :=
  ∃ t v r, (payload = t ∨ (payload = bom ++ t ∧ 1 < t.length)) ∧ Blanks t v ∧ JsonValue v r ∧
    Blanks r []

theorem jsonText_iff (number : Bool → ℚ → D) (payload : List UInt8) :
    JsonText payload ↔ ∃ limit item, IsDocument number limit payload item := by
  constructor
  · rintro ⟨t, v, r, start, before, value, behind⟩
    obtain ⟨item, means⟩ := value.means number v.length le_rfl
    exact ⟨_, item, t, v, r, start, before, means, behind⟩
  · rintro ⟨limit, item, t, v, r, start, before, means, behind⟩
    exact ⟨t, v, r, start, before, means.grammar, behind⟩

theorem Blanks.not_goesOn_nil {r : List UInt8} (blanks : Blanks r []) : ¬ GoesOn r := by
  obtain ⟨w, known, rfl⟩ := blanks
  have all : ∀ b ∈ ([32, 9, 10, 13] : List UInt8), isNumberByte b = false := by
    simp [isNumberByte, isdigit]
  rintro ⟨b, first, numeric⟩
  rw [List.append_nil] at first
  rw [all b (known b (List.mem_of_mem_head? first))] at numeric
  cases numeric

/-- The mark is skipped if there is one, and nothing else is. -/
theorem Blanks.skip_bom {payload t v r : List UInt8}
    (start : payload = t ∨ (payload = bom ++ t ∧ 1 < t.length)) (before : Blanks t v)
    (value : JsonValue v r) : Wire.skipUtf8Bom payload = t := by
  rcases start with rfl | ⟨rfl, long⟩
  · refine if_neg fun marked => ?_
    obtain ⟨w, known, rfl⟩ := before
    obtain ⟨b, rest, rfl, plain⟩ := value.head_ascii
    have first : (w ++ b :: rest).head? = some 0xEF := by
      have head := congrArg List.head? marked.2
      rwa [List.head?_take, if_neg (by decide)] at head
    have blank : ∀ b ∈ ([32, 9, 10, 13] : List UInt8), b ≠ 0xEF := by simp
    cases w with
    | nil =>
        obtain rfl := Option.some.inj first
        exact absurd plain (by decide)
    | cons c w => exact blank c (known c (by simp)) (Option.some.inj first)
  · refine if_pos ⟨?_, rfl⟩
    rw [List.length_append, show bom.length = 3 from rfl]
    omega

/-- The mark that is not skipped begins no value. -/
theorem parseWithLengthOpts_bom (number : Bool → ℚ → D) {t : List UInt8} (short : t.length ≤ 1) :
    Wire.parseWithLengthOpts number (bom ++ t) = none := by
  have kept : Wire.skipUtf8Bom (bom ++ t) = bom ++ t := by
    refine if_neg fun marked => ?_
    have long := marked.1
    rw [List.length_append, show bom.length = 3 from rfl] at long
    omega
  rw [parseWithLengthOpts, if_neg (by simp [bom]), kept,
    show bufferSkipWhitespace (bom ++ t) = bom ++ t from
      @bufferSkipWhitespace_front [] (by simp) 0xEF (by decide) _]
  rfl

/-- **cJSON reads JSON.**  Every text of the grammar means something; and where no number has more
than 63 bytes, cJSON reads just that, and refuses the text if a surrogate in it is alone or it
nests deeper than cJSON reads.  Behind a byte order mark it refuses a single byte, whichever. -/
theorem document_read (number : Bool → ℚ → D) (printNumber : D → List UInt8)
    (payload : List UInt8) :
    (JsonText payload ↔ ∃ limit item, IsDocument number limit payload item) ∧
    (∀ item, IsDocument number 63 payload item →
      (cJson number printNumber).parseWithLength payload =
        item.filter fun v => v.depth ≤ nestingLimit) ∧
    ∀ t : List UInt8, payload = bom ++ t → t.length ≤ 1 →
      (cJson number printNumber).parseWithLength payload = none := by
  refine ⟨jsonText_iff number payload, ?_, ?_⟩
  swap
  · rintro t rfl short
    show (Wire.parseWithLengthOpts number (bom ++ t)).map (·.1) = _
    rw [parseWithLengthOpts_bom number short]
    rfl
  rintro item ⟨t, v, r, start, before, means, behind⟩
  have value := means.grammar
  have some_ : payload ≠ [] := by
    rintro rfl
    obtain ⟨b, l, rfl, -⟩ := value.head
    obtain ⟨w, -, rfl⟩ := before
    rcases start with none_ | ⟨none_, -⟩
    · simp at none_
    · simp [bom] at none_
  show (Wire.parseWithLengthOpts number payload).map (·.1) = _
  rw [parseWithLengthOpts, if_neg some_, before.skip_bom start value, before.skip_value value,
    means.parseValue nestingLimit behind.not_goesOn_nil, upTo, Option.map_map]
  exact Option.map_id'

/-- `-1.5e1` -/
def minusFifteen : Figures where
  negative := true
  whole := [1]
  fraction := [5]
  power := some ⟨false, none, [1], by decide, by decide⟩
  some_ := by decide
  leading := by decide
  small := by decide

theorem hex_d83d : Hex [100, 56, 51, 100] := ⟨rfl, by simp [digitValue, isdigit, tolower]⟩
theorem hex_de00 : Hex [100, 101, 48, 48] := ⟨rfl, by simp [digitValue, isdigit, tolower]⟩

/-- A face, as a pair of surrogates. -/
def face : List Letter := [.unit _ hex_d83d, .unit _ hex_de00]

theorem document_read_face :
    (cJson signedRat fun _ => []).parseWithLength (ascii " [-1.5e1, \"\\ud83d\\ude00\"]\n") =
      some (.array [.number (-15), .string (.ofBytes [240, 159, 152, 128])]) := by
  have value : signedRat true minusFifteen.value = -15 := by
    have power : minusFifteen.power.elim 0 Power.value = 1 := by decide
    rw [signedRat, if_pos rfl, Figures.value, power]
    norm_num [minusFifteen, Nat.ofDigits]
  have number : Means signedRat 63 (minusFifteen.text ++ ascii ", \"\\ud83d\\ude00\"]\n")
      (some (.number (-15))) (ascii ", \"\\ud83d\\ude00\"]\n") := by
    rw [← value]
    exact .number minusFifteen (by decide) _
  have string : Means signedRat 63 (34 :: (face.flatMap Letter.text ++ 34 :: ascii "]\n"))
      (some (.string (.ofBytes [240, 159, 152, 128]))) (ascii "]\n") := .string face _
  have array := Means.array (.elements (.more (.refl _) number (.refl _)
    (.last ⟨[32], by simp, rfl⟩ string (.refl _))))
  have document : IsDocument signedRat 63 (ascii " [-1.5e1, \"\\ud83d\\ude00\"]\n")
      (some (.array [.number (-15), .string (.ofBytes [240, 159, 152, 128])])) :=
    ⟨_, _, _, Or.inl rfl, ⟨[32], by simp, by decide⟩, array, ⟨[10], by simp, by decide⟩⟩
  rw [(document_read signedRat (fun _ => []) _).2.1 _ document]
  rfl

end SpnavBridge.Wire
