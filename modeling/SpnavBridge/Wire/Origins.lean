/-
# Wire.Origins -- which origin a header block has, and which one the parser reads

The first half is the sender's side: the lines of a block as they are (`rawLines`), and the
value of an Origin line, all of it (`originValue`).  The second is the parser's: it reads
the front of each line (`shown`), up to a NUL and at most 1023 bytes, and keeps the last
Origin line it finds.

`originAllowed_iff` says when the parser ends with an origin of the allow-list, in terms of
what was sent: the last Origin line reads, in front, as an allowed one.
-/
import SpnavBridge.Wire.Http

namespace SpnavBridge.Wire

open SpnavBridge.Theory

set_option autoImplicit false

/-! ## What was sent -/

/-- The lines of a block, each without its LF; the last one is ended by the CRLF behind the
block. -/
def rawLines (block : List UInt8) : List (List UInt8) := (block ++ [13]).splitOn 10

/-- A value without blanks in front, and without blanks and CRs at its end.  A line has no
LF, so that it makes no difference that `isStripped` has it. -/
def trim (value : List UInt8) : List UInt8 := (value.rdropWhile isStripped).dropWhile isBlank

/-- The value of a line whose field name, up to the first colon, is Origin. -/
def originValue (line : List UInt8) : Option (List UInt8) :=
  match line.dropWhile (· != 58) with
  | [] => none
  | _ :: value =>
      if (line.takeWhile (· != 58)).map tolower = ascii "origin" then some (trim value) else none

def allowedTexts : List (List UInt8) := allowedOrigins.map CStr.bytes

/-- A line that has an allowed origin as its complete value. -/
def NamesAllowed (line : List UInt8) : Prop := ∃ value ∈ allowedTexts, originValue line = some value

instance (line : List UInt8) : Decidable (NamesAllowed line) :=
  inferInstanceAs (Decidable (∃ value ∈ allowedTexts, originValue line = some value))

/-- Some line of the block has an allowed origin as its complete value. -/
def Genuine (block : List UInt8) : Prop := ∃ line ∈ rawLines block, NamesAllowed line

instance (block : List UInt8) : Decidable (Genuine block) :=
  inferInstanceAs (Decidable (∃ line ∈ rawLines block, NamesAllowed line))

/-- The last Origin line. -/
def lastOrigin (lines : List (List UInt8)) : Option (List UInt8) :=
  (lines.filter fun line => (originValue line).isSome).getLast?

/-- Dropping at the end stops at an element that stays. -/
theorem rdropWhile_append_cons {p : UInt8 → Bool} {b : UInt8} (stays : p b = false)
    (front back : List UInt8) :
    (front ++ b :: back).rdropWhile p = front ++ b :: back.rdropWhile p := by
  induction back using List.reverseRecOn with
  | nil => exact List.rdropWhile_concat_neg _ _ _ (by simp [stays])
  | append_singleton back x ih =>
      have snoc : front ++ b :: (back ++ [x]) = (front ++ b :: back) ++ [x] := by simp
      rw [snoc, List.rdropWhile_concat, List.rdropWhile_concat, ih]
      split_ifs
      · rfl
      · simp

/-! ### Lines with a colon -/

theorem originValue_of_no_colon {line : List UInt8} (none_ : 58 ∉ line) : originValue line = none := by
  have all : line.dropWhile (· != 58) = [] := by
    rw [List.dropWhile_eq_nil_iff]
    intro b inside
    exact bne_iff_ne.mpr fun same => none_ (same ▸ inside)
  rw [originValue, all]

theorem originValue_colon {name value : List UInt8} (clean : 58 ∉ name) :
    originValue (name ++ 58 :: value) =
      if name.map tolower = ascii "origin" then some (trim value) else none := by
  have passes : ∀ b ∈ name, (b != 58) = true := by
    intro b inside
    exact bne_iff_ne.mpr fun same => clean (same ▸ inside)
  have rest : (name ++ 58 :: value).dropWhile (· != 58) = 58 :: value := by
    rw [List.dropWhile_append_of_pos passes]
    simp
  have front : (name ++ 58 :: value).takeWhile (· != 58) = name := by
    rw [List.takeWhile_append_of_pos passes]
    simp
  rw [originValue, rest]
  simp only [front]

/-- An Origin line is `Origin`, a colon and a value. -/
theorem originValue_isSome {line : List UInt8} (isOrigin : (originValue line).isSome = true) :
    ∃ name value, line = name ++ 58 :: value ∧ 58 ∉ name ∧ name.map tolower = ascii "origin" := by
  by_cases colon : (58 : UInt8) ∈ line
  · obtain ⟨name, value, rfl, clean⟩ := List.eq_append_cons_of_mem colon
    rw [originValue_colon clean] at isOrigin
    split_ifs at isOrigin with named
    · exact ⟨name, value, rfl, clean, named⟩
    · cases isOrigin
  · rw [originValue_of_no_colon colon] at isOrigin
    cases isOrigin

/-- Trailing blanks do not matter. -/
theorem originValue_append {line more : List UInt8} (isOrigin : (originValue line).isSome = true)
    (blank : ∀ b ∈ more, isStripped b = true) : originValue (line ++ more) = originValue line := by
  obtain ⟨name, value, rfl, clean, named⟩ := originValue_isSome isOrigin
  have same : (value ++ more).rdropWhile isStripped = value.rdropWhile isStripped := by
    rw [List.rdropWhile, List.reverse_append, List.dropWhile_append_of_pos (by simpa using blank)]
    rfl
  rw [List.append_assoc, List.cons_append, originValue_colon clean, originValue_colon clean, trim,
    trim, same]

/-! ## What the parser reads -/

/-- The front of a line that reaches the parser, before it is stripped. -/
def shown (line : List UInt8) : List UInt8 := (line.take lineMax).takeWhile (· != 0)

/-- The part of a line that the parser never sees. -/
def hidden (line : List UInt8) : List UInt8 := line.drop (shown line).length

theorem shown_append_hidden (line : List UInt8) : shown line ++ hidden line = line :=
  List.prefix_iff_eq_append.mp
    ((List.takeWhile_prefix _).trans (List.take_prefix lineMax line))

/-- The name of an Origin line is short and has no NUL, so it is shown. -/
theorem originValue_shown_isSome (line : List UInt8) :
    (originValue (shown line)).isSome = (originValue line).isSome := by
  rw [Bool.eq_iff_iff]
  constructor
  · intro isOrigin
    obtain ⟨name, value, front, clean, named⟩ := originValue_isSome isOrigin
    rw [← shown_append_hidden line, front, List.append_assoc, List.cons_append,
      originValue_colon clean, if_pos named]
    rfl
  · intro isOrigin
    obtain ⟨name, value, rfl, clean, named⟩ := originValue_isSome isOrigin
    have six : name.length = 6 := by
      have size := congrArg List.length named
      rw [List.length_map] at size
      exact size.trans (by decide)
    have noNul : ∀ b ∈ name ++ [58], (b != 0) = true := by
      intro b inside
      rcases List.mem_append.mp inside with inside | colon
      · rw [bne_iff_ne]
        rintro rfl
        have zero : tolower 0 ∈ ascii "origin" := named ▸ List.mem_map_of_mem inside
        exact absurd zero (by decide)
      · rw [List.mem_singleton.mp colon]
        decide
    have front : shown (name ++ 58 :: value) =
        name ++ 58 :: (value.take (lineMax - 7)).takeWhile (· != 0) := by
      have cut : (name ++ 58 :: value).take lineMax = (name ++ [58]) ++ value.take (lineMax - 7) := by
        rw [List.append_cons, List.take_append, List.take_of_length_le (by simp [six, lineMax])]
        simp [six]
      rw [shown, cut, List.takeWhile_append_of_pos noNul, List.append_assoc]
      rfl
    rw [front, originValue_colon clean, if_pos named]
    rfl

/-! ### One line -/

/-- The origin that a line sets. -/
def shownOrigin (line : List UInt8) : Option CStr :=
  match (copyLine line).cut 58 with
  | some (name, value) => if strcasecmp name (.lit "Origin") then some (skipWs value) else none
  | none => none

theorem strcasecmp_origin (name : CStr) :
    strcasecmp name (.lit "Origin") = true ↔ name.bytes.map tolower = ascii "origin" := by
  have lower : (CStr.lit "Origin").bytes.map tolower = ascii "origin" := by decide
  rw [strcasecmp, lower, beq_iff_eq]

/-- It is the value of what is shown of the line. -/
theorem shownOrigin_bytes (line : List UInt8) :
    (shownOrigin line).map CStr.bytes = originValue (shown line) := by
  have read : (copyLine line).bytes = (shown line).rdropWhile isStripped := rfl
  by_cases colon : (58 : UInt8) ∈ shown line
  · obtain ⟨name, value, front, clean⟩ := List.eq_append_cons_of_mem colon
    have stripped : (copyLine line).bytes = name ++ 58 :: value.rdropWhile isStripped := by
      rw [read, front, rdropWhile_append_cons (by decide)]
    have noNul := (copyLine line).noNul
    rw [stripped] at noNul
    have parts : (copyLine line).cut 58 = some (⟨name, fun zero => noNul (by simp [zero])⟩,
        ⟨value.rdropWhile isStripped, fun zero => noNul (by simp [zero])⟩) :=
      CStr.cut_eq_some.mpr ⟨stripped, clean⟩
    rw [shownOrigin, parts, front, originValue_colon clean]
    simp only [strcasecmp_origin]
    split_ifs <;> rfl
  · have none_ : (copyLine line).cut 58 = none := by
      refine if_neg fun inside => colon ?_
      rw [read] at inside
      exact (List.rdropWhile_prefix _ _).subset inside
    rw [originValue_of_no_colon colon, shownOrigin, none_]
    rfl

theorem headerLine_origin (scan : HeaderScan) (line : List UInt8) :
    (headerLine scan (copyLine line)).req.origin =
      ((shownOrigin line).map (CBuf.printf 255)).getD scan.req.origin := by
  unfold headerLine shownOrigin
  cases parts : (copyLine line).cut 58 with
  | none => rfl
  | some pair =>
      obtain ⟨name, value⟩ := pair
      simp only [headerField]
      split_ifs <;> rfl

/-! ### All lines -/

theorem foldl_origin (fields : List (List UInt8)) (scan : HeaderScan) :
    ((fields.map copyLine).foldl headerLine scan).req.origin =
      (((fields.filterMap shownOrigin).getLast?).map (CBuf.printf 255)).getD scan.req.origin := by
  induction fields using List.reverseRecOn with
  | nil => rfl
  | append_singleton fields line ih =>
      rw [List.map_append, List.foldl_append, List.filterMap_append]
      show (headerLine _ (copyLine line)).req.origin = _
      rw [headerLine_origin, ih]
      cases sets : shownOrigin line with
      | none => simp [sets]
      | some value => simp [sets]

/-- The last of the results is the result of the last element that has one. -/
theorem getLast?_filterMap {α β : Type} (f : α → Option β) (l : List α) :
    (l.filterMap f).getLast? = ((l.filter fun a => (f a).isSome).getLast?).bind f := by
  induction l using List.reverseRecOn with
  | nil => rfl
  | append_singleton l a ih =>
      rw [List.filterMap_append, List.filter_append]
      cases result : f a with
      | none => simp [result, ih]
      | some b => simp [result]

/-- The parser finds the last Origin line, and takes what is shown of it. -/
theorem getLast?_shownOrigin (fields : List (List UInt8)) :
    (fields.filterMap shownOrigin).getLast? = (lastOrigin fields).bind shownOrigin := by
  have same : (fun line => (shownOrigin line).isSome) = fun line => (originValue line).isSome := by
    funext line
    rw [← originValue_shown_isSome, ← shownOrigin_bytes, Option.isSome_map]
  rw [getLast?_filterMap, same, lastOrigin]

theorem allowedOrigins_short : ∀ origin ∈ allowedOrigins, origin.length < 255 := by decide

/-- Cutting a value to 255 bytes does not make it an allowed origin. -/
theorem originAllowed_printf (value : CStr) :
    originAllowed (CBuf.printf 255 value).str = true ↔ value ∈ allowedOrigins := by
  rw [originAllowed, decide_eq_true_eq]
  by_cases fits : value.length ≤ 255
  · rw [CBuf.printf_of_fits fits]
  · have cut : (CBuf.printf 255 value).str.length = 255 := by
      simp only [CBuf.printf, CStr.length, CStr.bytes_take, List.length_take]
      exact min_eq_left (not_le.mp fits).le
    constructor
    · intro allowed
      have short := allowedOrigins_short _ allowed
      omega
    · intro allowed
      have short := allowedOrigins_short _ allowed
      omega

/-- The parser reads an allowed origin. -/
def ShowsAllowed (lines : List (List UInt8)) : Prop :=
  ∃ line, lastOrigin lines.tail = some line ∧ NamesAllowed (shown line)

/-- **The origin of a request is allowed** when the last Origin line behind the request line
reads, in front, as an allowed one. -/
theorem originAllowed_iff {lines : List (List UInt8)} {req : HttpRequest}
    (made : requestOfLines lines = some req) :
    originAllowed req.origin.str = true ↔ ShowsAllowed lines := by
  have origin : req.origin =
      (((lastOrigin lines.tail).bind shownOrigin).map (CBuf.printf 255)).getD (.zeroed 255) := by
    cases lines with
    | nil =>
        cases made
        rfl
    | cons first fields =>
        obtain ⟨pair, -, rfl⟩ := Option.map_eq_some_iff.mp made
        exact (foldl_origin fields _).trans (by rw [getLast?_shownOrigin]; rfl)
  rw [origin, ShowsAllowed]
  cases last : lastOrigin lines.tail with
  | none => simp; decide
  | some line =>
      simp only [Option.bind_some, Option.some.injEq, exists_eq_left', NamesAllowed,
        ← shownOrigin_bytes]
      cases sets : shownOrigin line with
      | none => simp; decide
      | some value =>
          rw [Option.map_some, Option.getD_some, originAllowed_printf, Option.map_some]
          constructor
          · intro allowed
            exact ⟨value.bytes, List.mem_map_of_mem allowed, rfl⟩
          · rintro ⟨text, inside, same⟩
            obtain ⟨allowed, mem, rfl⟩ := List.mem_map.mp inside
            obtain rfl : value = allowed := CStr.ext (Option.some.inj same)
            exact mem

/-! ## Lines of a block -/

/-- The loop of the parser sees the lines of a block, but for an empty one at the end. -/
theorem rawLines_eq (block : List UInt8) :
    rawLines block = headerLines block ∨ rawLines block = headerLines block ++ [[13]] := by
  induction block with
  | nil => exact Or.inr rfl
  | cons b rest ih =>
      have step : rawLines (b :: rest) =
          if b = 10 then [] :: rawLines rest else (rawLines rest).modifyHead (b :: ·) := by
        rw [rawLines, List.cons_append, List.splitOn_cons_eq_if_modifyHead]
        simp [rawLines]
      rw [step, headerLines]
      by_cases lf : b = 10
      · rw [if_pos lf, if_pos lf]
        exact ih.imp (congrArg _) (congrArg _)
      · rw [if_neg lf, if_neg lf]
        cases lines : headerLines rest with
        | nil =>
            rw [lines] at ih
            rcases ih with none_ | one
            · exact absurd none_ (List.splitOn_ne_nil _ _)
            · rw [one]
              exact Or.inl rfl
        | cons line more =>
            rw [lines] at ih
            rcases ih with same | longer
            · rw [same]
              exact Or.inl rfl
            · rw [longer]
              exact Or.inr rfl

theorem lastOrigin_rawLines (block : List UInt8) :
    lastOrigin (rawLines block).tail = lastOrigin (headerLines block).tail := by
  rcases rawLines_eq block with same | longer
  · rw [same]
  · rw [longer]
    cases headerLines block with
    | nil => rfl
    | cons first fields =>
        have none_ : (originValue [13]).isSome = false := by decide
        simp [lastOrigin, none_]

end SpnavBridge.Wire
