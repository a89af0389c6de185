/-
# Wire.Response -- HTTP responses, as a client reads them

A response is a status line, header fields up to an empty line, and a body whose length one of
the fields tells.  `readResponse` is a strict reader: exactly one field may tell the length, and
it is a decimal.  What is rendered from well-formed parts is read as these parts, and the reader
stops where the body ends, whatever comes behind it (`readResponse_render`).
-/
import Mathlib.Algebra.Group.Nat.Defs
import SpnavBridge.Theory.Utf8

namespace SpnavBridge.Wire

open SpnavBridge.Theory

set_option autoImplicit false

/-- What a client makes of a response. -/
structure Response where
  status : Nat
  reason : List UInt8
  fields : List (List UInt8 × List UInt8)
  body : List UInt8
  deriving DecidableEq

def crlf : List UInt8 := [13, 10]

/-! ## Decimals -/

/-- `1*DIGIT` -/
def readDecimal (l : List UInt8) : Option Nat :=
  if l ≠ [] ∧ l.all isdigit then some (l.foldl (fun n b => 10 * n + (b.toNat - 48)) 0) else none

def decimalText (n : Nat) : List UInt8 := ascii (toString n)

theorem decimalText_eq (n : Nat) :
    decimalText n = (Nat.toDigits 10 n).map fun c => UInt8.ofNat c.toNat := by
  have digits : ∀ cs : List Char, (∀ c ∈ cs, c.isDigit = true) →
      cs.flatMap String.utf8EncodeChar = cs.map fun c => UInt8.ofNat c.toNat := by
    intro cs
    induction cs with
    | nil => intro _; rfl
    | cons c cs ih =>
        intro all
        have digit := all c List.mem_cons_self
        rw [Char.isDigit, Bool.and_eq_true, decide_eq_true_eq, decide_eq_true_eq] at digit
        have last : c.val.toNat ≤ 57 := digit.2
        rw [List.flatMap_cons, List.map_cons, ih fun c mem => all c (List.mem_cons_of_mem _ mem)]
        rw [String.utf8EncodeChar, if_pos (by omega)]
        rfl
  rw [decimalText, ascii_eq_flatMap, Nat.toString_eq_ofList_toDigits, String.toList_ofList]
  exact digits _ fun c inside => Nat.isDigit_of_mem_toDigits (by decide) (by decide) inside

theorem decimalText_digits (n : Nat) : ∀ b ∈ decimalText n, isdigit b = true := by
  intro b mem
  rw [decimalText_eq] at mem
  obtain ⟨c, inside, rfl⟩ := List.mem_map.mp mem
  have digit := Nat.isDigit_of_mem_toDigits (by decide) (by decide) inside
  rw [Char.isDigit, Bool.and_eq_true, decide_eq_true_eq, decide_eq_true_eq] at digit
  have first : 48 ≤ c.toNat := digit.1
  have last : c.toNat ≤ 57 := digit.2
  rw [isdigit, Bool.and_eq_true, decide_eq_true_eq, decide_eq_true_eq, UInt8.le_iff_toNat_le,
    UInt8.le_iff_toNat_le, UInt8.toNat_ofNat', Nat.mod_eq_of_lt (by omega)]
  exact ⟨first, last⟩

theorem decimalText_ne_nil (n : Nat) : decimalText n ≠ [] := by
  rw [decimalText_eq, ne_eq, List.map_eq_nil_iff]
  exact Nat.toDigits_ne_nil

theorem length_decimalText_le {n k : Nat} (pos : 0 < k) (less : n < 10 ^ k) :
    (decimalText n).length ≤ k := by
  rw [decimalText_eq, List.length_map]
  exact (Nat.length_toDigits_le_iff (by decide) pos).mpr less

/-- **A decimal is read back.** -/
theorem readDecimal_decimalText (n : Nat) : readDecimal (decimalText n) = some n := by
  have value : ∀ (cs : List Char) (k : Nat), (∀ c ∈ cs, c.isDigit = true) →
      (cs.map fun c => UInt8.ofNat c.toNat).foldl (fun n b => 10 * n + (b.toNat - 48)) k =
        Nat.ofDigitChars 10 cs k := by
    intro cs
    induction cs with
    | nil => intro k _; rfl
    | cons c cs ih =>
        intro k all
        have digit := all c List.mem_cons_self
        rw [Char.isDigit, Bool.and_eq_true, decide_eq_true_eq, decide_eq_true_eq] at digit
        have last : c.toNat ≤ 57 := digit.2
        rw [List.map_cons, List.foldl_cons, ih _ fun c mem => all c (List.mem_cons_of_mem _ mem),
          Nat.ofDigitChars_cons, UInt8.toNat_ofNat', Nat.mod_eq_of_lt (by omega)]
        rfl
  rw [readDecimal, if_pos ⟨decimalText_ne_nil n, List.all_eq_true.mpr (decimalText_digits n)⟩,
    decimalText_eq, value _ 0 fun c inside =>
      Nat.isDigit_of_mem_toDigits (by decide) (by decide) inside, Nat.ofDigitChars_ten_toDigits]

/-! ## Lines -/

/-- A line, up to its CRLF. -/
def readLine : List UInt8 → Option (List UInt8 × List UInt8)
  | [] => none
  | b :: l =>
      if crlf <+: b :: l then some ([], l.drop 1)
      else (readLine l).map fun read => (b :: read.1, read.2)

theorem readLine_crlf {line : List UInt8} (clean : 13 ∉ line) (rest : List UInt8) :
    readLine (line ++ (crlf ++ rest)) = some (line, rest) := by
  induction line with
  | nil => rfl
  | cons b line ih =>
      obtain ⟨other, clean⟩ := not_or.mp (mt List.mem_cons.mpr clean)
      have goesOn : ¬ crlf <+: b :: (line ++ (crlf ++ rest)) := by
        rintro ⟨more, same⟩
        exact other (List.cons.inj same).1
      rw [List.cons_append, readLine, if_neg goesOn, ih clean]
      rfl

/-- `HTTP/1.1 200 OK` -/
def readStatusLine (start : List UInt8) : Option (Nat × List UInt8) :=
  let code := (start.drop 9).takeWhile isdigit
  if ascii "HTTP/1.1 " <+: start ∧ code.length = 3 ∧ start[12]? = some 32 then
    (readDecimal code).map fun status => (status, start.drop 13)
  else none

/-- A name, a colon and a value. -/
def readField (line : List UInt8) : Option (List UInt8 × List UInt8) :=
  if 58 ∈ line ∧ line.head? ≠ some 58 then
    some (line.takeWhile (· ≠ 58), ((line.dropWhile (· ≠ 58)).drop 1).dropWhile (· = 32))
  else none

/-- The fields up to the empty line, and what is behind it. -/
def readFields : Nat → List UInt8 → Option (List (List UInt8 × List UInt8) × List UInt8)
  | 0, _ => none
  | fuel + 1, l =>
      match readLine l with
      | none => none
      | some (line, rest) =>
          if line = [] then some ([], rest)
          else
            match readField line with
            | none => none
            | some field => (readFields fuel rest).map fun read => (field :: read.1, read.2)

/-- The fields of a name, which is the same in capitals. -/
def valuesOf (name : String) (fields : List (List UInt8 × List UInt8)) : List (List UInt8) :=
  (fields.filter fun field => field.1.map tolower == (ascii name).map tolower).map (·.2)

/-- The length of the body, told once. -/
def contentLength (fields : List (List UInt8 × List UInt8)) : Option Nat :=
  match valuesOf "Content-Length" fields with
  | [value] => readDecimal value
  | _ => none

/-- The response in front, and what is behind it. -/
def readResponse (l : List UInt8) : Option (Response × List UInt8) :=
  match readLine l with
  | none => none
  | some (start, rest) =>
      match readStatusLine start with
      | none => none
      | some (status, reason) =>
          match readFields (rest.length + 1) rest with
          | none => none
          | some (fields, rest) =>
              match contentLength fields with
              | none => none
              | some n =>
                  if n ≤ rest.length then some (⟨status, reason, fields, rest.take n⟩, rest.drop n)
                  else none

/-! ## Rendering -/

def renderField (field : List UInt8 × List UInt8) : List UInt8 :=
  field.1 ++ 58 :: 32 :: (field.2 ++ crlf)

/-- A header block. -/
def renderHead (status : Nat) (reason : List UInt8) (fields : List (List UInt8 × List UInt8)) :
    List UInt8 :=
  ascii "HTTP/1.1 " ++ (decimalText status ++ 32 :: (reason ++
    (crlf ++ (fields.flatMap renderField ++ crlf))))

/-- A field that is read as it was written. -/
structure IsField (field : List UInt8 × List UInt8) : Prop where
  some_ : field.1 ≠ []
  name : 58 ∉ field.1 ∧ 13 ∉ field.1
  value : 13 ∉ field.2 ∧ field.2.head? ≠ some 32

instance (field : List UInt8 × List UInt8) : Decidable (IsField field) :=
  decidable_of_iff (field.1 ≠ [] ∧ (58 ∉ field.1 ∧ 13 ∉ field.1) ∧
      13 ∉ field.2 ∧ field.2.head? ≠ some 32)
    ⟨fun ⟨some_, name, value⟩ => ⟨some_, name, value⟩, fun ⟨some_, name, value⟩ =>
      ⟨some_, name, value⟩⟩

theorem readField_render {name value : List UInt8} (field : IsField (name, value)) :
    readField (name ++ 58 :: 32 :: value) = some (name, value) := by
  obtain ⟨some_, ⟨noColon, -⟩, ⟨-, visible⟩⟩ := field
  have all : ∀ b ∈ name, decide (b ≠ 58) = true := fun b mem =>
    decide_eq_true fun same => noColon (same ▸ mem)
  have first : (name ++ 58 :: 32 :: value).head? ≠ some 58 := by
    obtain ⟨b, rest, rfl⟩ := List.exists_cons_of_ne_nil some_
    intro same
    obtain rfl : b = 58 := Option.some.inj same
    exact noColon List.mem_cons_self
  have front : (name ++ 58 :: 32 :: value).takeWhile (· ≠ 58) = name := by
    rw [List.takeWhile_append_of_pos all, List.takeWhile_cons_of_neg (by simp), List.append_nil]
  have behind : (name ++ 58 :: 32 :: value).dropWhile (· ≠ 58) = 58 :: 32 :: value := by
    rw [List.dropWhile_append_of_pos all, List.dropWhile_cons_of_neg (by simp)]
  have bare : value.dropWhile (· = 32) = value := by
    cases value with
    | nil => rfl
    | cons b value =>
        refine List.dropWhile_cons_of_neg fun blank => ?_
        obtain rfl := of_decide_eq_true blank
        exact visible rfl
  rw [readField, if_pos ⟨by simp, first⟩, front, behind, List.drop_succ_cons, List.drop_zero,
    List.dropWhile_cons_of_pos (by simp), bare]

theorem readFields_render {fields : List (List UInt8 × List UInt8)}
    (each : ∀ field ∈ fields, IsField field) {fuel : Nat} (enough : fields.length < fuel)
    (rest : List UInt8) :
    readFields fuel (fields.flatMap renderField ++ (crlf ++ rest)) = some (fields, rest) := by
  induction fields generalizing fuel with
  | nil =>
      obtain ⟨fuel, rfl⟩ := Nat.exists_eq_succ_of_ne_zero (Nat.ne_zero_of_lt enough)
      rfl
  | cons field fields ih =>
      obtain ⟨fuel, rfl⟩ := Nat.exists_eq_succ_of_ne_zero (Nat.ne_zero_of_lt enough)
      obtain ⟨name, value⟩ := field
      have good := each _ List.mem_cons_self
      have clean : 13 ∉ name ++ 58 :: 32 :: value := by
        have parts := And.intro good.name.2 good.value.1
        simpa using parts
      have shape : ((name, value) :: fields).flatMap renderField ++ (crlf ++ rest) =
          (name ++ 58 :: 32 :: value) ++ (crlf ++ (fields.flatMap renderField ++ (crlf ++ rest))) := by
        simp [renderField]
      rw [shape, readFields, readLine_crlf clean]
      dsimp only
      rw [if_neg (by simp), readField_render good]
      dsimp only
      rw [ih (fun field mem => each field (List.mem_cons_of_mem _ mem))
        (Nat.lt_of_succ_lt_succ enough)]
      rfl

theorem readStatusLine_render {status : Nat} (three : 100 ≤ status ∧ status < 1000)
    (reason : List UInt8) :
    readStatusLine (ascii "HTTP/1.1 " ++ (decimalText status ++ 32 :: reason)) =
      some (status, reason) := by
  have length : (decimalText status).length = 3 := by
    have most := length_decimalText_le (n := status) (k := 3) (by decide) three.2
    have least : ¬ (decimalText status).length ≤ 2 := by
      rw [decimalText_eq, List.length_map, Nat.length_toDigits_le_iff (by decide) (by decide)]
      exact Nat.not_lt_of_le three.1
    omega
  have front : (ascii "HTTP/1.1 ").length = 9 := by decide
  have code : ((ascii "HTTP/1.1 " ++ (decimalText status ++ 32 :: reason)).drop 9).takeWhile
      isdigit = decimalText status := by
    rw [List.drop_left' front, List.takeWhile_append_of_pos (decimalText_digits status),
      List.takeWhile_cons_of_neg (by decide), List.append_nil]
  have blank : (ascii "HTTP/1.1 " ++ (decimalText status ++ 32 :: reason))[12]? = some 32 := by
    rw [List.getElem?_append_right (by omega), List.getElem?_append_right (by omega), front, length]
    rfl
  have behind : (ascii "HTTP/1.1 " ++ (decimalText status ++ 32 :: reason)).drop 13 = reason := by
    have split : ascii "HTTP/1.1 " ++ (decimalText status ++ 32 :: reason) =
        (ascii "HTTP/1.1 " ++ (decimalText status ++ [32])) ++ reason := by simp
    rw [split]
    exact List.drop_left' (by simp [front, length])
  unfold readStatusLine
  dsimp only
  rw [code, if_pos ⟨List.prefix_append .., length, blank⟩, readDecimal_decimalText, behind]
  rfl

/-- **A response is read as it was rendered**, and no further. -/
theorem readResponse_render {status : Nat} (three : 100 ≤ status ∧ status < 1000)
    {reason : List UInt8} (clean : 13 ∉ reason) {fields : List (List UInt8 × List UInt8)}
    (each : ∀ field ∈ fields, IsField field) {body : List UInt8}
    (told : contentLength fields = some body.length) (more : List UInt8) :
    readResponse (renderHead status reason fields ++ (body ++ more)) =
      some (⟨status, reason, fields, body⟩, more) := by
  have start : 13 ∉ ascii "HTTP/1.1 " ++ (decimalText status ++ 32 :: reason) := by
    have digits : 13 ∉ decimalText status := fun mem => by
      have digit := decimalText_digits status 13 mem
      exact absurd digit (by decide)
    have front : 13 ∉ ascii "HTTP/1.1 " := by decide
    simp [digits, front, clean]
  have shape : renderHead status reason fields ++ (body ++ more) =
      (ascii "HTTP/1.1 " ++ (decimalText status ++ 32 :: reason)) ++
        (crlf ++ (fields.flatMap renderField ++ (crlf ++ (body ++ more)))) := by
    simp [renderHead]
  have enough : fields.length <
      (fields.flatMap renderField ++ (crlf ++ (body ++ more))).length + 1 := by
    have rendered : ∀ fields : List (List UInt8 × List UInt8),
        fields.length ≤ (fields.flatMap renderField).length := by
      intro fields
      induction fields with
      | nil => exact le_rfl
      | cons field fields ih =>
          rw [List.flatMap_cons, List.length_append, List.length_cons, renderField]
          simp only [List.length_append, List.length_cons]
          omega
    have least := rendered fields
    rw [List.length_append]
    omega
  rw [shape, readResponse, readLine_crlf start]
  dsimp only
  rw [readStatusLine_render three]
  dsimp only
  rw [readFields_render each enough]
  dsimp only
  rw [told]
  dsimp only
  rw [if_pos (by rw [List.length_append]; omega), List.take_left, List.drop_left]

end SpnavBridge.Wire
