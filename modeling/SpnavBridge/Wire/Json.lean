/-
# Wire.Json -- cJSON values and the accessors the bridge calls on them

`Json` is what a `cJSON` tree denotes: the parser has already decided which of the
seven kinds an item is, and a string is what `valuestring` points to, so it ends at
its first NUL (`\u0000` included).  A `NULL` item is `none`.  Numbers carry their
`valuedouble` only, since nothing here reads `valueint`.

`CJson` is what is left open of the library: the parser `cJSON_ParseWithLength`, and
how `print_number` writes a `double`.  The rest of `cJSON_PrintUnformatted` is here.
-/
import SpnavBridge.Theory.CString
import Mathlib.Data.Rat.Defs

namespace SpnavBridge.Wire

open SpnavBridge.Theory

set_option autoImplicit false

/-- A cJSON item and everything below it. -/
inductive Json (D : Type) where
  | null
  | bool (value : Bool)
  | number (valuedouble : D)
  | string (valuestring : CStr)
  | array (items : List (Json D))
  | object (members : List (CStr × Json D))

/-- The parts of cJSON a result holds for any choice of. -/
structure CJson (D : Type) where
  parseWithLength : List UInt8 → Option (Json D)
  printNumber : D → List UInt8

namespace Json

variable {D : Type}

/-- `cJSON_IsTrue`, false for `NULL`. -/
def isTrue : Option (Json D) → Bool
  | some (.bool value) => value
  | _ => false

/-- `cJSON_GetObjectItemCaseSensitive`: the first member of that name. -/
def getObjectItem (members : List (CStr × Json D)) (name : CStr) : Option (Json D) :=
  (members.find? fun member => member.1 = name).map (·.2)

/-- The string an item holds, when it is there and is a string. -/
def stringValue : Option (Json D) → Option CStr
  | some (.string s) => some s
  | _ => none

/-- `cJSON_IsNumber` -/
def isNumber : Json D → Bool
  | .number _ => true
  | _ => false

end Json

/-! ## Equality -/

section Equality

variable {D : Type} [DecidableEq D]

mutual

/-- Whether two trees are the same. -/
def Json.same : Json D → Json D → Bool
  | .null, .null => true
  | .bool a, .bool b => a == b
  | .number a, .number b => decide (a = b)
  | .string a, .string b => decide (a = b)
  | .array a, .array b => sameItems a b
  | .object a, .object b => sameMembers a b
  | _, _ => false

def sameItems : List (Json D) → List (Json D) → Bool
  | [], [] => true
  | a :: as, b :: bs => a.same b && sameItems as bs
  | _, _ => false

def sameMembers : List (CStr × Json D) → List (CStr × Json D) → Bool
  | [], [] => true
  | (m, a) :: as, (n, b) :: bs => decide (m = n) && a.same b && sameMembers as bs
  | _, _ => false

end

mutual

theorem Json.same_iff : ∀ a b : Json D, a.same b = true ↔ a = b
  | .null, b => by cases b <;> simp [Json.same]
  | .bool x, b => by cases b <;> simp [Json.same]
  | .number x, b => by cases b <;> simp [Json.same]
  | .string x, b => by cases b <;> simp [Json.same]
  | .array x, b => by cases b <;> simp [Json.same, sameItems_iff x]
  | .object x, b => by cases b <;> simp [Json.same, sameMembers_iff x]

theorem sameItems_iff : ∀ a b : List (Json D), sameItems a b = true ↔ a = b
  | [], b => by cases b <;> simp [sameItems]
  | a :: as, b => by cases b <;> simp [sameItems, Json.same_iff a, sameItems_iff as]

theorem sameMembers_iff : ∀ a b : List (CStr × Json D), sameMembers a b = true ↔ a = b
  | [], b => by cases b <;> simp [sameMembers]
  | (m, a) :: as, b => by
      cases b <;> simp [sameMembers, Json.same_iff a, sameMembers_iff as, Prod.ext_iff, and_assoc]

end

instance : DecidableEq (Json D) := fun a b => decidable_of_iff _ (Json.same_iff a b)

end Equality

/-! ## Printing -/

def hexDigit (n : Nat) : UInt8 := UInt8.ofNat (if n < 10 then 48 + n else 87 + n)

/-- One byte of a string, as `print_string_ptr` writes it. -/
def escaped (b : UInt8) : List UInt8 :=
  if b > 31 ∧ b ≠ 34 ∧ b ≠ 92 then [b]
  else if b = 92 ∨ b = 34 then [92, b]
  else if b = 8 then [92, 98]
  else if b = 12 then [92, 102]
  else if b = 10 then [92, 110]
  else if b = 13 then [92, 114]
  else if b = 9 then [92, 116]
  else [92, 117, 48, 48, hexDigit (b.toNat / 16), hexDigit (b.toNat % 16)]

theorem escaped_length (b : UInt8) : 1 ≤ (escaped b).length := by
  unfold escaped
  split_ifs <;> simp

def printString (s : CStr) : List UInt8 := 34 :: s.bytes.flatMap escaped ++ [34]

/-- Printing a string does not shorten it. -/
theorem printString_length (s : CStr) : s.length + 2 ≤ (printString s).length := by
  have each : ∀ bytes : List UInt8, bytes.length ≤ (bytes.flatMap escaped).length := by
    intro bytes
    induction bytes with
    | nil => exact le_refl _
    | cons b bytes ih =>
        have one := escaped_length b
        rw [List.flatMap_cons, List.length_append, List.length_cons]
        omega
  have body := each s.bytes
  rw [printString, CStr.length]
  simp only [List.length_cons, List.length_append, List.length_nil]
  omega

section Print

variable {D : Type} (printNumber : D → List UInt8)

mutual

/-- `print_value`, unformatted. -/
def printValue : Json D → List UInt8
  | .null => ascii "null"
  | .bool value => if value then ascii "true" else ascii "false"
  | .number d => printNumber d
  | .string s => printString s
  | .array items => 91 :: printArray items ++ [93]
  | .object members => 123 :: printObject members ++ [125]

/-- The items of `print_array`, with the commas between them. -/
def printArray : List (Json D) → List UInt8
  | [] => []
  | item :: rest =>
      printValue item ++ (if rest.isEmpty then [] else 44 :: printArray rest)

/-- The members of `print_object`, with the commas between them. -/
def printObject : List (CStr × Json D) → List UInt8
  | [] => []
  | (name, item) :: rest =>
      printString name ++ 58 :: printValue item ++
        (if rest.isEmpty then [] else 44 :: printObject rest)

end

end Print

/-- `cJSON_PrintUnformatted` -/
def CJson.printUnformatted {D : Type} (lib : CJson D) (item : Json D) : List UInt8 :=
  printValue lib.printNumber item

/-! ## Known texts -/

/-- A library that parses the texts of a table and prints integers, for computed runs. -/
def CJson.ofTexts (texts : List (List UInt8 × Json ℚ)) : CJson ℚ where
  parseWithLength json := (texts.find? fun entry => entry.1 == json).map (·.2)
  printNumber q := ascii (toString q.num)

example : printValue (fun q : ℚ => ascii (toString q.num))
    (.array [.number 3, .string (.lit "x\ty"), .object [(.lit "a", .bool true)]]) =
      ascii "[3,\"x\\ty\",\x7b\"a\":true\x7d]" := by
  decide +kernel

end SpnavBridge.Wire
