/-
# Wire.Nesting -- how deep trees nest

`budget` bounds how deep a tree that is read may be (`parseValue_depth`), and is spent on
nothing else: more of it reads the same (`parseValue_budget`).
-/
import SpnavBridge.Wire.Parse

namespace SpnavBridge.Wire

open SpnavBridge.Theory

set_option autoImplicit false

variable {D : Type}

mutual

/-- How deep arrays and objects nest. -/
def Json.depth : Json D → Nat
  | .array items => itemsDepth items + 1
  | .object members => membersDepth members + 1
  | _ => 0

def itemsDepth : List (Json D) → Nat
  | [] => 0
  | item :: rest => max item.depth (itemsDepth rest)

def membersDepth : List (CStr × Json D) → Nat
  | [] => 0
  | (_, item) :: rest => max item.depth (membersDepth rest)

end

theorem depth_le_itemsDepth {item : Json D} {items : List (Json D)} (inside : item ∈ items) :
    item.depth ≤ itemsDepth items := by
  induction items with
  | nil => cases inside
  | cons first rest ih =>
      rw [itemsDepth]
      rcases List.mem_cons.mp inside with rfl | later
      · exact le_max_left _ _
      · exact (ih later).trans (le_max_right _ _)

/-! ## What is read -/

section Depth

variable {value : List UInt8 → Option (Json D × List UInt8)} {budget : Nat}
  (shallow : ∀ l item rest, value l = some (item, rest) → item.depth ≤ budget)
include shallow

theorem parseElements_depth {fuel : Nat} {l rest : List UInt8} {items : List (Json D)}
    (parsed : parseElements value fuel l = some (items, rest)) : itemsDepth items ≤ budget := by
  induction fuel generalizing l items with
  | zero => cases parsed
  | succ fuel ih =>
      obtain ⟨item, behind, read, next⟩ := parseElements_some parsed
      have bounded := shallow _ _ _ read
      rcases next with ⟨after, more, -, further, rfl⟩ | ⟨-, rfl⟩
      · exact max_le bounded (ih further)
      · exact max_le bounded (Nat.zero_le _)

theorem parseMembers_depth {fuel : Nat} {l rest : List UInt8} {members : List (CStr × Json D)}
    (parsed : parseMembers value fuel l = some (members, rest)) :
    membersDepth members ≤ budget := by
  induction fuel generalizing l members with
  | zero => cases parsed
  | succ fuel ih =>
      obtain ⟨name, colon, from_, item, behind, -, -, read, next⟩ := parseMembers_some parsed
      have bounded := shallow _ _ _ read
      rcases next with ⟨after, more, -, further, rfl⟩ | ⟨-, rfl⟩
      · exact max_le bounded (ih further)
      · exact max_le bounded (Nat.zero_le _)

end Depth

variable {number : Bool → ℚ → D}

/-- **Nothing that is read is deeper than its budget.** -/
theorem parseValue_depth {budget : Nat} {l rest : List UInt8} {item : Json D}
    (parsed : parseValue number budget l = some (item, rest)) : item.depth ≤ budget := by
  induction budget using Nat.strongRecOn generalizing l rest item with
  | ind budget ih =>
      cases parseValue_some parsed with
      | null front => exact Nat.zero_le _
      | false_ front => exact Nat.zero_le _
      | true_ front => exact Nat.zero_le _
      | string s rest read => exact Nat.zero_le _
      | number d rest read => exact Nat.zero_le _
      | array deeper behind items rest room front read =>
          rw [Json.depth, room]
          rcases parseArray_some read with ⟨-, rfl⟩ | ⟨fuel, read⟩
          · exact Nat.succ_le_succ (Nat.zero_le _)
          · exact Nat.succ_le_succ
              (parseElements_depth (fun _ _ _ => ih deeper (by omega)) read)
      | object deeper behind members rest room front read =>
          rw [Json.depth, room]
          rcases parseObject_some read with ⟨-, rfl⟩ | ⟨fuel, read⟩
          · exact Nat.succ_le_succ (Nat.zero_le _)
          · exact Nat.succ_le_succ
              (parseMembers_depth (fun _ _ _ => ih deeper (by omega)) read)

/-! ## More budget -/

section Budget

variable {value value' : List UInt8 → Option (Json D × List UInt8)}
  (further : ∀ l read, value l = some read → value' l = some read)
include further

theorem parseElements_further {fuel : Nat} {l : List UInt8} {read : List (Json D) × List UInt8}
    (parsed : parseElements value fuel l = some read) :
    parseElements value' fuel l = some read := by
  induction fuel generalizing l read with
  | zero => cases parsed
  | succ fuel ih =>
      obtain ⟨items, rest⟩ := read
      obtain ⟨item, behind, first, next⟩ := parseElements_some parsed
      rw [parseElements, further _ _ first]
      rcases next with ⟨after, more, comma, later, rfl⟩ | ⟨bracket, rfl⟩
      · simp only [comma, if_true, ih later, Option.map_some]
      · simp [bracket]

theorem parseMembers_further {fuel : Nat} {l : List UInt8}
    {read : List (CStr × Json D) × List UInt8} (parsed : parseMembers value fuel l = some read) :
    parseMembers value' fuel l = some read := by
  induction fuel generalizing l read with
  | zero => cases parsed
  | succ fuel ih =>
      obtain ⟨members, rest⟩ := read
      obtain ⟨name, colon, from_, item, behind, named, between, first, next⟩ :=
        parseMembers_some parsed
      rw [parseMembers, named]
      simp only [between, if_true, further _ _ first]
      rcases next with ⟨after, more, comma, later, rfl⟩ | ⟨brace, rfl⟩
      · simp only [comma, if_true, ih later, Option.map_some]
      · simp [brace]

theorem parseArray_further {l : List UInt8} {read : List (Json D) × List UInt8}
    (parsed : parseArray value l = some read) : parseArray value' l = some read := by
  unfold parseArray at parsed ⊢
  cases shape : bufferSkipWhitespace l with
  | nil => rw [shape] at parsed; cases parsed
  | cons b after =>
      rw [shape] at parsed
      dsimp only at parsed ⊢
      split_ifs at parsed ⊢
      · exact parsed
      · exact parseElements_further further parsed

theorem parseObject_further {l : List UInt8} {read : List (CStr × Json D) × List UInt8}
    (parsed : parseObject value l = some read) : parseObject value' l = some read := by
  unfold parseObject at parsed ⊢
  cases shape : bufferSkipWhitespace l with
  | nil => rw [shape] at parsed; cases parsed
  | cons b after =>
      rw [shape] at parsed
      dsimp only at parsed ⊢
      split_ifs at parsed ⊢
      · exact parsed
      · exact parseMembers_further further parsed

end Budget

/-- Anything but an array or an object is read without it. -/
theorem parseValue_flat {b : UInt8} (array : b ≠ 91) (object : b ≠ 123) (budget budget' : Nat)
    (l : List UInt8) : parseValue number budget (b :: l) = parseValue number budget' (b :: l) := by
  unfold parseValue
  simp only [if_neg array, if_neg object]

/-- **A larger budget reads the same.** -/
theorem parseValue_budget {budget budget' : Nat} (more : budget ≤ budget') {l : List UInt8}
    {read : Json D × List UInt8} (parsed : parseValue number budget l = some read) :
    parseValue number budget' l = some read := by
  induction budget generalizing budget' l read with
  | zero =>
      cases l with
      | nil => cases parsed
      | cons b l =>
          by_cases opens : b = 91 ∨ b = 123
          · rw [parseValue_deep number l opens] at parsed
            cases parsed
          · rw [not_or] at opens
            rwa [parseValue_flat opens.1 opens.2 budget' 0]
  | succ deeper ih =>
      obtain ⟨deeper', rfl⟩ := Nat.exists_eq_succ_of_ne_zero (Nat.ne_zero_of_lt more)
      have further : ∀ l read, parseValue number deeper l = some read →
          parseValue number deeper' l = some read := fun l read =>
        ih (Nat.le_of_succ_le_succ more)
      cases l with
      | nil => cases parsed
      | cons b l =>
          by_cases array : b = 91
          · subst array
            rw [parseValue_array] at parsed ⊢
            obtain ⟨items, within, rfl⟩ := Option.map_eq_some_iff.mp parsed
            rw [parseArray_further further within]
            rfl
          · by_cases object : b = 123
            · subst object
              rw [parseValue_object] at parsed ⊢
              obtain ⟨members, within, rfl⟩ := Option.map_eq_some_iff.mp parsed
              rw [parseObject_further further within]
              rfl
            · rwa [parseValue_flat array object _ (deeper + 1)]

end SpnavBridge.Wire
