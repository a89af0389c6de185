/-
# Theory.Utf8 -- byte lists that are UTF-8, and where they may be cut

A byte list is UTF-8 if it is the characters of some text, one after the other.  Of the bytes of
a character only the first one can begin a character.

* `Utf8.of_append`: what is behind UTF-8 in UTF-8 is UTF-8.
* `Utf8.take_iff`: UTF-8 may be cut in front of exactly the bytes that begin a character, and an
  ASCII byte is one of them (`Utf8.cut`).
-/
import SpnavBridge.Theory.CString

namespace SpnavBridge.Theory

set_option autoImplicit false

/-- The encodings of some characters, one after the other. -/
inductive Utf8 : List UInt8 → Prop
  | nil : Utf8 []
  | char (c : Char) {l : List UInt8} (rest : Utf8 l) : Utf8 (String.utf8EncodeChar c ++ l)

/-! ## One character -/

/-- A byte is decided below 128 by trying them all. -/
theorem ascii_induction {P : UInt8 → Prop} (all : ∀ n < 128, P (.ofNat n)) {b : UInt8}
    (plain : b < 128) : P b := by
  have this := all b.toNat (UInt8.lt_iff_toNat_lt.mp plain)
  rwa [UInt8.ofNat_toNat] at this

theorem first_of_ascii {b : UInt8} (plain : b < 128) : b.IsUTF8FirstByte :=
  ascii_induction (P := UInt8.IsUTF8FirstByte) (by decide) plain

theorem encodeChar_of_ascii {b : UInt8} (plain : b < 128) :
    String.utf8EncodeChar (.ofNat b.toNat) = [b] := by
  refine ascii_induction (P := fun b => String.utf8EncodeChar (.ofNat b.toNat) = [b]) ?_ plain
  decide

/-- A character is an ASCII byte, or has none. -/
theorem encodeChar_bytes (c : Char) :
    (∃ b < 128, String.utf8EncodeChar c = [b]) ∨ ∀ b ∈ String.utf8EncodeChar c, 128 ≤ b := by
  unfold String.utf8EncodeChar
  generalize c.val.toNat = v
  dsimp only
  split_ifs with one
  · refine Or.inl ⟨_, ?_, rfl⟩
    simp only [UInt8.lt_iff_toNat_lt, UInt8.toNat_ofNat', UInt8.reduceToNat]
    omega
  all_goals
    right
    simp only [List.mem_cons, List.not_mem_nil, or_false, forall_eq_or_imp, forall_eq,
      UInt8.le_iff_toNat_le, UInt8.toNat_ofNat', UInt8.reduceToNat]
    omega

/-- Only the first byte of a character begins one. -/
theorem encodeChar_first {c : Char} {i : Nat} {b : UInt8}
    (at_ : (String.utf8EncodeChar c)[i]? = some b) : b.IsUTF8FirstByte ↔ i = 0 := by
  obtain ⟨inside, rfl⟩ := List.getElem?_eq_some_iff.mp at_
  exact UInt8.isUTF8FirstByte_getElem_utf8EncodeChar

/-- No character begins another one. -/
theorem encodeChar_append_inj {c d : Char} {l m : List UInt8}
    (same : String.utf8EncodeChar c ++ l = String.utf8EncodeChar d ++ m) : c = d ∧ l = m := by
  have decoded := fun (c : Char) (l : List UInt8) =>
    ByteArray.utf8DecodeChar?_utf8EncodeChar_append (b := l.toByteArray) (c := c)
  have first := decoded c l
  rw [← List.toByteArray_append, same, List.toByteArray_append, decoded d m] at first
  obtain rfl := Option.some.inj first
  exact ⟨rfl, List.append_cancel_left same⟩

theorem encodeChar_plain {c : Char} (plain : c.val.toNat < 128) :
    ∀ b ∈ String.utf8EncodeChar c, b < 128 := by
  intro b mem
  simp only [String.utf8EncodeChar, if_pos (Nat.le_of_lt_succ plain), List.mem_singleton] at mem
  rw [mem, UInt8.lt_iff_toNat_lt, UInt8.toNat_ofNat']
  exact (Nat.mod_le ..).trans_lt plain

theorem ascii_eq_flatMap (s : String) : ascii s = s.toList.flatMap String.utf8EncodeChar := by
  rw [ascii, ← String.utf8Encode_toList, List.utf8Encode, List.toList_data_toByteArray]

/-- Characters below 128 are ASCII. -/
theorem ascii_plain {s : String} (plain : ∀ c ∈ s.toList, c.val.toNat < 128) :
    ∀ b ∈ ascii s, b < 128 := by
  intro b mem
  rw [ascii_eq_flatMap] at mem
  obtain ⟨c, inside, mem⟩ := List.mem_flatMap.mp mem
  exact encodeChar_plain (plain c inside) b mem

/-- Integers are written in ASCII. -/
theorem ascii_toString (n : Int) : ∀ b ∈ ascii (toString n), b < 128 := by
  have digits : ∀ n : Nat, ∀ c ∈ n.repr.toList, c.val.toNat < 128 := by
    intro n c inside
    rw [Nat.toList_repr] at inside
    have digit := Nat.isDigit_of_mem_toDigits (by decide) (by decide) inside
    rw [Char.isDigit, Bool.and_eq_true, decide_eq_true_eq, decide_eq_true_eq] at digit
    have last : c.val.toNat ≤ 57 := digit.2
    omega
  apply ascii_plain
  rw [Int.toString_eq_repr, Int.repr_eq_if]
  split_ifs
  · exact digits _
  · rw [String.toList_append]
    refine List.forall_mem_append.mpr ⟨fun c inside => ?_, digits _⟩
    obtain rfl : c = '-' := by simpa using inside
    decide

/-! ## Texts -/

namespace Utf8

theorem append {l m : List UInt8} (front : Utf8 l) (back : Utf8 m) : Utf8 (l ++ m) := by
  induction front with
  | nil => exact back
  | char c rest ih =>
      rw [List.append_assoc]
      exact .char c ih

theorem one (c : Char) : Utf8 (String.utf8EncodeChar c) := by
  have this := Utf8.char c .nil
  rwa [List.append_nil] at this

theorem of_ascii {l : List UInt8} (plain : ∀ b ∈ l, b < 128) : Utf8 l := by
  induction l with
  | nil => exact .nil
  | cons b l ih =>
      have rest := ih fun b mem => plain b (List.mem_cons_of_mem _ mem)
      have char := Utf8.char (.ofNat b.toNat) rest
      rwa [encodeChar_of_ascii (plain b List.mem_cons_self)] at char

theorem cons {b : UInt8} {l : List UInt8} (plain : b < 128) (rest : Utf8 l) : Utf8 (b :: l) :=
  append (l := [b]) (of_ascii (by simpa using plain)) rest

/-- Every literal is UTF-8. -/
theorem ascii (s : String) : Utf8 (Theory.ascii s) := by
  rw [ascii_eq_flatMap]
  induction s.toList with
  | nil => exact .nil
  | cons c cs ih =>
      rw [List.flatMap_cons]
      exact .char c ih

/-! ## Behind a front -/

theorem behind_char {c : Char} {l : List UInt8} (valid : Utf8 (String.utf8EncodeChar c ++ l)) :
    Utf8 l := by
  generalize whole : String.utf8EncodeChar c ++ l = m at valid
  cases valid with
  | nil => exact absurd (List.append_eq_nil_iff.mp whole).1 String.utf8EncodeChar_ne_nil
  | char d rest =>
      obtain ⟨-, rfl⟩ := encodeChar_append_inj whole
      exact rest

/-- What is behind UTF-8 is UTF-8. -/
theorem of_append {l m : List UInt8} (front : Utf8 l) (whole : Utf8 (l ++ m)) : Utf8 m := by
  induction front with
  | nil => exact whole
  | char c rest ih =>
      rw [List.append_assoc] at whole
      exact ih whole.behind_char

theorem tail {b : UInt8} {l : List UInt8} (plain : b < 128) (whole : Utf8 (b :: l)) : Utf8 l :=
  of_append (l := [b]) (of_ascii (by simpa using plain)) whole

theorem drop {l : List UInt8} {n : Nat} (valid : Utf8 l) (plain : ∀ b ∈ l.take n, b < 128) :
    Utf8 (l.drop n) := by
  rw [← List.take_append_drop n l] at valid
  exact of_append (of_ascii plain) valid

/-- A text begins with a byte that begins a character. -/
theorem first {b : UInt8} {l : List UInt8} (valid : Utf8 (b :: l)) : b.IsUTF8FirstByte := by
  generalize whole : b :: l = m at valid
  cases valid with
  | nil => cases whole
  | char c rest =>
      refine (encodeChar_first (c := c) (i := 0) ?_).mpr rfl
      cases bytes : String.utf8EncodeChar c with
      | nil => exact absurd bytes String.utf8EncodeChar_ne_nil
      | cons d more =>
          rw [bytes, List.cons_append] at whole
          injection whole with same
          rw [same, List.getElem?_cons_zero]

/-! ## Cutting -/

/-- Both parts are UTF-8 if the second one is empty or begins a character. -/
theorem split {l : List UInt8} (valid : Utf8 l) (n : Nat)
    (starts : ∀ b, l[n]? = some b → b.IsUTF8FirstByte) : Utf8 (l.take n) ∧ Utf8 (l.drop n) := by
  induction valid generalizing n with
  | nil => simp [Utf8.nil]
  | char c rest ih =>
      rcases Nat.eq_zero_or_pos n with rfl | inside
      · exact ⟨.nil, .char c rest⟩
      by_cases short : n < (String.utf8EncodeChar c).length
      · have byte := List.getElem?_eq_getElem short
        have begins := starts _ (by rw [List.getElem?_append_left short]; exact byte)
        exact absurd ((encodeChar_first byte).mp begins) (by omega)
      · have beyond : (String.utf8EncodeChar c).length ≤ n := Nat.le_of_not_lt short
        have parts := ih (n - (String.utf8EncodeChar c).length) fun b at_ =>
          starts b (by rw [List.getElem?_append_right beyond]; exact at_)
        rw [List.take_append, List.drop_append, List.take_of_length_le beyond,
          List.drop_eq_nil_of_le beyond]
        exact ⟨.char c parts.1, parts.2⟩

/-- **Where a text may be cut.** -/
theorem take_iff {l : List UInt8} (valid : Utf8 l) (n : Nat) :
    Utf8 (l.take n) ↔ ∀ b, l[n]? = some b → b.IsUTF8FirstByte := by
  refine ⟨fun front b at_ => ?_, fun starts => (split valid n starts).1⟩
  obtain ⟨inside, rfl⟩ := List.getElem?_eq_some_iff.mp at_
  rw [← List.take_append_drop n l] at valid
  have back := of_append front valid
  rw [List.drop_eq_getElem_cons inside] at back
  exact back.first

/-- Both sides of an ASCII byte are UTF-8. -/
theorem cut {l m : List UInt8} {b : UInt8} (plain : b < 128) (valid : Utf8 (l ++ b :: m)) :
    Utf8 l ∧ Utf8 m := by
  have parts := valid.split l.length fun d at_ => by
    rw [List.getElem?_append_right le_rfl, Nat.sub_self, List.getElem?_cons_zero] at at_
    rw [← Option.some.inj at_]
    exact first_of_ascii plain
  rw [List.take_left, List.drop_left] at parts
  exact ⟨parts.1, parts.2.tail plain⟩

/-- What is in front of the first NUL. -/
theorem takeWhile_ne {stop : UInt8} (plain : stop < 128) {l : List UInt8} (valid : Utf8 l) :
    Utf8 (l.takeWhile (· != stop)) := by
  rw [← List.takeWhile_append_dropWhile (p := (· != stop)) (l := l)] at valid
  cases back : l.dropWhile (· != stop) with
  | nil => rwa [back, List.append_nil] at valid
  | cons b m =>
      have found : b = stop := by
        have head := List.head_dropWhile_not (· != stop) (l := l) (by simp [back])
        simpa [back] using head
      rw [back, found] at valid
      exact (valid.cut plain).1

theorem takeWhile_append {stop : UInt8} (plain : stop < 128) {l m : List UInt8} (front : Utf8 l)
    (back : Utf8 (m.takeWhile (· != stop))) : Utf8 ((l ++ m).takeWhile (· != stop)) := by
  rw [List.takeWhile_append]
  split_ifs
  · exact front.append back
  · exact front.takeWhile_ne plain

theorem lit (s : String) : Utf8 (CStr.lit s).bytes := (ascii s).takeWhile_ne (by decide)

end Utf8

end SpnavBridge.Theory
