/-
# Wire.Meaning -- what the texts of JSON mean

`Means t m r` derives a value in front of `t` as `JsonValue` does, and says what it means:
`m` is `none` where a string in it spells nothing.  It is the grammar and nothing less or more
(`Means.grammar`, `JsonValue.means`), but for a bound on the length of the numbers.
-/
import SpnavBridge.Wire.Spelling

namespace SpnavBridge.Wire

open SpnavBridge.Theory

set_option autoImplicit false

/-! ## Values -/

variable {D : Type} (number : Bool → ℚ → D) (limit : Nat)

mutual

/-- A value, its meaning and what is behind it, with numbers of up to `limit` bytes. -/
inductive Means : List UInt8 → Option (Json D) → List UInt8 → Prop
  | null (r : List UInt8) : Means (ascii "null" ++ r) (some .null) r
  | false_ (r : List UInt8) : Means (ascii "false" ++ r) (some (.bool false)) r
  | true_ (r : List UInt8) : Means (ascii "true" ++ r) (some (.bool true)) r
  | string (letters : List Letter) (r : List UInt8) :
      Means (34 :: (letters.flatMap Letter.text ++ 34 :: r))
        ((spelled letters).map fun bytes => .string (.ofBytes bytes)) r
  | number (n : Figures) (short : n.text.length ≤ limit) (r : List UInt8) :
      Means (n.text ++ r) (some (.number (number n.negative n.value))) r
  | array {t r : List UInt8} {items : Option (List (Json D))} (array : MeansArray t items r) :
      Means (91 :: t) (items.map .array) r
  | object {t r : List UInt8} {members : Option (List (CStr × Json D))}
      (object : MeansObject t members r) : Means (123 :: t) (members.map .object) r

inductive MeansArray : List UInt8 → Option (List (Json D)) → List UInt8 → Prop
  | empty {t r : List UInt8} (blanks : Blanks t (93 :: r)) : MeansArray t (some []) r
  | elements {t r : List UInt8} {items : Option (List (Json D))}
      (elements : MeansElements t items r) : MeansArray t items r

inductive MeansElements : List UInt8 → Option (List (Json D)) → List UInt8 → Prop
  | last {t v e r : List UInt8} {item : Option (Json D)} (before : Blanks t v)
      (value : Means v item e) (behind : Blanks e (93 :: r)) :
      MeansElements t (item.map ([·])) r
  | more {t v e t' r : List UInt8} {item : Option (Json D)} {items : Option (List (Json D))}
      (before : Blanks t v) (value : Means v item e) (behind : Blanks e (44 :: t'))
      (rest : MeansElements t' items r) :
      MeansElements t (item.bind fun item => items.map (item :: ·)) r

inductive MeansObject : List UInt8 → Option (List (CStr × Json D)) → List UInt8 → Prop
  | empty {t r : List UInt8} (blanks : Blanks t (125 :: r)) : MeansObject t (some []) r
  | members {t r : List UInt8} {members : Option (List (CStr × Json D))}
      (members_ : MeansMembers t members r) : MeansObject t members r

inductive MeansMembers : List UInt8 → Option (List (CStr × Json D)) → List UInt8 → Prop
  | last {t c f v e r : List UInt8} {item : Option (Json D)} (name : List Letter)
      (before : Blanks t (34 :: (name.flatMap Letter.text ++ 34 :: c))) (colon : Blanks c (58 :: f))
      (between : Blanks f v) (value : Means v item e) (behind : Blanks e (125 :: r)) :
      MeansMembers t ((spelled name).bind fun name => item.map fun item => [(.ofBytes name, item)]) r
  | more {t c f v e t' r : List UInt8} {item : Option (Json D)}
      {members : Option (List (CStr × Json D))} (name : List Letter)
      (before : Blanks t (34 :: (name.flatMap Letter.text ++ 34 :: c))) (colon : Blanks c (58 :: f))
      (between : Blanks f v) (value : Means v item e) (behind : Blanks e (44 :: t'))
      (rest : MeansMembers t' members r) :
      MeansMembers t ((spelled name).bind fun name => item.bind fun item =>
        members.map ((.ofBytes name, item) :: ·)) r

end

variable {number} {limit}

theorem jsonChars_letters (letters : List Letter) (r : List UInt8) :
    JsonChars (letters.flatMap Letter.text ++ 34 :: r) r := by
  induction letters with
  | nil => exact .close r
  | cons letter letters ih =>
      rw [List.flatMap_cons, List.append_assoc]
      cases letter with
      | byte b plain => exact .unescaped b plain ih
      | escape b known => exact .escape b known ih
      | unit hex isHex => exact .unicode hex isHex.1 isHex.2 ih

mutual

/-- What means something is a value of the grammar. -/
theorem Means.grammar {t r : List UInt8} {item : Option (Json D)} :
    Means number limit t item r → JsonValue t r
  | .null r => .null r
  | .false_ r => .false_ r
  | .true_ r => .true_ r
  | .string letters r => .string (jsonChars_letters letters r)
  | .number n _ r => .number n.isNumber r
  | .array array => .array array.grammar
  | .object object => .object object.grammar

theorem MeansArray.grammar {t r : List UInt8} {items : Option (List (Json D))} :
    MeansArray number limit t items r → JsonArray t r
  | .empty blanks => .empty blanks
  | .elements elements => .elements elements.grammar

theorem MeansElements.grammar {t r : List UInt8} {items : Option (List (Json D))} :
    MeansElements number limit t items r → JsonElements t r
  | .last before value behind => .last before value.grammar behind
  | .more before value behind rest => .more before value.grammar behind rest.grammar

theorem MeansObject.grammar {t r : List UInt8} {members : Option (List (CStr × Json D))} :
    MeansObject number limit t members r → JsonObject t r
  | .empty blanks => .empty blanks
  | .members members => .members members.grammar

theorem MeansMembers.grammar {t r : List UInt8} {members : Option (List (CStr × Json D))} :
    MeansMembers number limit t members r → JsonMembers t r
  | .last name before colon between value behind =>
      .last before (jsonChars_letters name _) colon between value.grammar behind
  | .more name before colon between value behind rest =>
      .more before (jsonChars_letters name _) colon between value.grammar behind rest.grammar

end

/-! ### Everything of the grammar means something -/

theorem JsonChars.letters {t r : List UInt8} (chars : JsonChars t r) :
    ∃ letters : List Letter, t = letters.flatMap Letter.text ++ 34 :: r := by
  induction chars with
  | close r => exact ⟨[], rfl⟩
  | unescaped b plain rest ih =>
      obtain ⟨letters, rfl⟩ := ih
      exact ⟨.byte b plain :: letters, rfl⟩
  | escape b known rest ih =>
      obtain ⟨letters, rfl⟩ := ih
      exact ⟨.escape b known :: letters, rfl⟩
  | unicode hex length digits rest ih =>
      obtain ⟨letters, rfl⟩ := ih
      exact ⟨.unit hex ⟨length, digits⟩ :: letters, by simp [Letter.text]⟩

theorem Digits.figures {l : List UInt8} (digits : Digits l) :
    ∃ ds : List Nat, ds ≠ [] ∧ (∀ d ∈ ds, d < 10) ∧ l = ds.map digitByte := by
  have all : ∀ l : List UInt8, (∀ b ∈ l, isdigit b = true) →
      ∃ ds : List Nat, (∀ d ∈ ds, d < 10) ∧ l = ds.map digitByte := by
    intro l digit
    induction l with
    | nil => exact ⟨[], List.forall_mem_nil _, rfl⟩
    | cons b l ih =>
        obtain ⟨ds, small, rfl⟩ := ih fun c mem => digit c (by simp [mem])
        obtain ⟨d, least, rfl⟩ := isdigit_exists (digit b (by simp))
        exact ⟨d :: ds, List.forall_mem_cons.mpr ⟨least, small⟩, rfl⟩
  obtain ⟨ds, small, rfl⟩ := all l digits.digit
  exact ⟨ds, fun none_ => digits.some_ (by rw [none_]; rfl), small, rfl⟩

theorem IsNumber.figures {n : List UInt8} (isNumber : IsNumber n) : ∃ f : Figures, f.text = n := by
  obtain ⟨sign, int, frac, exp, sign_, int_, frac_, exp_⟩ := isNumber
  obtain ⟨whole, some_, small, rfl⟩ := (isNumber_int int_).figures
  have leading : whole = [0] ∨ whole.head? ≠ some 0 := by
    rcases int_ with zero | ⟨-, other⟩
    · have all : ∀ d < 10, digitByte d = 48 → d = 0 := by decide
      obtain ⟨d, rfl⟩ : ∃ d, whole = [d] := List.length_eq_one_iff.mp (by
        have length := congrArg List.length zero
        rwa [List.length_map] at length)
      left
      rw [all d (small d (by simp)) (List.cons.inj zero).1]
    · right
      intro zero
      apply other
      rw [List.head?_map, zero]
      rfl
  obtain ⟨negative, rfl⟩ : ∃ negative : Bool, sign = if negative then [45] else [] := by
    rcases sign_ with rfl | rfl
    · exact ⟨false, rfl⟩
    · exact ⟨true, rfl⟩
  obtain ⟨fraction, small', rfl⟩ : ∃ fraction : List Nat, (∀ d ∈ fraction, d < 10) ∧
      frac = if fraction = [] then [] else 46 :: fraction.map digitByte := by
    rcases frac_ with rfl | ⟨digits, isDigits, rfl⟩
    · exact ⟨[], List.forall_mem_nil _, rfl⟩
    · obtain ⟨ds, some', small', rfl⟩ := isDigits.figures
      exact ⟨ds, small', (if_neg some').symm⟩
  obtain ⟨power, rfl⟩ : ∃ power : Option Power, exp = power.elim [] Power.text := by
    rcases exp_ with rfl | ⟨e, mark, digits, letter, mark_, isDigits, rfl⟩
    · exact ⟨none, rfl⟩
    · obtain ⟨ds, some', small', rfl⟩ := isDigits.figures
      obtain ⟨capital, rfl⟩ : ∃ capital : Bool, e = if capital then 69 else 101 := by
        rcases letter with rfl | rfl
        · exact ⟨false, rfl⟩
        · exact ⟨true, rfl⟩
      obtain ⟨sign, rfl⟩ : ∃ sign : Option Bool, mark = signText sign := by
        rcases mark_ with rfl | rfl | rfl
        · exact ⟨none, rfl⟩
        · exact ⟨some false, rfl⟩
        · exact ⟨some true, rfl⟩
      exact ⟨some ⟨capital, sign, ds, some', small'⟩, rfl⟩
  exact ⟨⟨negative, whole, fraction, power, some_, leading,
    fun d mem => (List.mem_append.mp mem).elim (small d) (small' d)⟩, rfl⟩

theorem Blanks.length_le {t r : List UInt8} (blanks : Blanks t r) : r.length ≤ t.length := by
  obtain ⟨w, -, rfl⟩ := blanks
  rw [List.length_append]
  exact Nat.le_add_left _ _

theorem JsonChars.length_le {t r : List UInt8} (chars : JsonChars t r) : r.length ≤ t.length := by
  obtain ⟨letters, rfl⟩ := chars.letters
  rw [List.length_append, List.length_cons]
  omega

mutual

theorem JsonValue.length_le {t r : List UInt8} : JsonValue t r → r.length ≤ t.length
  | .null r => by rw [List.length_append]; omega
  | .false_ r => by rw [List.length_append]; omega
  | .true_ r => by rw [List.length_append]; omega
  | .string chars => Nat.le_succ_of_le chars.length_le
  | .number isNumber r => by rw [List.length_append]; omega
  | .array array => Nat.le_succ_of_le array.length_le
  | .object object => Nat.le_succ_of_le object.length_le

theorem JsonArray.length_le {t r : List UInt8} : JsonArray t r → r.length ≤ t.length
  | .empty blanks => Nat.le_of_succ_le blanks.length_le
  | .elements elements => elements.length_le

theorem JsonElements.length_le {t r : List UInt8} : JsonElements t r → r.length ≤ t.length
  | .last before value behind =>
      (Nat.le_of_succ_le behind.length_le).trans (value.length_le.trans before.length_le)
  | .more before value behind rest =>
      rest.length_le.trans ((Nat.le_of_succ_le behind.length_le).trans
        (value.length_le.trans before.length_le))

theorem JsonObject.length_le {t r : List UInt8} : JsonObject t r → r.length ≤ t.length
  | .empty blanks => Nat.le_of_succ_le blanks.length_le
  | .members members => members.length_le

theorem JsonMembers.length_le {t r : List UInt8} : JsonMembers t r → r.length ≤ t.length
  | .last before name colon between value behind => by
      have first := before.length_le
      have second := name.length_le
      have third := colon.length_le
      have fourth := between.length_le
      have fifth := value.length_le
      have last := behind.length_le
      simp only [List.length_cons] at first third last
      omega
  | .more before name colon between value behind rest => by
      have first := before.length_le
      have second := name.length_le
      have third := colon.length_le
      have fourth := between.length_le
      have fifth := value.length_le
      have sixth := behind.length_le
      have last := rest.length_le
      simp only [List.length_cons] at first third sixth
      omega

end

mutual

theorem JsonValue.means {t r : List UInt8} (number : Bool → ℚ → D) : JsonValue t r →
    ∀ limit, t.length ≤ limit → ∃ item, Means number limit t item r
  | .null r => fun limit _ => ⟨_, .null r⟩
  | .false_ r => fun limit _ => ⟨_, .false_ r⟩
  | .true_ r => fun limit _ => ⟨_, .true_ r⟩
  | .string chars => fun limit _ => by
      obtain ⟨letters, rfl⟩ := chars.letters
      exact ⟨_, .string letters _⟩
  | .number isNumber r => fun limit long => by
      obtain ⟨f, rfl⟩ := isNumber.figures
      rw [List.length_append] at long
      exact ⟨_, .number f (by omega) r⟩
  | .array array => fun limit long => by
      obtain ⟨items, means⟩ := array.means number limit (Nat.le_of_succ_le long)
      exact ⟨_, .array means⟩
  | .object object => fun limit long => by
      obtain ⟨members, means⟩ := object.means number limit (Nat.le_of_succ_le long)
      exact ⟨_, .object means⟩

theorem JsonArray.means {t r : List UInt8} (number : Bool → ℚ → D) : JsonArray t r →
    ∀ limit, t.length ≤ limit → ∃ items, MeansArray number limit t items r
  | .empty blanks => fun limit _ => ⟨_, .empty blanks⟩
  | .elements elements => fun limit long => by
      obtain ⟨items, means⟩ := elements.means number limit long
      exact ⟨_, .elements means⟩

theorem JsonElements.means {t r : List UInt8} (number : Bool → ℚ → D) : JsonElements t r →
    ∀ limit, t.length ≤ limit → ∃ items, MeansElements number limit t items r
  | .last before value behind => fun limit long => by
      obtain ⟨item, means⟩ := value.means number limit (before.length_le.trans long)
      exact ⟨_, .last before means behind⟩
  | .more before value behind rest => fun limit long => by
      have first := before.length_le.trans long
      have later := (Nat.le_of_succ_le behind.length_le).trans (value.length_le.trans first)
      obtain ⟨item, means⟩ := value.means number limit first
      obtain ⟨items, further⟩ := rest.means number limit later
      exact ⟨_, .more before means behind further⟩

theorem JsonObject.means {t r : List UInt8} (number : Bool → ℚ → D) : JsonObject t r →
    ∀ limit, t.length ≤ limit → ∃ members, MeansObject number limit t members r
  | .empty blanks => fun limit _ => ⟨_, .empty blanks⟩
  | .members members => fun limit long => by
      obtain ⟨found, means⟩ := members.means number limit long
      exact ⟨_, .members means⟩

theorem JsonMembers.means {t r : List UInt8} (number : Bool → ℚ → D) : JsonMembers t r →
    ∀ limit, t.length ≤ limit → ∃ members, MeansMembers number limit t members r
  | .last before name colon between value behind => fun limit long => by
      have first := before.length_le.trans long
      have second := name.length_le.trans (Nat.le_of_succ_le first)
      have third := (Nat.le_of_succ_le colon.length_le).trans second
      obtain ⟨item, means⟩ := value.means number limit (between.length_le.trans third)
      obtain ⟨letters, rfl⟩ := name.letters
      exact ⟨_, .last letters before colon between means behind⟩
  | .more before name colon between value behind rest => fun limit long => by
      have first := before.length_le.trans long
      have second := name.length_le.trans (Nat.le_of_succ_le first)
      have third := (Nat.le_of_succ_le colon.length_le).trans second
      have fourth := between.length_le.trans third
      have later := (Nat.le_of_succ_le behind.length_le).trans (value.length_le.trans fourth)
      obtain ⟨item, means⟩ := value.means number limit fourth
      obtain ⟨members, further⟩ := rest.means number limit later
      obtain ⟨letters, rfl⟩ := name.letters
      exact ⟨_, .more letters before colon between means behind further⟩

end

end SpnavBridge.Wire
