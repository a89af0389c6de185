/-
# Kernel.Heeded -- the messages the controller acts on, and whether they were meant so

`controller_on_message` parses without asking for the end of the text, and makes an `int` of a
`double`.  So it acts on payloads that are no message: with something behind the array, with
a type of 2.5, or with one that no `int` can hold.

* `acts_iff`: it acts on exactly the messages that its state heeds (`Heeds`), whatever
  payload they came in.
* `strict_dispatch_iff`: it is strict about a payload exactly if no refusal is missing that would
  have met it (`GetsPast`).
-/
import SpnavBridge.Kernel.Verdict
import SpnavBridge.Wire.Grammar

namespace SpnavBridge.Kernel

open SpnavBridge.Theory SpnavBridge.Wire

set_option autoImplicit false
set_option linter.unusedSectionVars false

variable {D F : Type} [CFloat F] [CDouble D F]

/-! ## What is heeded -/

/-- The messages that a state does something about. -/
inductive Heeds (c : Controller F) (items : List (Json D)) : Int → Prop
  | declares (name uri : CStr) (first : jsonStr items 1 = some name)
      (second : jsonStr items 2 = some uri) (room : c.prefixes.entries.length < maxPrefixes) :
      Heeds c items wampPrefix
  | calls (callId procUri : CStr) (first : jsonStr items 1 = some callId)
      (second : jsonStr items 2 = some procUri) (expected : c.hs.Expects items) :
      Heeds c items wampCall
  | subscribes (topic : CStr) (first : jsonStr items 1 = some topic)
      (resolved : (resolveUri c topic).str = controllerUri)
      (news : c.subscribed = false ∨ c.focus = false) : Heeds c items wampSubscribe
  | answers (type : Int) (reply : type = wampCallresult ∨ type = wampCallerror)
      (waits : c.chain ≠ .none) (first : jsonStr items 1 = some c.pendingCallId.str) :
      Heeds c items type

/-- The controller changes, or sends something. -/
def Acts {S : Type} (c : Controller F) (done : Controller F × List (Message D) × S) : Prop :=
  done.1 ≠ c ∨ done.2.1 ≠ []

/-! ## Chains -/

/-- A chain goes on with an RPC, or is over. -/
def GoesOnOrEnds (done : Controller F × List (Message D)) : Prop :=
  done.2 ≠ [] ∨ done.1.chain = .none

theorem rpc_goesOn (e : Env) (c : Controller F) (kind prop : CStr) (value : Option (Json D)) :
    GoesOnOrEnds (rpc e c kind prop value) :=
  Or.inl (List.cons_ne_nil _ _)

theorem chainFinished_goesOn (e : Env) (c : Controller F) :
    GoesOnOrEnds (chainFinished (D := D) e c) := by
  unfold chainFinished
  dsimp only
  split
  · exact rpc_goesOn ..
  · split
    · exact rpc_goesOn ..
    · exact Or.inr rfl

theorem advanceMotionChain_goesOn (e : Env) (c : Controller F) (result : Option (Json D)) :
    GoesOnOrEnds (advanceMotionChain e c result) := by
  unfold advanceMotionChain
  cases c.step with
  | mstepReadPerspective | mstepWriteViewextents => exact rpc_goesOn ..
  | mstepReadExtents | mstepReadViewextents =>
      dsimp only
      split
      · exact rpc_goesOn ..
      · exact chainFinished_goesOn ..
  | mstepReadAffine =>
      dsimp only
      split
      · split <;> exact rpc_goesOn ..
      · exact chainFinished_goesOn ..
  | mstepWriteMotion =>
      dsimp only
      split <;> exact rpc_goesOn ..
  | mstepWriteAffine | bstepReadExtents | bstepReadFront | bstepWriteAffine
  | bstepWriteExtents => exact chainFinished_goesOn ..

theorem advanceButtonChain_goesOn (e : Env) (c : Controller F) (result : Option (Json D)) :
    GoesOnOrEnds (advanceButtonChain e c result) := by
  unfold advanceButtonChain
  cases c.step with
  | bstepReadExtents =>
      dsimp only
      split
      · exact rpc_goesOn ..
      · exact chainFinished_goesOn ..
  | bstepReadFront | bstepWriteAffine => exact rpc_goesOn ..
  | bstepWriteExtents | mstepReadExtents | mstepReadPerspective | mstepReadAffine
  | mstepReadViewextents | mstepWriteMotion | mstepWriteViewextents | mstepWriteAffine =>
      exact chainFinished_goesOn ..

/-! ## Acting -/

section Acts

variable (e : Env) (c : Controller F) (items : List (Json D))

theorem not_acts (rc : Int) : ¬ Acts (D := D) c (c, [], rc) := by
  rintro (changed | sent)
  · exact changed rfl
  · exact sent rfl

theorem onPrefix_acts :
    Acts (D := D) c (onPrefix c items, [], (0 : Int)) ↔ Heeds c items wampPrefix := by
  constructor
  · intro acts
    unfold onPrefix at acts
    split at acts
    · rename_i name uri first second
      split at acts
      · rename_i room
        exact .declares name uri first second room
      · exact absurd acts (not_acts c 0)
    · exact absurd acts (not_acts c 0)
  · intro heeds
    cases heeds with
    | declares name uri first second room =>
        left
        unfold onPrefix
        rw [first, second]
        dsimp only
        rw [dif_pos room]
        intro same
        have longer := congrArg (fun c => c.prefixes.entries.length) same
        simp at longer
    | answers _ reply => rcases reply with reply | reply <;> cases reply

theorem onCall_acts : Acts c (onCall c items) ↔ Heeds c items wampCall := by
  have judged := onCall_judged c items
  constructor
  · intro acts
    by_cases refused : (onCall c items).2.2 = -1
    · rw [judged.untouched refused] at acts
      exact absurd acts (not_acts c _)
    · have taken := (not_congr judged.refused).mp refused
      rw [not_or, not_or, not_not, ← ne_eq, ← ne_eq, Option.ne_none_iff_exists',
        Option.ne_none_iff_exists'] at taken
      obtain ⟨⟨⟨callId, first⟩, procUri, second⟩, expected⟩ := taken
      exact .calls callId procUri first second expected
  · intro heeds
    cases heeds with
    | calls callId procUri first second expected =>
        have taken : (onCall c items).2.2 ≠ -1 := by
          rw [Ne, judged.refused, first, second]
          simp [expected]
        obtain ⟨-, -, id, message, -, sent, -⟩ := judged.answered taken
        right
        rw [sent]
        exact List.cons_ne_nil _ _
    | answers _ reply => rcases reply with reply | reply <;> cases reply

theorem onSubscribe_acts :
    Acts (D := D) c (onSubscribe c items, [], (0 : Int)) ↔ Heeds c items wampSubscribe := by
  constructor
  · intro acts
    unfold onSubscribe at acts
    split at acts
    · rename_i topic first
      split at acts
      · rename_i resolved
        refine .subscribes topic first resolved ?_
        by_contra old
        rw [not_or, Bool.not_eq_false, Bool.not_eq_false] at old
        have same : { c with subscribed := true, focus := true } = c := by
          obtain ⟨subscribed, focus⟩ := old
          cases c
          subst subscribed focus
          rfl
        rw [same] at acts
        exact not_acts c 0 acts
      · exact absurd acts (not_acts c 0)
    · exact absurd acts (not_acts c 0)
  · intro heeds
    cases heeds with
    | subscribes topic first resolved news =>
        left
        unfold onSubscribe
        rw [first]
        dsimp only
        rw [if_pos resolved]
        intro same
        rcases news with off | off
        · have on := congrArg Controller.subscribed same
          rw [off] at on
          cases on
        · have on := congrArg Controller.focus same
          rw [off] at on
          cases on
    | answers _ reply => rcases reply with reply | reply <;> cases reply

theorem onReply_acts {type : Int} (reply : type = wampCallresult ∨ type = wampCallerror) :
    Acts c ((onReply e c type items).1, (onReply e c type items).2, (0 : Int)) ↔
      Heeds c items type := by
  constructor
  · intro acts
    unfold onReply at acts
    split at acts
    · rename_i matched
      exact .answers type reply matched.1 matched.2
    · exact absurd acts (not_acts c 0)
  · intro heeds
    have matched : c.chain ≠ .none ∧ jsonStr items 1 = some c.pendingCallId.str := by
      cases heeds with
      | answers _ _ waits first => exact ⟨waits, first⟩
      | _ => rcases reply with reply | reply <;> cases reply
    have on : GoesOnOrEnds (onReply e c type items) := by
      rw [onReply, if_pos matched]
      split
      · exact chainFinished_goesOn ..
      · split
        · exact advanceMotionChain_goesOn ..
        · exact advanceButtonChain_goesOn ..
    rcases on with sent | ended
    · exact Or.inr sent
    · exact Or.inl fun same => matched.1 (by rw [← same]; exact ended)

/-- **The controller acts on what its state heeds.** -/
theorem dispatch_acts (type : Int) : Acts c (dispatch e c type items) ↔ Heeds c items type := by
  by_cases declares : type = wampPrefix
  · subst declares
    exact onPrefix_acts c items
  by_cases calls : type = wampCall
  · subst calls
    rw [dispatch_call]
    exact onCall_acts c items
  by_cases subscribes : type = wampSubscribe
  · subst subscribes
    exact onSubscribe_acts c items
  unfold dispatch
  rw [if_neg declares, if_neg calls, if_neg subscribes]
  split
  · rename_i reply
    exact onReply_acts e c items reply
  · rename_i other
    refine iff_of_false (not_acts c 0) fun heeds => ?_
    cases heeds with
    | declares => exact declares rfl
    | calls => exact calls rfl
    | subscribes => exact subscribes rfl
    | answers _ reply => exact other reply

end Acts

theorem acts_iff {lib : CJson D} (e : Env) (c : Controller F) {payload : List UInt8} {t : D}
    {items : List (Json D)} (carried : IsMessage lib payload t items) :
    Acts c (controllerOnMessage lib e c payload) ↔ Heeds c items (CDouble.toInt t) := by
  rw [controllerOnMessage_of_message carried]
  exact dispatch_acts e c items _

/-- What is no message is not acted on. -/
theorem IsMessage.of_acts {lib : CJson D} {e : Env} {c : Controller F} {payload : List UInt8}
    (acts : Acts c (controllerOnMessage lib e c payload)) :
    ∃ t items, IsMessage lib payload t items := by
  by_contra none_
  push Not at none_
  rw [controllerOnMessage, messageOf_eq_none_iff.mpr none_] at acts
  exact not_acts c _ acts

/-- An array that cJSON reads is a message if it starts with a number. -/
theorem IsMessage.of_parsed {number : Bool → ℚ → D} {printNumber : D → List UInt8}
    {payload rest : List UInt8} {t : D} {items : List (Json D)}
    (parsed : parseWithLengthOpts number payload = some (.array items, rest))
    (first : items[0]? = some (.number t)) :
    IsMessage (cJson number printNumber) payload t items := by
  refine ⟨?_, first⟩
  show (parseWithLengthOpts number payload).map (·.1) = _
  rw [parsed, Option.map_some]

/-! ## Strictness -/

/-- `(int)d` is defined. -/
def InIntRange (d : D) : Prop :=
  CDouble.lt (CDouble.lit (-2147483649)) d = true ∧ CDouble.lt d (CDouble.lit 2147483648) = true

/-- The types the controller knows, PREFIX to SUBSCRIBE. -/
def typeCodes : List Int := [wampPrefix, wampCall, wampCallresult, wampCallerror, wampSubscribe]

/-- The number is one of them exactly. -/
def IsTypeCode (d : D) : Prop := ∃ k ∈ typeCodes, d = CDouble.lit k

theorem Heeds.type {c : Controller F} {items : List (Json D)} {type : Int}
    (heeds : Heeds c items type) : type ∈ typeCodes := by
  cases heeds with
  | declares | calls | subscribes => decide
  | answers _ reply => rcases reply with rfl | rfl <;> decide

/-- Whatever is acted on is one array and nothing else, with a type of its own, and the type
can be made an `int` in any case. -/
structure Strict (lib : CJson D) (e : Env) (c : Controller F) (payload : List UInt8) : Prop where
  whole : Acts c (controllerOnMessage lib e c payload) →
    JsonArrayText payload ∧ ∃ t items, IsMessage lib payload t items ∧ IsTypeCode t
  convertible : ∀ t items, IsMessage lib payload t items → InIntRange t

variable (number : Bool → ℚ → D) (printNumber : D → List UInt8)

/-- The number is beyond `int`, or is none. -/
def Beyond (d : D) : Prop :=
  CDouble.lt (CDouble.lit (-2147483649)) d = false ∨ CDouble.lt d (CDouble.lit 2147483648) = false

/-- What `controller_on_message` does not refuse in an array that it has read from the payload,
with the type `t` in it and `rest` behind it. -/
inductive Lax (payload : List UInt8) (t : D) (rest : List UInt8) : Prop
  /-- The cast to `int` cuts a fraction off. -/
  | fraction (part : t ≠ CDouble.lit (CDouble.toInt t))
  /-- There is something left behind the array. -/
  | behind (left : ¬ Blanks rest [])
  /-- What is skipped in front are no blanks of JSON, a byte order mark apart. -/
  | front (skipped :
      ¬ Blanks (skipUtf8Bom payload) (bufferSkipWhitespace (skipUtf8Bom payload)))
  /-- The array is not spelled as RFC 8259 has it. -/
  | spelling (other : ¬ ∃ array, bufferSkipWhitespace (skipUtf8Bom payload) = 91 :: array ∧
      JsonArray array rest)

theorem readWhole_of_not_lax {payload rest : List UInt8} {t : D} (strict : ¬ Lax payload t rest) :
    ReadWhole payload rest where
  front := by
    by_contra skipped
    exact strict (.front skipped)
  array := by
    by_contra other
    exact strict (.spelling other)
  behind := by
    by_contra left
    exact strict (.behind left)

/-- A refusal is missing that would have met the payload: of a type that is beyond `int` in any
message, and of the rest in a message that the state does something about. -/
def GetsPast (c : Controller F) (payload : List UInt8) : Prop :=
  ∃ t items rest, parseWithLengthOpts number payload = some (.array items, rest) ∧
    items[0]? = some (.number t) ∧
      (Beyond t ∨ (Heeds c items (CDouble.toInt t) ∧ Lax payload t rest))

/-- **When the controller is strict.**  The cast takes each type code to itself, as C's does. -/
theorem strict_dispatch_iff
    (casts : ∀ k ∈ typeCodes, CDouble.toInt (CDouble.lit k : D) = k)
    (e : Env) (c : Controller F) (payload : List UInt8) :
    Strict (cJson number printNumber) e c payload ↔ ¬ GetsPast number c payload := by
  constructor
  · rintro ⟨whole, convertible⟩ ⟨t, items, rest, parsed, first, beyond | ⟨heeds, lax⟩⟩
    · obtain ⟨least, most⟩ := convertible t items (.of_parsed parsed first)
      rcases beyond with low | high
      · exact Bool.noConfusion (low.symm.trans least)
      · exact Bool.noConfusion (high.symm.trans most)
    · -- what is heeded is acted on, and so is one array, with a type of its own
      have carried : IsMessage (cJson number printNumber) payload t items :=
        .of_parsed parsed first
      obtain ⟨text, t', items', carried', k, code, same⟩ :=
        whole ((acts_iff e c carried).mpr heeds)
      obtain ⟨rfl, -⟩ := carried.unique carried'
      obtain ⟨front, array, behind⟩ := (jsonArrayText_iff parsed).mp text
      cases lax with
      | fraction part => exact part (by rw [same, casts k code])
      | behind left => exact left behind
      | front skipped => exact skipped front
      | spelling other => exact other array
  · intro refused
    have read : ∀ t items, IsMessage (cJson number printNumber) payload t items →
        ∃ rest, parseWithLengthOpts number payload = some (.array items, rest) := by
      rintro t items ⟨parsed, -⟩
      obtain ⟨⟨tree, rest⟩, parsed, rfl⟩ := Option.map_eq_some_iff.mp parsed
      exact ⟨rest, parsed⟩
    refine ⟨fun acts => ?_, fun t items carried => ?_⟩
    · obtain ⟨t, items, carried⟩ := IsMessage.of_acts acts
      obtain ⟨rest, parsed⟩ := read t items carried
      have heeds := (acts_iff e c carried).mp acts
      have strict : ¬ Lax payload t rest := fun lax =>
        refused ⟨t, items, rest, parsed, carried.2, Or.inr ⟨heeds, lax⟩⟩
      have exact_ : t = CDouble.lit (CDouble.toInt t) := by
        by_contra part
        exact strict (.fraction part)
      exact ⟨(jsonArrayText_iff parsed).mpr (readWhole_of_not_lax strict), t, items, carried, _,
        heeds.type, exact_⟩
    · obtain ⟨rest, parsed⟩ := read t items carried
      by_contra outside
      refine refused ⟨t, items, rest, parsed, carried.2, Or.inl ?_⟩
      rw [InIntRange, not_and_or, Bool.not_eq_true, Bool.not_eq_true] at outside
      exact outside

/-! ### Four payloads -/

/-- In the words of rational numbers. -/
def ratJson : CJson ℚ := cJson signedRat fun q => ascii (toString q.num)

def still : Env := ⟨fun _ => 0, 0, 0⟩

def fresh : Controller ℚ := (controllerCreate (D := ℚ) still).1

/-- A PREFIX message behind a byte order mark and a blank, with a newline behind it. -/
def marked : List UInt8 := bom ++ ascii " [1,\"a\",\"b\"]\n"

/-- It is acted on, and strictly. -/
theorem strict_dispatch_marked :
    Acts fresh (controllerOnMessage ratJson still fresh marked) ∧
      Strict ratJson still fresh marked := by
  have parsed : parseWithLengthOpts signedRat marked =
      some (.array [.number 1, .string (.lit "a"), .string (.lit "b")], [10]) := by
    decide +kernel
  have heeds : Heeds fresh [.number (1 : ℚ), .string (.lit "a"), .string (.lit "b")] wampPrefix :=
    .declares (.lit "a") (.lit "b") rfl rfl (by decide)
  have casts : ∀ k ∈ typeCodes, CDouble.toInt (F := ℚ) (CDouble.lit k : ℚ) = k := by decide +kernel
  have one : IsNumber [49] :=
    .mk [] [49] [] [] (.inl rfl) (.inr ⟨⟨by decide, by simp [isdigit]⟩, by decide⟩) (.inl rfl) (.inl rfl)
  have array : JsonArray (ascii "1,\"a\",\"b\"]\n") [10] :=
    .elements (.more (.refl _) (.number one _) (.refl _)
      (.more (.refl _) (.string (.unescaped 97 (by decide) (.close _))) (.refl _)
        (.last (.refl _) (.string (.unescaped 98 (by decide) (.close _))) (.refl _))))
  refine ⟨(acts_iff still fresh (.of_parsed parsed rfl)).mpr heeds,
    (strict_dispatch_iff signedRat _ casts still fresh marked).mpr ?_⟩
  rintro ⟨t, items, rest, parsed', first, missing⟩
  rw [parsed, Option.some.injEq, Prod.mk.injEq, Json.array.injEq] at parsed'
  obtain ⟨rfl, rfl⟩ := parsed'
  obtain rfl : 1 = t := by simpa using first
  rcases missing with beyond | ⟨-, lax⟩
  · revert beyond
    unfold Beyond
    decide +kernel
  · cases lax with
    | fraction part => exact part (by decide +kernel)
    | behind left => exact left ⟨[10], by simp, rfl⟩
    | front skipped => exact skipped ⟨[32], by simp, by decide +kernel⟩
    | spelling other => exact other ⟨_, by decide +kernel, array⟩

/-- A PREFIX message with a byte behind it. -/
theorem trailing_acted_on : ¬ Strict ratJson still fresh (ascii "[1,\"a\",\"b\"]x") := by
  intro strict
  have parsed : parseWithLengthOpts signedRat (ascii "[1,\"a\",\"b\"]x") =
      some (.array [.number 1, .string (.lit "a"), .string (.lit "b")], ascii "x") := by
    decide +kernel
  have carried : IsMessage ratJson (ascii "[1,\"a\",\"b\"]x") 1
      [.number 1, .string (.lit "a"), .string (.lit "b")] := .of_parsed parsed rfl
  have acts := (acts_iff still fresh carried).mpr
    (.declares (.lit "a") (.lit "b") rfl rfl (by decide))
  obtain ⟨blanks, known, left⟩ := ((jsonArrayText_iff parsed).mp (strict.whole acts).1).behind
  rw [List.append_nil] at left
  have plain := known 120 (by rw [← left]; decide)
  exact absurd plain (by decide)

/-- A type that is no integer. -/
theorem fraction_acted_on : ¬ Strict ratJson still fresh (ascii "[1.5,\"a\",\"b\"]") := by
  intro strict
  have parsed : parseWithLengthOpts signedRat (ascii "[1.5,\"a\",\"b\"]") =
      some (.array [.number (3 / 2), .string (.lit "a"), .string (.lit "b")], []) := by
    decide +kernel
  have carried : IsMessage ratJson (ascii "[1.5,\"a\",\"b\"]") (3 / 2)
      [.number (3 / 2), .string (.lit "a"), .string (.lit "b")] := .of_parsed parsed rfl
  have truncated : CDouble.toInt (F := ℚ) (3 / 2 : ℚ) = wampPrefix := by decide +kernel
  have acts := (acts_iff still fresh carried).mpr (by
    rw [truncated]
    exact .declares (.lit "a") (.lit "b") rfl rfl (by decide))
  obtain ⟨-, t, items, carried', k, code, same⟩ := strict.whole acts
  obtain ⟨rfl, -⟩ := carried.unique carried'
  have whole : ∀ k ∈ typeCodes, (3 / 2 : ℚ) ≠ k := by decide +kernel
  exact whole k code same

/-- And one that no `int` holds. -/
theorem large_converted : ¬ Strict ratJson still fresh (ascii "[1e10]") := by
  intro strict
  have parsed : parseWithLengthOpts signedRat (ascii "[1e10]") =
      some (.array [.number 10000000000], []) := by decide +kernel
  have range := strict.convertible 10000000000 _ (.of_parsed parsed rfl)
  have beyond : CDouble.lt (F := ℚ) (10000000000 : ℚ) (CDouble.lit 2147483648) = false := by
    decide +kernel
  rw [InIntRange, beyond] at range
  exact Bool.false_ne_true range.2

/-- **None of the three is refused or ignored.** -/
theorem lenient_payloads :
    ¬ Strict ratJson still fresh (ascii "[1,\"a\",\"b\"]x") ∧
      ¬ Strict ratJson still fresh (ascii "[1.5,\"a\",\"b\"]") ∧
      ¬ Strict ratJson still fresh (ascii "[1e10]") :=
  ⟨trailing_acted_on, fraction_acted_on, large_converted⟩

end SpnavBridge.Kernel
