/-
# Kernel.Verdict -- what a message gets: a refusal, one answer, one RPC or nothing

`controller_on_message` returns -1 on exactly the payloads `Refused` lists: no message
at all, a CALL without identifier or procedure, and a CALL a handshake state does not
expect.  Every refusal comes before the first assignment, so it leaves the controller as
it was and sends nothing.  Of the messages it takes, a CALL gets one answer with its
identifier and leaves the chain alone, a reply makes the chain send one RPC or none, and
everything else is silent.

`controllerOnMessage_judged` says so of every controller, reached or not.
-/
import SpnavBridge.Kernel.Sends

namespace SpnavBridge.Kernel

open SpnavBridge.Theory SpnavBridge.Wire SpnavBridge.Camera

set_option autoImplicit false
set_option linter.unusedSectionVars false

variable {D F : Type} [CFloat F] [CDouble D F]

/-! ## The rejection set -/

/-- The CALL a handshake state waits for. -/
def HsState.Expects (hs : HsState) (items : List (Json D)) : Prop :=
  match hs with
  | .waitMouse =>
      jsonStr items 2 = some (.lit "3dx_rpc:create") ∧
        jsonStr items 3 = some (.lit "3dconnexion:3dmouse")
  | .waitController =>
      jsonStr items 2 = some (.lit "3dx_rpc:create") ∧
        jsonStr items 3 = some (.lit "3dconnexion:3dcontroller") ∧
        jsonStr items 4 = some (.lit "mouse0")
  | .ready => True

/-- The payload is an array of these items, the first of them the number `t`. -/
def IsMessage (lib : CJson D) (json : List UInt8) (t : D) (items : List (Json D)) : Prop :=
  lib.parseWithLength json = some (.array items) ∧ items[0]? = some (.number t)

/-- The payloads that are refused, in the order they are tested. -/
inductive Refused (lib : CJson D) (c : Controller F) (json : List UInt8) : Prop
  | noMessage (none_ : ∀ t items, ¬ IsMessage lib json t items)
  | noCall {t : D} {items : List (Json D)} (carried : IsMessage lib json t items)
      (call : CDouble.toInt t = wampCall)
      (missing : jsonStr items 1 = none ∨ jsonStr items 2 = none)
  | unexpected {t : D} {items : List (Json D)} (carried : IsMessage lib json t items)
      (call : CDouble.toInt t = wampCall) (other : ¬ c.hs.Expects items)

theorem messageOf_eq_some_iff {lib : CJson D} {json : List UInt8} {type : Int}
    {items : List (Json D)} :
    messageOf (lib.parseWithLength json) = some (type, items) ↔
      ∃ t, IsMessage lib json t items ∧ CDouble.toInt t = type := by
  unfold messageOf IsMessage
  constructor
  · intro message
    split at message
    · rename_i t rest parsed
      obtain ⟨rfl, rfl⟩ := Prod.mk.inj (Option.some.inj message)
      exact ⟨t, ⟨parsed, rfl⟩, rfl⟩
    · cases message
  · rintro ⟨t, ⟨parsed, first⟩, rfl⟩
    cases items with
    | nil => cases first
    | cons item rest =>
        obtain rfl := Option.some.inj first
        rw [parsed]

theorem messageOf_eq_none_iff {lib : CJson D} {json : List UInt8} :
    messageOf (lib.parseWithLength json) = none ↔ ∀ t items, ¬ IsMessage lib json t items := by
  constructor
  · intro none_ t items carried
    have some_ := messageOf_eq_some_iff.mpr ⟨t, carried, rfl⟩
    rw [none_] at some_
    cases some_
  · intro none_
    cases message : messageOf (lib.parseWithLength json) with
    | none => rfl
    | some typed =>
        obtain ⟨t, carried, -⟩ := messageOf_eq_some_iff.mp message
        exact absurd carried (none_ t _)

/-! ## Answers -/

/-- The message answers the CALL `callId`: a CALLRESULT or a CALLERROR that carries it. -/
inductive AnswersCall (callId : CStr) : Message D → Prop
  | result (value : Option (Json D)) : AnswersCall callId (.callresult callId value)
  | error (errorUri desc : CStr) : AnswersCall callId (.callerror callId errorUri desc)

/-- What a CALL with this identifier gets: refused and untouched, or answered once with
the chain left alone. -/
structure CallJudged (c : Controller F) (items : List (Json D))
    (done : Controller F × List (Message D) × Int) : Prop where
  refused : done.2.2 = -1 ↔
    (jsonStr items 1 = none ∨ jsonStr items 2 = none) ∨ ¬ c.hs.Expects items
  untouched : done.2.2 = -1 → done = (c, [], -1)
  answered : done.2.2 ≠ -1 → done.2.2 = 0 ∧ SameChain c done.1 ∧
    ∃ callId message, jsonStr items 1 = some callId ∧ done.2.1 = [message] ∧
      AnswersCall callId message

/-- A CALL that is taken: 0, one answer, and the chain as it was. -/
theorem CallJudged.taken {c c' : Controller F} {items : List (Json D)} {callId procUri : CStr}
    {message : Message D} (id : jsonStr items 1 = some callId)
    (proc : jsonStr items 2 = some procUri) (expected : c.hs.Expects items)
    (chain : SameChain c c') (answers : AnswersCall callId message) :
    CallJudged c items (c', [message], 0) where
  refused := by simp [id, proc, expected]
  untouched := by simp
  answered := fun _ => ⟨rfl, chain, callId, message, id, rfl, answers⟩

/-- A CALL that is refused. -/
theorem CallJudged.turned {c : Controller F} {items : List (Json D)}
    (why : (jsonStr items 1 = none ∨ jsonStr items 2 = none) ∨ ¬ c.hs.Expects items) :
    CallJudged c items (c, [], -1) where
  refused := iff_of_true rfl why
  untouched := fun _ => rfl
  answered := fun taken => absurd rfl taken

theorem onCall_judged (c : Controller F) (items : List (Json D)) :
    CallJudged c items (onCall c items) := by
  unfold onCall
  split
  · rename_i callId procUri id proc
    cases hs : c.hs with
    | waitMouse =>
        by_cases expected : procUri = .lit "3dx_rpc:create" ∧
            jsonStr items 3 = some (.lit "3dconnexion:3dmouse")
        · have expects : c.hs.Expects items := by
            rw [hs]
            exact ⟨expected.1 ▸ proc, expected.2⟩
          simp only [onCreateMouse, if_pos expected]
          exact .taken id proc expects (.gated ..) (.result _)
        · simp only [onCreateMouse, if_neg expected]
          refine .turned (Or.inr fun expects => ?_)
          rw [hs] at expects
          exact expected ⟨Option.some.inj (proc.symm.trans expects.1), expects.2⟩
    | waitController =>
        by_cases expected : procUri = .lit "3dx_rpc:create" ∧
            jsonStr items 3 = some (.lit "3dconnexion:3dcontroller") ∧
            jsonStr items 4 = some (.lit "mouse0")
        · have expects : c.hs.Expects items := by
            rw [hs]
            exact ⟨expected.1 ▸ proc, expected.2⟩
          simp only [onCreateController, if_pos expected]
          exact .taken id proc expects (.gated ..) (.result _)
        · simp only [onCreateController, if_neg expected]
          refine .turned (Or.inr fun expects => ?_)
          rw [hs] at expects
          exact expected ⟨Option.some.inj (proc.symm.trans expects.1), expects.2⟩
    | ready =>
        have expects : c.hs.Expects items := by
          rw [hs]
          trivial
        simp only [onReadyCall]
        split
        · exact .taken id proc expects (.gated ..) (.result _)
        · exact .taken id proc expects (.refl c) (.error ..)
  · rename_i missing
    refine .turned (Or.inl ?_)
    by_contra both
    rw [not_or, ← ne_eq, ← ne_eq, Option.ne_none_iff_exists', Option.ne_none_iff_exists'] at both
    obtain ⟨⟨callId, id⟩, procUri, proc⟩ := both
    exact missing callId procUri id proc

/-! ## Every message -/

/-- What `controller_on_message` does with a payload. -/
structure Judged (lib : CJson D) (e : Env) (c : Controller F) (json : List UInt8) : Prop where
  refused : (controllerOnMessage lib e c json).2.2 = -1 ↔ Refused lib c json
  untouched : (controllerOnMessage lib e c json).2.2 = -1 →
    controllerOnMessage lib e c json = (c, [], -1)
  taken : (controllerOnMessage lib e c json).2.2 ≠ -1 →
    (controllerOnMessage lib e c json).2.2 = 0
  call : ∀ t items, IsMessage lib json t items → CDouble.toInt t = wampCall →
    (controllerOnMessage lib e c json).2.2 = 0 →
      SameChain c (controllerOnMessage lib e c json).1 ∧
        ∃ callId message, jsonStr items 1 = some callId ∧
          (controllerOnMessage lib e c json).2.1 = [message] ∧ AnswersCall callId message
  reply : ∀ t items, IsMessage lib json t items →
    CDouble.toInt t = wampCallresult ∨ CDouble.toInt t = wampCallerror →
      (controllerOnMessage lib e c json).2.1 = [] ∨
        ∃ r, (controllerOnMessage lib e c json).2.1 = [.rpcCall r]
  silent : ∀ t items, IsMessage lib json t items → CDouble.toInt t ≠ wampCall →
    CDouble.toInt t ≠ wampCallresult → CDouble.toInt t ≠ wampCallerror →
      (controllerOnMessage lib e c json).2.1 = []

theorem controllerOnMessage_of_message {lib : CJson D} {e : Env} {c : Controller F}
    {json : List UInt8} {t : D} {items : List (Json D)} (carried : IsMessage lib json t items) :
    controllerOnMessage lib e c json = dispatch e c (CDouble.toInt t) items := by
  rw [controllerOnMessage, messageOf_eq_some_iff.mpr ⟨t, carried, rfl⟩]

theorem IsMessage.unique {lib : CJson D} {json : List UInt8} {t t' : D}
    {items items' : List (Json D)} (one : IsMessage lib json t items)
    (other : IsMessage lib json t' items') : t = t' ∧ items = items' := by
  have same : items = items' := by
    have parsed := one.1.symm.trans other.1
    injection parsed with parsed
    injection parsed
  subst same
  have first := one.2.symm.trans other.2
  injection first with first
  injection first with first
  exact ⟨first, rfl⟩

theorem dispatch_call (e : Env) (c : Controller F) (items : List (Json D)) :
    dispatch e c wampCall items = onCall c items := by
  simp [dispatch, wampCall, wampPrefix]

/-- Only a CALL is refused. -/
theorem dispatch_other {e : Env} {c : Controller F} {type : Int} {items : List (Json D)}
    (other : type ≠ wampCall) : (dispatch e c type items).2.2 = 0 := by
  unfold dispatch
  split_ifs <;> rfl

/-- Of the messages only a CALL is refused, and it is known why. -/
theorem refused_iff {lib : CJson D} {c : Controller F} {json : List UInt8} {t : D}
    {items : List (Json D)} (carried : IsMessage lib json t items) :
    Refused lib c json ↔ CDouble.toInt t = wampCall ∧
      ((jsonStr items 1 = none ∨ jsonStr items 2 = none) ∨ ¬ c.hs.Expects items) := by
  constructor
  · intro refused
    cases refused with
    | noMessage none_ => exact absurd carried (none_ t items)
    | noCall carried' call missing =>
        obtain ⟨rfl, rfl⟩ := carried.unique carried'
        exact ⟨call, Or.inl missing⟩
    | unexpected carried' call other =>
        obtain ⟨rfl, rfl⟩ := carried.unique carried'
        exact ⟨call, Or.inr other⟩
  · rintro ⟨call, missing | other⟩
    · exact .noCall carried call missing
    · exact .unexpected carried call other

section Judged

variable (e : Env) (c : Controller F) {lib : CJson D} {json : List UInt8} {t : D}
  {items : List (Json D)}

theorem judged_of_no_message (none_ : ∀ t items, ¬ IsMessage lib json t items) :
    Judged lib e c json := by
  have refused : controllerOnMessage lib e c json = (c, [], -1) := by
    rw [controllerOnMessage, messageOf_eq_none_iff.mpr none_]
  exact
    { refused := iff_of_true (by rw [refused]) (.noMessage none_)
      untouched := fun _ => refused
      taken := fun taken => absurd (by rw [refused]) taken
      call := fun t items carried => absurd carried (none_ t items)
      reply := fun t items carried => absurd carried (none_ t items)
      silent := fun t items carried => absurd carried (none_ t items) }

theorem judged_of_call (carried : IsMessage lib json t items)
    (call : CDouble.toInt t = wampCall) : Judged lib e c json := by
  have done : controllerOnMessage lib e c json = onCall c items := by
    rw [controllerOnMessage_of_message carried, call, dispatch_call]
  have judged := onCall_judged c items
  refine
    { refused := ?_
      untouched := by rw [done]; exact judged.untouched
      taken := fun taken => ?_
      call := fun t' items' carried' _ zero => ?_
      reply := fun t' items' carried' other => ?_
      silent := fun t' items' carried' other => ?_ }
  · rw [done, judged.refused, refused_iff carried, and_iff_right call]
  · rw [done] at taken ⊢
    exact (judged.answered taken).1
  · obtain ⟨rfl, rfl⟩ := carried.unique carried'
    rw [done] at zero ⊢
    exact (judged.answered (by rw [zero]; decide)).2
  · obtain ⟨rfl, rfl⟩ := carried.unique carried'
    rw [call] at other
    exact absurd other (by decide)
  · obtain ⟨rfl, rfl⟩ := carried.unique carried'
    exact absurd call other

theorem judged_of_other (carried : IsMessage lib json t items)
    (other : CDouble.toInt t ≠ wampCall) : Judged lib e c json := by
  have done := controllerOnMessage_of_message (e := e) (c := c) carried
  have zero : (controllerOnMessage lib e c json).2.2 = 0 := by
    rw [done]
    exact dispatch_other other
  have notRefused : (controllerOnMessage lib e c json).2.2 ≠ -1 := by
    rw [zero]
    decide
  refine
    { refused := iff_of_false notRefused fun refused => other ((refused_iff carried).mp refused).1
      untouched := fun refused => absurd refused notRefused
      taken := fun _ => zero
      call := fun t' items' carried' call => ?_
      reply := fun t' items' carried' isReply => ?_
      silent := fun t' items' carried' _ notResult notError => ?_ }
  · obtain ⟨rfl, rfl⟩ := carried.unique carried'
    exact absurd call other
  · obtain ⟨rfl, rfl⟩ := carried.unique carried'
    rw [done]
    simp only [dispatch, if_neg other]
    split_ifs
    · exact Or.inl rfl
    · exact Or.inl rfl
    · exact onReply_silent_or_asks ..
  · obtain ⟨rfl, rfl⟩ := carried.unique carried'
    rw [done]
    simp only [dispatch, if_neg other, notResult, notError, or_self, if_false]
    split_ifs <;> rfl

end Judged

/-- **Every payload is judged**, in every state of the controller. -/
theorem controllerOnMessage_judged (lib : CJson D) (e : Env) (c : Controller F)
    (json : List UInt8) : Judged lib e c json := by
  cases message : messageOf (lib.parseWithLength json) with
  | none => exact judged_of_no_message e c (messageOf_eq_none_iff.mp message)
  | some typed =>
      obtain ⟨type, items⟩ := typed
      obtain ⟨t, carried, rfl⟩ := messageOf_eq_some_iff.mp message
      by_cases call : CDouble.toInt t = wampCall
      · exact judged_of_call e c carried call
      · exact judged_of_other e c carried call

end SpnavBridge.Kernel
