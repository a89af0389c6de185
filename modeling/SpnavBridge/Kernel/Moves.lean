/-
# Kernel.Moves -- what one call can do to a controller

Every result about runs of the controller is read off `controllerStep_move`: one call
makes exactly one `Move`.  Either the chain is untouched and no RPC is sent (`quiet`),
or the outstanding RPC was answered and the chain asks its next one (`goesOn`), ends
with nothing queued (`ended`) or ends and starts the queued one (`restarted`), or a
device event was queued (`queued`) or started a chain (`started`).

* `replyOf`: the reply a call carries to the outstanding RPC, if it carries one.
* `Reply.ends`: the reply ends the chain at that step -- an error, a result that is
  not the numbers asked for, or any answer to the last step.
* `Waits c r`: `c` waits for the answer to `r`, and `r` is what its step asks.
-/
import SpnavBridge.Kernel.Controller

namespace SpnavBridge.Kernel

open SpnavBridge.Theory SpnavBridge.Wire SpnavBridge.Camera

set_option autoImplicit false
set_option linter.unusedSectionVars false

variable {D F : Type} [CFloat F] [CDouble D F]

/-! ## Steps and their requests -/

/-- The chain a step belongs to. -/
def ChainStep.kind : ChainStep → ChainKind
  | .bstepReadExtents | .bstepReadFront | .bstepWriteAffine | .bstepWriteExtents => .button
  | _ => .motion

/-- The RPC a chain waits for at a step: its kind and its property. -/
def ChainStep.request : ChainStep → CStr × CStr
  | .mstepReadExtents | .bstepReadExtents => (selfRead, .lit "model.extents")
  | .mstepReadPerspective => (selfRead, .lit "view.perspective")
  | .mstepReadAffine => (selfRead, .lit "view.affine")
  | .mstepReadViewextents => (selfRead, .lit "view.extents")
  | .mstepWriteMotion => (selfUpdate, .lit "motion")
  | .mstepWriteViewextents | .bstepWriteExtents => (selfUpdate, .lit "view.extents")
  | .mstepWriteAffine | .bstepWriteAffine => (selfUpdate, .lit "view.affine")
  | .bstepReadFront => (selfRead, .lit "views.front")

theorem selfRead_ne_selfUpdate : selfRead ≠ selfUpdate := by decide +kernel

/-- The step a chain starts with. -/
def ChainStep.first (step : ChainStep) : Prop :=
  step = .mstepReadExtents ∨ step = .bstepReadExtents

instance (step : ChainStep) : Decidable step.first :=
  inferInstanceAs (Decidable (_ ∨ _))

/-- Only a first step reads the model extents. -/
theorem ChainStep.request_modelExtents (step : ChainStep) :
    step.request.2 = .lit "model.extents" ↔ step.first := by
  cases step <;> simp only [ChainStep.request, ChainStep.first] <;> decide

/-! ## Replies -/

/-- The type and the items of the message that a call carries. -/
def messageIn (lib : CJson D) (call : Call F) : Option (Int × List (Json D)) :=
  match call.op with
  | .message json => messageOf (lib.parseWithLength json)
  | _ => none

/-- What the client answers to an RPC. -/
inductive Reply (D : Type) where
  | error
  | result (value : Option (Json D))
  deriving DecidableEq

/-- The value is an array whose first `n` items are numbers. -/
def holdsNumbers (n : Nat) : Option (Json D) → Bool
  | some (.array items) => n ≤ items.length && (items.take n).all Json.isNumber
  | _ => false

/-- The reply ends a chain that waits at `step`. -/
def Reply.ends (step : ChainStep) : Reply D → Bool
  | .error => true
  | .result value =>
      match step with
      | .mstepReadExtents | .mstepReadViewextents | .bstepReadExtents => !holdsNumbers 6 value
      | .mstepReadAffine => !holdsNumbers 16 value
      | .mstepWriteAffine | .bstepWriteExtents => true
      | _ => false

/-- The reply to the outstanding RPC that a payload is, if it is one. -/
def matchedReply (lib : CJson D) (c : Controller F) (json : List UInt8) : Option (Reply D) :=
  match messageOf (lib.parseWithLength json) with
  | some (type, items) =>
      if (type = wampCallresult ∨ type = wampCallerror) ∧ c.chain ≠ .none ∧
          jsonStr items 1 = some c.pendingCallId.str then
        some (if type = wampCallerror then .error else .result items[2]?)
      else none
  | none => none

/-- The reply to the outstanding RPC that a call carries, if it carries one. -/
def replyOf (lib : CJson D) (c : Controller F) (call : Call F) : Option (Reply D) :=
  match call.op with
  | .message json => matchedReply lib c json
  | _ => none

/-- What the controller does with a reply to its outstanding RPC. -/
def receive (e : Env) (c : Controller F) : Reply D → Controller F × List (Message D)
  | .error => chainFinished e c
  | .result value =>
      if c.chain = .motion then advanceMotionChain e c value else advanceButtonChain e c value

/-! The step says which chain a result goes to. -/

theorem receive_motion {e : Env} {c : Controller F} {value : Option (Json D)} {s : ChainStep}
    (typed : c.step.kind = c.chain) (step : c.step = s) (motion : s.kind = .motion) :
    receive e c (.result value) = advanceMotionChain e c value := by
  rw [receive, ← typed, step, if_pos motion]

theorem receive_button {e : Env} {c : Controller F} {value : Option (Json D)} {s : ChainStep}
    (typed : c.step.kind = c.chain) (step : c.step = s) (button : s.kind = .button) :
    receive e c (.result value) = advanceButtonChain e c value := by
  have other : s.kind ≠ .motion := by
    rw [button]
    decide
  rw [receive, ← typed, step, if_neg other]

/-! ## Frames -/

def Controller.GateOpen (c : Controller F) : Prop :=
  c.hs = .ready ∧ c.knownClient = true ∧ c.subscribed = true ∧ c.focus = true

/-- The timeout test of `controller_on_spnav_event`. -/
def Controller.TimedOut (c : Controller F) (e : Env) : Prop :=
  c.chain ≠ .none ∧ e.timeChecked - c.chainStarted ≥ chainTimeout

instance (c : Controller F) : Decidable c.GateOpen :=
  inferInstanceAs (Decidable (_ ∧ _ ∧ _ ∧ _))

instance (c : Controller F) (e : Env) : Decidable (c.TimedOut e) :=
  inferInstanceAs (Decidable (_ ∧ _))

structure SameGate (c c' : Controller F) : Prop where
  hs : c'.hs = c.hs
  knownClient : c'.knownClient = c.knownClient
  subscribed : c'.subscribed = c.subscribed
  focus : c'.focus = c.focus
  prefixes : c'.prefixes = c.prefixes
  sensitivity : c'.sensitivity = c.sensitivity

/-- The running chain is the same one, with the same events behind it. -/
structure SameRun (c c' : Controller F) : Prop where
  chain : c'.chain = c.chain
  chainStarted : c'.chainStarted = c.chainStarted
  activeEv : c'.activeEv = c.activeEv

structure SameQueue (c c' : Controller F) : Prop where
  pendingMotion : c'.pendingMotion = c.pendingMotion
  havePendingMotion : c'.havePendingMotion = c.havePendingMotion
  havePendingButton : c'.havePendingButton = c.havePendingButton

/-- The numbers read from the client and computed from them. -/
structure SameScratch (c c' : Controller F) : Prop where
  modelExtents : c'.modelExtents = c.modelExtents
  perspective : c'.perspective = c.perspective
  currAffine : c'.currAffine = c.currAffine
  newAffine : c'.newAffine = c.newAffine
  viewExtents : c'.viewExtents = c.viewExtents

/-- The gate, the run and the queue: what storing numbers and setting the step leave alone. -/
structure Carries (c c' : Controller F) : Prop extends
  SameGate c c', SameRun c c', SameQueue c c'

/-- Where the chain stands. -/
structure SameStep (c c' : Controller F) : Prop where
  step : c'.step = c.step
  pendingCallId : c'.pendingCallId = c.pendingCallId

structure SameChain (c c' : Controller F) : Prop extends
  SameRun c c', SameQueue c c', SameStep c c', SameScratch c c'

/-- Storing the numbers of a reply and setting the step leaves everything else. -/
theorem Carries.stored (c : Controller F) (step : ChainStep) (modelExtents : Fin 6 → F)
    (perspective : Bool) (currAffine newAffine : Mat4 F) (viewExtents : Fin 6 → F) :
    Carries c { c with step, modelExtents, perspective, currAffine, newAffine, viewExtents } :=
  ⟨⟨rfl, rfl, rfl, rfl, rfl, rfl⟩, ⟨rfl, rfl, rfl⟩, ⟨rfl, rfl, rfl⟩⟩

/-- The gate does not depend on the chain and its queue. -/
theorem SameGate.unqueued (c : Controller F) (chain : ChainKind)
    (havePendingMotion havePendingButton : Bool) :
    SameGate c { c with chain, havePendingMotion, havePendingButton } :=
  ⟨rfl, rfl, rfl, rfl, rfl, rfl⟩

/-- The chain does not depend on the gate. -/
theorem SameChain.gated (c : Controller F) (hs : HsState) (knownClient subscribed focus : Bool)
    (sensitivity : F) (prefixes : PrefixTable) :
    SameChain c { c with hs, knownClient, subscribed, focus, sensitivity, prefixes } :=
  ⟨⟨rfl, rfl, rfl⟩, ⟨rfl, rfl, rfl⟩, ⟨rfl, rfl⟩, ⟨rfl, rfl, rfl, rfl, rfl⟩⟩

theorem SameChain.refl (c : Controller F) : SameChain c c := .gated ..

/-- `c` waits for the answer to `r`, and `r` is what its step asks. -/
structure Waits (c : Controller F) (r : Rpc D) : Prop where
  running : c.chain ≠ .none
  kind : c.step.kind = c.chain
  callId : r.callId = c.pendingCallId.str
  request : (r.kind, r.prop) = c.step.request
  uri : r.controllerUri = controllerUri

/-- The step is one of the running chain, and nothing is queued behind no chain. -/
structure Controller.Sound (c : Controller F) : Prop where
  typed : c.chain ≠ .none → c.step.kind = c.chain
  empty : c.chain = .none → c.havePendingMotion = false ∧ c.havePendingButton = false

/-- A chain was started in this call, with nothing queued behind it yet. -/
structure Starts (e : Env) (c' : Controller F) (r : Rpc D) : Prop where
  waits : Waits c' r
  first : c'.step.first
  fresh : r.callId = wampGenId e.rnd 18
  since : c'.chainStarted = e.timeStarted
  noMotion : c'.havePendingMotion = false
  noButton : c'.havePendingButton = false

/-! ## Moves -/

/-- What one call does: the controller afterwards, and the RPCs sent. -/
inductive Move (lib : CJson D) (call : Call F) (c : Controller F) :
    Controller F → List (Rpc D) → Prop
  | quiet {c' : Controller F} (unanswered : replyOf lib c call = none)
      (shut : ∀ ev, call.op = .spnav ev → ¬ c.GateOpen) (chain : SameChain c c') :
      Move lib call c c' []
  | goesOn {c' : Controller F} {reply : Reply D} {r : Rpc D}
      (answered : replyOf lib c call = some reply) (running : c.chain ≠ .none)
      (goes : reply.ends c.step = false)
      (gate : SameGate c c') (run : SameRun c c') (queue : SameQueue c c')
      (waits : Waits c' r) (later : ¬ c'.step.first) (fresh : r.callId = wampGenId call.env.rnd 18) :
      Move lib call c c' [r]
  | ended {c' : Controller F} {reply : Reply D}
      (answered : replyOf lib c call = some reply) (running : c.chain ≠ .none)
      (ends : reply.ends c.step = true) (gate : SameGate c c') (queue : SameQueue c c')
      (noMotion : c.havePendingMotion = false) (noButton : c.havePendingButton = false)
      (idle : c'.chain = .none) : Move lib call c c' []
  | restarted {c' : Controller F} {reply : Reply D} {r : Rpc D}
      (answered : replyOf lib c call = some reply) (running : c.chain ≠ .none)
      (ends : reply.ends c.step = true) (gate : SameGate c c')
      (some_ : c.havePendingButton = true ∨ c.havePendingMotion = true)
      (starts : Starts call.env c' r)
      (chain : c'.chain = if c.havePendingButton then .button else .motion)
      (active : c.havePendingButton = false → c'.activeEv = c.pendingMotion) :
      Move lib call c c' [r]
  | queued {c' : Controller F} {ev : SbEvent} (event : call.op = .spnav ev)
      (gateOpen : c.GateOpen) (running : c.chain ≠ .none) (inTime : ¬ c.TimedOut call.env)
      (gate : SameGate c c') (run : SameRun c c') (stays : SameStep c c')
      (scratch : SameScratch c c')
      (motion : ev.type = .motion → c'.pendingMotion = ev ∧ c'.havePendingMotion = true ∧
        c'.havePendingButton = c.havePendingButton)
      (button : ev.type = .button → c'.pendingMotion = c.pendingMotion ∧
        c'.havePendingMotion = c.havePendingMotion ∧ c'.havePendingButton = true) :
      Move lib call c c' []
  | started {c' : Controller F} {ev : SbEvent} {r : Rpc D} (event : call.op = .spnav ev)
      (gateOpen : c.GateOpen) (free : c.chain = .none ∨ c.TimedOut call.env)
      (gate : SameGate c c') (starts : Starts call.env c' r)
      (chain : c'.chain = if ev.type = .motion then .motion else .button)
      (active : ev.type = .motion → c'.activeEv = ev) :
      Move lib call c c' [r]

/-! ## One call makes one move -/

theorem storeFloats_ok {n : Nat} (items : List (Json D)) :
    ∀ (i : Nat) (out : Fin n → F), (storeFloats i items out).2 = items.all Json.isNumber := by
  induction items with
  | nil => intro i out; rfl
  | cons item rest ih =>
      intro i out
      cases item with
      | number d => simp [storeFloats, ih, Json.isNumber]
      | _ => simp [storeFloats, Json.isNumber]

/-- `json_to_floats` succeeds on exactly the values that hold `n` numbers. -/
theorem jsonToFloats_ok {n : Nat} (value : Option (Json D)) (out : Fin n → F) :
    (jsonToFloats value out).2 = holdsNumbers n value := by
  cases value with
  | none => rfl
  | some item =>
      cases item with
      | array items =>
          by_cases short : items.length < n
          · simp [jsonToFloats, holdsNumbers, short]
          · have long : n ≤ items.length := by omega
            simp [jsonToFloats, holdsNumbers, short, long, storeFloats_ok]
      | _ => rfl

/-- An RPC of the step that is set is what the controller then waits for. -/
theorem rpc_waits (e : Env) (c : Controller F) (kind prop : CStr) (value : Option (Json D))
    (running : c.chain ≠ .none) (typed : c.step.kind = c.chain)
    (request : (kind, prop) = c.step.request) :
    ∃ r : Rpc D, (rpc e c kind prop value).2 = [.rpcCall r] ∧
      Waits (rpc e c kind prop value).1 r ∧ r.callId = wampGenId e.rnd 18 := by
  refine ⟨_, rfl, ⟨running, typed, ?_, request, rfl⟩, rfl⟩
  exact (CBuf.printf_of_fits (by simp)).symm

theorem startMotionChain_starts (e : Env) (c : Controller F) (ev : SbEvent)
    (noMotion : c.havePendingMotion = false) (noButton : c.havePendingButton = false) :
    ∃ r : Rpc D, (startMotionChain e c ev).2 = [.rpcCall r] ∧
      Starts e (startMotionChain (D := D) e c ev).1 r ∧
      SameGate c (startMotionChain (D := D) e c ev).1 ∧
      (startMotionChain (D := D) e c ev).1.chain = .motion ∧
      (startMotionChain (D := D) e c ev).1.activeEv = ev := by
  obtain ⟨r, sent, waits, fresh⟩ := rpc_waits (D := D) e { c with
    activeEv := ev
    chain := .motion
    step := .mstepReadExtents
    chainStarted := e.timeStarted } selfRead (.lit "model.extents") none
    (by simp) rfl rfl
  exact ⟨r, sent, ⟨waits, Or.inl rfl, fresh, rfl, noMotion, noButton⟩,
    ⟨rfl, rfl, rfl, rfl, rfl, rfl⟩, rfl, rfl⟩

theorem startButtonChain_starts (e : Env) (c : Controller F)
    (noMotion : c.havePendingMotion = false) (noButton : c.havePendingButton = false) :
    ∃ r : Rpc D, (startButtonChain e c).2 = [.rpcCall r] ∧
      Starts e (startButtonChain (D := D) e c).1 r ∧
      SameGate c (startButtonChain (D := D) e c).1 ∧
      (startButtonChain (D := D) e c).1.chain = .button := by
  obtain ⟨r, sent, waits, fresh⟩ := rpc_waits (D := D) e { c with
    chain := .button
    step := .bstepReadExtents
    chainStarted := e.timeStarted } selfRead (.lit "model.extents") none
    (by simp) rfl rfl
  exact ⟨r, sent, ⟨waits, Or.inr rfl, fresh, rfl, noMotion, noButton⟩,
    ⟨rfl, rfl, rfl, rfl, rfl, rfl⟩, rfl⟩

theorem SameGate.trans {a b c : Controller F} (ab : SameGate a b) (bc : SameGate b c) :
    SameGate a c :=
  ⟨bc.hs.trans ab.hs, bc.knownClient.trans ab.knownClient, bc.subscribed.trans ab.subscribed,
    bc.focus.trans ab.focus, bc.prefixes.trans ab.prefixes, bc.sensitivity.trans ab.sensitivity⟩

theorem chainFinished_button (e : Env) {c : Controller F} (button : c.havePendingButton = true) :
    chainFinished (D := D) e c = startButtonChain e
      { c with chain := .none, havePendingButton := false, havePendingMotion := false } :=
  if_pos button

theorem chainFinished_motion (e : Env) {c : Controller F} (noButton : c.havePendingButton = false)
    (motion : c.havePendingMotion = true) :
    chainFinished (D := D) e c = startMotionChain e
      { c with chain := .none, havePendingMotion := false } c.pendingMotion :=
  (if_neg (by simp [noButton])).trans (if_pos motion)

theorem chainFinished_idle (e : Env) {c : Controller F} (noButton : c.havePendingButton = false)
    (noMotion : c.havePendingMotion = false) :
    chainFinished (D := D) e c = ({ c with chain := .none }, []) :=
  (if_neg (by simp [noButton])).trans (if_neg (by simp [noMotion]))

/-- `chain_finished`, when the reply to a running chain ended it.  `c₀` is the
controller after the reply's numbers were stored. -/
theorem chainFinished_move {lib : CJson D} {call : Call F} {c c₀ : Controller F}
    {reply : Reply D} (answered : replyOf lib c call = some reply) (running : c.chain ≠ .none)
    (ends : reply.ends c.step = true) (carries : Carries c c₀) :
    Move lib call c (chainFinished (D := D) call.env c₀).1
      (rpcs (chainFinished (D := D) call.env c₀).2) := by
  have gate := carries.toSameGate
  have queue := carries.toSameQueue
  cases button : c₀.havePendingButton with
  | true =>
      have queued : c.havePendingButton = true := queue.havePendingButton ▸ button
      obtain ⟨r, sent, starts, gate', chain⟩ := startButtonChain_starts (D := D) call.env
        { c₀ with chain := .none, havePendingButton := false, havePendingMotion := false } rfl rfl
      rw [chainFinished_button call.env button, sent, rpcs_rpcCall]
      refine .restarted answered running ends ((gate.trans (.unqueued ..)).trans gate')
        (Or.inl queued) starts ?_ ?_
      · simpa [queued] using chain
      · simp [queued]
  | false =>
      have noButton : c.havePendingButton = false := queue.havePendingButton ▸ button
      cases motion : c₀.havePendingMotion with
      | true =>
          have queued : c.havePendingMotion = true := queue.havePendingMotion ▸ motion
          obtain ⟨r, sent, starts, gate', chain, active⟩ := startMotionChain_starts (D := D)
            call.env { c₀ with chain := .none, havePendingMotion := false } c₀.pendingMotion
            rfl button
          rw [chainFinished_motion call.env button motion, sent, rpcs_rpcCall]
          refine .restarted answered running ends ((gate.trans (.unqueued ..)).trans gate')
            (Or.inr queued) starts ?_ ?_
          · simpa [noButton] using chain
          · intro _
            exact active.trans queue.pendingMotion
      | false =>
          have noMotion : c.havePendingMotion = false := queue.havePendingMotion ▸ motion
          rw [chainFinished_idle call.env button motion, rpcs_nil]
          exact .ended answered running ends (gate.trans (.unqueued ..))
            ⟨queue.pendingMotion, queue.havePendingMotion, queue.havePendingButton⟩
            noMotion noButton rfl

/-! ### Replies -/

/-- The chain asks its next RPC. -/
theorem rpc_move {lib : CJson D} {call : Call F} {c c₀ : Controller F} {reply : Reply D}
    (answered : replyOf lib c call = some reply) (running : c.chain ≠ .none)
    (goes : reply.ends c.step = false) {kind prop : CStr} {value : Option (Json D)}
    (carries : Carries c c₀) (typed : c₀.step.kind = c.chain)
    (request : (kind, prop) = c₀.step.request) (later : ¬ c₀.step.first) :
    Move lib call c (rpc call.env c₀ kind prop value).1
      (rpcs (rpc call.env c₀ kind prop value).2) := by
  obtain ⟨r, sent, waits, fresh⟩ := rpc_waits call.env c₀ kind prop value
    (carries.chain ▸ running) (carries.chain ▸ typed) request
  rw [sent, rpcs_rpcCall]
  exact .goesOn answered running goes
    ⟨carries.hs, carries.knownClient, carries.subscribed, carries.focus, carries.prefixes,
      carries.sensitivity⟩
    ⟨carries.chain, carries.chainStarted, carries.activeEv⟩
    ⟨carries.pendingMotion, carries.havePendingMotion, carries.havePendingButton⟩
    waits later fresh

theorem advanceMotionChain_move {lib : CJson D} {call : Call F} {c : Controller F}
    {value : Option (Json D)} (answered : replyOf lib c call = some (.result value))
    (motion : c.chain = .motion) (typed : c.step.kind = .motion) :
    Move lib call c (advanceMotionChain call.env c value).1
      (rpcs (advanceMotionChain call.env c value).2) := by
  have running : c.chain ≠ .none := by simp [motion]
  cases step : c.step with
  | mstepReadExtents =>
      simp only [advanceMotionChain, step, jsonToFloats_ok]
      cases held : holdsNumbers 6 value with
      | false =>
          exact chainFinished_move answered running (by simp [Reply.ends, step, held])
            (.stored ..)
      | true =>
          exact rpc_move answered running (by simp [Reply.ends, step, held])
            (.stored ..) (by exact motion.symm) (by rfl) (by simp [ChainStep.first])
  | mstepReadPerspective =>
      simp only [advanceMotionChain, step]
      exact rpc_move answered running (by simp [Reply.ends, step])
        (.stored ..) (by exact motion.symm) (by rfl) (by simp [ChainStep.first])
  | mstepReadAffine =>
      simp only [advanceMotionChain, step, jsonToFloats_ok]
      cases held : holdsNumbers 16 value with
      | false =>
          exact chainFinished_move answered running (by simp [Reply.ends, step, held])
            (.stored ..)
      | true =>
          cases c.perspective <;>
            exact rpc_move answered running (by simp [Reply.ends, step, held])
              (.stored ..) (by exact motion.symm) (by rfl) (by simp [ChainStep.first])
  | mstepReadViewextents =>
      simp only [advanceMotionChain, step, jsonToFloats_ok]
      cases held : holdsNumbers 6 value with
      | false =>
          exact chainFinished_move answered running (by simp [Reply.ends, step, held])
            (.stored ..)
      | true =>
          exact rpc_move answered running (by simp [Reply.ends, step, held])
            (.stored ..) (by exact motion.symm) (by rfl) (by simp [ChainStep.first])
  | mstepWriteMotion =>
      simp only [advanceMotionChain, step]
      cases c.perspective <;>
        exact rpc_move answered running (by simp [Reply.ends, step])
          (.stored ..) (by exact motion.symm) (by rfl) (by simp [ChainStep.first])
  | mstepWriteViewextents =>
      simp only [advanceMotionChain, step]
      exact rpc_move answered running (by simp [Reply.ends, step])
        (.stored ..) (by exact motion.symm) (by rfl) (by simp [ChainStep.first])
  | mstepWriteAffine =>
      simp only [advanceMotionChain, step]
      exact chainFinished_move answered running (by simp [Reply.ends, step])
        (.stored ..)
  | bstepReadExtents | bstepReadFront | bstepWriteAffine | bstepWriteExtents =>
      simp [step, ChainStep.kind] at typed

theorem advanceButtonChain_move {lib : CJson D} {call : Call F} {c : Controller F}
    {value : Option (Json D)} (answered : replyOf lib c call = some (.result value))
    (button : c.chain = .button) (typed : c.step.kind = .button) :
    Move lib call c (advanceButtonChain call.env c value).1
      (rpcs (advanceButtonChain call.env c value).2) := by
  have running : c.chain ≠ .none := by simp [button]
  cases step : c.step with
  | bstepReadExtents =>
      simp only [advanceButtonChain, step, jsonToFloats_ok]
      cases held : holdsNumbers 6 value with
      | false =>
          exact chainFinished_move answered running (by simp [Reply.ends, step, held])
            (.stored ..)
      | true =>
          exact rpc_move answered running (by simp [Reply.ends, step, held])
            (.stored ..) (by exact button.symm) (by rfl) (by simp [ChainStep.first])
  | bstepReadFront =>
      simp only [advanceButtonChain, step]
      exact rpc_move answered running (by simp [Reply.ends, step])
        (.stored ..) (by exact button.symm) (by rfl) (by simp [ChainStep.first])
  | bstepWriteAffine =>
      simp only [advanceButtonChain, step]
      exact rpc_move answered running (by simp [Reply.ends, step])
        (.stored ..) (by exact button.symm) (by rfl) (by simp [ChainStep.first])
  | bstepWriteExtents =>
      simp only [advanceButtonChain, step]
      exact chainFinished_move answered running (by simp [Reply.ends, step])
        (.stored ..)
  | mstepReadExtents | mstepReadPerspective | mstepReadAffine | mstepReadViewextents
  | mstepWriteMotion | mstepWriteViewextents | mstepWriteAffine =>
      simp [step, ChainStep.kind] at typed

theorem receive_move {lib : CJson D} {call : Call F} {c : Controller F} {reply : Reply D}
    (sound : c.Sound) (answered : replyOf lib c call = some reply) (running : c.chain ≠ .none) :
    Move lib call c (receive call.env c reply).1 (rpcs (receive call.env c reply).2) := by
  have typed := sound.typed running
  cases reply with
  | error =>
      exact chainFinished_move answered running rfl (.stored ..)
  | result value =>
      cases chain : c.chain with
      | none => exact absurd chain running
      | motion =>
          simp only [receive, chain, if_true]
          exact advanceMotionChain_move answered chain (chain ▸ typed)
      | button =>
          simp only [receive, chain, reduceCtorEq, if_false]
          exact advanceButtonChain_move answered chain (chain ▸ typed)

/-! ### Messages -/

/-- A payload that answers the outstanding RPC is received as its reply. -/
theorem onMessage_matched {lib : CJson D} {e : Env} {c : Controller F} {json : List UInt8}
    {reply : Reply D} (answered : matchedReply lib c json = some reply) :
    controllerOnMessage lib e c json = ((receive e c reply).1, (receive e c reply).2, 0) := by
  cases message : messageOf (lib.parseWithLength json) with
  | none => simp [matchedReply, message] at answered
  | some typed =>
      obtain ⟨type, items⟩ := typed
      simp only [matchedReply, message] at answered
      split_ifs at answered with matched error
      · obtain ⟨-, running, same⟩ := matched
        have reply_eq := (Option.some.inj answered).symm
        simp [controllerOnMessage, message, dispatch, error, wampPrefix, wampCall, wampSubscribe,
          wampCallerror, wampCallresult, onReply, running, same, reply_eq, receive]
      · obtain ⟨result | other, running, same⟩ := matched
        · have reply_eq := (Option.some.inj answered).symm
          by_cases motion : c.chain = .motion <;>
            simp [controllerOnMessage, message, dispatch, result, wampPrefix, wampCall,
              wampSubscribe, wampCallerror, wampCallresult, onReply, running, same, reply_eq,
              receive, motion]
        · exact absurd other error

/-- A call that carries a reply to the outstanding RPC is received as that reply. -/
theorem controllerStep_of_reply {lib : CJson D} {c : Controller F} {call : Call F}
    {reply : Reply D} (answered : replyOf lib c call = some reply) :
    controllerStep lib c call = ((receive call.env c reply).1, ⟨0, (receive call.env c reply).2⟩) := by
  cases op : call.op with
  | message json =>
      simp only [replyOf, op] at answered
      simp only [controllerStep, op, onMessage_matched answered]
  | spnav ev => simp [replyOf, op] at answered
  | setSensitivity s => simp [replyOf, op] at answered

theorem onPrefix_sameChain (c : Controller F) (items : List (Json D)) :
    SameChain c (onPrefix c items) := by
  unfold onPrefix
  split
  · split
    · exact .gated ..
    · exact .refl c
  · exact .refl c

theorem onSubscribe_sameChain (c : Controller F) (items : List (Json D)) :
    SameChain c (onSubscribe c items) := by
  unfold onSubscribe
  split
  · split
    · exact .gated ..
    · exact .refl c
  · exact .refl c

/-- A CALL never touches the chain, and is answered with a result, an error or nothing. -/
theorem onCall_quiet (c : Controller F) (items : List (Json D)) :
    SameChain c (onCall c items).1 ∧ rpcs (onCall c items).2.1 = [] := by
  unfold onCall
  split
  · split
    · unfold onCreateMouse
      split
      · exact ⟨.gated .., rfl⟩
      · exact ⟨.refl c, rfl⟩
    · unfold onCreateController
      split
      · exact ⟨.gated .., rfl⟩
      · exact ⟨.refl c, rfl⟩
    · unfold onReadyCall
      split
      · exact ⟨.gated .., rfl⟩
      · exact ⟨.refl c, rfl⟩
  · exact ⟨.refl c, rfl⟩

/-- A payload that is no reply to the outstanding RPC leaves the chain alone. -/
theorem onMessage_unmatched {lib : CJson D} {e : Env} {c : Controller F} {json : List UInt8}
    (unanswered : matchedReply lib c json = none) :
    SameChain c (controllerOnMessage lib e c json).1 ∧
      rpcs (controllerOnMessage lib e c json).2.1 = [] := by
  unfold controllerOnMessage
  cases message : messageOf (lib.parseWithLength json) with
  | none => exact ⟨.refl c, rfl⟩
  | some typed =>
      obtain ⟨type, items⟩ := typed
      simp only [matchedReply, message] at unanswered
      simp only [dispatch]
      split_ifs with register call subscribe reply
      · exact ⟨onPrefix_sameChain c items, rfl⟩
      · exact onCall_quiet c items
      · exact ⟨onSubscribe_sameChain c items, rfl⟩
      · have other : ¬ (c.chain ≠ .none ∧ jsonStr items 1 = some c.pendingCallId.str) := by
          intro matched
          simp [reply, matched] at unanswered
        simp only [onReply, if_neg other]
        exact ⟨.refl c, rfl⟩
      · exact ⟨.refl c, rfl⟩

/-! ### Device events -/

/-- The timeout test, and what is abandoned when it fires. -/
def afterTimeout (e : Env) (c : Controller F) : Controller F :=
  if c.chain ≠ .none ∧ e.timeChecked - c.chainStarted ≥ chainTimeout then
    { c with chain := .none, havePendingMotion := false, havePendingButton := false }
  else c

theorem controllerOnSpnavEvent_shut {e : Env} {c : Controller F} {ev : SbEvent}
    (shut : ¬ c.GateOpen) : controllerOnSpnavEvent (D := D) e c ev = (c, []) := by
  unfold controllerOnSpnavEvent
  apply if_pos
  by_contra gate
  simp only [Bool.not_eq_true', not_or, Decidable.not_not, Bool.not_eq_false] at gate
  exact shut ⟨gate.1, gate.2.1, gate.2.2.1, gate.2.2.2⟩

theorem controllerOnSpnavEvent_open {e : Env} {c : Controller F} {ev : SbEvent}
    (gate : c.GateOpen) :
    controllerOnSpnavEvent (D := D) e c ev =
      if (afterTimeout e c).chain ≠ .none then
        if ev.type = .motion then
          ({ afterTimeout e c with pendingMotion := ev, havePendingMotion := true }, [])
        else ({ afterTimeout e c with havePendingButton := true }, [])
      else if ev.type = .motion then startMotionChain e (afterTimeout e c) ev
      else startButtonChain e (afterTimeout e c) := by
  unfold controllerOnSpnavEvent
  apply if_neg
  simp [gate.1, gate.2.1, gate.2.2.1, gate.2.2.2]

/-- An event that finds no chain to wait for starts one. -/
theorem started_move {lib : CJson D} {call : Call F} {c c₀ : Controller F} {ev : SbEvent}
    (event : call.op = .spnav ev) (gate : c.GateOpen)
    (free : c.chain = .none ∨ c.TimedOut call.env) (same : SameGate c c₀)
    (noMotion : c₀.havePendingMotion = false) (noButton : c₀.havePendingButton = false) :
    Move lib call c
      (if ev.type = .motion then startMotionChain (D := D) call.env c₀ ev
        else startButtonChain call.env c₀).1
      (rpcs (if ev.type = .motion then startMotionChain (D := D) call.env c₀ ev
        else startButtonChain call.env c₀).2) := by
  by_cases motion : ev.type = .motion
  · obtain ⟨r, sent, starts, gate', chain, active⟩ :=
      startMotionChain_starts (D := D) call.env c₀ ev noMotion noButton
    rw [if_pos motion, sent, rpcs_rpcCall]
    exact .started event gate free (same.trans gate') starts (by simpa [motion] using chain)
      (fun _ => active)
  · obtain ⟨r, sent, starts, gate', chain⟩ :=
      startButtonChain_starts (D := D) call.env c₀ noMotion noButton
    rw [if_neg motion, sent, rpcs_rpcCall]
    exact .started event gate free (same.trans gate') starts (by simpa [motion] using chain)
      (fun motion' => absurd motion' motion)

theorem spnav_move {lib : CJson D} {call : Call F} {c : Controller F} {ev : SbEvent}
    (sound : c.Sound) (event : call.op = .spnav ev) :
    Move lib call c (controllerOnSpnavEvent (D := D) call.env c ev).1
      (rpcs (controllerOnSpnavEvent (D := D) call.env c ev).2) := by
  by_cases gate : c.GateOpen
  · rw [controllerOnSpnavEvent_open gate]
    by_cases timeout : c.TimedOut call.env
    · have reset : afterTimeout call.env c =
          { c with chain := .none, havePendingMotion := false, havePendingButton := false } :=
        if_pos timeout
      rw [reset, if_neg (by simp)]
      exact started_move event gate (Or.inr timeout) (.unqueued ..) rfl rfl
    · have kept : afterTimeout call.env c = c := if_neg timeout
      rw [kept]
      by_cases idle : c.chain = .none
      · rw [if_neg (by simpa using idle)]
        obtain ⟨noMotion, noButton⟩ := sound.empty idle
        exact started_move event gate (Or.inl idle) (.unqueued ..) noMotion noButton
      · rw [if_pos idle]
        cases type : ev.type with
        | motion =>
            exact .queued event gate idle timeout ⟨rfl, rfl, rfl, rfl, rfl, rfl⟩
              ⟨rfl, rfl, rfl⟩ ⟨rfl, rfl⟩ ⟨rfl, rfl, rfl, rfl, rfl⟩
              (fun _ => ⟨rfl, rfl, rfl⟩) (fun button => by simp [type] at button)
        | button =>
            exact .queued event gate idle timeout ⟨rfl, rfl, rfl, rfl, rfl, rfl⟩
              ⟨rfl, rfl, rfl⟩ ⟨rfl, rfl⟩ ⟨rfl, rfl, rfl, rfl, rfl⟩
              (fun motion => by simp [type] at motion) (fun _ => ⟨rfl, rfl, rfl⟩)
  · rw [controllerOnSpnavEvent_shut gate]
    exact .quiet (by simp [replyOf, event]) (fun _ _ => gate) (.refl c)

theorem controllerSetSensitivity_sameChain (c : Controller F) (sensitivity : F) :
    SameChain c (controllerSetSensitivity c sensitivity).1 := by
  unfold controllerSetSensitivity
  split
  · exact .refl c
  · exact .gated ..

/-- **One call makes one move.** -/
theorem controllerStep_move (lib : CJson D) (call : Call F) {c : Controller F} (sound : c.Sound) :
    Move lib call c (controllerStep lib c call).1 (rpcs (controllerStep lib c call).2.sent) := by
  cases op : call.op with
  | message json =>
      simp only [controllerStep, op]
      cases answered : matchedReply lib c json with
      | none =>
          obtain ⟨chain, sent⟩ := onMessage_unmatched (e := call.env) answered
          rw [sent]
          exact .quiet (by simp [replyOf, op, answered]) (by simp [op]) chain
      | some reply =>
          rw [onMessage_matched answered]
          have running : c.chain ≠ .none := by
            unfold matchedReply at answered
            split at answered
            · split_ifs at answered with matched <;> exact matched.2.1
            · cases answered
          exact receive_move sound (by simp [replyOf, op, answered]) running
  | spnav ev =>
      simp only [controllerStep, op]
      exact spnav_move sound op
  | setSensitivity sensitivity =>
      simp only [controllerStep, op, rpcs_nil]
      exact .quiet (by simp [replyOf, op]) (by simp [op])
        (controllerSetSensitivity_sameChain c sensitivity)

/-! ## Soundness -/

/-- Moves keep the controller sound. -/
theorem Move.sound {lib : CJson D} {call : Call F} {c c' : Controller F} {sent : List (Rpc D)}
    (move : Move lib call c c' sent) (sound : c.Sound) : c'.Sound := by
  cases move with
  | quiet _ _ chain =>
      constructor
      · rw [chain.chain, chain.step]
        exact sound.typed
      · rw [chain.chain, chain.havePendingMotion, chain.havePendingButton]
        exact sound.empty
  | goesOn _ _ _ _ _ _ waits =>
      exact ⟨fun _ => waits.kind, fun idle => absurd idle waits.running⟩
  | ended _ _ _ _ queue noMotion noButton idle =>
      refine ⟨fun running => absurd idle running, fun _ => ?_⟩
      rw [queue.havePendingMotion, queue.havePendingButton]
      exact ⟨noMotion, noButton⟩
  | restarted _ _ _ _ _ starts =>
      exact ⟨fun _ => starts.waits.kind, fun idle => absurd idle starts.waits.running⟩
  | queued _ _ running _ _ run stays =>
      constructor
      · rw [run.chain, stays.step]
        exact sound.typed
      · rw [run.chain]
        intro idle
        exact absurd idle running
  | started _ _ _ _ starts =>
      exact ⟨fun _ => starts.waits.kind, fun idle => absurd idle starts.waits.running⟩

/-- Every controller of a run is sound. -/
theorem sound_after (lib : CJson D) (e : Env) (calls : List (Call F)) :
    ((controllerMachine lib e).after calls).Sound := by
  refine (controllerMachine lib e).invariant (I := fun _ c => c.Sound) ?_ ?_ calls
  · exact ⟨fun running => absurd rfl running, fun _ => ⟨rfl, rfl⟩⟩
  · intro past call sound
    exact (controllerStep_move lib call sound).sound sound

/-- The RPCs sent in answer to `call`, given after the calls `past`. -/
def rpcsSent (lib : CJson D) (e : Env) (past : List (Call F)) (call : Call F) : List (Rpc D) :=
  rpcs ((controllerMachine lib e).answer past call).sent

/-- The move made by the last call of a run. -/
theorem run_move (lib : CJson D) (e : Env) (past : List (Call F)) (call : Call F) :
    Move lib call ((controllerMachine lib e).after past)
      ((controllerMachine lib e).after (past ++ [call])) (rpcsSent lib e past call) := by
  rw [Machine.after_snoc]
  exact controllerStep_move lib call (sound_after lib e past)

end SpnavBridge.Kernel
