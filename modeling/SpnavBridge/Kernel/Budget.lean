/-
# Kernel.Budget -- how much a device event can set off

A chain asks its next RPC when the one before is answered, so what a client sends makes the
controller send more.  It cannot go on for ever: a motion pays for seven RPCs, a button for
four, and what is queued behind a chain was paid for when it arrived.

* `rpc_budget`: no run sends more RPCs than its device events pay for.
* `settles`: behind the last of them the client has to answer fourteen RPCs at most.
-/
import SpnavBridge.Kernel.Coalescing
import SpnavBridge.Kernel.Outstanding
import SpnavBridge.Theory.Accounts

namespace SpnavBridge.Kernel

open SpnavBridge.Theory SpnavBridge.Wire

set_option autoImplicit false
set_option linter.unusedSectionVars false

variable {D F : Type} [CFloat F] [CDouble D F]

/-! ## What is left to do -/

/-- How many answers a chain takes from a step on, if nothing ends it early. -/
def ChainStep.left : ChainStep → Nat
  | .mstepReadExtents => 7
  | .mstepReadPerspective => 6
  | .mstepReadAffine => 5
  | .mstepReadViewextents => 4
  | .mstepWriteMotion => 3
  | .mstepWriteViewextents => 2
  | .mstepWriteAffine => 1
  | .bstepReadExtents => 4
  | .bstepReadFront => 3
  | .bstepWriteAffine => 2
  | .bstepWriteExtents => 1

theorem ChainStep.left_pos (step : ChainStep) : 0 < step.left := by
  cases step <;> decide

/-- The RPCs of a whole chain for an event. -/
def price : SbEventType → Nat
  | .motion => 7
  | .button => 4

theorem left_of_first {step : ChainStep} (first : step.first) {type : SbEventType}
    (kind : step.kind = match type with | .motion => .motion | .button => .button) :
    step.left = price type := by
  rcases first with rfl | rfl <;> cases type <;> first | rfl | cases kind

/-- What the queued events will take.  A view reset supersedes a motion. -/
def Controller.queuedPrice (c : Controller F) : Nat :=
  if c.havePendingButton then price .button else if c.havePendingMotion then price .motion else 0

/-- The answers the controller waits for, now and later, if no more events come. -/
def Controller.owing (c : Controller F) : Nat :=
  (if c.chain = .none then 0 else c.step.left) + c.queuedPrice

/-- The RPCs it will send yet: the one it waits for is sent. -/
def Controller.unsent (c : Controller F) : Nat :=
  (if c.chain = .none then 0 else c.step.left - 1) + c.queuedPrice

theorem queuedPrice_le (c : Controller F) : c.queuedPrice ≤ 7 := by
  unfold Controller.queuedPrice
  split_ifs <;> decide

theorem owing_le (c : Controller F) : c.owing ≤ 14 := by
  have queued := queuedPrice_le c
  have left : c.step.left ≤ 7 := by cases c.step <;> decide
  unfold Controller.owing
  split_ifs <;> omega

/-- Nothing is owing where no chain runs, and only there. -/
theorem owing_eq_zero {c : Controller F} (sound : c.Sound) : c.owing = 0 ↔ c.chain = .none := by
  constructor
  · intro none_
    by_contra running
    have left := c.step.left_pos
    rw [Controller.owing, if_neg running] at none_
    omega
  · intro idle
    obtain ⟨noMotion, noButton⟩ := sound.empty idle
    simp [Controller.owing, Controller.queuedPrice, idle, noMotion, noButton]

/-! ## Steps go on -/

section Steps

variable {e : Env} {c : Controller F} {value : Option (Json D)}

theorem advanceMotionChain_left (typed : c.step.kind = .motion)
    (goes : (Reply.result value).ends c.step = false) :
    (advanceMotionChain e c value).1.step.left < c.step.left := by
  cases step : c.step with
  | mstepReadExtents =>
      have held : holdsNumbers 6 value = true := by simpa [Reply.ends, step] using goes
      simp [advanceMotionChain, step, jsonToFloats_ok, held, rpcRead, rpc, ChainStep.left]
  | mstepReadPerspective => simp [advanceMotionChain, step, rpcRead, rpc, ChainStep.left]
  | mstepReadAffine =>
      have held : holdsNumbers 16 value = true := by simpa [Reply.ends, step] using goes
      cases perspective : c.perspective <;>
        simp [advanceMotionChain, step, jsonToFloats_ok, held, perspective, rpcRead, rpcWrite, rpc,
          ChainStep.left]
  | mstepReadViewextents =>
      have held : holdsNumbers 6 value = true := by simpa [Reply.ends, step] using goes
      simp [advanceMotionChain, step, jsonToFloats_ok, held, rpcWrite, rpc, ChainStep.left]
  | mstepWriteMotion =>
      cases perspective : c.perspective <;>
        simp [advanceMotionChain, step, perspective, rpcWrite, rpc, ChainStep.left]
  | mstepWriteViewextents => simp [advanceMotionChain, step, rpcWrite, rpc, ChainStep.left]
  | mstepWriteAffine => simp [Reply.ends, step] at goes
  | bstepReadExtents | bstepReadFront | bstepWriteAffine | bstepWriteExtents =>
      simp [step, ChainStep.kind] at typed

theorem advanceButtonChain_left (typed : c.step.kind = .button)
    (goes : (Reply.result value).ends c.step = false) :
    (advanceButtonChain e c value).1.step.left < c.step.left := by
  cases step : c.step with
  | bstepReadExtents =>
      have held : holdsNumbers 6 value = true := by simpa [Reply.ends, step] using goes
      simp [advanceButtonChain, step, jsonToFloats_ok, held, rpcRead, rpc, ChainStep.left]
  | bstepReadFront => simp [advanceButtonChain, step, rpcWrite, rpc, ChainStep.left]
  | bstepWriteAffine => simp [advanceButtonChain, step, rpcWrite, rpc, ChainStep.left]
  | bstepWriteExtents => simp [Reply.ends, step] at goes
  | mstepReadExtents | mstepReadPerspective | mstepReadAffine | mstepReadViewextents
  | mstepWriteMotion | mstepWriteViewextents | mstepWriteAffine =>
      simp [step, ChainStep.kind] at typed

/-- **A reply that does not end the chain takes it further.** -/
theorem receive_left {reply : Reply D} (sound : c.Sound) (running : c.chain ≠ .none)
    (goes : reply.ends c.step = false) : (receive e c reply).1.step.left < c.step.left := by
  have typed := sound.typed running
  cases reply with
  | error => cases goes
  | result value =>
      cases chain : c.chain with
      | none => exact absurd chain running
      | motion =>
          simp only [receive, chain, if_true]
          exact advanceMotionChain_left (typed.trans chain) goes
      | button =>
          simp only [receive, chain, reduceCtorEq, if_false]
          exact advanceButtonChain_left (typed.trans chain) goes

end Steps

/-! ## One call -/

/-- The RPCs that the event of a call pays for, where the gate is open. -/
def Controller.paidFor (c : Controller F) (call : Call F) : Nat :=
  match call.event? with
  | some ev => if c.GateOpen then price ev.type else 0
  | none => 0

/-- Whether the call answers the outstanding RPC. -/
def Controller.counted (lib : CJson D) (c : Controller F) (call : Call F) : Nat :=
  if (replyOf lib c call).isSome then 1 else 0

section Call

variable {lib : CJson D} {c c' : Controller F} {call : Call F}

theorem counted_of_reply {reply : Reply D} (answered : replyOf lib c call = some reply) :
    c.counted lib call = 1 := by
  rw [Controller.counted, answered]
  rfl

theorem counted_of_event {ev : SbEvent} (event : call.op = .spnav ev) : c.counted lib call = 0 := by
  simp [Controller.counted, replyOf, event]

theorem paidFor_of_event {ev : SbEvent} (event : call.op = .spnav ev) (gateOpen : c.GateOpen) :
    c.paidFor call = price ev.type := by
  rw [Controller.paidFor, Call.event?_eq_some.mpr event]
  exact if_pos gateOpen

theorem SameChain.prices (same : SameChain c c') :
    c'.owing = c.owing ∧ c'.unsent = c.unsent := by
  simp [Controller.owing, Controller.unsent, Controller.queuedPrice, same.chain, same.step,
    same.havePendingButton, same.havePendingMotion]

theorem SameQueue.price (same : SameQueue c c') : c'.queuedPrice = c.queuedPrice := by
  rw [Controller.queuedPrice, same.havePendingButton, same.havePendingMotion, Controller.queuedPrice]

/-- A chain that was just started has asked for nothing but the model extents. -/
theorem Starts.prices {r : Rpc D} {type : SbEventType} (starts : Starts call.env c' r)
    (chain : c'.chain = match type with | .motion => .motion | .button => .button) :
    c'.owing = price type ∧ c'.unsent = price type - 1 := by
  have left : c'.step.left = price type :=
    left_of_first starts.first (starts.waits.kind.trans chain)
  simp [Controller.owing, Controller.unsent, Controller.queuedPrice, starts.waits.running, left,
    starts.noButton, starts.noMotion]

/-- What an event that is queued adds to what is queued already. -/
theorem queuedPrice_of_queued {type : SbEventType}
    (motion : type = .motion →
      c'.havePendingMotion = true ∧ c'.havePendingButton = c.havePendingButton)
    (button : type = .button →
      c'.havePendingMotion = c.havePendingMotion ∧ c'.havePendingButton = true) :
    c'.queuedPrice ≤ c.queuedPrice + price type := by
  cases type with
  | motion =>
      obtain ⟨motion_, button_⟩ := motion rfl
      rw [Controller.queuedPrice, Controller.queuedPrice, motion_, button_]
      cases c.havePendingButton <;> simp
  | button =>
      obtain ⟨-, button_⟩ := button rfl
      rw [Controller.queuedPrice, button_, if_pos rfl]
      exact Nat.le_add_left _ _

/-- **One call is paid for**, by its event or by what was left to do. -/
theorem Move.paid {sent : List (Rpc D)} (move : Move lib call c c' sent) (sound : c.Sound)
    (after : (controllerStep lib c call).1 = c') :
    sent.length + c'.unsent ≤ c.unsent + c.paidFor call ∧
      c.counted lib call + c'.owing ≤ c.owing + c.paidFor call := by
  cases move with
  | quiet unanswered shut chain =>
      obtain ⟨owing, unsent⟩ := chain.prices
      have none_ : c.counted lib call = 0 := by simp [Controller.counted, unanswered]
      rw [owing, unsent, none_, List.length_nil]
      omega
  | goesOn answered running goes gate run queue waits =>
      have further : c'.step.left < c.step.left := by
        rw [← after, controllerStep_of_reply answered]
        exact receive_left sound running goes
      have left := c'.step.left_pos
      have queued := queue.price
      simp only [counted_of_reply answered, List.length_singleton, Controller.owing,
        Controller.unsent, if_neg waits.running, if_neg running]
      omega
  | ended answered running ends gate queue noMotion noButton idle =>
      have queued := queue.price
      have left := c.step.left_pos
      simp only [counted_of_reply answered, List.length_nil, Controller.owing, Controller.unsent,
        if_pos idle, if_neg running]
      omega
  | restarted answered running ends gate some_ starts chain active =>
      have left := c.step.left_pos
      have paid : ∃ type, c.queuedPrice = price type ∧ c'.owing = price type ∧
          c'.unsent = price type - 1 := by
        cases button : c.havePendingButton with
        | true =>
            refine ⟨.button, by simp [Controller.queuedPrice, button], starts.prices ?_⟩
            rw [chain, button]
            rfl
        | false =>
            have motion : c.havePendingMotion = true := by simpa [button] using some_
            refine ⟨.motion, by simp [Controller.queuedPrice, button, motion], starts.prices ?_⟩
            rw [chain, button]
            rfl
      obtain ⟨type, queued, owing, unsent⟩ := paid
      have some_ : 0 < price type := by cases type <;> decide
      rw [counted_of_reply answered, List.length_singleton, owing, unsent, Controller.owing,
        Controller.unsent, if_neg running, if_neg running]
      omega
  | queued event gateOpen running inTime gate run stays scratch motion button =>
      have queued : c'.queuedPrice ≤ c.queuedPrice + price _ :=
        queuedPrice_of_queued (fun is => (motion is).2) (fun is => (button is).2)
      rw [paidFor_of_event event gateOpen, counted_of_event event, List.length_nil,
        Controller.owing, Controller.owing, Controller.unsent, Controller.unsent, run.chain,
        stays.step]
      omega
  | @started ev r event gateOpen free gate starts chain active =>
      have prices : c'.owing = price ev.type ∧ c'.unsent = price ev.type - 1 := by
        refine starts.prices ?_
        rw [chain]
        cases ev.type <;> rfl
      have some_ : 0 < price ev.type := by cases ev.type <;> decide
      rw [paidFor_of_event event gateOpen, counted_of_event event, prices.1, prices.2,
        List.length_singleton]
      omega

end Call

/-! ## Runs -/

section Run

variable (lib : CJson D) (e : Env)

/-- The RPCs that the device events of a run pay for, behind `past`. -/
def paidIn (past rest : List (Call F)) : Nat :=
  total (fun calls call => ((controllerMachine lib e).after (past ++ calls)).paidFor call) rest

/-- The answers in a run that count, behind `past`. -/
def countedIn (past rest : List (Call F)) : Nat :=
  total (fun calls call => ((controllerMachine lib e).after (past ++ calls)).counted lib call) rest

theorem length_sentRpcs (calls : List (Call F)) :
    (sentRpcs lib e calls).length =
      total (fun past call => (rpcsSent lib e past call).length) calls := by
  induction calls using List.reverseRecOn with
  | nil => rfl
  | append_singleton past call ih => rw [sentRpcs_snoc, List.length_append, total_snoc, ih]

theorem move_paid (past : List (Call F)) (call : Call F) :
    (rpcsSent lib e past call).length + ((controllerMachine lib e).after (past ++ [call])).unsent ≤
        ((controllerMachine lib e).after past).unsent +
          ((controllerMachine lib e).after past).paidFor call ∧
      ((controllerMachine lib e).after past).counted lib call +
          ((controllerMachine lib e).after (past ++ [call])).owing ≤
        ((controllerMachine lib e).after past).owing +
          ((controllerMachine lib e).after past).paidFor call :=
  (run_move lib e past call).paid (sound_after lib e past)
    (Machine.after_snoc (controllerMachine lib e) past call).symm

/-- **No more RPCs than the device events pay for**, and those that are still to come are paid
for, too. -/
theorem rpc_budget (calls : List (Call F)) :
    (sentRpcs lib e calls).length + ((controllerMachine lib e).after calls).unsent ≤
      paidIn lib e [] calls := by
  have paid := Machine.paid (m := controllerMachine lib e)
    (fun past call => (move_paid lib e past call).1) [] calls
  have fresh : ((controllerMachine lib e).after ([] : List (Call F))).unsent = 0 := rfl
  rw [fresh, Nat.zero_add] at paid
  rw [length_sentRpcs]
  exact paid

/-- **The controller settles.**  From any point of a run on, every answer that counts leaves
less to be answered; only device events make it more. -/
theorem settles (past rest : List (Call F)) :
    countedIn lib e past rest + ((controllerMachine lib e).after (past ++ rest)).owing ≤
      14 + paidIn lib e past rest ∧
    (((controllerMachine lib e).after (past ++ rest)).owing = 0 ↔
      ((controllerMachine lib e).after (past ++ rest)).chain = .none) := by
  refine ⟨?_, owing_eq_zero (sound_after lib e _)⟩
  have paid := Machine.paid (m := controllerMachine lib e)
    (fun past call => (move_paid lib e past call).2) past rest
  have most := owing_le ((controllerMachine lib e).after past)
  exact paid.trans (Nat.add_le_add_right most _)

end Run

end SpnavBridge.Kernel
