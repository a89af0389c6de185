/-
# Kernel.Coalescing -- what a chain finds queued behind it

While a chain runs, device events go into one flag and one slot.  Read as a history the
queue says: was any of the events since the start a button, was any a motion, and which
motion was the last (`Queued`).  When the chain ends, that decides what comes next
(`coalesces`), and since a start leaves the queue empty no event is served twice
(`served_once`).

Calls are named here by their position in the run: `ChainSpan calls s j` is a chain that
call `s` started and call `j` ended.
-/
import SpnavBridge.Kernel.Focus

namespace SpnavBridge.Kernel

open SpnavBridge.Theory SpnavBridge.Wire

set_option autoImplicit false
set_option linter.unusedSectionVars false

variable {D F : Type} [CFloat F] [CDouble D F]

/-! ## Events and chains of a run -/

def Call.event? (call : Call F) : Option SbEvent :=
  match call.op with
  | .spnav ev => some ev
  | _ => none

theorem Call.event?_eq_some {call : Call F} {ev : SbEvent} :
    call.event? = some ev ↔ call.op = .spnav ev := by
  unfold Call.event?
  cases call.op <;> simp

/-- The device event that call `k` delivers. -/
def eventAt (calls : List (Call F)) (k : Nat) : Option SbEvent := calls[k]?.bind Call.event?

/-- The device events that arrive after call `s` and before call `j`, oldest first. -/
def eventsBetween (calls : List (Call F)) (s j : Nat) : List SbEvent :=
  ((calls.take j).drop (s + 1)).filterMap Call.event?

section Run

variable (lib : CJson D) (e : Env) (calls : List (Call F))

/-- The controller that call `k` finds. -/
def before (k : Nat) : Controller F := (controllerMachine lib e).after (calls.take k)

/-- Call `k` starts a chain. -/
def StartsAt (k : Nat) : Prop :=
  ∃ call, calls[k]? = some call ∧ StartsChain lib e (calls.take k) call

/-- Call `k` carries the reply that ends the running chain. -/
def EndsAt (k : Nat) : Prop :=
  ∃ call reply, calls[k]? = some call ∧ replyOf lib (before lib e calls k) call = some reply ∧
    reply.ends (before lib e calls k).step = true

instance (k : Nat) : Decidable (StartsAt lib e calls k) :=
  decidable_of_iff (∃ call ∈ calls[k]?, StartsChain lib e (calls.take k) call) Iff.rfl

instance (k : Nat) : Decidable (EndsAt lib e calls k) :=
  decidable_of_iff (∃ call ∈ calls[k]?, ∃ reply ∈ replyOf lib (before lib e calls k) call,
    reply.ends (before lib e calls k).step = true) <| by
    simp [EndsAt]

/-- A chain that call `s` starts and call `j` ends.  The events between find the gate open
and the chain in time. -/
structure ChainSpan (s j : Nat) : Prop where
  order : s < j
  starts : StartsAt lib e calls s
  ends : EndsAt lib e calls j
  runs : ∀ k, s < k → k < j → ¬ EndsAt lib e calls k
  calm : ∀ k call ev, s < k → k < j → calls[k]? = some call → call.op = .spnav ev →
    (before lib e calls k).GateOpen ∧ ¬ (before lib e calls k).TimedOut call.env

/-- What the end of a chain at call `j` makes of the events that arrived meanwhile. -/
structure Coalesces (s j : Nat) : Prop where
  next : StartsAt lib e calls j ↔ eventsBetween calls s j ≠ []
  idle : eventsBetween calls s j = [] → (before lib e calls (j + 1)).chain = .none
  button : (∃ ev ∈ eventsBetween calls s j, ev.type = .button) →
    (before lib e calls (j + 1)).chain = .button
  motion : eventsBetween calls s j ≠ [] → (∀ ev ∈ eventsBetween calls s j, ev.type = .motion) →
    (before lib e calls (j + 1)).chain = .motion ∧
      (eventsBetween calls s j).getLast? = some (before lib e calls (j + 1)).activeEv
  empty : (before lib e calls (j + 1)).havePendingMotion = false ∧
    (before lib e calls (j + 1)).havePendingButton = false

/-- The chain that call `j` starts serves the event of call `i`: it is that event, or it
was queued, and is a button event or, without buttons, the last motion. -/
def Serves (i j : Nat) : Prop :=
  (i = j ∧ StartsAt lib e calls j ∧ ∃ ev, eventAt calls j = some ev) ∨
  ∃ s ev, ChainSpan lib e calls s j ∧ s < i ∧ i < j ∧ eventAt calls i = some ev ∧
    (ev.type = .button ∨
      (∀ queued ∈ eventsBetween calls s j, queued.type = .motion) ∧
        ∀ k, i < k → k < j → eventAt calls k = none)

end Run

/-! ## The queue as a history -/

/-- A running chain with the events `evs` behind it. -/
structure Queued (c : Controller F) (evs : List SbEvent) : Prop where
  running : c.chain ≠ .none
  button : c.havePendingButton = evs.any (·.type = .button)
  motion : c.havePendingMotion = evs.any (·.type = .motion)
  slot : ∀ ev, (evs.filter (·.type = .motion)).getLast? = some ev → c.pendingMotion = ev

theorem SbEvent.button_or_motion (ev : SbEvent) : ev.type = .motion ∨ ev.type = .button := by
  cases ev.type <;> simp

/-- An event that comes while the chain runs is added to the queue. -/
theorem Queued.snoc {c c' : Controller F} {evs : List SbEvent} {ev : SbEvent}
    (queued : Queued c evs) (run : SameRun c c')
    (motion : ev.type = .motion → c'.pendingMotion = ev ∧ c'.havePendingMotion = true ∧
      c'.havePendingButton = c.havePendingButton)
    (button : ev.type = .button → c'.pendingMotion = c.pendingMotion ∧
      c'.havePendingMotion = c.havePendingMotion ∧ c'.havePendingButton = true) :
    Queued c' (evs ++ [ev]) := by
  have running : c'.chain ≠ .none := run.chain ▸ queued.running
  rcases ev.button_or_motion with type | type
  · obtain ⟨slot, flag, other⟩ := motion type
    refine ⟨running, ?_, ?_, ?_⟩
    · simp [other, queued.button, type]
    · simp [flag, type]
    · simp [slot, type]
  · obtain ⟨slot, other, flag⟩ := button type
    refine ⟨running, ?_, ?_, ?_⟩
    · simp [flag, type]
    · simp [other, queued.motion, type]
    · intro ev' last
      rw [slot]
      exact queued.slot ev' (by simpa [type] using last)

theorem Queued.of_same {c c' : Controller F} {evs : List SbEvent} (queued : Queued c evs)
    (run : SameRun c c') (queue : SameQueue c c') : Queued c' evs where
  running := run.chain ▸ queued.running
  button := queue.havePendingButton.trans queued.button
  motion := queue.havePendingMotion.trans queued.motion
  slot ev last := queue.pendingMotion.trans (queued.slot ev last)

section Run

variable {lib : CJson D} {e : Env} {calls : List (Call F)}

theorem eventsBetween_start (s : Nat) : eventsBetween calls s (s + 1) = [] := by
  simp [eventsBetween]

theorem eventsBetween_succ {s k : Nat} {call : Call F} (at_ : calls[k]? = some call) (lt : s < k) :
    eventsBetween calls s (k + 1) = eventsBetween calls s k ++ call.event?.toList := by
  have long : s + 1 ≤ (calls.take k).length := by
    have := (List.getElem?_eq_some_iff.mp at_).1
    simp only [List.length_take]
    omega
  rw [eventsBetween, take_succ_of_getElem? at_, List.drop_append_of_le_length long,
    List.filterMap_append]
  cases event : call.event? <;> simp [eventsBetween, event]

theorem before_succ {k : Nat} {call : Call F} (at_ : calls[k]? = some call) :
    before lib e calls (k + 1) = (controllerMachine lib e).after (calls.take k ++ [call]) := by
  rw [before, take_succ_of_getElem? at_]

/-- The move that call `k` makes. -/
theorem move_at (lib : CJson D) (e : Env) {k : Nat} {call : Call F}
    (at_ : calls[k]? = some call) :
    Move lib call (before lib e calls k) (before lib e calls (k + 1))
      (rpcsSent lib e (calls.take k) call) := by
  rw [before_succ at_]
  exact run_move lib e (calls.take k) call

/-- A start leaves nothing queued. -/
theorem queued_of_starts {s : Nat} (starts : StartsAt lib e calls s) :
    Queued (before lib e calls (s + 1)) [] := by
  obtain ⟨call, at_, r, sent, opens⟩ := starts
  obtain ⟨-, fresh, -, -⟩ := (move_at lib e at_).of_opens sent opens
  exact ⟨fresh.waits.running, fresh.noButton, fresh.noMotion, by simp⟩

/-- One call between the start of a chain and its end. -/
theorem queued_step {s j k : Nat} (span : ChainSpan lib e calls s j) (after : s < k) (until_ : k < j)
    (queued : Queued (before lib e calls k) (eventsBetween calls s k)) :
    Queued (before lib e calls (k + 1)) (eventsBetween calls s (k + 1)) := by
  obtain ⟨last, -, at_last, -⟩ := span.ends
  have inside : k < calls.length := by
    have := (List.getElem?_eq_some_iff.mp at_last).1
    omega
  have at_ : calls[k]? = some calls[k] := List.getElem?_eq_getElem inside
  have calm := fun ev => span.calm k calls[k] ev after until_ at_
  have goes := span.runs k after until_
  have move := move_at lib e at_
  rw [eventsBetween_succ at_ after]
  generalize rpcsSent lib e (calls.take k) calls[k] = rs at move
  have noEvent {reply : Reply D} (answered : replyOf lib (before lib e calls k) calls[k] = some reply) :
      calls[k].event?.toList = [] := by
    cases op : calls[k].op with
    | spnav ev => simp [replyOf, op] at answered
    | _ => simp [Call.event?, op]
  cases move with
  | quiet _ shut chain =>
      have none_ : calls[k].event? = none := by
        by_contra some_
        obtain ⟨ev, event⟩ := Option.ne_none_iff_exists'.mp some_
        have op := Call.event?_eq_some.mp event
        exact shut ev op (calm ev op).1
      simpa [none_] using queued.of_same chain.toSameRun chain.toSameQueue
  | goesOn answered _ _ _ run queue =>
      simpa [noEvent answered] using queued.of_same run queue
  | ended answered _ ends => exact absurd ⟨_, _, at_, answered, ends⟩ goes
  | restarted answered _ ends => exact absurd ⟨_, _, at_, answered, ends⟩ goes
  | queued event _ _ _ _ run _ _ motion button =>
      rw [Call.event?_eq_some.mpr event]
      exact queued.snoc run motion button
  | started event _ free =>
      rcases free with idle | overdue
      · exact absurd idle queued.running
      · exact absurd overdue (calm _ event).2

/-- While the chain runs, the queue is the history of the events since its start. -/
theorem queued_within {s j k : Nat} (span : ChainSpan lib e calls s j) (after : s < k)
    (until_ : k ≤ j) : Queued (before lib e calls k) (eventsBetween calls s k) := by
  induction k, after using Nat.le_induction with
  | base =>
      rw [eventsBetween_start]
      exact queued_of_starts span.starts
  | succ k after ih => exact queued_step span after (by omega) (ih (by omega))

/-! ## The end of a chain -/

theorem any_button_of_all_motion {evs : List SbEvent} (all : ∀ ev ∈ evs, ev.type = .motion) :
    evs.any (·.type = .button) = false := by
  simp only [List.any_eq_false, decide_eq_true_eq]
  intro ev mem button
  rw [all ev mem] at button
  cases button

/-- With nothing flagged there was no event. -/
theorem eq_nil_of_not_any {evs : List SbEvent} (motion : evs.any (·.type = .motion) = false)
    (button : evs.any (·.type = .button) = false) : evs = [] := by
  cases evs with
  | nil => rfl
  | cons ev rest =>
      rcases ev.button_or_motion with type | type
      · simp [type] at motion
      · simp [type] at button

/-- **What was queued decides what comes next.** -/
theorem coalesces {s j : Nat} (span : ChainSpan lib e calls s j) : Coalesces lib e calls s j := by
  have queued := queued_within span span.order le_rfl
  obtain ⟨call, reply, at_, answered, ends⟩ := span.ends
  have move := move_at lib e at_
  have starts_iff : StartsAt lib e calls j ↔
      ∃ r ∈ rpcsSent lib e (calls.take j) call, Rpc.opens r := by
    simp [StartsAt, StartsChain, at_]
  generalize rpcsSent lib e (calls.take j) call = rs at move starts_iff
  have running := queued.running
  cases move with
  | quiet unanswered => rw [unanswered] at answered; cases answered
  | goesOn answered' _ goes =>
      obtain rfl := Option.some.inj (answered.symm.trans answered')
      rw [goes] at ends
      cases ends
  | ended _ _ _ _ queue noMotion noButton idle =>
      have none_ : eventsBetween calls s j = [] :=
        eq_nil_of_not_any (queued.motion ▸ noMotion) (queued.button ▸ noButton)
      refine ⟨by simp [starts_iff, none_], fun _ => idle, by simp [none_], by simp [none_], ?_⟩
      rw [queue.havePendingMotion, queue.havePendingButton]
      exact ⟨noMotion, noButton⟩
  | restarted _ _ _ _ some_ starts chain active =>
      have events : eventsBetween calls s j ≠ [] := by
        intro none_
        simp [queued.motion, queued.button, none_] at some_
      refine ⟨?_, fun none_ => absurd none_ events, ?_, ?_, starts.noMotion, starts.noButton⟩
      · simpa [starts_iff, starts.waits.opens_iff, starts.first] using events
      · rintro ⟨ev, mem, button⟩
        have flag : (before lib e calls j).havePendingButton = true := by
          rw [queued.button, List.any_eq_true]
          exact ⟨ev, mem, by simp [button]⟩
        simpa [flag] using chain
      · intro _ all
        have flag : (before lib e calls j).havePendingButton = false :=
          queued.button.trans (any_button_of_all_motion all)
        have motions : (eventsBetween calls s j).filter (·.type = .motion) =
            eventsBetween calls s j :=
          List.filter_eq_self.mpr fun ev mem => by simp [all ev mem]
        refine ⟨by simpa [flag] using chain, ?_⟩
        rw [active flag, List.getLast?_eq_some_getLast events,
          queued.slot _ (by rw [motions, List.getLast?_eq_some_getLast events])]
  | queued event => simp [replyOf, event] at answered
  | started event => simp [replyOf, event] at answered

/-! ## No event is served twice -/

/-- Nothing starts a chain while one runs. -/
theorem ChainSpan.not_startsAt {s j k : Nat} (span : ChainSpan lib e calls s j) (after : s < k)
    (until_ : k < j) : ¬ StartsAt lib e calls k := by
  rintro ⟨call, at_, r, sent, opens⟩
  obtain ⟨-, -, -, way⟩ := (move_at lib e at_).of_opens sent opens
  rcases way with ⟨reply, answered, ends⟩ | ⟨ev, event, idle | overdue⟩
  · exact span.runs k after until_ ⟨call, reply, at_, answered, ends⟩
  · exact (queued_within span after until_.le).running idle
  · exact (span.calm k call ev after until_ at_ event).2 overdue

/-- Two chains that share a moment are the same chain. -/
theorem ChainSpan.unique {s j s' j' i : Nat} (span : ChainSpan lib e calls s j)
    (span' : ChainSpan lib e calls s' j') (after : s < i) (until_ : i < j) (after' : s' < i)
    (until' : i < j') : s = s' ∧ j = j' := by
  constructor
  · rcases Nat.lt_trichotomy s s' with lt | eq | gt
    · exact absurd span'.starts (span.not_startsAt lt (by omega))
    · exact eq
    · exact absurd span.starts (span'.not_startsAt gt (by omega))
  · rcases Nat.lt_trichotomy j j' with lt | eq | gt
    · exact absurd span.ends (span'.runs j (by omega) lt)
    · exact eq
    · exact absurd span'.ends (span.runs j' (by omega) gt)

theorem served_once {i j j' : Nat} (first : Serves lib e calls i j)
    (second : Serves lib e calls i j') : j = j' := by
  rcases first with ⟨rfl, starts, -⟩ | ⟨s, ev, span, after, until_, -, -⟩
  · rcases second with ⟨same, -, -⟩ | ⟨s', ev', span', after', until', -, -⟩
    · exact same
    · exact absurd starts (span'.not_startsAt after' until')
  · rcases second with ⟨rfl, starts, -⟩ | ⟨s', ev', span', after', until', -, -⟩
    · exact absurd starts (span.not_startsAt after until_)
    · exact (span.unique span' after until_ after' until').2

variable (lib) (e) (calls)

/-- **Event coalescing.**  The end of a chain serves what arrived since its start, and
nothing is served by two chains. -/
theorem event_coalescing :
    (∀ s j, ChainSpan lib e calls s j → Coalesces lib e calls s j) ∧
    ∀ i j j', Serves lib e calls i j → Serves lib e calls i j' → j = j' :=
  ⟨fun _ _ => coalesces, fun _ _ _ => served_once⟩

end Run

/-- Three pushes, and an error in answer to the first. -/
def burst : List (Call ℚ) :=
  handshake ++ [⟨.spnav pushed, .at 0⟩, ⟨.spnav pushed, .at 1⟩,
    ⟨.spnav ⟨.motion, 0, 7, 0, 0, 0, 0⟩, .at 2⟩,
    ⟨.message (ascii "[4, \"AAAAAAAAAAAAAAAAAA\", \"error\", \"\", null]"), .at 3⟩]

theorem burst_span : ChainSpan (.ofTexts focusTexts) (.at 0) burst 4 7 where
  order := by decide
  starts := by decide +kernel
  ends := by decide +kernel
  runs k after until_ := by
    have all : ∀ k < 7, 4 < k → ¬ EndsAt (.ofTexts focusTexts) (.at 0) burst k := by
      decide +kernel
    exact all k until_ after
  calm k call ev after until_ at_ _ := by
    obtain rfl | rfl : k = 5 ∨ k = 6 := by omega
    · obtain rfl : _ = call := Option.some.inj at_
      decide +kernel
    · obtain rfl : _ = call := Option.some.inj at_
      decide +kernel

/-- The last of the pushes behind the first is served. -/
theorem event_coalescing_burst :
    Coalesces (.ofTexts focusTexts) (.at 0) burst 4 7 ∧
      ∀ i j j', Serves (.ofTexts focusTexts) (.at 0) burst i j →
        Serves (.ofTexts focusTexts) (.at 0) burst i j' → j = j' :=
  ⟨(event_coalescing (.ofTexts focusTexts) (.at 0) burst).1 4 7 burst_span,
    (event_coalescing (.ofTexts focusTexts) (.at 0) burst).2⟩

end SpnavBridge.Kernel
