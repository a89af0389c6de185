/-
# Kernel.Patience -- one deadline for a chain of up to seven replies

The timeout test measures from the start of the chain, not from the RPC that is
outstanding.  A client that answers every RPC in time can therefore still lose its chain,
when the answers together take `CHAIN_TIMEOUT` and a device event arrives before the last.

`NoPrematureAbandonment` states what the timeout is for: it fires only on an RPC that has
itself waited that long, so a prompt client has every chain finished, with all its writes.
It holds on exactly the runs in which the shared deadline never passes before the
outstanding RPC's own (`noPrematureAbandonment_iff`); in `impatient` it does.
-/
import SpnavBridge.Kernel.Deadline
import SpnavBridge.Kernel.Script

namespace SpnavBridge.Kernel

open SpnavBridge.Theory SpnavBridge.Wire

set_option autoImplicit false
set_option linter.unusedSectionVars false

variable {D F : Type} [CFloat F] [CDouble D F]

/-! ## What a chain writes -/

/-- The step whose answer finishes a chain. -/
def ChainStep.final (step : ChainStep) : Prop :=
  step = .mstepWriteAffine ∨ step = .bstepWriteExtents

/-- A CALLRESULT that gives what the step asks for. -/
def Reply.wellFormed (step : ChainStep) : Reply D → Bool
  | .error => false
  | .result value =>
      match step with
      | .mstepReadExtents | .mstepReadViewextents | .bstepReadExtents => holdsNumbers 6 value
      | .mstepReadAffine => holdsNumbers 16 value
      | _ => true

theorem final_of_ends {step : ChainStep} {reply : Reply D} (ends : reply.ends step = true)
    (formed : reply.wellFormed step = true) : step.final := by
  cases reply with
  | error => simp [Reply.wellFormed] at formed
  | result value =>
      cases step <;> simp_all [Reply.ends, Reply.wellFormed, ChainStep.final]

/-- The properties that the RPCs write, oldest first. -/
def writesIn (rs : List (Rpc D)) : List CStr :=
  (rs.filter fun r => r.kind = selfUpdate).map fun r => r.prop

/-- What a chain writes from its start to its end. -/
def allWrites (kind : ChainKind) (perspective : Bool) : List CStr :=
  match kind with
  | .motion =>
      if perspective then [.lit "motion", .lit "view.affine"]
      else [.lit "motion", .lit "view.extents", .lit "view.affine"]
  | .button => [.lit "view.affine", .lit "view.extents"]
  | .none => []

/-- What a running chain has written so far, by its step. -/
def written (c : Controller F) : List CStr :=
  match c.step with
  | .mstepWriteMotion => [.lit "motion"]
  | .mstepWriteViewextents => [.lit "motion", .lit "view.extents"]
  | .mstepWriteAffine => allWrites .motion c.perspective
  | .bstepWriteAffine => [.lit "view.affine"]
  | .bstepWriteExtents => allWrites .button c.perspective
  | _ => []

/-- A running chain, with its two orthographic steps taken in an orthographic view only. -/
structure OnCourse (c : Controller F) : Prop where
  running : c.chain ≠ .none
  typed : c.step.kind = c.chain
  orthographic : c.step = .mstepReadViewextents ∨ c.step = .mstepWriteViewextents →
    c.perspective = false

theorem OnCourse.allWrites {c : Controller F} (course : OnCourse c) (final : c.step.final) :
    written c = allWrites c.chain c.perspective := by
  rcases final with step | step
  · have motion : c.chain = .motion := by rw [← course.typed, step]; rfl
    simp [written, step, motion]
  · have button : c.chain = .button := by rw [← course.typed, step]; rfl
    simp [written, step, button]

@[simp] theorem writesIn_rpcRead (e : Env) (c : Controller F) (prop : CStr) :
    writesIn (rpcs (rpcRead (D := D) e c prop).2) = [] := by
  simp [writesIn, rpcRead, rpc, selfRead_ne_selfUpdate]

@[simp] theorem writesIn_rpcWrite (e : Env) (c : Controller F) (prop : CStr)
    (value : Option (Json D)) : writesIn (rpcs (rpcWrite e c prop value).2) = [prop] := by
  simp [writesIn, rpcWrite, rpc]

/-- A reply that does not end the chain adds its write, if it sends one. -/
theorem receive_writes {e : Env} {c : Controller F} {reply : Reply D} (course : OnCourse c)
    (goes : reply.ends c.step = false) :
    written (receive e c reply).1 = written c ++ writesIn (rpcs (receive e c reply).2) ∧
      ((receive e c reply).1.step = .mstepReadViewextents ∨
        (receive e c reply).1.step = .mstepWriteViewextents →
          (receive e c reply).1.perspective = false) := by
  have typed := course.typed
  have orthographic := course.orthographic
  cases reply with
  | error => simp [Reply.ends] at goes
  | result value =>
      cases step : c.step with
      | mstepWriteAffine | bstepWriteExtents => simp [Reply.ends, step] at goes
      | mstepReadExtents | mstepReadPerspective =>
          simp only [Reply.ends, step, Bool.not_eq_false'] at goes
          simp only [receive_motion typed step rfl, advanceMotionChain, step, jsonToFloats_ok,
            goes, if_true, written, writesIn_rpcRead, List.append_nil]
          simp [rpcRead, rpc]
      | mstepReadAffine =>
          simp only [Reply.ends, step, Bool.not_eq_false'] at goes
          simp only [receive_motion typed step rfl, advanceMotionChain, step, jsonToFloats_ok,
            goes, if_true]
          cases view : c.perspective with
          | true => simp [written, step, rpcWrite, rpc, writesIn]
          | false => simp [written, step, rpcRead, rpc, writesIn, selfRead_ne_selfUpdate]
      | mstepReadViewextents =>
          simp only [Reply.ends, step, Bool.not_eq_false'] at goes
          simp only [receive_motion typed step rfl, advanceMotionChain, step, jsonToFloats_ok,
            goes, if_true, written, writesIn_rpcWrite, List.nil_append]
          simp [rpcWrite, rpc]
      | mstepWriteMotion =>
          simp only [receive_motion typed step rfl, advanceMotionChain, step]
          cases view : c.perspective with
          | true => simp [written, step, rpcWrite, rpc, writesIn, allWrites]
          | false => simp [written, step, rpcWrite, rpc, writesIn]
      | mstepWriteViewextents =>
          have view := orthographic (Or.inr step)
          simp only [receive_motion typed step rfl, advanceMotionChain, step, written,
            writesIn_rpcWrite]
          simp [rpcWrite, rpc, view, allWrites]
      | bstepReadExtents =>
          simp only [Reply.ends, step, Bool.not_eq_false'] at goes
          simp only [receive_button typed step rfl, advanceButtonChain, step,
            jsonToFloats_ok, goes, if_true, written, writesIn_rpcRead, List.append_nil]
          simp [rpcRead, rpc]
      | bstepReadFront =>
          simp only [receive_button typed step rfl, advanceButtonChain, step, written,
            writesIn_rpcWrite, List.nil_append]
          simp [rpcWrite, rpc]
      | bstepWriteAffine =>
          simp only [receive_button typed step rfl, advanceButtonChain, step, written,
            writesIn_rpcWrite]
          simp [rpcWrite, rpc, allWrites]

/-! ## A chain from its start -/

section Run

variable (lib : CJson D) (e : Env) (calls : List (Call F))

/-- Call `k` finds the chain overdue. -/
def AbandonsAt (k : Nat) : Prop :=
  ∃ call, calls[k]? = some call ∧ Abandons (before lib e calls k) call

/-- The RPCs that the calls from `s` on and before `j` sent. -/
def rpcsBetween (s j : Nat) : List (Rpc D) :=
  (sentRpcs lib e (calls.take j)).drop (sentRpcs lib e (calls.take s)).length

/-- A chain that call `s` started and that is neither ended nor abandoned before call `j`. -/
structure ChainFrom (s j : Nat) : Prop where
  order : s < j
  inside : j ≤ calls.length
  starts : StartsAt lib e calls s
  unbroken : ∀ k, s < k → k < j → ¬ EndsAt lib e calls k ∧ ¬ AbandonsAt lib e calls k

/-- The RPC `r` of call `p` is outstanding when call `k` arrives. -/
structure OutstandingSince (p k : Nat) (r : Rpc D) : Prop where
  order : p < k
  sent : ∃ call, calls[p]? = some call ∧ r ∈ rpcsSent lib e (calls.take p) call
  unanswered : ∀ j call, p < j → j < k → calls[j]? = some call → ¬ Answers lib r.callId call

variable {lib} {e} {calls}

theorem sentRpcs_take_succ {k : Nat} {call : Call F} (at_ : calls[k]? = some call) :
    sentRpcs lib e (calls.take (k + 1)) =
      sentRpcs lib e (calls.take k) ++ rpcsSent lib e (calls.take k) call := by
  rw [take_succ_of_getElem? at_, sentRpcs_snoc]

theorem length_sentRpcs_take_le {s k : Nat} (le : s ≤ k) (inside : k ≤ calls.length) :
    (sentRpcs lib e (calls.take s)).length ≤ (sentRpcs lib e (calls.take k)).length := by
  induction k, le using Nat.le_induction with
  | base => exact le_rfl
  | succ k le ih =>
      rw [sentRpcs_take_succ (List.getElem?_eq_getElem (show k < calls.length by omega))]
      have := ih (by omega)
      rw [List.length_append]
      omega

theorem rpcsBetween_succ {s k : Nat} {call : Call F} (at_ : calls[k]? = some call) (le : s ≤ k) :
    rpcsBetween lib e calls s (k + 1) =
      rpcsBetween lib e calls s k ++ rpcsSent lib e (calls.take k) call := by
  have inside : k ≤ calls.length := (List.getElem?_eq_some_iff.mp at_).1.le
  rw [rpcsBetween, sentRpcs_take_succ at_,
    List.drop_append_of_le_length (length_sentRpcs_take_le le inside), rpcsBetween]

theorem rpcsBetween_self (s : Nat) : rpcsBetween lib e calls s s = [] := by
  simp [rpcsBetween]

/-- A start is on course, with nothing written. -/
theorem onCourse_of_starts {e : Env} {c' : Controller F} {r : Rpc D} (starts : Starts e c' r) :
    OnCourse c' ∧ written c' = writesIn [r] := by
  have kind : r.kind = selfRead := (starts.waits.opens_iff.mpr starts.first).1
  have silent : writesIn [r] = [] := by simp [writesIn, kind, selfRead_ne_selfUpdate]
  rw [silent]
  rcases starts.first with step | step
  · exact ⟨⟨starts.waits.running, starts.waits.kind, by simp [step]⟩, by simp [written, step]⟩
  · exact ⟨⟨starts.waits.running, starts.waits.kind, by simp [step]⟩, by simp [written, step]⟩

theorem written_congr {c c' : Controller F} (step : c'.step = c.step)
    (perspective : c'.perspective = c.perspective) : written c' = written c := by
  unfold written
  rw [step, perspective]

theorem OnCourse.of_same {c c' : Controller F} (course : OnCourse c) (chain : c'.chain = c.chain)
    (step : c'.step = c.step) (perspective : c'.perspective = c.perspective) : OnCourse c' where
  running := chain ▸ course.running
  typed := by rw [step, chain, course.typed]
  orthographic := by
    rw [step, perspective]
    exact course.orthographic

theorem starts_at_start {s : Nat} (starts : StartsAt lib e calls s) :
    OnCourse (before lib e calls (s + 1)) ∧
      written (before lib e calls (s + 1)) = writesIn (rpcsBetween lib e calls s (s + 1)) := by
  obtain ⟨call, at_, r, sent, opens⟩ := starts
  obtain ⟨single, fresh, -, -⟩ := (move_at lib e at_).of_opens sent opens
  rw [rpcsBetween_succ at_ le_rfl, rpcsBetween_self, List.nil_append, single]
  exact onCourse_of_starts fresh

theorem writesIn_append (rs more : List (Rpc D)) :
    writesIn (rs ++ more) = writesIn rs ++ writesIn more := by
  simp [writesIn]

/-- One call of a chain that goes on. -/
theorem onCourse_step {s k : Nat} (le : s ≤ k) (inside : k < calls.length)
    (unbroken : ¬ EndsAt lib e calls k ∧ ¬ AbandonsAt lib e calls k)
    (course : OnCourse (before lib e calls k))
    (so : written (before lib e calls k) = writesIn (rpcsBetween lib e calls s k)) :
    OnCourse (before lib e calls (k + 1)) ∧
      written (before lib e calls (k + 1)) = writesIn (rpcsBetween lib e calls s (k + 1)) := by
  have here : calls[k]? = some calls[k] := List.getElem?_eq_getElem inside
  obtain ⟨goes, kept⟩ := unbroken
  rw [rpcsBetween_succ here le, writesIn_append, ← so]
  have move := move_at lib e here
  generalize sent : rpcsSent lib e (calls.take k) calls[k] = rs at move
  cases move with
  | quiet _ _ chain =>
      refine ⟨course.of_same chain.chain chain.step chain.perspective, ?_⟩
      rw [written_congr chain.step chain.perspective]
      simp [writesIn]
  | @goesOn reply r answered _ goes _ _ _ waits =>
      obtain ⟨writes, view⟩ := receive_writes (e := calls[k].env) course goes
      have next : before lib e calls (k + 1) =
          (receive calls[k].env (before lib e calls k) reply).1 := by
        rw [before_succ here, Machine.after_snoc]
        exact congrArg Prod.fst (controllerStep_of_reply answered)
      have rpcs_eq : rpcsSent lib e (calls.take k) calls[k] =
          rpcs (receive calls[k].env (before lib e calls k) reply).2 := by
        exact congrArg (fun done => rpcs done.2.sent) (controllerStep_of_reply answered)
      rw [← sent, rpcs_eq, ← writes, ← next]
      rw [← next] at view
      exact ⟨⟨waits.running, waits.kind, view⟩, rfl⟩
  | ended answered _ ends => exact absurd ⟨_, _, here, answered, ends⟩ goes
  | restarted answered _ ends => exact absurd ⟨_, _, here, answered, ends⟩ goes
  | queued _ _ _ _ _ run stays scratch =>
      refine ⟨course.of_same run.chain stays.step scratch.perspective, ?_⟩
      rw [written_congr stays.step scratch.perspective]
      simp [writesIn]
  | started event gate free =>
      rcases free with idle | overdue
      · exact absurd idle course.running
      · exact absurd ⟨_, here, _, event, gate, overdue⟩ kept

/-- **What a chain has written is told by its step.** -/
theorem ChainFrom.written {s j : Nat} (chain : ChainFrom lib e calls s j) :
    OnCourse (before lib e calls j) ∧
      written (before lib e calls j) = writesIn (rpcsBetween lib e calls s j) := by
  obtain ⟨order, inside, starts, unbroken⟩ := chain
  induction j, order using Nat.le_induction with
  | base => exact starts_at_start starts
  | succ k after ih =>
      obtain ⟨course, so⟩ := ih (by omega) (fun i lo hi => unbroken i lo (by omega))
      exact onCourse_step (by omega) (by omega) (unbroken k (by omega) (by omega)) course so

/-- While a chain runs, an RPC is outstanding. -/
theorem outstandingSince_of_running {k : Nat} (running : (before lib e calls k).chain ≠ .none) :
    ∃ p r, OutstandingSince lib e calls p k r := by
  have awaited := awaited_after lib e (calls.take k)
  obtain ⟨r, last, -⟩ := awaited.last running
  obtain ⟨past, call, rest, split, sent, open_⟩ := (awaited.only r).mpr ⟨running, last⟩
  have size : past.length + 1 + rest.length = min k calls.length := by
    have := congrArg List.length split
    simp only [List.length_take, List.length_append, List.length_cons] at this
    omega
  have prefix_ : calls.take past.length = past := by
    have := congrArg (List.take past.length) split
    rwa [List.take_take, min_eq_left (by omega), List.take_left'] at this
    rfl
  have get {j : Nat} (lt : j < k) : calls[j]? = (past ++ call :: rest)[j]? := by
    rw [← split, List.getElem?_take_of_lt lt]
  refine ⟨past.length, r, by omega, ⟨call, ?_, ?_⟩, ?_⟩
  · rw [get (by omega)]
    simp
  · rwa [prefix_]
  · intro j next after until_ at_ answers
    rw [get until_, List.getElem?_append_right (by omega)] at at_
    obtain ⟨i, rfl⟩ : ∃ i, j = past.length + 1 + i := ⟨j - (past.length + 1), by omega⟩
    rw [show past.length + 1 + i - past.length = i + 1 by omega, List.getElem?_cons_succ] at at_
    obtain ⟨lt, rfl⟩ := List.getElem?_eq_some_iff.mp at_
    exact (open_ (rest.take i) rest[i] (rest.drop (i + 1)) (by simp)).1 answers

/-- Some call started the chain that runs. -/
theorem runsSince_of_running {k : Nat} (inside : k ≤ calls.length)
    (running : (before lib e calls k).chain ≠ .none) : ∃ s, RunsSince lib e calls s k := by
  induction k with
  | zero => exact absurd rfl running
  | succ k ih =>
      by_cases starts : StartsAt lib e calls k
      · exact ⟨k, by omega, starts, fun i lo hi => by omega, running⟩
      · have here : calls[k]? = some calls[k] := List.getElem?_eq_getElem (by omega)
        have was : (before lib e calls k).chain ≠ .none := by
          have move := move_at lib e here
          generalize sent : rpcsSent lib e (calls.take k) calls[k] = rs at move
          cases move with
          | quiet _ _ chain => exact chain.chain ▸ running
          | goesOn _ was => exact was
          | ended _ was => exact was
          | restarted _ was => exact was
          | queued _ _ was => exact was
          | started _ _ _ _ started => exact absurd (startsAt_of_starts here sent started) starts
        obtain ⟨s, since⟩ := ih (by omega) was
        refine ⟨s, since.order.trans (by omega), since.starts, fun i lo hi => ?_, running⟩
        rcases Nat.lt_succ_iff_lt_or_eq.mp hi with lt | rfl
        · exact since.last i lo lt
        · exact starts

end Run

/-! ## The deadline of the chain and of the RPC -/

section Timed

variable (lib : CJson D) (e : Env) (calls : List (TimedCall F))

/-- The client answers each RPC within `CHAIN_TIMEOUT`, with what was asked for. -/
structure PromptClient : Prop where
  prompt : ∀ p k r asker timed, calls[p]? = some asker → calls[k]? = some timed → p < k →
    r ∈ rpcsSent lib e ((plain calls).take p) asker.call →
    chainTimeout * nanos ≤ timed.arrives.wall - asker.sends.wall →
    ∃ j answerer, p < j ∧ j < k ∧ calls[j]? = some answerer ∧
      Answers lib r.callId answerer.call ∧
      answerer.arrives.wall - asker.sends.wall < chainTimeout * nanos
  formed : ∀ j call reply, (plain calls)[j]? = some call →
    replyOf lib (before lib e (plain calls) j) call = some reply →
    reply.wellFormed (before lib e (plain calls) j).step = true

/-- The timeout fires on an RPC that has waited for `CHAIN_TIMEOUT`, and never on a prompt
client, whose chains make all their writes. -/
structure NoPrematureAbandonment : Prop where
  waited : ∀ p k r asker timed, calls[p]? = some asker → calls[k]? = some timed →
    OutstandingSince lib e (plain calls) p k r → AbandonsAt lib e (plain calls) k →
    chainTimeout * nanos ≤ timed.arrives.wall - asker.sends.wall
  patient : PromptClient lib e calls → (∀ k, ¬ AbandonsAt lib e (plain calls) k) ∧
    ∀ s j, ChainFrom lib e (plain calls) s j → EndsAt lib e (plain calls) j →
      writesIn (rpcsBetween lib e (plain calls) s j) =
        allWrites (before lib e (plain calls) j).chain (before lib e (plain calls) j).perspective

/-- An event that finds the gate open and a chain running comes before the chain is
`CHAIN_TIMEOUT` old, by the clock, or after the outstanding RPC has waited that long. -/
def DeadlineFits : Prop :=
  ∀ s p k r ev starter asker timed, calls[s]? = some starter → calls[p]? = some asker →
    calls[k]? = some timed → timed.op = .spnav ev → (before lib e (plain calls) k).GateOpen →
    RunsSince lib e (plain calls) s k → OutstandingSince lib e (plain calls) p k r →
    timed.arrives.time - starter.sends.time < chainTimeout ∨
      chainTimeout * nanos ≤ timed.arrives.wall - asker.sends.wall

variable {lib} {e} {calls}

theorem timed_of_plain {k : Nat} {call : Call F} (at_ : (plain calls)[k]? = some call) :
    ∃ timed, calls[k]? = some timed ∧ timed.call = call := by
  rw [plain, List.getElem?_map] at at_
  exact Option.map_eq_some_iff.mp at_

/-- The timeout test, as a comparison with the instant of the start. -/
theorem timedOut_iff {s k : Nat} {starter timed : TimedCall F} (there : calls[s]? = some starter)
    (here : calls[k]? = some timed) (since : RunsSince lib e (plain calls) s k) :
    (before lib e (plain calls) k).TimedOut timed.call.env ↔
      chainTimeout ≤ timed.arrives.time - starter.sends.time := by
  have inside : k ≤ (plain calls).length :=
    (List.getElem?_eq_some_iff.mp (plain_getElem? here)).1.le
  have noted := chainStarted_since (plain_getElem? there) since.starts k since.order inside
    since.last since.running
  simp only [Controller.TimedOut, noted, TimedCall.call]
  exact and_iff_right since.running

theorem waited_of_fits (fits : DeadlineFits lib e calls) {p k : Nat} {r : Rpc D}
    {asker timed : TimedCall F} (asks : calls[p]? = some asker) (here : calls[k]? = some timed)
    (outstanding : OutstandingSince lib e (plain calls) p k r)
    (abandons : AbandonsAt lib e (plain calls) k) :
    chainTimeout * nanos ≤ timed.arrives.wall - asker.sends.wall := by
  obtain ⟨call, at_, ev, event, gate, overdue⟩ := abandons
  obtain rfl : timed.call = call := Option.some.inj ((plain_getElem? here).symm.trans at_)
  have inside : k ≤ (plain calls).length := (List.getElem?_eq_some_iff.mp at_).1.le
  obtain ⟨s, since⟩ := runsSince_of_running inside overdue.1
  obtain ⟨call, at_s, -⟩ := id since.starts
  obtain ⟨starter, there, -⟩ := timed_of_plain at_s
  have old := (timedOut_iff there here since).mp overdue
  rcases fits s p k r ev starter asker timed there asks here event gate since outstanding with
    young | waited
  · omega
  · exact waited

theorem patient_of_waited
    (waited : ∀ p k r asker timed, calls[p]? = some asker → calls[k]? = some timed →
      OutstandingSince lib e (plain calls) p k r → AbandonsAt lib e (plain calls) k →
      chainTimeout * nanos ≤ timed.arrives.wall - asker.sends.wall)
    (client : PromptClient lib e calls) (k : Nat) : ¬ AbandonsAt lib e (plain calls) k := by
  intro abandons
  obtain ⟨call, at_, ev, event, gate, overdue⟩ := id abandons
  obtain ⟨p, r, outstanding⟩ := outstandingSince_of_running overdue.1
  obtain ⟨asks, at_p, mem⟩ := outstanding.sent
  obtain ⟨asker, there, rfl⟩ := timed_of_plain at_p
  obtain ⟨timed, here, -⟩ := timed_of_plain at_
  have late := waited p k r asker timed there here outstanding abandons
  obtain ⟨j, answerer, after, until_, answered, answers, -⟩ :=
    client.prompt p k r asker timed there here outstanding.order mem late
  exact outstanding.unanswered j _ after until_ (plain_getElem? answered) answers

variable (lib) (e) (calls)

/-- **No premature abandonment, on exactly the runs in which the deadline fits.** -/
theorem noPrematureAbandonment_iff :
    NoPrematureAbandonment lib e calls ↔ DeadlineFits lib e calls := by
  constructor
  · intro holds s p k r ev starter asker timed there asks here event gate since outstanding
    by_cases young : timed.arrives.time - starter.sends.time < chainTimeout
    · exact Or.inl young
    · right
      have overdue := (timedOut_iff there here since).mpr (by omega)
      exact holds.waited p k r asker timed asks here outstanding
        ⟨_, plain_getElem? here, ev, event, gate, overdue⟩
  · intro fits
    have waited : ∀ p k r asker timed, calls[p]? = some asker → calls[k]? = some timed →
        OutstandingSince lib e (plain calls) p k r → AbandonsAt lib e (plain calls) k →
        chainTimeout * nanos ≤ timed.arrives.wall - asker.sends.wall :=
      fun p k r asker timed => waited_of_fits fits
    refine ⟨waited, fun client => ⟨patient_of_waited waited client, fun s j chain ends => ?_⟩⟩
    obtain ⟨course, so⟩ := chain.written
    obtain ⟨call, reply, at_, answered, ends⟩ := ends
    rw [← so]
    exact course.allWrites (final_of_ends ends (client.formed j call reply at_ answered))

end Timed

/-! ## Three answers in eleven seconds -/

/-- A push, two replies after four seconds each, and a push while the third RPC has waited
for three. -/
def slowAnswers : List (TimedCall ℚ) :=
  (handshakeTexts.map fun text => timedAt (.message text.1) 0 0) ++
    [timedAt (.spnav pushed) 1 1,
      timedAt (.message (ascii "[3, \"AAAAAAAAAAAAAAAAAA\", [-1, -1, -1, 1, 1, 1]]")) 5 5,
      timedAt (.message (ascii "[3, \"AAAAAAAAAAAAAAAAAA\", true]")) 9 9,
      timedAt (.spnav pushed) 12 12]

theorem slowAnswers_prompt : PromptClient (.ofTexts replyTexts) (.at 0) slowAnswers where
  prompt p k r asker timed there here lt mem late := by
    have inside := (List.getElem?_eq_some_iff.mp here).1
    have all : ∀ k < 8, ∀ p < k, ∀ timed ∈ slowAnswers[k]?, ∀ asker ∈ slowAnswers[p]?,
        chainTimeout * nanos ≤ timed.arrives.wall - asker.sends.wall →
        rpcsSent (.ofTexts replyTexts) (.at 0) ((plain slowAnswers).take p) asker.call = [] ∨
          p = 4 ∧ k = 7 := by
      decide +kernel
    rcases all k inside p lt timed here asker there late with none_ | ⟨rfl, rfl⟩
    · simp [none_] at mem
    · obtain rfl : _ = asker := Option.some.inj there
      refine ⟨5, _, by decide, by decide, rfl, ?_, by decide⟩
      refine ⟨3, _, rfl, by decide, ?_⟩
      obtain rfl : r = _ := List.mem_singleton.mp mem
      decide +kernel
  formed j call reply at_ answered := by
    have inside := (List.getElem?_eq_some_iff.mp at_).1
    have all : ∀ j < 8, ∀ call ∈ (plain slowAnswers)[j]?,
        ∀ reply ∈ replyOf (.ofTexts replyTexts)
          (before (.ofTexts replyTexts) (.at 0) (plain slowAnswers) j) call,
        reply.wellFormed
          (before (.ofTexts replyTexts) (.at 0) (plain slowAnswers) j).step = true := by
      decide +kernel
    exact all j inside call at_ reply answered

/-- The client is prompt, and its chain is abandoned. -/
theorem impatient :
    ElapsedOrdered slowAnswers ∧ PromptClient (.ofTexts replyTexts) (.at 0) slowAnswers ∧
      ¬ NoPrematureAbandonment (.ofTexts replyTexts) (.at 0) slowAnswers := by
  refine ⟨by unfold ElapsedOrdered; decide +kernel, slowAnswers_prompt, fun holds => ?_⟩
  have abandons : AbandonsAt (.ofTexts replyTexts) (.at 0) (plain slowAnswers) 7 :=
    ⟨_, rfl, by decide +kernel⟩
  exact (holds.patient slowAnswers_prompt).1 7 abandons

end SpnavBridge.Kernel
