/-
# Kernel.Deadline -- the chain timeout and the clock it reads

The timeout test compares two readings of `time(NULL)`: one taken when the chain was
started, one when a device event arrives.  Here the instants of a run carry both the
elapsed time and the wall clock, which may be set at any moment, and `plain` forgets them
down to the seconds the code reads.

The test fires exactly when the two readings are `CHAIN_TIMEOUT` apart
(`restartsAt_iff`), so an overdue chain is abandoned exactly on the runs in which the wall
clock kept up with the elapsed time (`noWedge_iff`); `wedged` is a run in which it was set
back.
-/
import SpnavBridge.Kernel.Coalescing
import SpnavBridge.Kernel.Outstanding

namespace SpnavBridge.Kernel

open SpnavBridge.Theory SpnavBridge.Wire

set_option autoImplicit false
set_option linter.unusedSectionVars false

variable {D F : Type} [CFloat F] [CDouble D F]

/-! ## Timed runs -/

/-- Nanoseconds in a second. -/
def nanos : Int := 1000000000

/-- A moment: the time elapsed since some origin, and what the wall clock shows, in
nanoseconds. -/
structure Instant where
  elapsed : Int
  wall : Int

/-- `time(NULL)` -/
def Instant.time (t : Instant) : Int := t.wall / nanos

/-- A call, with the moment of its timeout test and the moment of its sending. -/
structure TimedCall (F : Type) where
  op : Op F
  rnd : Nat → UInt8
  arrives : Instant
  sends : Instant

def TimedCall.call (timed : TimedCall F) : Call F :=
  ⟨timed.op, ⟨timed.rnd, timed.arrives.time, timed.sends.time⟩⟩

/-- The calls as the controller sees them. -/
def plain (calls : List (TimedCall F)) : List (Call F) := calls.map TimedCall.call

/-- Elapsed time does not run backwards. -/
def ElapsedOrdered (calls : List (TimedCall F)) : Prop :=
  (∀ timed ∈ calls, timed.arrives.elapsed ≤ timed.sends.elapsed) ∧
    calls.Pairwise fun earlier later => earlier.sends.elapsed ≤ later.arrives.elapsed

theorem plain_getElem? {calls : List (TimedCall F)} {k : Nat} {timed : TimedCall F}
    (at_ : calls[k]? = some timed) : (plain calls)[k]? = some timed.call := by
  simp [plain, at_]

/-! ## The chain that runs at a call -/

section Run

variable (lib : CJson D) (e : Env) (calls : List (Call F))

/-- When call `k` arrives, the chain that call `s` started is running. -/
structure RunsSince (s k : Nat) : Prop where
  order : s < k
  starts : StartsAt lib e calls s
  last : ∀ i, s < i → i < k → ¬ StartsAt lib e calls i
  running : (before lib e calls k).chain ≠ .none

/-- Call `k` starts the chain of its event `ev`, with nothing left from the one before. -/
structure RestartsAt (k : Nat) (ev : SbEvent) : Prop where
  starts : StartsAt lib e calls k
  chain : (before lib e calls (k + 1)).chain = if ev.type = .motion then .motion else .button
  active : ev.type = .motion → (before lib e calls (k + 1)).activeEv = ev
  empty : (before lib e calls (k + 1)).havePendingMotion = false ∧
    (before lib e calls (k + 1)).havePendingButton = false

variable {lib} {e} {calls}

theorem startsAt_of_starts {k : Nat} {call : Call F} {c' : Controller F} {r : Rpc D}
    (at_ : calls[k]? = some call) (sent : rpcsSent lib e (calls.take k) call = [r])
    (starts : Starts call.env c' r) : StartsAt lib e calls k := by
  refine ⟨call, at_, r, ?_, starts.waits.opens_iff.mpr starts.first⟩
  rw [sent]
  exact List.mem_singleton_self r

/-- The time a start was noted is kept until the next start. -/
theorem chainStarted_since {s : Nat} {starter : Call F} (at_s : calls[s]? = some starter)
    (starts : StartsAt lib e calls s) (k : Nat) (after : s + 1 ≤ k) (inside : k ≤ calls.length)
    (last : ∀ i, s < i → i < k → ¬ StartsAt lib e calls i)
    (running : (before lib e calls k).chain ≠ .none) :
    (before lib e calls k).chainStarted = starter.env.timeStarted := by
  induction k, after using Nat.le_induction with
  | base =>
      obtain ⟨call, at_, r, sent, opens⟩ := starts
      obtain rfl : starter = call := Option.some.inj (at_s.symm.trans at_)
      obtain ⟨-, fresh, -, -⟩ := (move_at lib e at_).of_opens sent opens
      exact fresh.since
  | succ k after ih =>
      have ih := ih (by omega) (fun i lo hi => last i lo (by omega))
      have here : calls[k]? = some calls[k] := List.getElem?_eq_getElem (by omega)
      have fresh := last k (by omega) (by omega)
      have move := move_at lib e here
      generalize sent : rpcsSent lib e (calls.take k) calls[k] = rs at move
      cases move with
      | quiet _ _ chain =>
          rw [chain.chainStarted]
          exact ih (chain.chain ▸ running)
      | goesOn _ was _ _ run =>
          rw [run.chainStarted]
          exact ih was
      | ended _ _ _ _ _ _ _ idle => exact absurd idle running
      | restarted _ _ _ _ _ starts => exact absurd (startsAt_of_starts here sent starts) fresh
      | queued _ _ was _ _ run =>
          rw [run.chainStarted]
          exact ih was
      | started _ _ _ _ starts => exact absurd (startsAt_of_starts here sent starts) fresh

/-- An event in time is queued; an overdue chain gives way to it. -/
theorem restartsAt_iff {k : Nat} {call : Call F} {ev : SbEvent} (at_ : calls[k]? = some call)
    (event : call.op = .spnav ev) (gate : (before lib e calls k).GateOpen)
    (running : (before lib e calls k).chain ≠ .none) :
    RestartsAt lib e calls k ev ↔ (before lib e calls k).TimedOut call.env := by
  have move := move_at lib e at_
  generalize sent : rpcsSent lib e (calls.take k) call = rs at move
  cases move with
  | quiet _ shut => exact absurd gate (shut ev event)
  | goesOn answered => simp [replyOf, event] at answered
  | ended answered => simp [replyOf, event] at answered
  | restarted answered => simp [replyOf, event] at answered
  | queued _ _ _ inTime =>
      refine iff_of_false (fun restarts => ?_) inTime
      obtain ⟨call', at_', r, mem, -⟩ := restarts.starts
      obtain rfl : call = call' := Option.some.inj (at_.symm.trans at_')
      simp [sent] at mem
  | started event' _ free _ starts chain active =>
      obtain rfl : _ = ev := Op.spnav.inj (event'.symm.trans event)
      refine iff_of_true ?_ (free.resolve_left running)
      exact ⟨startsAt_of_starts at_ sent starts, chain, active, starts.noMotion, starts.noButton⟩

end Run

/-! ## No wedge -/

section Timed

variable (lib : CJson D) (e : Env) (calls : List (TimedCall F))

/-- An event that arrives with the gate open, `CHAIN_TIMEOUT` of elapsed time or more after
the running chain was started. -/
structure FindsOverdue (s k : Nat) (starter timed : TimedCall F) (ev : SbEvent) : Prop where
  there : calls[s]? = some starter
  here : calls[k]? = some timed
  event : timed.op = .spnav ev
  gate : (before lib e (plain calls) k).GateOpen
  since : RunsSince lib e (plain calls) s k
  overdue : chainTimeout * nanos ≤ timed.arrives.elapsed - starter.sends.elapsed

/-- An overdue chain is abandoned for the event that finds it. -/
def NoWedge : Prop :=
  ∀ s k starter timed ev, FindsOverdue lib e calls s k starter timed ev →
    RestartsAt lib e (plain calls) k ev

/-- Where a chain is overdue, `time(NULL)` has advanced by `CHAIN_TIMEOUT` too. -/
def ClockKeepsUp : Prop :=
  ∀ s k starter timed ev, FindsOverdue lib e calls s k starter timed ev →
    chainTimeout ≤ timed.arrives.time - starter.sends.time

variable {lib} {e} {calls}

theorem FindsOverdue.restarts_iff {s k : Nat} {starter timed : TimedCall F} {ev : SbEvent}
    (finds : FindsOverdue lib e calls s k starter timed ev) :
    RestartsAt lib e (plain calls) k ev ↔
      chainTimeout ≤ timed.arrives.time - starter.sends.time := by
  have here := plain_getElem? finds.here
  have since := finds.since
  have inside : k ≤ (plain calls).length := (List.getElem?_eq_some_iff.mp here).1.le
  have noted := chainStarted_since (plain_getElem? finds.there) since.starts k since.order inside
    since.last since.running
  rw [restartsAt_iff here finds.event finds.gate since.running]
  simp only [Controller.TimedOut, noted, TimedCall.call]
  exact and_iff_right since.running

variable (lib) (e) (calls)

/-- **No wedge, on exactly the runs whose wall clock keeps up.** -/
theorem noWedge_iff : NoWedge lib e calls ↔ ClockKeepsUp lib e calls := by
  constructor
  · intro free s k starter timed ev finds
    exact finds.restarts_iff.mp (free s k starter timed ev finds)
  · intro keeps s k starter timed ev finds
    exact finds.restarts_iff.mpr (keeps s k starter timed ev finds)

/-- A clock that never falls behind the elapsed time keeps up. -/
theorem noWedge_of_unadjusted
    (unadjusted : ∀ starter ∈ calls, ∀ timed ∈ calls,
      timed.arrives.elapsed - starter.sends.elapsed ≤ timed.arrives.wall - starter.sends.wall) :
    NoWedge lib e calls := by
  rw [noWedge_iff]
  intro s k starter timed ev finds
  have behind := unadjusted starter (List.mem_of_getElem? finds.there) timed
    (List.mem_of_getElem? finds.here)
  have overdue := finds.overdue
  simp only [Instant.time, nanos, chainTimeout] at overdue ⊢
  omega

end Timed

/-! ## The clock set back -/

/-- A call at one instant. -/
def timedAt (op : Op ℚ) (elapsed wall : Int) : TimedCall ℚ :=
  ⟨op, fun _ => 0, ⟨elapsed * nanos, wall * nanos⟩, ⟨elapsed * nanos, wall * nanos⟩⟩

/-- A push that is never answered, the clock set back by an hour, and a push 20 s later. -/
def setBack : List (TimedCall ℚ) :=
  (handshakeTexts.map fun text => timedAt (.message text.1) 0 7200) ++
    [timedAt (.spnav pushed) 1 7201, timedAt (.spnav pushed) 21 3621]

theorem wedged :
    ElapsedOrdered setBack ∧ ¬ NoWedge (.ofTexts handshakeTexts) (.at 0) setBack := by
  refine ⟨by unfold ElapsedOrdered; decide +kernel, fun free => ?_⟩
  have finds : FindsOverdue (.ofTexts handshakeTexts) (.at 0) setBack 4 5
      (timedAt (.spnav pushed) 1 7201) (timedAt (.spnav pushed) 21 3621) pushed :=
    { there := rfl
      here := rfl
      event := rfl
      gate := by decide +kernel
      since := ⟨by decide, by decide +kernel, fun i lo hi => by omega, by decide +kernel⟩
      overdue := by decide }
  have restarts := (free 4 5 _ _ pushed finds).starts
  revert restarts
  decide +kernel

end SpnavBridge.Kernel
