/-
# Daemon.Disconnect -- spacenavd goes away

Behind a closed connection libspnav has no event anymore, and that is all that
`spnav_poll_event` says of it.  The wrapper maps it to the 0 of an empty queue, so the branch
of `main` that says "lost connection to spacenavd" is never taken, and `poll` reports the
descriptor again at once (`loss_unnoticed`).
-/
import SpnavBridge.Daemon.Wakeup

namespace SpnavBridge.Daemon

open SpnavBridge.Theory SpnavBridge.Wire SpnavBridge.Kernel

set_option autoImplicit false

variable {D F : Type} [CFloat F] [CDouble D F]

/-! ## A closed connection -/

/-- The peer has closed the connection: `poll` has the descriptor readable or hung up, and
nothing arrives. -/
structure PeerClosed (reports : DeviceReports) : Prop where
  ready : reports.spnav &&& (pollIn ||| pollHup) ≠ 0
  silent : reports.arrived = []

/-- The run `past`, and the first `n` iterations behind it. -/
def continued (past : List DevicePoll) (later : Nat → DeviceReports) (n : Nat) :
    List DevicePoll :=
  past ++ (List.range n).map fun k => .ready (later k)

theorem continued_succ (past : List DevicePoll) (later : Nat → DeviceReports) (n : Nat) :
    continued past later (n + 1) = continued past later n ++ [.ready (later n)] := by
  simp [continued, List.range_succ]

section Loop

variable (loop : Machine (Session F) DevicePoll (List (SlotEvent F))) (past : List DevicePoll)
  (later : Nat → DeviceReports)

/-- The session before iteration `n` behind `past`. -/
def sessionAt (n : Nat) : Session F := loop.after (continued past later n)

/-- Some iteration finds the connection lost, and is the last one. -/
def LeavesOnLoss : Prop :=
  ∃ n, ((sessionAt loop past later n).drained (later n)).result < 0 ∧
    (sessionAt loop past later (n + 1)).bridge.running = false

/-- From some iteration on, none delivers an event and none is the last one. -/
def Spins : Prop :=
  ∃ n, ∀ k, n ≤ k → ((sessionAt loop past later k).drained (later k)).delivered = [] ∧
    (sessionAt loop past later (k + 1)).bridge.running = true

end Loop

/-! ## Every run -/

section Run

variable {p : Platform D} {sensitivity : F} {saved : Option CStr} {spnavFd : Int}
  {past : List DevicePoll} (later : Nat → DeviceReports)
  (running : ((deviceLoop p sensitivity saved spnavFd).after past).bridge.running = true)

include running

/-- The loop goes on, and the wrapper stays connected. -/
theorem goes_on (n : Nat) :
    (sessionAt (deviceLoop p sensitivity saved spnavFd) past later n).bridge.running = true ∧
      (sessionAt (deviceLoop p sensitivity saved spnavFd) past later n).connected = true := by
  have connected := connected_of_running (p := p) sensitivity saved spnavFd
  induction n with
  | zero =>
      have same : continued past later 0 = past := by simp [continued]
      rw [sessionAt, same]
      exact ⟨running, connected past running⟩
  | succ n ih =>
      have next : (sessionAt (deviceLoop p sensitivity saved spnavFd) past later
          (n + 1)).bridge.running = true := by
        rw [sessionAt, continued_succ, Machine.after_snoc]
        exact Session.iterate_running ih.1 ih.2 (later n)
      exact ⟨next, connected _ next⟩

theorem never_lost (n : Nat) :
    ((sessionAt (deviceLoop p sensitivity saved spnavFd) past later n).drained
      (later n)).result = 0 :=
  Session.drained_result (goes_on later running n).2 (later n)

theorem never_leaves : ¬ LeavesOnLoss (deviceLoop p sensitivity saved spnavFd) past later := by
  rintro ⟨n, lost, -⟩
  rw [never_lost later running n] at lost
  exact absurd lost (by decide)

/-- What libspnav has left when nothing arrives. -/
theorem queue_falls (closed : ∀ n, PeerClosed (later n)) (n : Nat) :
    ((sessionAt (deviceLoop p sensitivity saved spnavFd) past later n).drained
        (later n)).delivered.length +
      (sessionAt (deviceLoop p sensitivity saved spnavFd) past later (n + 1)).queue.length ≤
    (sessionAt (deviceLoop p sensitivity saved spnavFd) past later n).queue.length := by
  obtain ⟨going, connected⟩ := goes_on later running n
  have falls := Session.drained_queue connected (later n)
  rw [(closed n).silent, List.append_nil] at falls
  have next : (sessionAt (deviceLoop p sensitivity saved spnavFd) past later (n + 1)).queue =
      ((sessionAt (deviceLoop p sensitivity saved spnavFd) past later n).drained
        (later n)).queue := by
    rw [sessionAt, continued_succ, Machine.after_snoc]
    exact if_pos going
  rw [next]
  exact falls

/-- The events that were left are delivered in finitely many iterations: behind the shortest
queue there is none. -/
theorem spins (closed : ∀ n, PeerClosed (later n)) :
    Spins (deviceLoop p sensitivity saved spnavFd) past later := by
  let left := fun n =>
    (sessionAt (deviceLoop p sensitivity saved spnavFd) past later n).queue.length
  have falls := queue_falls later running closed
  have antitone : Antitone left :=
    antitone_nat_of_succ_le fun n => le_of_add_le_right (falls n)
  obtain ⟨_, ⟨n, rfl⟩, least⟩ := wellFounded_lt.has_min (Set.range left) ⟨left 0, 0, rfl⟩
  refine ⟨n, fun k behind => ⟨?_, (goes_on later running (k + 1)).1⟩⟩
  have step : _ + left (k + 1) ≤ left k := falls k
  have before : left k ≤ left n := antitone behind
  have after : ¬ left (k + 1) < left n := least _ ⟨k + 1, rfl⟩
  apply List.eq_nil_of_length_eq_zero
  omega

end Run

/-- **The loss of spacenavd is not noticed.**  In every run, once the connection is closed, no
iteration finds it lost; the loop goes on for ever with a descriptor that is ready and without
an event. -/
theorem loss_unnoticed (p : Platform D) (sensitivity : F) (saved : Option CStr) (spnavFd : Int)
    (past : List DevicePoll) (later : Nat → DeviceReports)
    (running : ((deviceLoop p sensitivity saved spnavFd).after past).bridge.running = true)
    (closed : ∀ n, PeerClosed (later n)) :
    (∀ n, ((sessionAt (deviceLoop p sensitivity saved spnavFd) past later n).drained
      (later n)).result = 0) ∧
    ¬ LeavesOnLoss (deviceLoop p sensitivity saved spnavFd) past later ∧
      Spins (deviceLoop p sensitivity saved spnavFd) past later :=
  ⟨never_lost later running, never_leaves later running, spins later running closed⟩

/-- `poll` has the descriptor of libspnav readable and hung up, and nothing else. -/
def hungUp : DeviceReports := ⟨none, pollIn ||| pollHup, [], ⟨.motion, 0, 0, 0, 0, 0, 0⟩, fun _ => 0⟩

theorem hungUp_closed : PeerClosed hungUp := ⟨by decide, rfl⟩

/-- spacenavd stops when the loop has just been entered. -/
theorem hungUp_unnoticed :
    ((deviceLoop (session []) (1 : ℚ) none 4).after []).bridge.running = true ∧
      PeerClosed hungUp ∧
      ¬ LeavesOnLoss (deviceLoop (session []) 1 none 4) [] (fun _ => hungUp) ∧
      Spins (deviceLoop (session []) 1 none 4) [] (fun _ => hungUp) :=
  ⟨rfl, hungUp_closed, never_leaves _ rfl, spins _ rfl fun _ => hungUp_closed⟩

/-- It stops with a motion, an event that the wrapper drops and a button in the queue. -/
def unread : DevicePoll :=
  .ready { hungUp with spnav := 0, arrived := [.motion 0 0 350 0 0 0, .other, .button] }

theorem loss_unnoticed_unread :
    ¬ LeavesOnLoss (deviceLoop (session []) 1 none 4) [unread] (fun _ => hungUp) ∧
      Spins (deviceLoop (session []) 1 none 4) [unread] (fun _ => hungUp) :=
  (loss_unnoticed (session []) 1 none 4 [unread] (fun _ => hungUp)
    (Session.iterate_running rfl rfl _) fun _ => hungUp_closed).2

end SpnavBridge.Daemon
