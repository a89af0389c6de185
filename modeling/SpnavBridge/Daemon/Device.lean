/-
# Daemon.Device -- spnav_bridge.c, and the main loop with it in place

libspnav has a queue of what spacenavd wrote.  `sb_poll_event` takes one event from it and
maps it to the events of the bridge, and the main loop asks again until the result is not
above 0 (`drainDevice`).  A `Session` is the process with that queue and with the static
`connected` of the wrapper.

* `drainDevice_result`: the wrapper that is connected has the result 0 behind every drain.
* `session_bridge`: the session is the main loop on reports in which the connection is
  never lost, so that what holds of every run of the main loop holds of the session.
-/
import SpnavBridge.Daemon.Slots

namespace SpnavBridge.Daemon

open SpnavBridge.Theory SpnavBridge.Wire SpnavBridge.Kernel

set_option autoImplicit false
set_option linter.unusedSectionVars false

/-! ## The wrapper -/

/-- `spnav_event`: the values of a motion, a button, or a type that the wrapper drops. -/
inductive RawEvent where
  | motion (x y z rx ry rz : Int)
  | button
  | other
  deriving DecidableEq

/-- What `sb_open` returns, and `connected` behind it. -/
def sbOpen (connected : Bool) (spnavOpen : Int) : Int × Bool :=
  if spnavOpen = -1 then (-1, connected) else (0, true)

def sbFd (connected : Bool) (spnavFd : Int) : Int := if connected then spnavFd else -1

/-- What a call of `sb_poll_event` returns, `*ev` behind it, and what libspnav has left. -/
structure Polled where
  result : Int
  ev : SbEvent
  queue : List RawEvent

/-- `sb_poll_event`.  `spnav_poll_event` returns 0 when the queue is empty, whatever the
reason is. -/
def sbPollEvent (connected : Bool) (ev : SbEvent) (queue : List RawEvent) : Polled :=
  if !connected then ⟨-1, ev, queue⟩
  else
    match queue with
    | [] => ⟨0, ev, []⟩
    | .motion x y z rx ry rz :: rest => ⟨1, ⟨.motion, x, y, z, rx, ry, rz⟩, rest⟩
    | .button :: rest => ⟨1, { ev with type := .button }, rest⟩
    | .other :: rest => ⟨0, ev, rest⟩

/-! ## Draining -/

/-- What the loop around `sb_poll_event` hands to the controllers, its last result, and what
libspnav has left. -/
structure DrainedDevice where
  delivered : List SbEvent
  result : Int
  queue : List RawEvent

/-- `while((r = sb_poll_event(&ev)) > 0)` -/
def drainDevice (connected : Bool) : SbEvent → List RawEvent → DrainedDevice
  | ev, [] =>
      let last := sbPollEvent connected ev []
      ⟨[], last.result, last.queue⟩
  | ev, raw :: queue =>
      let next := sbPollEvent connected ev (raw :: queue)
      -- a result above 0 is the first event of the queue
      if 0 < next.result then
        let rest := drainDevice connected next.ev queue
        { rest with delivered := next.ev :: rest.delivered }
      else ⟨[], next.result, next.queue⟩

/-- **While it is connected the wrapper never has the result -1.** -/
theorem drainDevice_result (ev : SbEvent) (queue : List RawEvent) :
    (drainDevice true ev queue).result = 0 := by
  induction queue generalizing ev with
  | nil => rfl
  | cons raw queue ih =>
      cases raw with
      | motion x y z rx ry rz => exact ih _
      | button => exact ih _
      | other => rfl

/-- An event that is delivered was in the queue. -/
theorem drainDevice_queue (ev : SbEvent) (queue : List RawEvent) :
    (drainDevice true ev queue).delivered.length + (drainDevice true ev queue).queue.length ≤
      queue.length := by
  have delivers : ∀ (raw : RawEvent) (next : SbEvent) (queue : List RawEvent),
      (drainDevice true next queue).delivered.length +
        (drainDevice true next queue).queue.length ≤ queue.length →
      (next :: (drainDevice true next queue).delivered).length +
        (drainDevice true next queue).queue.length ≤ (raw :: queue).length := by
    intro raw next queue rest
    rw [List.length_cons, List.length_cons]
    omega
  induction queue generalizing ev with
  | nil => exact le_rfl
  | cons raw queue ih =>
      cases raw with
      | motion x y z rx ry rz => exact delivers (.motion x y z rx ry rz) _ queue (ih _)
      | button => exact delivers .button _ queue (ih _)
      | other => simp [drainDevice, sbPollEvent]

/-! ## The session -/

structure Session (F : Type) where
  bridge : Bridge F
  connected : Bool
  spnavFd : Int
  queue : List RawEvent

/-- What `poll` reports, with the device as libspnav has it. -/
structure DeviceReports where
  accepted : Option (Nat × Bool)
  /-- `revents` of the descriptor of libspnav -/
  spnav : UInt16
  /-- what spacenavd wrote since the last iteration -/
  arrived : List RawEvent
  /-- what is in `ev` before anything is assigned to it -/
  ev : SbEvent
  revents : Fin maxClients → UInt16

inductive DevicePoll where
  | interrupted
  | broken
  | ready (reports : DeviceReports)

variable {D F : Type} [CFloat F] [CDouble D F]

namespace Session

/-- `pfds[spnav_idx].revents`.  `poll` reports nothing for a descriptor below 0. -/
def spnavRevents (s : Session F) (reports : DeviceReports) : UInt16 :=
  if sbFd s.connected s.spnavFd < 0 then 0 else reports.spnav

/-- The device part of an iteration. -/
def drained (s : Session F) (reports : DeviceReports) : DrainedDevice :=
  if s.spnavRevents reports &&& pollIn ≠ 0 then
    drainDevice s.connected reports.ev (s.queue ++ reports.arrived)
  else ⟨[], 0, s.queue ++ reports.arrived⟩

/-- The reports of the main loop: `r < 0` is a connection that is lost. -/
def reports (s : Session F) (reports : DeviceReports) : Reports :=
  let drained := s.drained reports
  ⟨reports.accepted, drained.delivered, drained.result < 0, reports.revents⟩

def poll (s : Session F) : DevicePoll → PollResult
  | .interrupted => .interrupted
  | .broken => .broken
  | .ready reports => .ready (s.reports reports)

/-- What libspnav has left. -/
def left (s : Session F) : DevicePoll → List RawEvent
  | .ready reports => if s.bridge.running then (s.drained reports).queue else s.queue
  | _ => s.queue

/-- One iteration of the main loop; `sb_close` comes behind the last. -/
def iterate (p : Platform D) (s : Session F) (poll : DevicePoll) :
    Session F × List (SlotEvent F) :=
  let done := s.bridge.iterate p (s.poll poll)
  ({ s with
      bridge := done.1
      connected := s.connected && done.1.running
      queue := s.left poll },
    done.2)

/-- The session when `main` enters the loop: `sb_open` has succeeded. -/
def start (sensitivity : F) (saved : Option CStr) (spnavFd : Int) : Session F :=
  ⟨.start sensitivity saved, (sbOpen false 0).2, spnavFd, []⟩

end Session

/-- The main loop behind a successful `sb_open`. -/
def deviceLoop (p : Platform D) (sensitivity : F) (saved : Option CStr) (spnavFd : Int) :
    Machine (Session F) DevicePoll (List (SlotEvent F)) :=
  ⟨.start sensitivity saved spnavFd, Session.iterate p⟩

/-! ## The session and the main loop -/

/-- A connection that is not found lost. -/
def PollResult.Kept : PollResult → Prop
  | .ready reports => reports.lost = false
  | _ => True

namespace Session

variable {p : Platform D}

theorem drained_result {s : Session F} (connected : s.connected = true) (reports : DeviceReports) :
    (s.drained reports).result = 0 := by
  simp only [drained, connected]
  split
  · exact drainDevice_result _ _
  · rfl

theorem drained_queue {s : Session F} (connected : s.connected = true) (reports : DeviceReports) :
    (s.drained reports).delivered.length + (s.drained reports).queue.length ≤
      (s.queue ++ reports.arrived).length := by
  simp only [drained, connected]
  split
  · exact drainDevice_queue _ _
  · simp

theorem reports_kept {s : Session F} (connected : s.connected = true) (reports : DeviceReports) :
    (s.reports reports).lost = false := by
  show decide ((s.drained reports).result < 0) = false
  rw [drained_result connected]
  rfl

theorem poll_kept {s : Session F} (connected : s.connected = true) (poll : DevicePoll) :
    (s.poll poll).Kept := by
  cases poll with
  | ready reports => exact reports_kept connected reports
  | _ => trivial

/-- The device part of an iteration does not end the loop. -/
theorem iterate_running {s : Session F} (running : s.bridge.running = true)
    (connected : s.connected = true) (reports : DeviceReports) :
    (s.iterate p (.ready reports)).1.bridge.running = true := by
  show (s.bridge.iterate p (.ready (s.reports reports))).1.running = true
  rw [Bridge.iterate_ready s.bridge _ running (reports_kept connected reports)]
  rw [Bridge.each_running, Bridge.told_running, running]

/-- An iteration behind the last does nothing. -/
theorem iterate_ended {s : Session F} (ended : s.bridge.running = false) (poll : DevicePoll) :
    (s.iterate p poll).1.bridge = s.bridge := by
  show (s.bridge.iterate p (s.poll poll)).1 = s.bridge
  simp [Bridge.iterate, ended]

end Session

section Run

variable {p : Platform D} (sensitivity : F) (saved : Option CStr) (spnavFd : Int)
  (polls : List DevicePoll)

/-- The wrapper is connected as long as the loop goes on. -/
theorem connected_of_running
    (running : ((deviceLoop p sensitivity saved spnavFd).after polls).bridge.running = true) :
    ((deviceLoop p sensitivity saved spnavFd).after polls).connected = true := by
  induction polls using List.reverseRecOn with
  | nil => rfl
  | append_singleton polls poll ih =>
      rw [Machine.after_snoc] at running ⊢
      generalize (deviceLoop p sensitivity saved spnavFd).after polls = s at ih running ⊢
      have running : (s.bridge.iterate p (s.poll poll)).1.running = true := running
      have before : s.bridge.running = true := by
        by_contra ended
        have still := Session.iterate_ended (p := p) (by simpa using ended) poll
        exact ended (still ▸ running)
      show (s.connected && (s.bridge.iterate p (s.poll poll)).1.running) = true
      rw [ih before, running]
      rfl

/-- **The session is the main loop with the connection never lost.** -/
theorem session_bridge :
    ∃ results : List PollResult, (∀ result ∈ results, result.Kept) ∧
      ((deviceLoop p sensitivity saved spnavFd).after polls).bridge =
        (mainLoop p sensitivity saved).after results := by
  induction polls using List.reverseRecOn with
  | nil => exact ⟨[], by simp, rfl⟩
  | append_singleton polls poll ih =>
      obtain ⟨results, kept, same⟩ := ih
      have connected := connected_of_running (p := p) sensitivity saved spnavFd polls
      rw [Machine.after_snoc]
      generalize (deviceLoop p sensitivity saved spnavFd).after polls = s at same connected ⊢
      cases running : s.bridge.running with
      | false => exact ⟨results, kept, (Session.iterate_ended (p := p) running poll).trans same⟩
      | true =>
          refine ⟨results ++ [s.poll poll], ?_, ?_⟩
          · intro result member
            rcases List.mem_append.mp member with member | member
            · exact kept result member
            · rw [List.mem_singleton.mp member]
              exact Session.poll_kept (connected running) poll
          · rw [Machine.after_snoc, ← same]
            rfl

end Run

end SpnavBridge.Daemon
