/-
# Daemon.EventLoop -- the main loop: `poll`, `accept`, the device and the clients

`Bridge` is what lives as long as the process does.  An iteration computes what each client
waits for (`pollMask`), is told what `poll` reports, accepts a connection, hands the device
events to the controllers, and serves the clients that were polled, in the order of their
slots (`iterate`).

The iterations are a machine whose inputs are what `poll` came to; everything else that
comes from outside is in `Platform`.  It answers with the events of every slot.
-/
import SpnavBridge.Daemon.Slot

namespace SpnavBridge.Daemon

open SpnavBridge.Theory SpnavBridge.Wire SpnavBridge.Kernel

set_option autoImplicit false

def maxClients : Nat := 8
/-- Seconds. -/
def ioTimeout : Int := 10
/-- How often a client is read in one iteration. -/
def maxReads : Nat := 16

variable {D F : Type} [CFloat F] [CDouble D F]

/-- What `main` assigns when it has accepted a connection and has an `SSL` for it. -/
def Client.opened (cl : Client F) (fd : Nat) (now : Int) : Client F :=
  { cl with
    used := true
    fd := fd
    phase := .tls
    tlsWait := pollIn
    acceptedAt := now
    msgOpcode := -1
    msgbuf := []
    ssl := true }

/-! ## Waiting -/

/-- The events a client is polled for. -/
def pollMask (cl : Client F) : UInt16 :=
  if cl.phase = .tls then cl.tlsWait
  else if cl.out.writeLen ≠ 0 then cl.out.writeWait
  else
    let mask :=
      if cl.phase = .closing then 0 else if cl.readWait ≠ 0 then cl.readWait else pollIn
    if cl.out.outbuf ≠ [] then mask ||| pollOut else mask

/-- Whether the client, with `pending` bytes decrypted or not, makes `poll` return at once. -/
def hurries (cl : Client F) (pending : Bool) : Bool :=
  (cl.phase = .http || cl.phase = .ws) && cl.out.writeLen = 0 && pending

/-! ## Serving a client -/

namespace Stage

variable (p : Platform D)

/-- The error bits of `revents`, and the deadlines of the handshake and of the output. -/
def expired (events : UInt16) (now : Int) (cl : Client F) : Prop :=
  events &&& (pollHup ||| pollErr ||| pollNval) ≠ 0 ∨
    ((cl.phase = .tls ∨ cl.phase = .http) ∧ now - cl.acceptedAt ≥ ioTimeout) ∨
    (cl.out.outbuf ≠ [] ∧ now - cl.out.writeStarted ≥ ioTimeout)

instance (events : UInt16) (now : Int) (cl : Client F) : Decidable (expired events now cl) :=
  inferInstanceAs (Decidable (_ ∨ _))

def checkDeadlines (events : UInt16) : Stage F := fun sh cl =>
  let now := p.clock sh.calls
  ⟨{ sh with calls := sh.calls + 1 }, if expired events now cl then cl.fail else cl,
    [.checked now]⟩

/-- `SSL_accept` -/
def accept : Stage F := fun sh cl =>
  let sh' := { sh with calls := sh.calls + 1 }
  match p.sslAccept sh.calls with
  | .done => ⟨sh', { cl with phase := .http }, [.sslAccept .done, .phase .http]⟩
  | .wantRead => ⟨sh', { cl with tlsWait := pollIn }, [.sslAccept .wantRead]⟩
  | .wantWrite => ⟨sh', { cl with tlsWait := pollOut }, [.sslAccept .wantWrite]⟩
  | .failed => ⟨sh', cl.fail, [.sslAccept .failed]⟩

def handshake (events : UInt16) : Stage F := fun sh cl =>
  if !cl.out.failed ∧ cl.phase = .tls ∧ events &&& cl.tlsWait ≠ 0 then accept p sh cl
  else ⟨sh, cl, []⟩

/-- `flush_output` -/
def flush : Stage F := fun sh cl =>
  let done := cl.out.flushOutput (p.clock (sh.calls + 1)) (p.sslWrite sh.calls)
  ⟨{ sh with calls := sh.calls + 2 }, { cl with out := done.1 },
    done.2.toList.map .output⟩

def write (events : UInt16) : Stage F := fun sh cl =>
  if cl.out.outbuf ≠ [] ∧ cl.readWait ≠ pollOut ∧
      (cl.out.writeWait = 0 ∨ events &&& cl.out.writeWait ≠ 0) then flush p sh cl
  else ⟨sh, cl, []⟩

/-- Reads into the free space of `inbuf`, as often as `reads` allows.  It stops on a client
that has no room left, that is done, or that has nothing more decrypted. -/
def readLoop : Nat → Stage F
  | 0 => fun sh cl => ⟨sh, cl, []⟩
  | reads + 1 => fun sh cl =>
      if cl.inbuf.length = inputBufSize then ⟨sh, cl.fail, []⟩
      else
        let sh' := { sh with calls := sh.calls + 1 }
        match p.sslRead sh.calls (inputBufSize - cl.inbuf.length) with
        | .wantRead => ⟨sh', { cl with readWait := pollIn }, [.sslRead .wantRead]⟩
        | .wantWrite => ⟨sh', { cl with readWait := pollOut }, [.sslRead .wantWrite]⟩
        | .failed => ⟨sh', cl.fail, [.sslRead .failed]⟩
        | .got chunk _ _ =>
            let read := Outcome.andThen
              ⟨sh', { cl with readWait := 0, inbuf := cl.inbuf ++ chunk }, [.sslRead (.got chunk)]⟩
              (processClientBuffer p)
            read.andThen fun sh cl =>
              let sh' := { sh with calls := sh.calls + 1 }
              if cl.phase = .closing ∨ cl.out.failed ∨ !p.sslPending sh.calls then ⟨sh', cl, []⟩
              else readLoop reads sh' cl

/-- The event that lets `SSL_read` go on. -/
def readEvent (cl : Client F) : UInt16 := if cl.readWait ≠ 0 then cl.readWait else pollIn

/-- A pending `SSL_write` goes before any other operation. -/
def read (events : UInt16) : Stage F := fun sh cl =>
  let sh' := { sh with calls := sh.calls + 1 }
  if cl.out.writeLen = 0 ∧ cl.phase ≠ .closing ∧
      (events &&& readEvent cl ≠ 0 ∨ p.sslPending sh.calls) then readLoop p maxReads sh' cl
  else ⟨sh', cl, []⟩

def transfer (events : UInt16) : Stage F := fun sh cl =>
  if !cl.out.failed ∧ cl.phase ≠ .tls then (write p events sh cl).andThen (read p events)
  else ⟨sh, cl, []⟩

/-- Closes a client that has failed, or is done and has nothing left to send. -/
def finish : Stage F := fun sh cl =>
  if cl.out.failed ∨ (cl.phase = .closing ∧ cl.out.outbuf = []) then ⟨sh, .closed, [.closed]⟩
  else ⟨sh, cl, []⟩

/-- What an iteration does for a client that was polled, up to the point where it may be
closed. -/
def attend (events : UInt16) : Stage F := fun sh cl =>
  ((checkDeadlines p events sh cl).andThen (handshake p events)).andThen (transfer p events)

def serve (events : UInt16) : Stage F := fun sh cl => (attend p events sh cl).andThen finish

/-! ## The device -/

/-- `controller_on_spnav_event`, for a client that has a controller. -/
def spnavEvent (ev : SbEvent) : Stage F := fun sh cl =>
  match cl.ctrl with
  | some ctrl =>
      if cl.used then
        let done := controllerOnSpnavEvent (D := D) (p.envs sh.calls) ctrl ev
        performAll p (done.2.map (clientSend p.toOutside)) { sh with calls := sh.calls + 1 }
          { cl with ctrl := some done.1 }
      else ⟨sh, cl, []⟩
  | none => ⟨sh, cl, []⟩

end Stage

/-! ## The process -/

structure Bridge (F : Type) where
  shared : Shared F
  clients : Fin maxClients → Client F
  running : Bool

/-- The event of a slot. -/
abbrev SlotEvent (F : Type) := Fin maxClients × Event F

/-- What `poll` reports: a connection that `accept4` gives a descriptor for, with or without
an `SSL` for it; the device events that are read, and whether the connection to spacenavd is
lost behind them; and `revents` of the clients. -/
structure Reports where
  accepted : Option (Nat × Bool)
  device : List SbEvent
  lost : Bool
  revents : Fin maxClients → UInt16

/-- What `poll` comes to. -/
inductive PollResult where
  | interrupted
  | broken
  | ready (reports : Reports)

/-- The sensitivity that an event says was assigned. -/
def Event.assigned? : Event F → Option F
  | .act (.assign value) => some value
  | _ => none

/-- Tells a client of the changes of the sensitivity among the events of another. -/
def Client.hear (cl : Client F) (events : List (Event F)) : Client F :=
  (events.filterMap Event.assigned?).foldl (fun cl value => cl.assign value) cl

namespace Bridge

/-- Runs a stage on a slot. -/
def at_ (b : Bridge F) (i : Fin maxClients) (stage : Stage F) : Bridge F × List (SlotEvent F) :=
  let done := stage b.shared (b.clients i)
  ({ b with
      shared := done.shared
      clients := fun j => if j = i then done.client else (b.clients j).hear done.events },
    done.events.map (i, ·))

/-- Runs a stage on slot after slot. -/
def each (b : Bridge F) (stage : Fin maxClients → Stage F) (slots : List (Fin maxClients)) :
    Bridge F × List (SlotEvent F) :=
  slots.foldl (fun done i =>
    let next := done.1.at_ i (stage i)
    (next.1, done.2 ++ next.2)) (b, [])

/-- The timeout of `poll` in milliseconds.  `pending` is what `SSL_pending` says of each
client. -/
def pollTimeout (b : Bridge F) (pending : Fin maxClients → Bool) : Nat :=
  if (List.finRange maxClients).any fun i =>
    (b.clients i).used && hurries (b.clients i) (pending i) then 0
  else 1000

/-- `find_free_slot` -/
def findFreeSlot (b : Bridge F) : Option (Fin maxClients) :=
  (List.finRange maxClients).find? fun i => !(b.clients i).used

variable (p : Platform D)

/-- A new connection on a free slot; without an `SSL` it is closed again. -/
def openClient (fd : Nat) (ssl : Bool) : Stage F := fun sh cl =>
  let sh' := { sh with calls := sh.calls + 1 }
  if ssl then ⟨sh', cl.opened fd (p.clock sh.calls), [.opened]⟩
  else ⟨sh', .closed, [.opened, .closed]⟩

def acceptClient (b : Bridge F) (accepted : Option (Nat × Bool)) :
    Bridge F × List (SlotEvent F) :=
  match accepted, b.findFreeSlot with
  | some (fd, ssl), some i => b.at_ i (openClient p fd ssl)
  | _, _ => (b, [])

/-- Every controller is given every event. -/
def fanOut (b : Bridge F) (device : List SbEvent) : Bridge F × List (SlotEvent F) :=
  device.foldl (fun done ev =>
    let next := done.1.each (fun _ => Stage.spnavEvent p ev) (List.finRange maxClients)
    (next.1, done.2 ++ next.2)) (b, [])

/-- Closes a client that is still there. -/
def dropClient : Stage F := fun sh cl =>
  if cl.used then ⟨sh, .closed, [.closed]⟩ else ⟨sh, cl, []⟩

/-- The end of `main`. -/
def shutDown (b : Bridge F) : Bridge F × List (SlotEvent F) :=
  let done := b.each (fun _ => dropClient) (List.finRange maxClients)
  ({ done.1 with running := false }, done.2)

/-- A client that was polled, unless it is gone. -/
def servePolled (polled : Bool) (events : UInt16) : Stage F := fun sh cl =>
  if polled ∧ cl.used then Stage.serve p events sh cl else ⟨sh, cl, []⟩

/-- One iteration of the main loop. -/
def iterate (b : Bridge F) (poll : PollResult) : Bridge F × List (SlotEvent F) :=
  if !b.running then (b, [])
  else
    match poll with
    | .interrupted => (b, [])
    | .broken => b.shutDown
    | .ready reports =>
        let accepted := b.acceptClient p reports.accepted
        let told := accepted.1.fanOut p reports.device
        let done :=
          if reports.lost then told.1.shutDown
          else told.1.each (fun i => servePolled p (b.clients i).used (reports.revents i))
            (List.finRange maxClients)
        (done.1, accepted.2 ++ told.2 ++ done.2)

/-- The process when it enters the main loop. -/
def start (sensitivity : F) (saved : Option CStr) : Bridge F :=
  ⟨⟨sensitivity, saved, 0⟩, fun _ => .closed, true⟩

end Bridge

/-- The main loop, from a start-up that settled on a sensitivity. -/
def mainLoop (p : Platform D) (sensitivity : F) (saved : Option CStr) :
    Machine (Bridge F) PollResult (List (SlotEvent F)) :=
  ⟨.start sensitivity saved, Bridge.iterate p⟩

end SpnavBridge.Daemon
