/-
# Daemon.Slot -- `struct client` as it is in memory, and `process_client_buffer`

`Client` has the fields of the source, each free of the others: a phase next to a controller
that may be NULL, an opcode next to a message length.  What connects them is proved, not
built in.

A stage is what one piece of main.c does with a client and with what all clients share.  It
puts out events, oldest first, and stages are run one after the other by `andThen`.  A
request that changes the sensitivity is an `assign` event; the other clients are told by
whoever runs the stage.
-/
import SpnavBridge.Daemon.Client
import SpnavBridge.Daemon.Queue

namespace SpnavBridge.Daemon

open SpnavBridge.Theory SpnavBridge.Wire SpnavBridge.Kernel

set_option autoImplicit false

/-! ## OpenSSL -/

/-- What `SSL_accept` comes to. -/
inductive AcceptVerdict where
  | done
  | wantRead
  | wantWrite
  | failed
  deriving DecidableEq

/-- What `SSL_read` into `room` bytes comes to. -/
inductive ReadResult (room : Nat) where
  | got (chunk : List UInt8) (some_ : chunk ≠ []) (fits : chunk.length ≤ room)
  | wantRead
  | wantWrite
  | failed

inductive ReadVerdict where
  | got (chunk : List UInt8)
  | wantRead
  | wantWrite
  | failed
  deriving DecidableEq

/-! ## Data -/

/-- `enum client_phase` -/
inductive ClientPhase where
  | tls
  | http
  | ws
  | closing
  deriving DecidableEq

/-- `struct client`.  `ssl` says whether the pointer is there, and `msgbuf` and `inbuf` are
the bytes in use. -/
structure Client (F : Type) where
  used : Bool
  fd : Int
  ssl : Bool
  phase : ClientPhase
  ctrl : Option (Controller F)
  inbuf : List UInt8
  out : Queue
  tlsWait : UInt16
  readWait : UInt16
  acceptedAt : Int
  msgbuf : List UInt8
  msgOpcode : Int

/-- What the clients share: `g_sensitivity`, the text of `sensitivity.conf`, and how many
calls have gone outside. -/
structure Shared (F : Type) where
  sensitivity : F
  saved : Option CStr
  calls : Nat

/-- `Outside`, and what the event loop is told, call by call: the time of CLOCK_MONOTONIC,
what OpenSSL does, and whether `controller_create` gets its memory. -/
structure Platform (D : Type) extends Outside D where
  clock : Nat → Int
  monotone : ∀ {m n : Nat}, m ≤ n → clock m ≤ clock n
  sslAccept : Nat → AcceptVerdict
  sslWrite : Nat → (len : Nat) → WriteResult len
  sslRead : Nat → (room : Nat) → ReadResult room
  sslPending : Nat → Bool
  created : Nat → Bool

/-- What happens to a client, as far as statements about runs look at it. -/
inductive Event (F : Type) where
  | opened
  /-- the deadlines are checked at this time -/
  | checked (now : Int)
  | phase (phase : ClientPhase)
  | act (act : Act F)
  | output (event : QueueEvent)
  | sslAccept (verdict : AcceptVerdict)
  | sslRead (verdict : ReadVerdict)
  | closed

namespace Client

variable {F : Type}

/-- `memset(cl, 0, sizeof *cl)` -/
def zeroed : Client F := ⟨false, 0, false, .tls, none, [], .zeroed, 0, 0, 0, [], 0⟩

/-- What `close_client` leaves. -/
def closed : Client F := { zeroed with fd := -1 }

def fail (cl : Client F) : Client F := { cl with out := { cl.out with failed := true } }

end Client

/-! ## Stages -/

structure Outcome (F : Type) where
  shared : Shared F
  client : Client F
  events : List (Event F)

def Stage (F : Type) := Shared F → Client F → Outcome F

namespace Outcome

variable {F : Type}

/-- `next`, from where `d` has led. -/
def andThen (d : Outcome F) (next : Stage F) : Outcome F :=
  { next d.shared d.client with events := d.events ++ (next d.shared d.client).events }

end Outcome

variable {D F : Type} [CFloat F] [CDouble D F]

/-- Tells a client's controller the sensitivity. -/
def Client.assign (sensitivity : F) (cl : Client F) : Client F :=
  if cl.used then
    { cl with ctrl := cl.ctrl.map fun c => (controllerSetSensitivity c sensitivity).1 }
  else cl

namespace Stage

variable (p : Platform D)

/-- Notes an event that changes nothing here. -/
def note (act : Act F) : Stage F := fun sh cl => ⟨sh, cl, [.act act]⟩

/-- `cl->phase = phase` -/
def enter (phase : ClientPhase) : Stage F := fun sh cl => ⟨sh, { cl with phase }, [.phase phase]⟩

def queueOutput (data : List UInt8) : Stage F := fun sh cl =>
  let done := cl.out.queueOutput (p.clock sh.calls) data
  ⟨{ sh with calls := sh.calls + 1 }, { cl with out := done.1 }, [.output done.2]⟩

/-- `g_sensitivity = value`, and this client's controller is told. -/
def assign (value : F) : Stage F := fun sh cl =>
  ⟨{ sh with sensitivity := value }, cl.assign value, [.act (.assign value)]⟩

/-- What a handler did, on the client. -/
def perform : Act F → Stage F
  | .queue data => queueOutput p data
  | .reject => fun sh cl => ⟨sh, cl.fail, [.act .reject]⟩
  | .assign value => assign value
  | act => note act

def performAll : List (Act F) → Stage F
  | [] => fun sh cl => ⟨sh, cl, []⟩
  | act :: acts => fun sh cl => (perform p act sh cl).andThen (performAll acts)

/-! ## Requests -/

/-- `handle_http_request`.  The handlers are given no other controllers, since those are
told by the `assign` they report. -/
def handleRequest (req : HttpRequest) (body : List UInt8) : Stage F := fun sh cl =>
  let handled := handleHttpRequest p.toOutside ⟨sh.sensitivity, [], sh.saved, sh.calls⟩ req body
  let sh' := { sh with saved := handled.1.saved, calls := sh.calls + 1 }
  let start := note (.request req body) sh' cl
  match handled.2.1 with
  | none => (start.andThen (performAll p handled.2.2)).andThen (enter .closing)
  | some ctrl =>
      if p.created sh.calls then
        (start.andThen (performAll p handled.2.2)).andThen fun sh cl =>
          enter .ws sh { cl with ctrl := some ctrl }
      else
        -- the 101 is queued before `controller_create` returns NULL
        (start.andThen (performAll p (handled.2.2.take 1))).andThen (enter .closing)

/-! ## Frames -/

/-- `controller_on_message` on the whole message.  The pointer is never NULL here. -/
def deliver : Stage F := fun sh cl =>
  match cl.ctrl with
  | none => ⟨sh, cl, []⟩
  | some ctrl =>
      let done := controllerOnMessage p.lib (p.envs sh.calls) ctrl cl.msgbuf
      let told := (note (.message cl.msgbuf done.2.2) { sh with calls := sh.calls + 1 }
        { cl with ctrl := some done.1 }).andThen
          (performAll p (done.2.1.map (clientSend p.toOutside)))
      if done.2.2 ≠ 0 then told.andThen (enter .closing) else told

/-- A fresh TEXT or BIN frame starts a message. -/
def openMessage (opcode : UInt8) (cl : Client F) : Client F :=
  if opcode ≠ wsOpCont then { cl with msgOpcode := opcode.toNat, msgbuf := [] } else cl

/-- The message is text. -/
def isText (cl : Client F) : Prop := cl.msgOpcode = wsOpText.toNat

instance (cl : Client F) : Decidable (isText cl) := inferInstanceAs (Decidable (_ = _))

/-- A TEXT, BIN or CONT frame on a client whose message is open, with room for it. -/
def appendFrame (frame : Frame) : Stage F := fun sh cl =>
  let cl := if isText cl then { cl with msgbuf := cl.msgbuf ++ frame.payload } else cl
  let told := if frame.fin ∧ isText cl then deliver p sh cl else ⟨sh, cl, []⟩
  if frame.fin then
    { told with client := { told.client with msgOpcode := -1, msgbuf := [] } }
  else told

/-- A PING. -/
def answerPing (payload : List UInt8) : Stage F := performAll p (pong payload)

/-- The `switch` on the opcode, and whether the frame is consumed. -/
def handleFrame (frame : Frame) (sh : Shared F) (cl : Client F) : Outcome F × Bool :=
  if frame.opcode = wsOpText ∨ frame.opcode = wsOpBin ∨ frame.opcode = wsOpCont then
    let opened := openMessage frame.opcode cl
    if isText opened ∧ opened.msgbuf.length + frame.payload.length > msgBufSize then
      (enter .closing sh opened, false)
    else (appendFrame p frame sh opened, true)
  else if frame.opcode = wsOpPing then (answerPing p frame.payload sh cl, true)
  else if frame.opcode = wsOpClose then (enter .closing sh cl, true)
  else (⟨sh, cl, []⟩, true)

/-! ## The loop -/

/-- One turn of the loop in `process_client_buffer` on `inbuf[0 .. inlen)`, `none` where it
returns. -/
def processTurn (s : Shared F × Client F) (buf : List UInt8) :
    Option ((Shared F × Client F) × List UInt8 × List (Event F)) :=
  let result (done : Outcome F) (rest : List UInt8) :=
    some ((done.shared, done.client), rest, done.events)
  match s.2.phase with
  | .http =>
      match httpParseRequest buf with
      | .incomplete => none
      | .malformed => result (enter .closing s.1 s.2) buf
      | .done (n, req) =>
          if req.contentLength > bodyMax then result (enter .closing s.1 s.2) buf
          else if buf.length < n + req.contentLength then none
          else
            result (handleRequest p req ((buf.drop n).take req.contentLength) s.1 s.2)
              (buf.drop (n + req.contentLength))
  | .ws =>
      match wsDecodeFrame buf with
      | .incomplete => none
      | .malformed => result (enter .closing s.1 s.2) buf
      | .done frame =>
          let handled := handleFrame p frame s.1 s.2
          result handled.1 (if handled.2 then buf.drop frame.consumed else buf)
  | _ => none

/-- `process_client_buffer`: the turns, as long as there is one. -/
def processClientBuffer : Stage F := fun sh cl =>
  let done := drain (processTurn p) (sh, cl) cl.inbuf
  ⟨done.state.1, { done.state.2 with inbuf := done.rest }, done.out⟩

end Stage

end SpnavBridge.Daemon
