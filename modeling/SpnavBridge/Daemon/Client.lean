/-
# Daemon.Client -- one connection of main.c: its buffers, its phases and its reads

`processOnce` is one turn of the loop in `process_client_buffer`, and the loop is `drain`.
A turn decides on the bytes at the front of `inbuf` alone (`incremental_processOnce`), so
what a connection does is a function of the bytes it received (`Tracks`).  That holds for
both ways a schedule of reads and flushes is run,

* `pump`: `process_client_buffer` after each read, until the phase is closing;
* `serve`: the read loop of `main`, which also gives up on a failed connection and fails
  one whose input buffer is full.

Reads are what `SSL_read` returned: not empty, and no more than the free space, so a
schedule that has any other read runs to `none`.
-/
import SpnavBridge.Daemon.Output

namespace SpnavBridge.Daemon

open SpnavBridge.Theory SpnavBridge.Wire SpnavBridge.Kernel

set_option autoImplicit false

/-! ## Reassembly -/

/-- `msg_opcode` and `msgbuf[0 .. msglen)`. -/
structure Reassembly where
  opcode : Option UInt8
  msgbuf : List UInt8
  bounded : msgbuf.length ≤ msgBufSize
  deriving DecidableEq

namespace Reassembly

/-- No message in progress. -/
def idle : Reassembly := ⟨none, [], Nat.zero_le _⟩

def start (opcode : UInt8) : Reassembly := ⟨some opcode, [], Nat.zero_le _⟩

/-- A fresh TEXT or BIN frame starts a new message, a CONT frame goes on with the old one. -/
def opened (msg : Reassembly) (opcode : UInt8) : Reassembly :=
  if opcode ≠ wsOpCont then start opcode else msg

/-- Takes a payload, unless the message gets longer than `MSG_BUF_SIZE`. -/
def append (msg : Reassembly) (payload : List UInt8) : Option Reassembly :=
  if fits : msg.msgbuf.length + payload.length ≤ msgBufSize then
    some ⟨msg.opcode, msg.msgbuf ++ payload, by rw [List.length_append]; exact fits⟩
  else none

theorem append_of_fits {msg : Reassembly} {payload : List UInt8}
    (fits : msg.msgbuf.length + payload.length ≤ msgBufSize) :
    msg.append payload = some ⟨msg.opcode, msg.msgbuf ++ payload, by
      rw [List.length_append]; exact fits⟩ := dif_pos fits

end Reassembly

/-! ## Phases -/

/-- `enum client_phase` after the TLS handshake, with the fields that matter in each. -/
inductive Phase (F : Type) where
  | http
  | ws (ctrl : Controller F) (msg : Reassembly)
  | closing (ctrl : Option (Controller F))

def Phase.isClosing {F : Type} : Phase F → Bool
  | .closing _ => true
  | _ => false

/-- What `process_client_buffer` reads and writes, but for the input buffer. -/
structure Served (F : Type) where
  world : World F
  phase : Phase F

variable {D F : Type} [CFloat F] [CDouble D F]

/-! ## Frames -/

/-- A whole text message: `controller_on_message`, and what follows from its verdict. -/
def deliver (o : Outside D) (w : World F) (ctrl : Controller F) (payload : List UInt8) :
    Served F × List (Act F) :=
  let done := controllerOnMessage o.lib (o.envs w.calls) ctrl payload
  (⟨{ w with calls := w.calls + 1 },
      if done.2.2 ≠ 0 then .closing (some done.1) else .ws done.1 .idle⟩,
    .message payload done.2.2 :: done.2.1.map (clientSend o))

/-- TEXT, BIN and CONT frames, once `msg` is the message they belong to; `none` for a
message over the limit. -/
def appendData (o : Outside D) (w : World F) (ctrl : Controller F) (msg : Reassembly)
    (frame : Frame) : Option (Served F × List (Act F)) :=
  if msg.opcode = some wsOpText then
    match msg.append frame.payload with
    | none => none
    | some msg =>
        if frame.fin then some (deliver o w ctrl msg.msgbuf)
        else some (⟨w, .ws ctrl msg⟩, [])
  else some (⟨w, .ws ctrl (if frame.fin then .idle else msg)⟩, [])

def pong (payload : List UInt8) : List (Act F) :=
  match wsEncodeFrame bufSize wsOpPong payload with
  | some frame => [.queue frame]
  | none => []

/-- The PONG frame that answers a ping. -/
def pongFrame (payload : List UInt8) : List UInt8 :=
  (0x80 ||| wsOpPong) :: UInt8.ofNat payload.length :: payload

omit [CFloat F] in
theorem pong_eq {payload : List UInt8} (short : payload.length ≤ 125) :
    (pong payload : List (Act F)) = [.queue (pongFrame payload)] := by
  have size : wsLength payload.length = (UInt8.ofNat payload.length, []) := if_pos (by omega)
  have fits : ¬ (payload.length > intMax - 2 ∨ bufSize < 2 ∨ payload.length > bufSize - 2) := by
    unfold intMax bufSize
    omega
  unfold pong wsEncodeFrame
  rw [size]
  simp only [List.length_nil, Nat.add_zero, if_neg fits]
  rfl

/-- The `switch` on the opcode. -/
def handleFrame (o : Outside D) (w : World F) (ctrl : Controller F) (msg : Reassembly)
    (frame : Frame) : Option (Served F × List (Act F)) :=
  if frame.opcode = wsOpText ∨ frame.opcode = wsOpBin ∨ frame.opcode = wsOpCont then
    appendData o w ctrl (msg.opened frame.opcode) frame
  else if frame.opcode = wsOpPing then some (⟨w, .ws ctrl msg⟩, pong frame.payload)
  else if frame.opcode = wsOpClose then some (⟨w, .closing (some ctrl)⟩, [])
  else some (⟨w, .ws ctrl msg⟩, [])

/-! ## The loop -/

/-- `PHASE_HTTP`: a request and its body. -/
def readRequest (o : Outside D) (w : World F) : Peek UInt8 (Served F × Nat × List (Act F)) := do
  let (n, req) ← httpParseRequest
  if req.contentLength > bodyMax then Peek.fail
  else do
    let body ← Peek.slice n req.contentLength
    let handled := handleHttpRequest o w req body
    let phase := match handled.2.1 with
      | some ctrl => .ws ctrl .idle
      | none => .closing none
    pure (⟨handled.1, phase⟩, n + req.contentLength, .request req body :: handled.2.2)

/-- `PHASE_WS`: a frame. -/
def readFrame (o : Outside D) (w : World F) (ctrl : Controller F) (msg : Reassembly) :
    Peek UInt8 (Served F × Nat × List (Act F)) := do
  let frame ← wsDecodeFrame
  match handleFrame o w ctrl msg frame with
  | none => Peek.fail
  | some (s', acts) => pure (s', frame.consumed, acts)

def readOnce (o : Outside D) (s : Served F) : Peek UInt8 (Served F × Nat × List (Act F)) :=
  match s.phase with
  | .http => readRequest o s.world
  | .ws ctrl msg => readFrame o s.world ctrl msg
  | .closing _ => Peek.wait

/-- What refused input does to a connection. -/
def Served.close (s : Served F) : Served F :=
  ⟨s.world, match s.phase with
    | .http => .closing none
    | .ws ctrl _ => .closing (some ctrl)
    | .closing ctrl => .closing ctrl⟩

/-- One turn of the loop in `process_client_buffer`, `none` where it returns to wait. -/
def processOnce (o : Outside D) : Served F → List UInt8 →
    Option (Served F × List UInt8 × List (Act F)) :=
  turn (readOnce o) Served.close

theorem processOnce_of_done {o : Outside D} {s s' : Served F} {buf : List UInt8} {n : Nat}
    {acts : List (Act F)} (verdict : readOnce o s buf = .done (s', n, acts)) :
    processOnce o s buf = some (s', buf.drop n, acts) := turn_of_done verdict

theorem processOnce_of_incomplete {o : Outside D} {s : Served F} {buf : List UInt8}
    (verdict : readOnce o s buf = .incomplete) : processOnce o s buf = none :=
  turn_of_incomplete verdict

theorem processOnce_of_malformed {o : Outside D} {s : Served F} {buf : List UInt8}
    (verdict : readOnce o s buf = .malformed) : processOnce o s buf = some (s.close, buf, []) :=
  turn_of_malformed verdict

theorem readRequest_eq_done {o : Outside D} {w : World F} {buf : List UInt8} {s' : Served F}
    {n : Nat} {acts : List (Act F)} (verdict : readRequest o w buf = .done (s', n, acts)) :
    ∃ size req body, httpParseRequest buf = .done (size, req) ∧ req.contentLength ≤ bodyMax ∧
      size + req.contentLength ≤ buf.length ∧ n = size + req.contentLength ∧
      s'.world = (handleHttpRequest o w req body).1 ∧
      s'.phase = (match (handleHttpRequest o w req body).2.1 with
        | some ctrl => .ws ctrl .idle
        | none => .closing none) ∧
      acts = .request req body :: (handleHttpRequest o w req body).2.2 := by
  obtain ⟨⟨size, req⟩, parsed, verdict⟩ := Peek.bind_eq_done verdict
  obtain ⟨short, verdict⟩ := Peek.guard_eq_done verdict
  obtain ⟨body, held, verdict⟩ := Peek.bind_eq_done verdict
  cases verdict
  exact ⟨size, req, body, parsed, not_lt.mp short, (Peek.slice_eq_done held).1, rfl, rfl, rfl, rfl⟩

theorem readRequest_of_parsed {o : Outside D} {w : World F} {buf : List UInt8} {size : Nat}
    {req : HttpRequest} (parsed : httpParseRequest buf = .done (size, req))
    (short : req.contentLength ≤ bodyMax) (whole : size + req.contentLength ≤ buf.length) :
    ∃ verdict, readRequest o w buf = .done verdict := by
  have body : Peek.slice size req.contentLength buf =
      .done ((buf.drop size).take req.contentLength) := if_neg (not_lt.mpr whole)
  rw [readRequest, Peek.bind_of_done parsed]
  simp only [if_neg (not_lt.mpr short)]
  rw [Peek.bind_of_done body]
  exact ⟨_, rfl⟩

theorem readFrame_eq_done {o : Outside D} {w : World F} {ctrl : Controller F} {msg : Reassembly}
    {buf : List UInt8} {s' : Served F} {n : Nat} {acts : List (Act F)}
    (verdict : readFrame o w ctrl msg buf = .done (s', n, acts)) :
    ∃ frame, wsDecodeFrame buf = .done frame ∧
      handleFrame o w ctrl msg frame = some (s', acts) ∧ n = frame.consumed := by
  obtain ⟨frame, decoded, verdict⟩ := Peek.bind_eq_done verdict
  cases handled : handleFrame o w ctrl msg frame with
  | none => simp [handled, Peek.fail] at verdict
  | some done =>
      rw [handled] at verdict
      cases verdict
      exact ⟨frame, decoded, handled, rfl⟩

theorem stable_readOnce (o : Outside D) (s : Served F) : (readOnce o s).Stable := by
  obtain ⟨w, phase⟩ := s
  cases phase with
  | http =>
      apply Peek.stable_bind stable_httpParseRequest
      intro parsed
      apply Peek.stable_ite Peek.stable_fail
      exact Peek.stable_bind (Peek.stable_slice _ _) fun body => Peek.stable_pure _
  | ws ctrl msg =>
      apply Peek.stable_bind stable_wsDecodeFrame
      intro frame
      cases handled : handleFrame o w ctrl msg frame with
      | none => exact Peek.stable_fail
      | some done => exact Peek.stable_pure _
  | closing ctrl => exact Peek.stable_wait

/-- **A turn decides on the front of the buffer**, and consumes something or is the last. -/
theorem incremental_processOnce (o : Outside D) : Incremental (processOnce (F := F) o) := by
  refine incremental_turn (stable_readOnce o) ?_ ?_
  · rintro ⟨w, phase⟩ buf s' n acts verdict
    cases phase with
    | http =>
        obtain ⟨size, req, body, parsed, -, whole, rfl, -⟩ := readRequest_eq_done verdict
        have pos := (consumed_of_httpParseRequest parsed).1
        exact ⟨by omega, whole⟩
    | ws ctrl msg =>
        obtain ⟨frame, decoded, -, rfl⟩ := readFrame_eq_done verdict
        exact consumed_of_wsDecodeFrame decoded
    | closing ctrl => cases verdict
  · rintro ⟨w, phase⟩ buf
    cases phase <;> rfl

/-- Without input there is nothing to do. -/
theorem processOnce_nil (o : Outside D) (s : Served F) : processOnce o s [] = none := by
  obtain ⟨w, phase⟩ := s
  cases phase <;> rfl

theorem processOnce_closing (o : Outside D) {s : Served F} (closing : s.phase.isClosing = true)
    (buf : List UInt8) : processOnce o s buf = none := by
  obtain ⟨w, phase⟩ := s
  cases phase with
  | closing ctrl => rfl
  | http => cases closing
  | ws ctrl msg => cases closing

/-! ## Connections -/

/-- `struct client`, and the history of the connection. -/
structure Connection (F : Type) where
  served : Served F
  inbuf : List UInt8
  inFits : inbuf.length ≤ inputBufSize
  out : Output
  -- the bytes read and what was done with them, since the start
  received : List UInt8
  log : List (Act F)

/-- What `SSL_read` and `SSL_write` do, one after the other. -/
inductive Io where
  | read (chunk : List UInt8)
  | flush (n : Nat)

/-- The bytes a step offers. -/
def Io.chunk : Io → List UInt8
  | .read chunk => chunk
  | .flush _ => []

/-! ## Runs -/

section Runs

variable {σ : Type} {step : σ → Io → Option σ}

/-- A schedule of reads and flushes. -/
def run (step : σ → Io → Option σ) (s : σ) (ios : List Io) : Option σ := ios.foldlM step s

theorem run_cons {s s' : σ} {io : Io} {ios : List Io} (ran : run step s (io :: ios) = some s') :
    ∃ next, step s io = some next ∧ run step next ios = some s' := by
  rw [run, List.foldlM_cons] at ran
  exact Option.bind_eq_some_iff.mp ran

/-- What every step keeps, a run keeps. -/
theorem run_keeps {I : σ → Prop} (keep : ∀ s io s', step s io = some s' → I s → I s')
    {ios : List Io} : ∀ {s s' : σ}, run step s ios = some s' → I s → I s' := by
  induction ios with
  | nil =>
      intro s s' ran start
      cases ran
      exact start
  | cons io ios ih =>
      intro s s' ran start
      obtain ⟨next, stepped, later⟩ := run_cons ran
      exact ih later (keep s io next stepped start)

end Runs

/-! ## Steps of a connection -/

namespace Connection

/-- A connection with nothing buffered. -/
def fresh (s : Served F) : Connection F := ⟨s, [], Nat.zero_le _, .fresh, [], []⟩

/-- A read into the free space of `inbuf`, and `process_client_buffer`. -/
def receive (o : Outside D) (c : Connection F) (chunk : List UInt8) : Option (Connection F) :=
  if fits : chunk ≠ [] ∧ c.inbuf.length + chunk.length ≤ inputBufSize then
    let done := drain (processOnce o) c.served (c.inbuf ++ chunk)
    some {
      served := done.state
      inbuf := done.rest
      inFits := by
        apply (drain_rest_le (incremental_processOnce o) c.served (c.inbuf ++ chunk)).trans
        rw [List.length_append]
        exact fits.2
      out := done.out.foldl Output.emit c.out
      received := c.received ++ chunk
      log := c.log ++ done.out }
  else none

/-- `process_client_buffer` after each read, until the phase is closing. -/
def pump (o : Outside D) (c : Connection F) : Io → Option (Connection F)
  | .read chunk => if c.served.phase.isClosing then some c else c.receive o chunk
  | .flush n => some { c with out := c.out.flush n }

/-- The read loop of `main`, which does not read for a connection that has failed and
fails one that has no room left. -/
def serve (o : Outside D) (c : Connection F) : Io → Option (Connection F)
  | .read chunk =>
      if c.out.failed ∨ c.served.phase.isClosing then some c
      else if c.inbuf.length = inputBufSize then
        some { c with out := { c.out with failed := true } }
      else c.receive o chunk
  | .flush n => some { c with out := c.out.flush n }

/-! ### One step -/

theorem receive_eq_some {o : Outside D} {c c' : Connection F} {chunk : List UInt8}
    (stepped : c.receive o chunk = some c') :
    let done := drain (processOnce o) c.served (c.inbuf ++ chunk)
    c'.served = done.state ∧ c'.inbuf = done.rest ∧ c'.out = done.out.foldl Output.emit c.out ∧
      c'.received = c.received ++ chunk ∧ c'.log = c.log ++ done.out := by
  unfold receive at stepped
  split_ifs at stepped with fits
  cases stepped
  exact ⟨rfl, rfl, rfl, rfl, rfl⟩

theorem receive_of_fits (o : Outside D) {c : Connection F} {chunk : List UInt8}
    (some_ : chunk ≠ []) (fits : c.inbuf.length + chunk.length ≤ inputBufSize) :
    ∃ c', c.receive o chunk = some c' := ⟨_, dif_pos ⟨some_, fits⟩⟩

/-- What a step of `pump` does. -/
inductive Pumps (o : Outside D) (c : Connection F) : Io → Connection F → Prop
  | skips (chunk : List UInt8) (closing : c.served.phase.isClosing = true) :
      Pumps o c (.read chunk) c
  | reads (chunk : List UInt8) (c' : Connection F) (goes : c.served.phase.isClosing = false)
      (received : c.receive o chunk = some c') : Pumps o c (.read chunk) c'
  | flushes (n : Nat) : Pumps o c (.flush n) { c with out := c.out.flush n }

/-- What a step of `serve` does. -/
inductive Serves (o : Outside D) (c : Connection F) : Io → Connection F → Prop
  | skips (chunk : List UInt8)
      (stopped : c.out.failed = true ∨ c.served.phase.isClosing = true) :
      Serves o c (.read chunk) c
  | fills (chunk : List UInt8) (full : c.inbuf.length = inputBufSize) :
      Serves o c (.read chunk) { c with out := { c.out with failed := true } }
  | reads (chunk : List UInt8) (c' : Connection F) (alive : c.out.failed = false)
      (goes : c.served.phase.isClosing = false) (received : c.receive o chunk = some c') :
      Serves o c (.read chunk) c'
  | flushes (n : Nat) : Serves o c (.flush n) { c with out := c.out.flush n }

theorem pump_pumps {o : Outside D} {c c' : Connection F} {io : Io}
    (stepped : c.pump o io = some c') : Pumps o c io c' := by
  cases io with
  | flush n =>
      cases stepped
      exact .flushes n
  | read chunk =>
      simp only [pump] at stepped
      split_ifs at stepped with closing
      · cases stepped
        exact .skips chunk closing
      · exact .reads chunk c' (by simpa using closing) stepped

theorem serve_serves {o : Outside D} {c c' : Connection F} {io : Io}
    (stepped : c.serve o io = some c') : Serves o c io c' := by
  cases io with
  | flush n =>
      cases stepped
      exact .flushes n
  | read chunk =>
      simp only [serve] at stepped
      split_ifs at stepped with stopped full
      · cases stepped
        exact .skips chunk stopped
      · cases stepped
        exact .fills chunk full
      · push Not at stopped
        exact .reads chunk c' (by simpa using stopped.1) (by simpa using stopped.2) stepped

/-! ### Where the bytes received lead -/

/-- The connection is where draining all the bytes it received leads. -/
structure Tracks (o : Outside D) (start : Served F) (c : Connection F) : Prop where
  served : c.served = (drain (processOnce o) start c.received).state
  inbuf : c.inbuf = (drain (processOnce o) start c.received).rest
  log : c.log = (drain (processOnce o) start c.received).out

theorem tracks_fresh (o : Outside D) (start : Served F) : Tracks o start (fresh start) := by
  have nothing : drain (processOnce o) start [] = ⟨start, [], []⟩ :=
    drain_of_none (processOnce_nil o start)
  exact ⟨by rw [fresh, nothing], by rw [fresh, nothing], by rw [fresh, nothing]⟩

theorem tracks_receive {o : Outside D} {start : Served F} {c c' : Connection F} {chunk : List UInt8}
    (stepped : c.receive o chunk = some c') (tracks : Tracks o start c) : Tracks o start c' := by
  obtain ⟨served, inbuf, -, received, log⟩ := receive_eq_some stepped
  have whole := drain_append (incremental_processOnce o) start c.received chunk
  rw [← tracks.served, ← tracks.inbuf, ← tracks.log] at whole
  exact ⟨by rw [received, whole, served], by rw [received, whole, inbuf],
    by rw [received, whole, log]⟩

/-- **A connection is a function of the bytes it received**, however they were read. -/
theorem tracks_pump {o : Outside D} {start : Served F} {ios : List Io} {c : Connection F}
    (ran : run (pump o) (fresh start) ios = some c) : Tracks o start c := by
  refine run_keeps (fun c io c' stepped tracks => ?_) ran (tracks_fresh o start)
  cases pump_pumps stepped with
  | skips chunk closing => exact tracks
  | reads chunk _ goes received => exact tracks_receive received tracks
  | flushes n => exact ⟨tracks.served, tracks.inbuf, tracks.log⟩

theorem tracks_serve {o : Outside D} {start : Served F} {ios : List Io} {c : Connection F}
    (ran : run (serve o) (fresh start) ios = some c) : Tracks o start c := by
  refine run_keeps (fun c io c' stepped tracks => ?_) ran (tracks_fresh o start)
  cases serve_serves stepped with
  | skips chunk stopped => exact tracks
  | fills chunk full => exact ⟨tracks.served, tracks.inbuf, tracks.log⟩
  | reads chunk _ alive goes received => exact tracks_receive received tracks
  | flushes n => exact ⟨tracks.served, tracks.inbuf, tracks.log⟩

/-! ### What was queued -/

/-- As long as there was room, the queue took what the log has, up to a message that
fitted no frame. -/
def Queued (c : Connection F) : Prop :=
  c.out.overflowed = false →
    c.out.queued = Output.accepted c.log ∧ c.out.failed = Output.rejects c.log

theorem queued_receive {o : Outside D} {c c' : Connection F} {chunk : List UInt8}
    (stepped : c.receive o chunk = some c') (queued : Queued c) : Queued c' := by
  obtain ⟨-, -, out, -, log⟩ := receive_eq_some stepped
  intro roomy
  rw [out] at roomy ⊢
  have before : c.out.overflowed = false := by
    by_contra full
    rw [Output.foldl_overflowed _ (by simpa using full)] at roomy
    cases roomy
  obtain ⟨taken, failed⟩ := queued before
  rw [log, Output.accepted_append, Output.rejects_append, ← taken, ← failed]
  cases stopped : c.out.failed with
  | true =>
      rw [Output.foldl_failed _ stopped]
      exact ⟨by simp, stopped⟩
  | false =>
      obtain ⟨all, verdict⟩ := Output.foldl_emit _ stopped roomy
      exact ⟨by simpa using all, by simpa using verdict⟩

/-! ### How much was received -/

/-- All the bytes a schedule offers. -/
def offered (ios : List Io) : List UInt8 := ios.flatMap Io.chunk

@[simp] theorem offered_cons (io : Io) (ios : List Io) :
    offered (io :: ios) = io.chunk ++ offered ios := rfl

omit [CFloat F] in
/-- A run that stops reading for good once it is `stopped` has received all it was offered,
or a front of it. -/
theorem received_run {step : Connection F → Io → Option (Connection F)}
    (stopped : Connection F → Prop)
    (once : ∀ c io c', step c io = some c' →
      (¬ stopped c ∧ c'.received = c.received ++ io.chunk) ∨
        (c'.received = c.received ∧ (stopped c' ∨ io.chunk = [])))
    (stays : ∀ c io c', step c io = some c' → stopped c → stopped c') {ios : List Io} :
    ∀ {c c' : Connection F}, run step c ios = some c' →
      ∃ unread, c.received ++ offered ios = c'.received ++ unread ∧ (stopped c' ∨ unread = []) := by
  induction ios with
  | nil =>
      intro c c' ran
      cases ran
      exact ⟨[], rfl, Or.inr rfl⟩
  | cons io ios ih =>
      intro c c' ran
      obtain ⟨next, stepped, later⟩ := run_cons ran
      obtain ⟨unread, split, ends⟩ := ih later
      rcases once c io next stepped with ⟨-, received⟩ | ⟨received, stops | nothing⟩
      · exact ⟨unread, by rw [offered_cons, ← List.append_assoc, ← received, split], ends⟩
      · -- nothing is read from here on
        have still : c'.received = next.received ∧ stopped c' := by
          refine run_keeps (I := fun c => c.received = next.received ∧ stopped c) ?_ later
            ⟨rfl, stops⟩
          rintro c io c' stepped ⟨same, halted⟩
          refine ⟨?_, stays c io c' stepped halted⟩
          rcases once c io c' stepped with ⟨goes, -⟩ | ⟨received, -⟩
          · exact absurd halted goes
          · exact received.trans same
        exact ⟨io.chunk ++ offered ios, by rw [offered_cons, still.1, received], Or.inl still.2⟩
      · exact ⟨unread, by rw [offered_cons, nothing, List.nil_append, ← received, split], ends⟩

end Connection

/-! ## Concrete runs -/

/-- A library that parses the texts of a table, and the digest of the key below. -/
def Outside.ofTexts (texts : List (List UInt8 × Json ℚ)) : Outside ℚ where
  lib := .ofTexts texts
  digest _ := .printf 28 (.lit "s3pPLMBiTxaQ9kYGzzhZRbK+xOo=")
  printG q := .ofBytes (ascii (toString q.num))
  savable := true
  envs _ := .at 0

def World.initial : World ℚ := ⟨1, [], none, 0⟩

/-- What a browser sends for a page of that origin. -/
def upgradeRequest (origin : List UInt8) : List UInt8 :=
  ascii "GET / HTTP/1.1\r\nHost: 127.51.68.120:8181\r\nOrigin: " ++ origin ++
    ascii "\r\nUpgrade: websocket\r\nConnection: keep-alive, Upgrade\r\n" ++
    ascii "Sec-WebSocket-Key: dGhlIHNhbXBsZSBub25jZQ==\r\n\r\n"

def onshape : List UInt8 := ascii "https://cad.onshape.com"

/-- A whole message under the key 1, 2, 3, 4. -/
def textFrame (payload : List UInt8) : ClientFrame :=
  ⟨true, wsOpText, fun i => UInt8.ofNat (i.val + 1), payload⟩

end SpnavBridge.Daemon
