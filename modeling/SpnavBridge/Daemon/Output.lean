/-
# Daemon.Output -- the output queue of a connection

`queue_output` takes all of its data or, when there is no room, none of it, and then the
connection has failed; a message that fits no frame fails it as well (`client_send`).
`foldl_emit` says what the queue took of a log that it had room for.
-/
import SpnavBridge.Daemon.Requests

namespace SpnavBridge.Daemon

set_option autoImplicit false

/-! ## Reading a log -/

section Log

variable {F : Type}

/-- The messages the controller was called with. -/
def payloads (log : List (Act F)) : List (List UInt8) :=
  log.filterMap fun act => match act with
    | .message payload _ => some payload
    | _ => none

/-- The data handed to the queue. -/
def queuedData (log : List (Act F)) : List (List UInt8) :=
  log.filterMap fun act => match act with
    | .queue data => some data
    | _ => none

@[simp] theorem payloads_append (log more : List (Act F)) :
    payloads (log ++ more) = payloads log ++ payloads more := List.filterMap_append

@[simp] theorem queuedData_append (log more : List (Act F)) :
    queuedData (log ++ more) = queuedData log ++ queuedData more := List.filterMap_append

theorem payloads_message (payload : List UInt8) (rc : Int) (log : List (Act F)) :
    payloads (.message payload rc :: log) = payload :: payloads log := rfl

theorem queuedData_message (payload : List UInt8) (rc : Int) (log : List (Act F)) :
    queuedData (.message payload rc :: log) = queuedData log := rfl

end Log

/-! ## The queue -/

/-- `outbuf`, `outlen` and `failed`; and, for the statements about runs, what was accepted
so far and whether something was refused for lack of room. -/
structure Output where
  outbuf : List UInt8
  fits : outbuf.length ≤ bufSize * 2
  failed : Bool
  queued : List (List UInt8)
  overflowed : Bool

namespace Output

variable {F : Type}

def fresh : Output := ⟨[], Nat.zero_le _, false, [], false⟩

/-- `queue_output` -/
def queueOutput (out : Output) (data : List UInt8) : Output :=
  if out.failed then out
  else if room : data.length ≤ bufSize * 2 - out.outbuf.length then
    { out with
      outbuf := out.outbuf ++ data
      fits := by have := out.fits; rw [List.length_append]; omega
      queued := out.queued ++ [data] }
  else { out with failed := true, overflowed := true }

/-- What an act does to the output. -/
def emit (out : Output) : Act F → Output
  | .queue data => out.queueOutput data
  | .reject => { out with failed := true }
  | _ => out

/-- `flush_output`, when `SSL_write` takes `n` bytes. -/
def flush (out : Output) (n : Nat) : Output :=
  if out.failed then out
  else
    { out with
      outbuf := out.outbuf.drop n
      fits := (List.drop_sublist n out.outbuf).length_le.trans out.fits }

/-- A flush takes from `outbuf` only. -/
theorem flush_keeps (out : Output) (n : Nat) :
    (out.flush n).queued = out.queued ∧ (out.flush n).failed = out.failed ∧
      (out.flush n).overflowed = out.overflowed := by
  unfold flush
  split_ifs <;> exact ⟨rfl, rfl, rfl⟩

/-! ## Emitting a log -/

/-- A message of the log fitted no frame. -/
def rejects (log : List (Act F)) : Bool :=
  log.any fun act => match act with
    | .reject => true
    | _ => false

/-- The data of a log that a queue with room accepts: what comes before a message that
fits no frame. -/
def accepted : List (Act F) → List (List UInt8)
  | [] => []
  | .reject :: _ => []
  | .queue data :: log => data :: accepted log
  | _ :: log => accepted log

theorem accepted_append (log more : List (Act F)) :
    accepted (log ++ more) = accepted log ++ if rejects log then [] else accepted more := by
  induction log with
  | nil => rfl
  | cons act log ih =>
      cases act <;> simp_all [accepted, rejects]

theorem rejects_append (log more : List (Act F)) :
    rejects (log ++ more) = (rejects log || rejects more) := List.any_append

/-- A log without such a message has all its data accepted. -/
theorem accepted_eq {log : List (Act F)} (framed : rejects log = false) :
    accepted log = queuedData log := by
  induction log with
  | nil => rfl
  | cons act log ih =>
      cases act with
      | queue data => exact congrArg (data :: ·) (ih framed)
      | reject => cases framed
      | request req body => exact ih framed
      | message payload rc => exact ih framed
      | assign sensitivity => exact ih framed
      | readOut => exact ih framed

theorem emit_overflowed {out : Output} {act : Act F} (full : out.overflowed = true) :
    (out.emit act).overflowed = true := by
  cases act with
  | queue data =>
      simp only [emit, queueOutput]
      split_ifs <;> first | exact full | rfl
  | _ => exact full

theorem foldl_overflowed (acts : List (Act F)) {out : Output} (full : out.overflowed = true) :
    (acts.foldl emit out).overflowed = true := by
  induction acts generalizing out with
  | nil => exact full
  | cons act acts ih => exact ih (emit_overflowed full)

/-- A failed connection queues nothing more. -/
theorem foldl_failed (acts : List (Act F)) {out : Output} (failed : out.failed = true) :
    acts.foldl emit out = out := by
  induction acts with
  | nil => rfl
  | cons act acts ih =>
      have unchanged : out.emit act = out := by
        cases act with
        | queue data => exact if_pos failed
        | reject => rw [emit, ← failed]
        | _ => rfl
      rw [List.foldl_cons, unchanged, ih]

/-- **Emitting** into a queue that has room for everything. -/
theorem foldl_emit (acts : List (Act F)) {out : Output} (goes : out.failed = false)
    (roomy : (acts.foldl emit out).overflowed = false) :
    (acts.foldl emit out).queued = out.queued ++ accepted acts ∧
      (acts.foldl emit out).failed = rejects acts := by
  induction acts generalizing out with
  | nil => exact ⟨(List.append_nil _).symm, goes⟩
  | cons act acts ih =>
      rw [List.foldl_cons] at roomy ⊢
      cases act with
      | queue data =>
          by_cases room : data.length ≤ bufSize * 2 - out.outbuf.length
          · have queued : (out.emit (.queue data : Act F)).queued = out.queued ++ [data] ∧
                (out.emit (.queue data : Act F)).failed = false := by
              simp [emit, queueOutput, goes, room]
            obtain ⟨all, verdict⟩ := ih queued.2 roomy
            exact ⟨by rw [all, queued.1, List.append_assoc]; rfl, verdict⟩
          · have full : (out.emit (.queue data : Act F)).overflowed = true := by
              simp [emit, queueOutput, goes, room]
            rw [foldl_overflowed acts full] at roomy
            cases roomy
      | reject =>
          have stopped : (out.emit (.reject : Act F)).failed = true := rfl
          rw [foldl_failed acts stopped]
          exact ⟨(List.append_nil _).symm, rfl⟩
      | request req body => exact ih goes roomy
      | message payload rc => exact ih goes roomy
      | assign sensitivity => exact ih goes roomy
      | readOut => exact ih goes roomy

end Output

end SpnavBridge.Daemon
