/-
# Daemon.Inbound -- what the bytes of a client say, before anyone acts on them

A `Reader` splits what a connection receives into the request at its head and the text
messages and pings behind it.  It knows nothing of controllers, of the device or of the other
clients, so its items are a function of the bytes (`incremental_readTurn`).

`processTurn` asks the same of `inbuf` (`processTurn_head`, `processTurn_frames`), with the
reassembly spread over the fields of `struct client` (`Client.At`).
-/
import SpnavBridge.Daemon.Slot

namespace SpnavBridge.Daemon

open SpnavBridge.Theory SpnavBridge.Wire SpnavBridge.Kernel

set_option autoImplicit false

/-! ## Readers -/

/-- What a client asks for. -/
inductive Item where
  | request (req : HttpRequest) (body : List UInt8)
  | text (payload : List UInt8)
  | ping (payload : List UInt8)

inductive Reader where
  | head
  | frames (msg : Reassembly)
  | stopped

namespace Reader

/-- A TEXT, BIN or CONT frame of the message `msg`; `none` for a message over the limit. -/
def data (msg : Reassembly) (frame : Frame) : Option (Reader × List Item) :=
  if msg.opcode = some wsOpText then
    match msg.append frame.payload with
    | none => none
    | some msg =>
        if frame.fin then some (.frames .idle, [.text msg.msgbuf]) else some (.frames msg, [])
  else some (.frames (if frame.fin then .idle else msg), [])

def frame (msg : Reassembly) (frame : Frame) : Option (Reader × List Item) :=
  if frame.opcode = wsOpText ∨ frame.opcode = wsOpBin ∨ frame.opcode = wsOpCont then
    data (msg.opened frame.opcode) frame
  else if frame.opcode = wsOpPing then some (.frames msg, [.ping frame.payload])
  else if frame.opcode = wsOpClose then some (.stopped, [])
  else some (.frames msg, [])

def readHead : Peek UInt8 (Reader × Nat × List Item) := do
  let (n, req) ← httpParseRequest
  if req.contentLength > bodyMax then Peek.fail
  else do
    let body ← Peek.slice n req.contentLength
    pure (if req.isWsUpgrade then .frames .idle else .stopped, n + req.contentLength,
      [.request req body])

def readFrame (msg : Reassembly) : Peek UInt8 (Reader × Nat × List Item) := do
  let next ← wsDecodeFrame
  match frame msg next with
  | none => Peek.fail
  | some (reader, items) => pure (reader, next.consumed, items)

def read : Reader → Peek UInt8 (Reader × Nat × List Item)
  | .head => readHead
  | .frames msg => readFrame msg
  | .stopped => Peek.wait

end Reader

/-- One item, or a piece of one. -/
def readTurn : Reader → List UInt8 → Option (Reader × List UInt8 × List Item) :=
  turn Reader.read fun _ => .stopped

/-- All that a connection has said. -/
def said (bytes : List UInt8) : List Item := (drain readTurn .head bytes).out

/-! ## Reading on -/

namespace Reader

theorem readHead_eq_done {buf : List UInt8} {reader : Reader} {n : Nat} {items : List Item}
    (verdict : readHead buf = .done (reader, n, items)) :
    ∃ size req, httpParseRequest buf = .done (size, req) ∧
      size + req.contentLength ≤ buf.length ∧ n = size + req.contentLength := by
  obtain ⟨⟨size, req⟩, parsed, verdict⟩ := Peek.bind_eq_done verdict
  obtain ⟨-, verdict⟩ := Peek.guard_eq_done verdict
  obtain ⟨body, held, verdict⟩ := Peek.bind_eq_done verdict
  cases verdict
  exact ⟨size, req, parsed, (Peek.slice_eq_done held).1, rfl⟩

theorem readFrame_eq_done {msg : Reassembly} {buf : List UInt8} {reader : Reader} {n : Nat}
    {items : List Item} (verdict : readFrame msg buf = .done (reader, n, items)) :
    ∃ next, wsDecodeFrame buf = .done next ∧ n = next.consumed := by
  obtain ⟨next, decoded, verdict⟩ := Peek.bind_eq_done verdict
  cases framed : frame msg next with
  | none => simp [framed, Peek.fail] at verdict
  | some done =>
      rw [framed] at verdict
      cases verdict
      exact ⟨next, decoded, rfl⟩

theorem stable_read (reader : Reader) : reader.read.Stable := by
  cases reader with
  | head =>
      apply Peek.stable_bind stable_httpParseRequest
      intro parsed
      apply Peek.stable_ite Peek.stable_fail
      exact Peek.stable_bind (Peek.stable_slice _ _) fun body => Peek.stable_pure _
  | frames msg =>
      apply Peek.stable_bind stable_wsDecodeFrame
      intro next
      cases framed : frame msg next with
      | none => exact Peek.stable_fail
      | some done => exact Peek.stable_pure _
  | stopped => exact Peek.stable_wait

end Reader

/-- **What was said does not depend on how it came in.** -/
theorem incremental_readTurn : Incremental readTurn := by
  refine incremental_turn Reader.stable_read ?_ fun reader buf => rfl
  intro reader buf reader' n items verdict
  cases reader with
  | head =>
      obtain ⟨size, req, parsed, whole, rfl⟩ := Reader.readHead_eq_done verdict
      have pos := (consumed_of_httpParseRequest parsed).1
      exact ⟨by omega, whole⟩
  | frames msg =>
      obtain ⟨next, decoded, rfl⟩ := Reader.readFrame_eq_done verdict
      exact consumed_of_wsDecodeFrame decoded
  | stopped => cases verdict

/-- The bytes come to `items`, and to what the reader makes of `buf`. -/
def Reads (bytes : List UInt8) (reader : Reader) (buf : List UInt8) (items : List Item) : Prop :=
  drain readTurn .head bytes =
    ⟨(drain readTurn reader buf).state, (drain readTurn reader buf).rest,
      items ++ (drain readTurn reader buf).out⟩

namespace Reads

theorem start (bytes : List UInt8) : Reads bytes .head bytes [] := rfl

variable {bytes buf : List UInt8} {reader : Reader} {items : List Item}

theorem turn {rest : List UInt8} {reader' : Reader} {more : List Item}
    (reads : Reads bytes reader buf items) (turned : readTurn reader buf = some (reader', rest, more)) :
    Reads bytes reader' rest (items ++ more) := by
  unfold Reads at reads ⊢
  rw [reads, drain_of_some incremental_readTurn turned]
  simp only [List.append_assoc]

/-- More bytes wait behind those that wait already. -/
theorem receive (reads : Reads bytes reader buf items) (chunk : List UInt8) :
    Reads (bytes ++ chunk) reader (buf ++ chunk) items := by
  have before := drain_append incremental_readTurn .head bytes chunk
  have behind := drain_append incremental_readTurn reader buf chunk
  unfold Reads at reads ⊢
  rw [before, behind, reads]
  simp only [List.append_assoc]

theorem prefix_said (reads : Reads bytes reader buf items) : items <+: said bytes := by
  rw [said, reads]
  exact List.prefix_append _ _

/-- A reader that waits has read everything. -/
theorem said_eq (reads : Reads bytes reader buf items) (waits : readTurn reader buf = none) :
    said bytes = items := by
  rw [said, reads, drain_of_none waits]
  exact List.append_nil _

end Reads

/-- Bytes that come later take nothing back. -/
theorem said_append (bytes more : List UInt8) : said bytes <+: said (bytes ++ more) := by
  unfold said
  rw [drain_append incremental_readTurn]
  exact List.prefix_append _ _

/-! ## Clients -/

variable {F : Type}

/-- `msg_opcode` -/
def Reassembly.code (msg : Reassembly) : Int :=
  match msg.opcode with
  | none => -1
  | some opcode => opcode.toNat

theorem Reassembly.code_eq_text (msg : Reassembly) :
    msg.code = wsOpText.toNat ↔ msg.opcode = some wsOpText := by
  unfold code
  cases msg.opcode with
  | none => exact ⟨fun same => absurd same (by decide), fun same => by cases same⟩
  | some opcode =>
      constructor
      · intro same
        rw [UInt8.toNat_inj.mp (Int.ofNat.inj same)]
      · intro same
        injection same with same
        rw [same]

/-- The client reads as the reader does. -/
def Client.At (cl : Client F) : Reader → Prop
  | .head => cl.phase = .http
  | .frames msg => cl.phase = .ws ∧ cl.msgbuf = msg.msgbuf ∧ cl.msgOpcode = msg.code
  | .stopped => cl.phase = .closing

theorem Client.At.isText {cl : Client F} {msg : Reassembly} (at_ : cl.At (.frames msg)) :
    Stage.isText cl ↔ msg.opcode = some wsOpText := by
  rw [← msg.code_eq_text, ← at_.2.2]
  rfl

/-- A frame opens the message in `struct client` as it does for the reader. -/
theorem Client.At.opened {cl : Client F} {msg : Reassembly} (at_ : cl.At (.frames msg))
    (opcode : UInt8) : (Stage.openMessage opcode cl).At (.frames (msg.opened opcode)) := by
  unfold Stage.openMessage Reassembly.opened
  split
  · exact ⟨at_.1, rfl, rfl⟩
  · exact at_

end SpnavBridge.Daemon
