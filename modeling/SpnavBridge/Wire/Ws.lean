/-
# Wire.Ws -- the WebSocket frames of ws.c

The decoder is written as the source is: each `return 0` is a wait for bytes that are not
there yet, each `return -1` a refusal, in the same order.  Waiting and refusing come from
`Peek`, so that the decoder never changes its verdict when more arrives
(`stable_wsDecodeFrame`) needs no argument about offsets.

`ClientFrame` is the sender's side, as RFC 6455 has it for a client: a header with the
shortest length field, the key, and the payload under the key.  `wsDecodeFrame_bytes` reads
every such frame back.
-/
import SpnavBridge.Theory.Bytes
import SpnavBridge.Theory.CString
import SpnavBridge.Theory.Incremental

namespace SpnavBridge.Wire

open SpnavBridge.Theory

set_option autoImplicit false

/-! ## Opcodes -/

def wsOpCont : UInt8 := 0
def wsOpText : UInt8 := 1
def wsOpBin : UInt8 := 2
def wsOpClose : UInt8 := 8
def wsOpPing : UInt8 := 9
def wsOpPong : UInt8 := 10

def wsOpcodes : List UInt8 := [wsOpCont, wsOpText, wsOpBin, wsOpClose, wsOpPing, wsOpPong]

/-- `INT_MAX` -/
def intMax : Nat := 2147483647

def wsGuid : CStr := .lit "258EAFA5-E914-47DA-95CA-C5AB0DC85B11"

/-- `ws_compute_accept`.  `digest` is the base64 text of a SHA-1; a key that does not fit
the 256 bytes together with the GUID is refused. -/
def wsComputeAccept (digest : CStr → CBuf 28) (clientKey : CStr) : Option (CBuf 28) :=
  let concat := clientKey.append wsGuid
  if concat.length ≥ 256 then none else some (digest concat)

/-! ## Lengths -/

/-- The seven length bits and the extended length that follow them. -/
def wsLength (n : Nat) : UInt8 × List UInt8 :=
  if n < 126 then (UInt8.ofNat n, [])
  else if n ≤ 0xffff then (126, bigEndian 2 n)
  else (127, bigEndian 8 n)

/-- The length of the header in front of `n` bytes of payload. -/
def wsHeaderLength (n : Nat) : Nat := if n < 126 then 2 else if n ≤ 0xffff then 4 else 10

theorem wsLength_length (n : Nat) : 2 + (wsLength n).2.length = wsHeaderLength n := by
  unfold wsLength wsHeaderLength
  split_ifs <;> simp

/-! ## Encoding -/

/-- `ws_encode_frame` into a buffer of `bufsz` bytes. -/
def wsEncodeFrame (bufsz : Nat) (opcode : UInt8) (payload : List UInt8) : Option (List UInt8) :=
  let size := wsLength payload.length
  let hdrlen := 2 + size.2.length
  if payload.length > intMax - hdrlen ∨ bufsz < hdrlen ∨ payload.length > bufsz - hdrlen then none
  else some ((0x80 ||| (opcode &&& 0x0f)) :: size.1 :: (size.2 ++ payload))

/-! ## Decoding -/

/-- What `ws_decode_frame` gives back, with the bytes consumed. -/
structure Frame where
  fin : Bool
  opcode : UInt8
  payload : List UInt8
  consumed : Nat
  deriving DecidableEq

/-- From the length on: `off` bytes of header came before the key. -/
def wsDecodePayload (b0 : UInt8) (off plen : Nat) : Peek UInt8 Frame :=
  let fin : Bool := b0 &&& 0x80 ≠ 0
  let opcode := b0 &&& 0x0f
  -- lengths that the `int` result could not hold
  if plen > intMax - (off + 4) then Peek.fail
  else if opcode ∉ wsOpcodes then Peek.fail
  else if opcode &&& 8 ≠ 0 ∧ (!fin ∨ plen > 125) then Peek.fail
  else do
    let key ← Peek.slice off 4
    let masked ← Peek.slice (off + 4) plen
    pure ⟨fin, opcode, xorCycle key masked, off + 4 + plen⟩

/-- `ws_decode_frame` -/
def wsDecodeFrame : Peek UInt8 Frame := do
  Peek.need 2
  let b0 ← Peek.at 0
  let b1 ← Peek.at 1
  if b0 &&& 0x70 ≠ 0 then Peek.fail
  else if b1 &&& 0x80 = 0 then Peek.fail
  else if b1 &&& 0x7f = 126 then do
    let size ← Peek.slice 2 2
    wsDecodePayload b0 4 (fromBigEndian size)
  else if b1 &&& 0x7f = 127 then do
    let size ← Peek.slice 2 8
    wsDecodePayload b0 10 (fromBigEndian size)
  else wsDecodePayload b0 2 (b1 &&& 0x7f).toNat

theorem stable_wsDecodePayload (b0 : UInt8) (off plen : Nat) :
    (wsDecodePayload b0 off plen).Stable := by
  unfold wsDecodePayload
  refine Peek.stable_ite Peek.stable_fail (Peek.stable_ite Peek.stable_fail
    (Peek.stable_ite Peek.stable_fail ?_))
  exact Peek.stable_bind (Peek.stable_slice _ _) fun key =>
    Peek.stable_bind (Peek.stable_slice _ _) fun masked => Peek.stable_pure _

/-- **The decoder does not change its verdict.** -/
theorem stable_wsDecodeFrame : wsDecodeFrame.Stable := by
  unfold wsDecodeFrame
  refine Peek.stable_bind (Peek.stable_need 2) fun _ =>
    Peek.stable_bind (Peek.stable_at 0) fun b0 => Peek.stable_bind (Peek.stable_at 1) fun b1 => ?_
  refine Peek.stable_ite Peek.stable_fail (Peek.stable_ite Peek.stable_fail
    (Peek.stable_ite ?_ (Peek.stable_ite ?_ (stable_wsDecodePayload _ _ _))))
  · exact Peek.stable_bind (Peek.stable_slice 2 2) fun size => stable_wsDecodePayload _ _ _
  · exact Peek.stable_bind (Peek.stable_slice 2 8) fun size => stable_wsDecodePayload _ _ _

/-- A frame takes its bytes from the front of the buffer. -/
theorem consumed_of_wsDecodePayload {b0 : UInt8} {off plen : Nat} {buf : List UInt8} {frame : Frame}
    (decoded : wsDecodePayload b0 off plen buf = .done frame) :
    0 < frame.consumed ∧ frame.consumed ≤ buf.length := by
  obtain ⟨-, decoded⟩ := Peek.guard_eq_done decoded
  obtain ⟨-, decoded⟩ := Peek.guard_eq_done decoded
  obtain ⟨-, decoded⟩ := Peek.guard_eq_done decoded
  obtain ⟨key, -, decoded⟩ := Peek.bind_eq_done decoded
  obtain ⟨masked, held, decoded⟩ := Peek.bind_eq_done decoded
  obtain ⟨enough, -⟩ := Peek.slice_eq_done held
  obtain rfl : _ = frame := by injection decoded
  simp only
  omega

theorem consumed_of_wsDecodeFrame {buf : List UInt8} {frame : Frame}
    (decoded : wsDecodeFrame buf = .done frame) :
    0 < frame.consumed ∧ frame.consumed ≤ buf.length := by
  obtain ⟨-, -, decoded⟩ := Peek.bind_eq_done decoded
  obtain ⟨b0, -, decoded⟩ := Peek.bind_eq_done decoded
  obtain ⟨b1, -, decoded⟩ := Peek.bind_eq_done decoded
  obtain ⟨-, decoded⟩ := Peek.guard_eq_done decoded
  obtain ⟨-, decoded⟩ := Peek.guard_eq_done decoded
  split_ifs at decoded
  · obtain ⟨size, -, decoded⟩ := Peek.bind_eq_done decoded
    exact consumed_of_wsDecodePayload decoded
  · obtain ⟨size, -, decoded⟩ := Peek.bind_eq_done decoded
    exact consumed_of_wsDecodePayload decoded
  · exact consumed_of_wsDecodePayload decoded

/-! ## The client's side -/

/-- A frame as a client sends it. -/
structure ClientFrame where
  fin : Bool
  opcode : UInt8
  key : Fin 4 → UInt8
  payload : List UInt8

namespace ClientFrame

/-- The opcode is defined, a control frame is whole and short, and the length fits. -/
structure Valid (f : ClientFrame) : Prop where
  opcode : f.opcode ∈ wsOpcodes
  control : f.opcode &&& 8 ≠ 0 → f.fin = true ∧ f.payload.length ≤ 125
  size : f.payload.length ≤ intMax - 14

def header (f : ClientFrame) : List UInt8 :=
  ((if f.fin then 0x80 else 0) ||| f.opcode) :: (0x80 ||| (wsLength f.payload.length).1) ::
    (wsLength f.payload.length).2

/-- The frame on the wire. -/
def bytes (f : ClientFrame) : List UInt8 :=
  f.header ++ (List.ofFn f.key ++ xorCycle (List.ofFn f.key) f.payload)

/-- The length of the header, without the key. -/
def off (f : ClientFrame) : Nat := 2 + (wsLength f.payload.length).2.length

theorem header_length (f : ClientFrame) : f.header.length = f.off := by
  simp only [header, off, List.length_cons]
  omega

theorem bytes_length (f : ClientFrame) : f.bytes.length = f.off + 4 + f.payload.length := by
  simp only [bytes, List.length_append, header_length, List.length_ofFn, xorCycle_length]
  omega

theorem off_le (f : ClientFrame) : f.off ≤ 10 := by
  unfold off wsLength
  split_ifs <;> simp

/-! ### Bits -/

theorem first_bits (fin : Bool) {opcode : UInt8} (defined : opcode ∈ wsOpcodes) :
    ((if fin then 0x80 else 0) ||| opcode) &&& 0x70 = 0 ∧
      ((if fin then 0x80 else 0) ||| opcode) &&& 0x0f = opcode ∧
      decide (((if fin then 0x80 else 0) ||| opcode) &&& 0x80 ≠ 0) = fin := by
  revert fin opcode
  decide +kernel

theorem second_bits {size : UInt8} (short : size < 128) :
    (0x80 ||| size) &&& 0x80 ≠ 0 ∧ (0x80 ||| size) &&& 0x7f = size := by
  have all : ∀ n < 128, (0x80 ||| UInt8.ofNat n) &&& 0x80 ≠ 0 ∧
      (0x80 ||| UInt8.ofNat n) &&& 0x7f = UInt8.ofNat n := by
    decide +kernel
  have bound : size.toNat < 128 := short
  simpa using all size.toNat bound

/-! ### Reading back -/

/-- The key and the payload, behind the header and in front of anything. -/
theorem wsDecodePayload_bytes {f : ClientFrame} (valid : f.Valid) (rest : List UInt8) :
    wsDecodePayload ((if f.fin then 0x80 else 0) ||| f.opcode) f.off f.payload.length
        (f.bytes ++ rest) =
      .done ⟨f.fin, f.opcode, f.payload, f.bytes.length⟩ := by
  obtain ⟨-, opcode, fin⟩ := first_bits f.fin valid.opcode
  have offLe := f.off_le
  have size := valid.size
  have fits : ¬ f.payload.length > intMax - (f.off + 4) := by
    have large : 14 ≤ intMax := by decide
    omega
  have control : ¬ (f.opcode &&& 8 ≠ 0 ∧ (!f.fin ∨ f.payload.length > 125)) := by
    rintro ⟨isControl, broken⟩
    obtain ⟨whole, short⟩ := valid.control isControl
    rcases broken with cut | long
    · simp [whole] at cut
    · omega
  have key : Peek.slice f.off 4 (f.bytes ++ rest) = .done (List.ofFn f.key) := by
    rw [bytes, List.append_assoc, List.append_assoc]
    exact Peek.slice_of_append f.header_length (by simp)
  have masked : Peek.slice (f.off + 4) f.payload.length (f.bytes ++ rest) =
      .done (xorCycle (List.ofFn f.key) f.payload) := by
    rw [bytes, List.append_assoc, List.append_assoc, ← List.append_assoc f.header]
    exact Peek.slice_of_append (by simp [header_length]) (by simp)
  rw [wsDecodePayload, if_neg fits, opcode, if_neg (not_not.mpr valid.opcode), fin, if_neg control,
    Peek.bind_of_done key, Peek.bind_of_done masked, xorCycle_xorCycle, bytes_length]
  rfl

/-- **Every valid frame is read back**, whatever follows it. -/
theorem wsDecodeFrame_bytes {f : ClientFrame} (valid : f.Valid) (rest : List UInt8) :
    wsDecodeFrame (f.bytes ++ rest) = .done ⟨f.fin, f.opcode, f.payload, f.bytes.length⟩ := by
  have payload := wsDecodePayload_bytes valid rest
  obtain ⟨reserved, -, -⟩ := first_bits f.fin valid.opcode
  have size := valid.size
  have long : 2 ≤ (f.bytes ++ rest).length := by
    rw [List.length_append, bytes_length]
    have : 2 ≤ f.off := by unfold off; omega
    omega
  rw [wsDecodeFrame, Peek.bind_of_done (Peek.need_of_le long),
    Peek.bind_of_done (Peek.at_of_getElem? (by rfl)),
    Peek.bind_of_done (Peek.at_of_getElem? (by rfl)), if_neg (not_not.mpr reserved)]
  have extended : Peek.slice 2 (wsLength f.payload.length).2.length (f.bytes ++ rest) =
      .done (wsLength f.payload.length).2 := by
    rw [bytes, List.append_assoc]
    exact Peek.slice_of_append (show [_, _].length = 2 from rfl) rfl
  unfold off at payload
  unfold intMax at size
  by_cases short : f.payload.length < 126
  · have field : wsLength f.payload.length = (UInt8.ofNat f.payload.length, []) := if_pos short
    have low : (UInt8.ofNat f.payload.length).toNat = f.payload.length :=
      UInt8.toNat_ofNat_of_lt' (lt_trans short (by decide))
    have small : UInt8.ofNat f.payload.length < 128 := by
      rw [UInt8.lt_iff_toNat_lt, low]
      exact lt_trans short (by decide)
    obtain ⟨marked, seven⟩ := second_bits small
    have plain : ∀ m : UInt8, 126 ≤ m.toNat → UInt8.ofNat f.payload.length ≠ m := by
      intro m le same
      rw [← same, low] at le
      omega
    rw [field] at payload ⊢
    rw [if_neg marked, seven, if_neg (plain 126 (by decide)), if_neg (plain 127 (by decide)), low]
    exact payload
  · by_cases middle : f.payload.length ≤ 0xffff
    · have field : wsLength f.payload.length = (126, bigEndian 2 f.payload.length) :=
        (if_neg short).trans (if_pos middle)
      rw [field] at payload extended ⊢
      simp only [bigEndian_length] at payload extended ⊢
      rw [if_neg (by decide), if_pos (by decide), Peek.bind_of_done extended,
        fromBigEndian_bigEndian (by omega)]
      exact payload
    · have field : wsLength f.payload.length = (127, bigEndian 8 f.payload.length) :=
        (if_neg short).trans (if_neg middle)
      rw [field] at payload extended ⊢
      simp only [bigEndian_length] at payload extended ⊢
      rw [if_neg (by decide), if_neg (by decide), if_pos (by decide), Peek.bind_of_done extended,
        fromBigEndian_bigEndian (by omega)]
      exact payload

/-- The decoder waits for the rest of a frame. -/
theorem wsDecodeFrame_front {f : ClientFrame} (valid : f.Valid) {front : List UInt8}
    (isFront : front <+: f.bytes) (proper : front ≠ f.bytes) :
    wsDecodeFrame front = .incomplete := by
  obtain ⟨more, split⟩ := isFront
  by_contra decided
  -- a verdict on the front would stand on the whole frame, which is longer
  have stands := stable_wsDecodeFrame front more decided
  have all := wsDecodeFrame_bytes valid []
  rw [List.append_nil, ← split, stands] at all
  have inside := (consumed_of_wsDecodeFrame all).2
  simp only [List.length_append] at inside
  have none_ : more = [] := List.eq_nil_of_length_eq_zero (by omega)
  exact proper (by rw [← split, none_, List.append_nil])

end ClientFrame

end SpnavBridge.Wire
