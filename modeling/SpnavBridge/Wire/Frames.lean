/-
# Wire.Frames -- the round trip of a frame

`frame_round_trip`: what `ws_encode_frame` writes, made a client's frame by `clientFrame`
(FIN as chosen, MASK, the key behind the length, the payload under the key), is decoded
back whatever follows it, and no part of it is touched before the whole is there.

The decoder works in its buffer, so it is written here once more with the buffer it
leaves behind (`wsDecodeInPlace`), loop and all; `wsDecodeInPlace_eq` is the bridge to
`wsDecodeFrame`.
-/
import SpnavBridge.Wire.Ws

namespace SpnavBridge.Wire

open SpnavBridge.Theory

set_option autoImplicit false

/-! ## The decoder in its buffer -/

/-- What `ws_decode_frame` sets behind a frame: `payload` as an index into the buffer. -/
structure FrameOut where
  fin : Bool
  opcode : UInt8
  payload : Nat
  payloadLen : Nat
  deriving DecidableEq

/-- The value returned, the buffer afterwards, and the out-parameters behind a frame. -/
structure InPlace where
  rc : Int
  buf : List UInt8
  out : Option FrameOut
  deriving DecidableEq

/-- `buf[off + i] ^= maskkey[i % 4]` for `i < plen`; the key ends where the payload starts. -/
def unmask (off plen : Nat) (buf : List UInt8) : List UInt8 :=
  (List.range plen).foldl
    (fun buf i => buf.set (off + i) (buf.getD (off + i) 0 ^^^ buf.getD (off - 4 + i % 4) 0)) buf

/-- From the length on: `off` bytes of header came before the key. -/
def wsDecodePayloadInPlace (buf : List UInt8) (b0 : UInt8) (off plen : Nat) : InPlace :=
  let fin : Bool := b0 &&& 0x80 ≠ 0
  let opcode := b0 &&& 0x0f
  if plen > intMax - (off + 4) then ⟨-1, buf, none⟩
  else if opcode ∉ wsOpcodes then ⟨-1, buf, none⟩
  else if opcode &&& 8 ≠ 0 ∧ (!fin ∨ plen > 125) then ⟨-1, buf, none⟩
  else if buf.length < off + 4 then ⟨0, buf, none⟩
  else if plen > buf.length - (off + 4) then ⟨0, buf, none⟩
  else ⟨off + 4 + plen, unmask (off + 4) plen buf, some ⟨fin, opcode, off + 4, plen⟩⟩

/-- `ws_decode_frame`, with the buffer it leaves. -/
def wsDecodeInPlace (buf : List UInt8) : InPlace :=
  match buf with
  | b0 :: b1 :: _ =>
      if b0 &&& 0x70 ≠ 0 then ⟨-1, buf, none⟩
      else if b1 &&& 0x80 = 0 then ⟨-1, buf, none⟩
      else if b1 &&& 0x7f = 126 then
        if buf.length < 4 then ⟨0, buf, none⟩
        else wsDecodePayloadInPlace buf b0 4 (fromBigEndian ((buf.drop 2).take 2))
      else if b1 &&& 0x7f = 127 then
        if buf.length < 10 then ⟨0, buf, none⟩
        else wsDecodePayloadInPlace buf b0 10 (fromBigEndian ((buf.drop 2).take 8))
      else wsDecodePayloadInPlace buf b0 2 (b1 &&& 0x7f).toNat
  | _ => ⟨0, buf, none⟩

/-- The payload that the out-parameters point at. -/
def InPlace.payload (done : InPlace) : List UInt8 :=
  match done.out with
  | some out => (done.buf.drop out.payload).take out.payloadLen
  | none => []

@[simp] theorem unmask_succ (off n : Nat) (buf : List UInt8) :
    unmask off (n + 1) buf = (unmask off n buf).set (off + n)
      ((unmask off n buf).getD (off + n) 0 ^^^ (unmask off n buf).getD (off - 4 + n % 4) 0) := by
  simp [unmask, List.range_succ]

@[simp] theorem unmask_length (off n : Nat) (buf : List UInt8) :
    (unmask off n buf).length = buf.length := by
  induction n with
  | zero => rfl
  | succ n ih => rw [unmask_succ, List.length_set, ih]

/-- The loop changes the first `n` bytes behind the key, each by its byte of the key. -/
theorem unmask_getElem? {off : Nat} (key : 4 ≤ off) {n : Nat} {buf : List UInt8} :
    off + n ≤ buf.length → ∀ j, (unmask off n buf)[j]? =
      if off ≤ j ∧ j < off + n then
        buf[j]?.map (· ^^^ buf.getD (off - 4 + (j - off) % 4) 0)
      else buf[j]? := by
  induction n with
  | zero =>
      intro room j
      rw [if_neg (by omega)]
      rfl
  | succ n ih =>
      intro room j
      have before := ih (by omega)
      have here : (unmask off n buf).getD (off + n) 0 = buf.getD (off + n) 0 := by
        rw [List.getD_eq_getElem?_getD, before, if_neg (by omega), List.getD_eq_getElem?_getD]
      have keyByte : (unmask off n buf).getD (off - 4 + n % 4) 0 =
          buf.getD (off - 4 + n % 4) 0 := by
        rw [List.getD_eq_getElem?_getD, before, if_neg (by omega), List.getD_eq_getElem?_getD]
      rw [unmask_succ, List.getElem?_set, here, keyByte]
      by_cases last : off + n = j
      · subst last
        have there : off + n < buf.length := by omega
        rw [if_pos rfl, if_pos (by rw [unmask_length]; omega), if_pos (by omega),
          Nat.add_sub_cancel_left, List.getD_eq_getElem?_getD, List.getElem?_eq_getElem there]
        rfl
      · rw [if_neg last, before]
        by_cases inside : off ≤ j ∧ j < off + n
        · rw [if_pos inside, if_pos (by omega)]
        · rw [if_neg inside, if_neg (by omega)]

/-- The loop is `xorCycle` on the payload, with the four bytes in front of it as the key. -/
theorem unmask_eq {off n : Nat} {buf : List UInt8} (key : 4 ≤ off) (room : off + n ≤ buf.length) :
    unmask off n buf = buf.take off ++
      (xorCycle ((buf.drop (off - 4)).take 4) ((buf.drop off).take n) ++ buf.drop (off + n)) := by
  have keyLength : ((buf.drop (off - 4)).take 4).length = 4 := by simp; omega
  have front : (buf.take off).length = off := by simp; omega
  have middle : (xorCycle ((buf.drop (off - 4)).take 4) ((buf.drop off).take n)).length = n := by
    simp
    omega
  apply List.ext_getElem?
  intro j
  rw [unmask_getElem? key room, List.getElem?_append, List.getElem?_append, front, middle]
  by_cases before : j < off
  · rw [if_neg (by omega), if_pos before, List.getElem?_take_of_lt before]
  · rw [if_neg before]
    by_cases inside : j < off + n
    · have same : off + (j - off) = j := by omega
      have at_ : off - 4 + (j - off) % 4 < buf.length := by omega
      rw [if_pos ⟨by omega, inside⟩, if_pos (by omega), xorCycle, List.getElem?_mapIdx, keyLength,
        List.getElem?_take_of_lt (by omega), List.getElem?_drop, same,
        List.getD_eq_getElem?_getD, List.getD_eq_getElem?_getD,
        List.getElem?_take_of_lt (by omega), List.getElem?_drop]
    · rw [if_neg (by omega), if_neg (by omega), List.getElem?_drop]
      congr 1
      omega

/-- What the two decoders agree on. -/
def InPlace.ofParsed (buf : List UInt8) : Parsed Frame → InPlace
  | .incomplete => ⟨0, buf, none⟩
  | .malformed => ⟨-1, buf, none⟩
  | .done frame =>
      let off := frame.consumed - frame.payload.length
      ⟨frame.consumed, buf.take off ++ (frame.payload ++ buf.drop frame.consumed),
        some ⟨frame.fin, frame.opcode, off, frame.payload.length⟩⟩

theorem InPlace.payload_ofParsed {buf : List UInt8} {frame : Frame}
    (inside : frame.consumed ≤ buf.length) :
    (InPlace.ofParsed buf (.done frame)).payload = frame.payload := by
  have front : (buf.take (frame.consumed - frame.payload.length)).length =
      frame.consumed - frame.payload.length := by
    rw [List.length_take]
    omega
  show ((buf.take (frame.consumed - frame.payload.length) ++ (frame.payload ++ _)).drop
    (frame.consumed - frame.payload.length)).take frame.payload.length = frame.payload
  rw [List.drop_left' front, List.take_left]

theorem wsDecodePayloadInPlace_eq (buf : List UInt8) (b0 : UInt8) (off plen : Nat) :
    wsDecodePayloadInPlace buf b0 off plen = .ofParsed buf (wsDecodePayload b0 off plen buf) := by
  unfold wsDecodePayloadInPlace wsDecodePayload
  dsimp only
  by_cases long : plen > intMax - (off + 4)
  · rw [if_pos long, if_pos long]
    rfl
  rw [if_neg long, if_neg long]
  by_cases undefined : b0 &&& 0x0f ∉ wsOpcodes
  · rw [if_pos undefined, if_pos undefined]
    rfl
  rw [if_neg undefined, if_neg undefined]
  split_ifs with control short cut
  · rfl
  · rw [Peek.bind_of_incomplete (if_pos short)]
    rfl
  · have key : Peek.slice off 4 buf = .done ((buf.drop off).take 4) := if_neg short
    rw [Peek.bind_of_done key, Peek.bind_of_incomplete (if_pos (by omega))]
    rfl
  · have key : Peek.slice off 4 buf = .done ((buf.drop off).take 4) := if_neg short
    have masked : Peek.slice (off + 4) plen buf = .done ((buf.drop (off + 4)).take plen) :=
      if_neg (by omega)
    have size : ((buf.drop (off + 4)).take plen).length = plen := by simp; omega
    rw [Peek.bind_of_done key, Peek.bind_of_done masked, unmask_eq (by omega) (by omega)]
    show _ = InPlace.ofParsed buf (.done _)
    simp only [InPlace.ofParsed, xorCycle_length, size, Nat.add_sub_cancel]
    rfl

/-- **The decoder in its buffer** answers as the decoder on bytes, and changes the buffer
only behind a whole frame, where the payload lies. -/
theorem wsDecodeInPlace_eq (buf : List UInt8) :
    wsDecodeInPlace buf = .ofParsed buf (wsDecodeFrame buf) := by
  match buf with
  | [] => rfl
  | [_] => rfl
  | b0 :: b1 :: rest =>
      have long : 2 ≤ (b0 :: b1 :: rest).length := by simp
      rw [wsDecodeFrame, Peek.bind_of_done (Peek.need_of_le long),
        Peek.bind_of_done (Peek.at_of_getElem? (by rfl)),
        Peek.bind_of_done (Peek.at_of_getElem? (by rfl)), wsDecodeInPlace]
      split_ifs with reserved unmasked two short eight short
      · rfl
      · rfl
      · rw [Peek.bind_of_incomplete (if_pos short)]
        rfl
      · rw [Peek.bind_of_done (if_neg short), wsDecodePayloadInPlace_eq]
      · rw [Peek.bind_of_incomplete (if_pos short)]
        rfl
      · rw [Peek.bind_of_done (if_neg short), wsDecodePayloadInPlace_eq]
      · rw [wsDecodePayloadInPlace_eq]

/-! ## Round trip -/

/-- The server's frame as a client would send it: FIN as chosen, the MASK bit set, the key
behind the length field, and the payload under the key. -/
def clientFrame (fin : Bool) (key : Fin 4 → UInt8) (server : List UInt8) : List UInt8 :=
  match server with
  | b0 :: b1 :: rest =>
      let ext := if b1 = 126 then 2 else if b1 = 127 then 8 else 0
      ((b0 &&& 0x7f) ||| (if fin then 0x80 else 0)) :: (b1 ||| 0x80) ::
        (rest.take ext ++ (List.ofFn key ++ xorCycle (List.ofFn key) (rest.drop ext)))
  | short => short

/-- `ws_encode_frame` fails exactly when header and payload do not fit. -/
theorem wsEncodeFrame_eq_none_iff (bufsz : Nat) (opcode : UInt8) (payload : List UInt8) :
    wsEncodeFrame bufsz opcode payload = none ↔
      bufsz < wsHeaderLength payload.length + payload.length ∨
        intMax < wsHeaderLength payload.length + payload.length := by
  have header := wsLength_length payload.length
  have small : wsHeaderLength payload.length ≤ 10 := by
    unfold wsHeaderLength
    split_ifs <;> omega
  have large : 10 ≤ intMax := by decide
  unfold wsEncodeFrame
  dsimp only
  rw [header]
  split_ifs with room
  · exact iff_of_true rfl (by omega)
  · exact iff_of_false (by simp) (by omega)

theorem wsEncodeFrame_length {bufsz : Nat} {opcode : UInt8} {payload out : List UInt8}
    (encoded : wsEncodeFrame bufsz opcode payload = some out) :
    out.length = wsHeaderLength payload.length + payload.length := by
  have header := wsLength_length payload.length
  unfold wsEncodeFrame at encoded
  dsimp only at encoded
  split_ifs at encoded
  obtain rfl := Option.some.inj encoded
  simp only [List.length_cons, List.length_append]
  omega

namespace ClientFrame

theorem server_bits (fin : Bool) {opcode : UInt8} (defined : opcode ∈ wsOpcodes) :
    ((0x80 ||| (opcode &&& 0x0f)) &&& 0x7f) ||| (if fin then 0x80 else 0) =
      (if fin then 0x80 else 0) ||| opcode := by
  revert fin opcode
  decide +kernel

/-- The server's frame made a client's is the client's frame. -/
theorem clientFrame_encoded {f : ClientFrame} (valid : f.Valid) {bufsz : Nat} {out : List UInt8}
    (encoded : wsEncodeFrame bufsz f.opcode f.payload = some out) :
    clientFrame f.fin f.key out = f.bytes := by
  unfold wsEncodeFrame at encoded
  dsimp only at encoded
  split_ifs at encoded
  obtain rfl := Option.some.inj encoded
  have ext : (if (wsLength f.payload.length).1 = 126 then 2
      else if (wsLength f.payload.length).1 = 127 then 8 else 0) =
        (wsLength f.payload.length).2.length := by
    unfold wsLength
    by_cases short : f.payload.length < 126
    · have plain : ∀ m : UInt8, 126 ≤ m.toNat → UInt8.ofNat f.payload.length ≠ m := by
        intro m le same
        have low : (UInt8.ofNat f.payload.length).toNat = f.payload.length :=
          UInt8.toNat_ofNat_of_lt' (lt_trans short (by decide))
        rw [← same, low] at le
        omega
      simp only [if_pos short, plain 126 (by decide), plain 127 (by decide), if_false]
      rfl
    · by_cases middle : f.payload.length ≤ 0xffff
      · simp [short, middle]
      · simp [short, middle]
  simp only [clientFrame, ext, server_bits f.fin valid.opcode, List.take_left, List.drop_left,
    bytes, header, UInt8.or_comm _ 0x80, List.cons_append]

/-- What becomes of a frame on the wire: decoded when it is whole, whatever follows it, and
left alone before. -/
structure RoundTrips (f : ClientFrame) (wire rest : List UInt8) : Prop where
  returned : (wsDecodeInPlace (wire ++ rest)).rc = wire.length
  decoded : ∃ out, (wsDecodeInPlace (wire ++ rest)).out = some out ∧
    out.fin = f.fin ∧ out.opcode = f.opcode ∧ out.payloadLen = f.payload.length
  payload : (wsDecodeInPlace (wire ++ rest)).payload = f.payload
  waits : ∀ front, front <+: wire → front ≠ wire → wsDecodeInPlace front = ⟨0, front, none⟩

theorem roundTrips {f : ClientFrame} (valid : f.Valid) (rest : List UInt8) :
    f.RoundTrips f.bytes rest := by
  have whole : wsDecodeInPlace (f.bytes ++ rest) = .ofParsed (f.bytes ++ rest)
      (.done ⟨f.fin, f.opcode, f.payload, f.bytes.length⟩) := by
    rw [wsDecodeInPlace_eq, wsDecodeFrame_bytes valid]
  refine ⟨?_, ?_, ?_, ?_⟩
  · rw [whole]
    rfl
  · rw [whole]
    exact ⟨_, rfl, rfl, rfl, rfl⟩
  · rw [whole]
    exact InPlace.payload_ofParsed (by simp)
  · intro front isFront proper
    rw [wsDecodeInPlace_eq, wsDecodeFrame_front valid isFront proper]
    rfl

end ClientFrame

/-- **Round trip.**  Every valid frame comes back from the encoder's bytes, and the encoder
fails exactly when header and payload do not fit. -/
theorem frame_round_trip :
    (∀ f : ClientFrame, f.Valid → ∀ bufsz out rest,
      wsEncodeFrame bufsz f.opcode f.payload = some out →
        f.RoundTrips (clientFrame f.fin f.key out) rest) ∧
    (∀ bufsz opcode payload,
      (wsEncodeFrame bufsz opcode payload = none ↔
        bufsz < wsHeaderLength payload.length + payload.length ∨
          intMax < wsHeaderLength payload.length + payload.length) ∧
      ∀ out, wsEncodeFrame bufsz opcode payload = some out →
        out.length = wsHeaderLength payload.length + payload.length) := by
  refine ⟨fun f valid bufsz out rest encoded => ?_, fun bufsz opcode payload => ⟨?_, ?_⟩⟩
  · rw [ClientFrame.clientFrame_encoded valid encoded]
    exact ClientFrame.roundTrips valid rest
  · exact wsEncodeFrame_eq_none_iff bufsz opcode payload
  · exact fun out encoded => wsEncodeFrame_length encoded

/-- The start of a fragmented text. -/
def hello : ClientFrame := ⟨false, wsOpText, fun i => UInt8.ofNat i.val, ascii "hello"⟩

theorem frame_round_trip_hello :
    hello.RoundTrips (clientFrame false hello.key [129, 5, 104, 101, 108, 108, 111]) [138, 0] :=
  frame_round_trip.1 hello ⟨by decide, by decide, by decide⟩ 65536 _ [138, 0] (by decide +kernel)

end SpnavBridge.Wire
