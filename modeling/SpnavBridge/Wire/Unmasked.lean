/-
# Wire.Unmasked -- the frames of the server, as a client reads them

A server neither masks nor, here, fragments.  `readServerFrame` is a client that insists on
both and on a defined opcode; it reads back every frame that `ws_encode_frame` writes
(`readServerFrame_encoded`), and a stream of them in any pieces (`heard_of_encoded`).
-/
import SpnavBridge.Wire.Ws

namespace SpnavBridge.Wire

open SpnavBridge.Theory

set_option autoImplicit false

structure ServerFrame where
  opcode : UInt8
  payload : List UInt8
  deriving DecidableEq

/-- The frame's bytes, in a buffer of `bufsz`. -/
def ServerFrame.Encodes (bufsz : Nat) (frame : ServerFrame) (bytes : List UInt8) : Prop :=
  frame.opcode ∈ wsOpcodes ∧ wsEncodeFrame bufsz frame.opcode frame.payload = some bytes

/-- The payload behind `off` bytes of header. -/
def readServerPayload (opcode : UInt8) (off plen : Nat) : Peek UInt8 (Nat × ServerFrame) := do
  let payload ← Peek.slice off plen
  pure (off + plen, ⟨opcode, payload⟩)

def readServerFrame : Peek UInt8 (Nat × ServerFrame) := do
  Peek.need 2
  let b0 ← Peek.at 0
  let b1 ← Peek.at 1
  -- FIN, and no reserved bits
  if b0 &&& 0xf0 ≠ 0x80 ∨ b0 &&& 0x0f ∉ wsOpcodes then Peek.fail
  else if b1 &&& 0x80 ≠ 0 then Peek.fail
  else if b1 = 126 then do
    let size ← Peek.slice 2 2
    readServerPayload (b0 &&& 0x0f) 4 (fromBigEndian size)
  else if b1 = 127 then do
    let size ← Peek.slice 2 8
    readServerPayload (b0 &&& 0x0f) 10 (fromBigEndian size)
  else readServerPayload (b0 &&& 0x0f) 2 b1.toNat

/-! ## One frame -/

theorem stable_readServerPayload (opcode : UInt8) (off plen : Nat) :
    (readServerPayload opcode off plen).Stable :=
  Peek.stable_bind (Peek.stable_slice _ _) fun _ => Peek.stable_pure _

theorem stable_readServerFrame : readServerFrame.Stable := by
  unfold readServerFrame
  refine Peek.stable_bind (Peek.stable_need 2) fun _ =>
    Peek.stable_bind (Peek.stable_at 0) fun b0 => Peek.stable_bind (Peek.stable_at 1) fun b1 => ?_
  refine Peek.stable_ite Peek.stable_fail (Peek.stable_ite Peek.stable_fail
    (Peek.stable_ite ?_ (Peek.stable_ite ?_ (stable_readServerPayload _ _ _))))
  · exact Peek.stable_bind (Peek.stable_slice 2 2) fun size => stable_readServerPayload _ _ _
  · exact Peek.stable_bind (Peek.stable_slice 2 8) fun size => stable_readServerPayload _ _ _

theorem consumed_of_readServerPayload {opcode : UInt8} {off plen n : Nat} {frame : ServerFrame}
    {buf : List UInt8} (some_ : 0 < off)
    (read : readServerPayload opcode off plen buf = .done (n, frame)) : 0 < n ∧ n ≤ buf.length := by
  obtain ⟨payload, held, read⟩ := Peek.bind_eq_done read
  cases read
  exact ⟨by omega, (Peek.slice_eq_done held).1⟩

theorem consumed_of_readServerFrame {n : Nat} {frame : ServerFrame} {buf : List UInt8}
    (read : readServerFrame buf = .done (n, frame)) : 0 < n ∧ n ≤ buf.length := by
  obtain ⟨-, -, read⟩ := Peek.bind_eq_done read
  obtain ⟨b0, -, read⟩ := Peek.bind_eq_done read
  obtain ⟨b1, -, read⟩ := Peek.bind_eq_done read
  obtain ⟨-, read⟩ := Peek.guard_eq_done read
  obtain ⟨-, read⟩ := Peek.guard_eq_done read
  split_ifs at read
  · obtain ⟨size, -, read⟩ := Peek.bind_eq_done read
    exact consumed_of_readServerPayload (by decide) read
  · obtain ⟨size, -, read⟩ := Peek.bind_eq_done read
    exact consumed_of_readServerPayload (by decide) read
  · exact consumed_of_readServerPayload (by decide) read

/-- The bits of the first byte that `ws_encode_frame` writes. -/
theorem encoded_bits {opcode : UInt8} (defined : opcode ∈ wsOpcodes) :
    (0x80 ||| (opcode &&& 0x0f)) &&& 0xf0 = 0x80 ∧ (0x80 ||| (opcode &&& 0x0f)) &&& 0x0f = opcode := by
  revert opcode
  decide +kernel

theorem unmasked_of_small : ∀ size < 128, UInt8.ofNat size &&& 0x80 = 0 := by
  decide +kernel

/-- **Every frame of the server is read back**, whatever follows it. -/
theorem readServerFrame_encoded {bufsz : Nat} {frame : ServerFrame} {bytes : List UInt8}
    (encodes : frame.Encodes bufsz bytes) (rest : List UInt8) :
    readServerFrame (bytes ++ rest) = .done (bytes.length, frame) := by
  obtain ⟨opcode, payload⟩ := frame
  obtain ⟨defined, encoded⟩ := encodes
  obtain ⟨high, low⟩ := encoded_bits defined
  dsimp only at defined encoded
  unfold wsEncodeFrame at encoded
  dsimp only at encoded
  split_ifs at encoded with room
  obtain rfl := Option.some.inj encoded
  have fits : payload.length < 256 ^ 8 := by
    unfold intMax at room
    omega
  have content : ∀ off, off = 2 + (wsLength payload.length).2.length →
      readServerPayload opcode off payload.length
        ((0x80 ||| (opcode &&& 0x0f)) :: (wsLength payload.length).1 ::
          ((wsLength payload.length).2 ++ payload) ++ rest) =
      .done (((0x80 ||| (opcode &&& 0x0f)) :: (wsLength payload.length).1 ::
        ((wsLength payload.length).2 ++ payload)).length, ⟨opcode, payload⟩) := by
    rintro off rfl
    have slice : Peek.slice (2 + (wsLength payload.length).2.length) payload.length
        (((0x80 ||| (opcode &&& 0x0f)) :: (wsLength payload.length).1 ::
          (wsLength payload.length).2) ++ (payload ++ rest)) = .done payload :=
      Peek.slice_of_append (by rw [List.length_cons, List.length_cons]; omega) rfl
    have same : (0x80 ||| (opcode &&& 0x0f)) :: (wsLength payload.length).1 ::
          ((wsLength payload.length).2 ++ payload) ++ rest =
        ((0x80 ||| (opcode &&& 0x0f)) :: (wsLength payload.length).1 ::
          (wsLength payload.length).2) ++ (payload ++ rest) := by
      simp
    rw [readServerPayload, same, Peek.bind_of_done slice]
    simp only [List.length_cons, List.length_append]
    show Parsed.done _ = _
    congr 2
    omega
  have extended : Peek.slice 2 (wsLength payload.length).2.length
      ((0x80 ||| (opcode &&& 0x0f)) :: (wsLength payload.length).1 ::
        ((wsLength payload.length).2 ++ payload) ++ rest) = .done (wsLength payload.length).2 := by
    rw [List.cons_append, List.cons_append, List.append_assoc]
    exact Peek.slice_of_append (show [_, _].length = 2 from rfl) rfl
  rw [readServerFrame, Peek.bind_of_done (Peek.need_of_le (by simp)),
    Peek.bind_of_done (Peek.at_of_getElem? (by rfl)),
    Peek.bind_of_done (Peek.at_of_getElem? (by rfl)), high, low,
    if_neg (by simpa using defined)]
  by_cases short : payload.length < 126
  · have field : wsLength payload.length = (UInt8.ofNat payload.length, []) := if_pos short
    have size : (UInt8.ofNat payload.length).toNat = payload.length :=
      UInt8.toNat_ofNat_of_lt' (lt_trans short (by decide))
    have plain : ∀ m : UInt8, 126 ≤ m.toNat → UInt8.ofNat payload.length ≠ m := by
      intro m le same
      rw [← same, size] at le
      omega
    rw [field] at content ⊢
    rw [unmasked_of_small _ (lt_trans short (by decide)), if_neg (by decide), if_neg (plain 126 (by decide)),
      if_neg (plain 127 (by decide)), size]
    exact content 2 rfl
  · by_cases middle : payload.length ≤ 0xffff
    · have field : wsLength payload.length = (126, bigEndian 2 payload.length) :=
        (if_neg short).trans (if_pos middle)
      rw [field] at content extended ⊢
      simp only [bigEndian_length] at content extended ⊢
      rw [if_neg (by decide), if_pos trivial, Peek.bind_of_done extended,
        fromBigEndian_bigEndian (by omega)]
      exact content 4 rfl
    · have field : wsLength payload.length = (127, bigEndian 8 payload.length) :=
        (if_neg short).trans (if_neg middle)
      rw [field] at content extended ⊢
      simp only [bigEndian_length] at content extended ⊢
      rw [if_neg (by decide), if_neg (by decide), if_pos trivial, Peek.bind_of_done extended,
        fromBigEndian_bigEndian fits]
      exact content 10 rfl

/-! ## A stream of frames -/

/-- A client that reads on until it finds something that is no frame of a server. -/
def readServerTurn : Bool → List UInt8 → Option (Bool × List UInt8 × List ServerFrame) :=
  turn
    (fun stopped =>
      if stopped then Peek.wait
      else do
        let (n, frame) ← readServerFrame
        pure (false, n, [frame]))
    fun _ => true

theorem incremental_readServerTurn : Incremental readServerTurn := by
  refine incremental_turn ?_ ?_ fun _ _ => rfl
  · intro stopped
    cases stopped with
    | true => exact Peek.stable_wait
    | false => exact Peek.stable_bind stable_readServerFrame fun _ => Peek.stable_pure _
  · intro stopped buf stopped' n out verdict
    cases stopped with
    | true => cases verdict
    | false =>
        obtain ⟨⟨size, frame⟩, read, verdict⟩ := Peek.bind_eq_done verdict
        cases verdict
        exact consumed_of_readServerFrame read

/-- The frames that a client has read in what came in. -/
def heardFrames (bytes : List UInt8) : List ServerFrame := (drain readServerTurn false bytes).out

theorem units_encoded {bufsz : Nat} {frames : List ServerFrame} {wire : List (List UInt8)}
    (encoded : List.Forall₂ (ServerFrame.Encodes bufsz) frames wire) :
    Units readServerTurn false wire false frames := by
  induction encoded with
  | nil => exact .nil false
  | @cons frame bytes frames wire encodes _ ih =>
      have eats : ∀ rest, readServerTurn false (bytes ++ rest) = some (false, rest, [frame]) := by
        intro rest
        have verdict : (do
            let (n, frame) ← readServerFrame
            pure (false, n, [frame]) : Peek UInt8 (Bool × Nat × List ServerFrame)) (bytes ++ rest) =
              .done (false, bytes.length, [frame]) := by
          rw [Peek.bind_of_done (readServerFrame_encoded encodes rest)]
          rfl
        have eaten : readServerTurn false (bytes ++ rest) =
            some (false, (bytes ++ rest).drop bytes.length, [frame]) := turn_of_done verdict
        rw [eaten, List.drop_left]
      exact .cons eats ih

/-- **A stream of frames in any pieces**: what came in so far has the first of them, and the
whole stream has all. -/
theorem heard_of_encoded {bufsz : Nat} {frames : List ServerFrame} {wire : List (List UInt8)}
    (encoded : List.Forall₂ (ServerFrame.Encodes bufsz) frames wire) {front back : List UInt8}
    (split : front ++ back = wire.flatten) :
    heardFrames front <+: frames ∧ (back = [] → heardFrames front = frames) := by
  have stuck : ∀ stopped, readServerTurn stopped [] = none := fun stopped => by cases stopped <;> rfl
  have whole : heardFrames wire.flatten = frames := by
    have drained := (units_encoded encoded).drain_flatten incremental_readServerTurn []
    rw [List.append_nil, drain_of_none (stuck false), List.append_nil] at drained
    rw [heardFrames, drained]
  refine ⟨?_, ?_⟩
  · rw [← whole, ← split, heardFrames, heardFrames, drain_append incremental_readServerTurn]
    exact List.prefix_append _ _
  · rintro rfl
    rw [List.append_nil] at split
    rw [split, whole]

end SpnavBridge.Wire
