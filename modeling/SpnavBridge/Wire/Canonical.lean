/-
# Wire.Canonical -- which frames the decoder accepts

The converse of the round trip, over every buffer.  What `ws_decode_frame` takes is the
RFC 6455 encoding of what it answers, and every other complete header is refused, but for
one kind: a length field longer than it has to be (`Overlong`) is taken as well.
`canonical_iff` says that nothing else gets through.

`wsDecodeFrame_of_header` is the decoder as a function of the header it has read.
-/
import SpnavBridge.Wire.Ws

namespace SpnavBridge.Wire

open SpnavBridge.Theory

set_option autoImplicit false

/-! ## Headers -/

/-- The two fixed bytes of a header and the extended length behind them. -/
structure WsHeader where
  b0 : UInt8
  b1 : UInt8
  ext : List UInt8

/-- The bytes of extended length that a second byte announces. -/
def extLength (b1 : UInt8) : Nat :=
  if b1 &&& 0x7f = 126 then 2 else if b1 &&& 0x7f = 127 then 8 else 0

/-- The header at the front of a buffer, once it is complete with its key. -/
def wsHeader (buf : List UInt8) : Option WsHeader :=
  match buf with
  | b0 :: b1 :: rest =>
      if rest.length < extLength b1 + (if b1 &&& 0x80 = 0 then 0 else 4) then none
      else some ⟨b0, b1, rest.take (extLength b1)⟩
  | _ => none

namespace WsHeader

def plen (h : WsHeader) : Nat :=
  if extLength h.b1 = 0 then (h.b1 &&& 0x7f).toNat else fromBigEndian h.ext

/-- Where the key lies. -/
def off (h : WsHeader) : Nat := 2 + extLength h.b1

/-- The opcode is defined, and a control frame is whole and short. -/
def Admits (b0 : UInt8) (plen : Nat) : Prop :=
  b0 &&& 0x0f ∈ wsOpcodes ∧ ((b0 &&& 0x0f) &&& 8 ≠ 0 → b0 &&& 0x80 ≠ 0 ∧ plen ≤ 125)

/-- The header of a client frame, but for how its length is written. -/
def Framed (h : WsHeader) : Prop :=
  h.b0 &&& 0x70 = 0 ∧ h.b1 &&& 0x80 ≠ 0 ∧ Admits h.b0 h.plen

/-- The length field is the shortest that holds the length. -/
def Minimal (h : WsHeader) : Prop :=
  (h.b1 &&& 0x7f = 126 → 126 ≤ h.plen) ∧ (h.b1 &&& 0x7f = 127 → 0x10000 ≤ h.plen)

/-- The header of a client frame as RFC 6455 has it. -/
def Rfc (h : WsHeader) : Prop := h.Framed ∧ h.Minimal ∧ h.plen < 2 ^ 63

instance (b0 : UInt8) (plen : Nat) : Decidable (Admits b0 plen) :=
  inferInstanceAs (Decidable (_ ∧ _))

instance (h : WsHeader) : Decidable h.Framed :=
  inferInstanceAs (Decidable (_ ∧ _ ∧ _))

instance (h : WsHeader) : Decidable h.Minimal :=
  inferInstanceAs (Decidable (_ ∧ _))

end WsHeader

open WsHeader in
/-- Behind a header with its key only the tests on opcode and length and the bytes of the
payload count. -/
theorem wsDecodePayload_eq {b0 : UInt8} {off plen : Nat} {buf : List UInt8}
    (room : off + 4 ≤ buf.length) :
    wsDecodePayload b0 off plen buf =
      if Admits b0 plen ∧ plen ≤ intMax - (off + 4) then
        if buf.length < off + 4 + plen then .incomplete
        else .done ⟨b0 &&& 0x80 ≠ 0, b0 &&& 0x0f,
          xorCycle ((buf.drop off).take 4) ((buf.drop (off + 4)).take plen), off + 4 + plen⟩
      else .malformed := by
  have key : Peek.slice off 4 buf = .done ((buf.drop off).take 4) := if_neg (by omega)
  unfold wsDecodePayload
  by_cases admits : Admits b0 plen ∧ plen ≤ intMax - (off + 4)
  · obtain ⟨⟨defined, control⟩, fits⟩ := admits
    have whole : ¬ ((b0 &&& 0x0f) &&& 8 ≠ 0 ∧ ((!decide (b0 &&& 0x80 ≠ 0)) = true ∨ plen > 125)) := by
      rintro ⟨isControl, broken⟩
      obtain ⟨fin, short⟩ := control isControl
      rcases broken with cut | long
      · simp [fin] at cut
      · omega
    have passes : Admits b0 plen ∧ plen ≤ intMax - (off + 4) := ⟨⟨defined, control⟩, fits⟩
    rw [if_neg (not_lt.mpr fits), if_neg (not_not.mpr defined), if_neg whole,
      Peek.bind_of_done key, if_pos passes]
    by_cases short : buf.length < off + 4 + plen
    · rw [if_pos short, Peek.bind_of_incomplete (if_pos short)]
    · rw [if_neg short, Peek.bind_of_done (if_neg short)]
      rfl
  · rw [if_neg admits]
    by_cases long : plen > intMax - (off + 4)
    · rw [if_pos long]
      rfl
    by_cases undefined : b0 &&& 0x0f ∉ wsOpcodes
    · rw [if_neg long, if_pos undefined]
      rfl
    by_cases broken : (b0 &&& 0x0f) &&& 8 ≠ 0 ∧
        ((!decide (b0 &&& 0x80 ≠ 0)) = true ∨ plen > 125)
    · rw [if_neg long, if_neg undefined, if_pos broken]
      rfl
    · refine absurd ⟨⟨not_not.mp undefined, fun isControl => ?_⟩, not_lt.mp long⟩ admits
      rw [not_and_or, not_or] at broken
      rcases broken with data | ⟨fin, short⟩
      · exact absurd isControl data
      · exact ⟨by simpa using fin, not_lt.mp short⟩

/-- A payload is only answered behind its key. -/
theorem room_of_wsDecodePayload {b0 : UInt8} {off plen : Nat} {buf : List UInt8} {frame : Frame}
    (decoded : wsDecodePayload b0 off plen buf = .done frame) : off + 4 ≤ buf.length := by
  obtain ⟨-, decoded⟩ := Peek.guard_eq_done decoded
  obtain ⟨-, decoded⟩ := Peek.guard_eq_done decoded
  obtain ⟨-, decoded⟩ := Peek.guard_eq_done decoded
  obtain ⟨key, held, -⟩ := Peek.bind_eq_done decoded
  exact (Peek.slice_eq_done held).1

theorem wsDecodeFrame_cons (b0 b1 : UInt8) (rest : List UInt8) :
    wsDecodeFrame (b0 :: b1 :: rest) =
      if b0 &&& 0x70 ≠ 0 ∨ b1 &&& 0x80 = 0 then .malformed
      else if rest.length < extLength b1 then .incomplete
      else wsDecodePayload b0 (2 + extLength b1) (WsHeader.plen ⟨b0, b1, rest.take (extLength b1)⟩)
        (b0 :: b1 :: rest) := by
  have long : 2 ≤ (b0 :: b1 :: rest).length := by simp
  have field : ∀ n, Peek.slice 2 n (b0 :: b1 :: rest) =
      if rest.length < n then .incomplete else .done (rest.take n) := by
    intro n
    unfold Peek.slice
    by_cases short : rest.length < n
    · rw [if_pos short, if_pos (by simp only [List.length_cons]; omega)]
    · rw [if_neg short, if_neg (by simp only [List.length_cons]; omega)]
      rfl
  rw [wsDecodeFrame, Peek.bind_of_done (Peek.need_of_le long),
    Peek.bind_of_done (Peek.at_of_getElem? (by rfl)),
    Peek.bind_of_done (Peek.at_of_getElem? (by rfl))]
  by_cases reserved : b0 &&& 0x70 ≠ 0
  · rw [if_pos reserved, if_pos (Or.inl reserved)]
    rfl
  by_cases unmasked : b1 &&& 0x80 = 0
  · rw [if_neg reserved, if_pos unmasked, if_pos (Or.inr unmasked)]
    rfl
  rw [if_neg reserved, if_neg unmasked, if_neg (not_or.mpr ⟨reserved, unmasked⟩)]
  by_cases two : b1 &&& 0x7f = 126
  · have ext : extLength b1 = 2 := if_pos two
    rw [if_pos two, ext]
    by_cases short : rest.length < 2
    · rw [if_pos short, Peek.bind_of_incomplete ((field 2).trans (if_pos short))]
    · rw [if_neg short, Peek.bind_of_done ((field 2).trans (if_neg short))]
      simp only [WsHeader.plen, ext, OfNat.ofNat_ne_zero, if_false]
  · by_cases eight : b1 &&& 0x7f = 127
    · have ext : extLength b1 = 8 := (if_neg two).trans (if_pos eight)
      rw [if_neg two, if_pos eight, ext]
      by_cases short : rest.length < 8
      · rw [if_pos short, Peek.bind_of_incomplete ((field 8).trans (if_pos short))]
      · rw [if_neg short, Peek.bind_of_done ((field 8).trans (if_neg short))]
        simp only [WsHeader.plen, ext, OfNat.ofNat_ne_zero, if_false]
    · have ext : extLength b1 = 0 := (if_neg two).trans (if_neg eight)
      rw [if_neg two, if_neg eight, ext, if_neg (Nat.not_lt_zero _)]
      simp only [WsHeader.plen, ext, if_true]

open WsHeader in
/-- **What a complete header decides.** -/
theorem wsDecodeFrame_of_header {buf : List UInt8} {h : WsHeader} (header : wsHeader buf = some h) :
    wsDecodeFrame buf =
      if h.Framed ∧ h.plen ≤ intMax - (h.off + 4) then
        if buf.length < h.off + 4 + h.plen then .incomplete
        else .done ⟨h.b0 &&& 0x80 ≠ 0, h.b0 &&& 0x0f,
          xorCycle ((buf.drop h.off).take 4) ((buf.drop (h.off + 4)).take h.plen),
          h.off + 4 + h.plen⟩
      else .malformed := by
  match buf, header with
  | b0 :: b1 :: rest, header =>
      rw [wsHeader] at header
      split_ifs at header with masked short short
      all_goals obtain rfl := Option.some.inj header
      · rw [wsDecodeFrame_cons, if_pos (Or.inr masked), if_neg]
        exact fun framed => framed.1.2.1 masked
      · have room : 2 + extLength b1 + 4 ≤ (b0 :: b1 :: rest).length := by
          simp only [List.length_cons]
          omega
        rw [wsDecodeFrame_cons]
        by_cases reserved : b0 &&& 0x70 ≠ 0
        · rw [if_pos (Or.inl reserved), if_neg]
          exact fun framed => reserved framed.1.1
        · rw [if_neg (not_or.mpr ⟨reserved, masked⟩), if_neg (by omega), wsDecodePayload_eq room]
          by_cases passes : Admits b0 (plen ⟨b0, b1, rest.take (extLength b1)⟩) ∧
              plen ⟨b0, b1, rest.take (extLength b1)⟩ ≤ intMax - (2 + extLength b1 + 4)
          · exact (if_pos passes).trans
              (if_pos ⟨⟨not_not.mp reserved, masked, passes.1⟩, passes.2⟩).symm
          · exact (if_neg passes).trans
              (if_neg fun framed => passes ⟨framed.1.2.2, framed.2⟩).symm

/-- A frame is only answered behind a complete header. -/
theorem wsHeader_of_done {buf : List UInt8} {frame : Frame}
    (decoded : wsDecodeFrame buf = .done frame) : ∃ h, wsHeader buf = some h := by
  match buf, decoded with
  | [], decoded => cases decoded
  | [_], decoded => cases decoded
  | b0 :: b1 :: rest, decoded =>
      rw [wsDecodeFrame_cons] at decoded
      split_ifs at decoded with refused short
      have room := room_of_wsDecodePayload decoded
      have masked : ¬ b1 &&& 0x80 = 0 := fun unmasked => refused (Or.inr unmasked)
      simp only [List.length_cons] at room
      exact ⟨_, by rw [wsHeader, if_neg masked, if_neg (by omega)]⟩

/-! ## What is accepted -/

/-- The bytes a frame was read from are its RFC 6455 encoding, with the key in them. -/
def EncodesFrame (buf : List UInt8) (frame : Frame) : Prop :=
  ∃ f : ClientFrame, f.Valid ∧ f.fin = frame.fin ∧ f.opcode = frame.opcode ∧
    f.payload = frame.payload ∧ buf.take frame.consumed = f.bytes

/-- The decoder takes the encodings of client frames and refuses every other header. -/
structure Canonical (buf : List UInt8) : Prop where
  encodes : ∀ frame, wsDecodeFrame buf = .done frame → EncodesFrame buf frame
  rejects : ∀ h, wsHeader buf = some h → ¬ h.Rfc → wsDecodeFrame buf = .malformed

/-- A complete header of a client frame whose length field is longer than it has to be. -/
def Overlong (buf : List UInt8) : Prop :=
  ∃ h, wsHeader buf = some h ∧ h.Framed ∧ ¬ h.Minimal

namespace WsHeader

theorem ext_length {buf : List UInt8} {h : WsHeader} (header : wsHeader buf = some h) :
    h.ext.length = extLength h.b1 ∧ ∃ rest, buf = h.b0 :: h.b1 :: (h.ext ++ rest) := by
  match buf, header with
  | b0 :: b1 :: rest, header =>
      rw [wsHeader] at header
      split_ifs at header with masked short short
      all_goals
        obtain rfl := Option.some.inj header
        refine ⟨?_, rest.drop (extLength b1), ?_⟩
        · simp only [List.length_take]
          omega
        · rw [List.take_append_drop]

/-- A field longer than it has to be holds a short length. -/
theorem plen_of_not_minimal {h : WsHeader} (overlong : ¬ h.Minimal) : h.plen < 0x10000 := by
  rw [Minimal, not_and_or] at overlong
  rcases overlong with two | eight
  · have short := (Classical.not_imp.mp two).2
    omega
  · have short := (Classical.not_imp.mp eight).2
    omega

theorem off_le (h : WsHeader) : h.off ≤ 10 := by
  unfold off extLength
  split_ifs <;> omega

/-- A minimal field is the one that `wsLength` writes. -/
theorem wsLength_of_minimal {h : WsHeader} (size : h.ext.length = extLength h.b1)
    (minimal : h.Minimal) : wsLength h.plen = (h.b1 &&& 0x7f, h.ext) := by
  have bound := fromBigEndian_lt h.ext
  have written := bigEndian_fromBigEndian h.ext 0
  rw [zero_mul, zero_add] at written
  by_cases two : h.b1 &&& 0x7f = 126
  · have ext : extLength h.b1 = 2 := if_pos two
    have value : h.plen = fromBigEndian h.ext := if_neg (by rw [ext]; decide)
    have least := minimal.1 two
    rw [size, ext] at bound written
    rw [value] at least ⊢
    rw [wsLength, if_neg (by omega), if_pos (by omega), written, two]
  · by_cases eight : h.b1 &&& 0x7f = 127
    · have ext : extLength h.b1 = 8 := (if_neg two).trans (if_pos eight)
      have value : h.plen = fromBigEndian h.ext := if_neg (by rw [ext]; decide)
      have least := minimal.2 eight
      rw [size, ext] at written
      rw [value] at least ⊢
      rw [wsLength, if_neg (by omega), if_neg (by omega), written, eight]
    · have ext : extLength h.b1 = 0 := (if_neg two).trans (if_neg eight)
      have value : h.plen = (h.b1 &&& 0x7f).toNat := if_pos ext
      have short : (h.b1 &&& 0x7f).toNat < 126 := by
        have all : ∀ b : UInt8, b &&& 0x7f ≠ 126 → b &&& 0x7f ≠ 127 →
            (b &&& 0x7f).toNat < 126 := by
          apply forall_byte
          decide +kernel
        exact all h.b1 two eight
      have none_ : h.ext = [] := List.eq_nil_of_length_eq_zero (size.trans ext)
      rw [value, wsLength, if_pos short, UInt8.ofNat_toNat, none_]

theorem first_byte : ∀ b : UInt8, b &&& 0x70 = 0 →
    (if decide (b &&& 0x80 ≠ 0) = true then 0x80 else 0) ||| (b &&& 0x0f) = b := by
  apply forall_byte
  decide +kernel

theorem second_byte : ∀ b : UInt8, b &&& 0x80 ≠ 0 → 0x80 ||| (b &&& 0x7f) = b := by
  apply forall_byte
  decide +kernel

end WsHeader

/-- A frame behind a minimal header is read from its own encoding. -/
theorem encodesFrame_of_minimal {buf : List UInt8} {frame : Frame} {h : WsHeader}
    (header : wsHeader buf = some h) (minimal : h.Minimal)
    (decoded : wsDecodeFrame buf = .done frame) : EncodesFrame buf frame := by
  obtain ⟨size, rest, split⟩ := WsHeader.ext_length header
  rw [wsDecodeFrame_of_header header] at decoded
  split_ifs at decoded with passes short
  obtain ⟨⟨reserved, masked, defined, control⟩, fits⟩ := passes
  obtain rfl : _ = frame := by injection decoded
  have field := WsHeader.wsLength_of_minimal size minimal
  have key : ((buf.drop h.off).take 4).length = 4 := by
    rw [List.length_take, List.length_drop]
    omega
  have payload : ((buf.drop (h.off + 4)).take h.plen).length = h.plen := by
    rw [List.length_take, List.length_drop]
    omega
  have front : buf.take h.off = h.b0 :: h.b1 :: h.ext := by
    rw [split, WsHeader.off, ← size, Nat.add_comm, List.take_succ_cons, List.take_succ_cons,
      List.take_left]
  -- the frame whose key and payload are the bytes behind the header
  let f : ClientFrame :=
    ⟨h.b0 &&& 0x80 ≠ 0, h.b0 &&& 0x0f, fun i => ((buf.drop h.off).take 4).getD i.val 0,
      xorCycle ((buf.drop h.off).take 4) ((buf.drop (h.off + 4)).take h.plen)⟩
  have length : f.payload.length = h.plen := (xorCycle_length _ _).trans payload
  have sameKey : List.ofFn f.key = (buf.drop h.off).take 4 := by
    apply List.ext_getElem (by rw [List.length_ofFn, key])
    intro i inside inside'
    rw [List.getElem_ofFn]
    show ((buf.drop h.off).take 4).getD i 0 = _
    rw [List.getD_eq_getElem?_getD, List.getElem?_eq_getElem inside', Option.getD_some]
  have header_ : f.header = h.b0 :: h.b1 :: h.ext := by
    rw [ClientFrame.header, length, field]
    show ((if decide (h.b0 &&& 0x80 ≠ 0) = true then 0x80 else 0) ||| (h.b0 &&& 0x0f)) ::
      (0x80 ||| (h.b1 &&& 0x7f)) :: h.ext = _
    rw [WsHeader.first_byte h.b0 reserved, WsHeader.second_byte h.b1 masked]
  refine ⟨f, ⟨defined, fun isControl => ?_, ?_⟩, rfl, rfl, rfl, ?_⟩
  · obtain ⟨fin, few⟩ := control isControl
    exact ⟨decide_eq_true fin, length.trans_le few⟩
  · have off : wsHeaderLength h.plen = h.off := by
      rw [← wsLength_length, field, WsHeader.off, ← size]
    rw [length]
    unfold wsHeaderLength at off
    unfold intMax at fits ⊢
    split_ifs at off <;> omega
  · rw [ClientFrame.bytes, header_, sameKey, xorCycle_xorCycle, ← front, List.take_add,
      List.take_add, List.append_assoc]

/-- **What is accepted is canonical exactly when no length is overlong.** -/
theorem canonical_iff (buf : List UInt8) : Canonical buf ↔ ¬ Overlong buf := by
  constructor
  · rintro canonical ⟨h, header, framed, overlong⟩
    have refused := canonical.rejects h header fun rfc => overlong rfc.2.1
    have short := WsHeader.plen_of_not_minimal overlong
    have off := h.off_le
    have fits : h.Framed ∧ h.plen ≤ intMax - (h.off + 4) := by
      refine ⟨framed, ?_⟩
      unfold intMax
      omega
    rw [wsDecodeFrame_of_header header, if_pos fits] at refused
    split_ifs at refused
  · intro minimal
    have framedMinimal : ∀ h, wsHeader buf = some h → h.Framed → h.Minimal := by
      intro h header framed
      by_contra overlong
      exact minimal ⟨h, header, framed, overlong⟩
    refine ⟨fun frame decoded => ?_, fun h header other => ?_⟩
    · obtain ⟨h, header⟩ := wsHeader_of_done decoded
      have passes := decoded
      rw [wsDecodeFrame_of_header header] at passes
      split_ifs at passes with framed
      exact encodesFrame_of_minimal header (framedMinimal h header framed.1) decoded
    · rw [wsDecodeFrame_of_header header, if_neg]
      rintro ⟨framed, fits⟩
      refine other ⟨framed, framedMinimal h header framed, ?_⟩
      unfold intMax at fits
      omega

/-- A two-byte text whose length is written in sixteen bits. -/
def overlongText : List UInt8 := [0x81, 0xfe, 0, 2, 0, 0, 0, 0, 104, 105]

/-- It is accepted, in ten bytes where its encoding has eight. -/
theorem overlongText_accepted : ¬ Canonical overlongText := by
  intro canonical
  obtain ⟨f, valid, -, -, payload, bytes⟩ := canonical.encodes
    ⟨true, wsOpText, ascii "hi", 10⟩ (by decide +kernel)
  have length := congrArg List.length bytes
  rw [ClientFrame.bytes_length, ClientFrame.off, payload] at length
  revert length
  decide

end SpnavBridge.Wire
