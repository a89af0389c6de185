/-
# Daemon.Transmission -- what a WebSocket client sends, and how the loop takes it

`Transmission` is the client's side: messages cut into fragments, each message text or
binary, with PING and PONG frames in front of any frame and at the end.

Its frames are units of the loop: each is consumed by one turn, whatever follows, and the
turns do what `sentActs` lists (`takes_transmission`), provided the controller takes every
message.  The step lemmas are `takes_controls`, `takes_binary` and `takes_text`, one for each
kind of frame; the last two go by induction on the fragments that are left.
-/
import SpnavBridge.Daemon.Client

namespace SpnavBridge.Daemon

open SpnavBridge.Theory SpnavBridge.Wire SpnavBridge.Kernel Connection

set_option autoImplicit false

/-! ## Transmissions -/

/-- A PING or a PONG frame. -/
structure Control where
  ping : Bool
  key : Fin 4 → UInt8
  payload : List UInt8
  short : payload.length ≤ 125

/-- A fragment of a message, and the control frames sent in front of it. -/
structure Fragment where
  before : List Control
  key : Fin 4 → UInt8
  payload : List UInt8

/-- The payloads of the fragments, put together. -/
def content (fragments : List Fragment) : List UInt8 := fragments.flatMap Fragment.payload

def controls (fragments : List Fragment) : List Control := fragments.flatMap Fragment.before

/-- A message in at least one fragment.  A text message is bounded as a whole, a binary
one, which is not kept, frame by frame. -/
structure Sent where
  binary : Bool
  first : Fragment
  rest : List Fragment
  bounded : if binary then ∀ fragment ∈ first :: rest, fragment.payload.length ≤ msgBufSize
    else (content (first :: rest)).length ≤ msgBufSize

structure Transmission where
  sent : List Sent
  trailing : List Control

def Control.frame (control : Control) : ClientFrame :=
  ⟨true, if control.ping then wsOpPing else wsOpPong, control.key, control.payload⟩

/-- The first fragment is sent with the opcode, the others as CONT, and FIN is on the last. -/
def fragmentFrames (opcode : UInt8) : List Fragment → List ClientFrame
  | [] => []
  | fragment :: rest =>
      fragment.before.map Control.frame ++
        ⟨rest.isEmpty, opcode, fragment.key, fragment.payload⟩ :: fragmentFrames wsOpCont rest

namespace Sent

def fragments (m : Sent) : List Fragment := m.first :: m.rest

def opcode (m : Sent) : UInt8 := if m.binary then wsOpBin else wsOpText

def frames (m : Sent) : List ClientFrame := fragmentFrames m.opcode m.fragments

/-- The message, when it is one for the controller. -/
def text? (m : Sent) : Option (List UInt8) := if m.binary then none else some (content m.fragments)

end Sent

namespace Transmission

def frames (t : Transmission) : List ClientFrame :=
  t.sent.flatMap Sent.frames ++ t.trailing.map Control.frame

/-- The bytes on the wire. -/
def wire (t : Transmission) : List UInt8 := (t.frames.map ClientFrame.bytes).flatten

/-- The text messages. -/
def messages (t : Transmission) : List (List UInt8) := t.sent.filterMap Sent.text?

def controls (t : Transmission) : List Control :=
  t.sent.flatMap (fun m => Daemon.controls m.fragments) ++ t.trailing

/-- The payloads of the pings. -/
def pings (t : Transmission) : List (List UInt8) :=
  (t.controls.filter Control.ping).map Control.payload

end Transmission

/-! ## Frames are in bounds -/

theorem control_valid (control : Control) : control.frame.Valid where
  opcode := by
    have either : ∀ ping : Bool, (if ping then wsOpPing else wsOpPong) ∈ wsOpcodes := by decide
    exact either control.ping
  control := fun _ => ⟨rfl, control.short⟩
  size := control.short.trans (by decide)

theorem fragment_valid {fin : Bool} {opcode : UInt8} {key : Fin 4 → UInt8} {payload : List UInt8}
    (data : opcode ∈ [wsOpText, wsOpBin, wsOpCont]) (fits : payload.length ≤ msgBufSize) :
    (ClientFrame.mk fin opcode key payload).Valid where
  opcode := by
    have defined : ∀ op ∈ [wsOpText, wsOpBin, wsOpCont], op ∈ wsOpcodes := by
      decide +kernel
    exact defined opcode data
  control := by
    have plain : ∀ op ∈ [wsOpText, wsOpBin, wsOpCont], op &&& 8 = 0 := by
      decide +kernel
    intro isControl
    exact absurd (plain opcode data) isControl
  size := fits.trans (by decide)

theorem fragmentFrames_bounded {fragments : List Fragment}
    (fits : ∀ fragment ∈ fragments, fragment.payload.length ≤ msgBufSize) :
    ∀ opcode, ∀ frame ∈ fragmentFrames opcode fragments, frame.payload.length ≤ msgBufSize := by
  induction fragments with
  | nil =>
      intro opcode frame inside
      cases inside
  | cons fragment rest ih =>
      intro opcode frame inside
      rcases List.mem_append.mp inside with isControl | inside
      · obtain ⟨control, -, rfl⟩ := List.mem_map.mp isControl
        exact control.short.trans (by decide)
      · rcases List.mem_cons.mp inside with rfl | later
        · exact fits fragment List.mem_cons_self
        · exact ih (fun f mem => fits f (List.mem_cons_of_mem _ mem)) _ frame later

theorem content_le {fragments : List Fragment} {fragment : Fragment} (inside : fragment ∈ fragments) :
    fragment.payload.length ≤ (content fragments).length :=
  (List.sublist_flatten_of_mem (List.mem_map_of_mem inside)).length_le

/-- A frame is no longer than the largest message with the largest header. -/
theorem Transmission.frame_le (t : Transmission) {frame : ClientFrame} (inside : frame ∈ t.frames) :
    frame.bytes.length ≤ inputBufSize := by
  have payload : frame.payload.length ≤ msgBufSize := by
    rcases List.mem_append.mp inside with data | isControl
    · obtain ⟨m, -, inside⟩ := List.mem_flatMap.mp data
      have bounded := m.bounded
      apply fragmentFrames_bounded _ _ frame inside
      intro fragment mem
      split_ifs at bounded
      · exact bounded fragment mem
      · exact (content_le mem).trans bounded
    · obtain ⟨control, -, rfl⟩ := List.mem_map.mp isControl
      exact control.short.trans (by decide)
  have header := frame.off_le
  rw [ClientFrame.bytes_length, inputBufSize]
  omega

/-! ## Turns -/

variable {D F : Type} [CFloat F] [CDouble D F]

/-- Frames that the loop takes one after the other, whatever follows. -/
def Takes (o : Outside D) (s : Served F) (frames : List ClientFrame) (s' : Served F)
    (acts : List (Act F)) : Prop :=
  Units (processOnce o) s (frames.map ClientFrame.bytes) s' acts

theorem Takes.append {o : Outside D} {s s' s'' : Served F} {frames more : List ClientFrame}
    {acts later : List (Act F)} (first : Takes o s frames s' acts) (second : Takes o s' more s'' later) :
    Takes o s (frames ++ more) s'' (acts ++ later) := by
  rw [Takes, List.map_append]
  exact Units.append first second

theorem takes_frame {o : Outside D} {w : World F} {ctrl : Controller F} {msg : Reassembly}
    {f : ClientFrame} {s' : Served F} {acts : List (Act F)} (valid : f.Valid)
    (handled : handleFrame o w ctrl msg ⟨f.fin, f.opcode, f.payload, f.bytes.length⟩ = some (s', acts)) :
    Takes o ⟨w, .ws ctrl msg⟩ [f] s' acts := by
  have eats : ∀ rest, processOnce o ⟨w, .ws ctrl msg⟩ (f.bytes ++ rest) = some (s', rest, acts) := by
    intro rest
    have verdict : readOnce o ⟨w, .ws ctrl msg⟩ (f.bytes ++ rest) =
        .done (s', f.bytes.length, acts) := by
      show readFrame o w ctrl msg (f.bytes ++ rest) = _
      rw [readFrame, Peek.bind_of_done (ClientFrame.wsDecodeFrame_bytes valid rest)]
      simp only [handled]
      rfl
    rw [processOnce_of_done verdict, List.drop_left]
  have one := Units.cons eats (.nil s')
  rwa [List.append_nil] at one

/-! ### Control frames -/

/-- What the loop does for control frames: it answers the pings. -/
def controlActs (controls : List Control) : List (Act F) :=
  controls.flatMap fun control => if control.ping then pong control.payload else []

theorem handleFrame_ping {o : Outside D} {w : World F} {ctrl : Controller F} {msg : Reassembly}
    {frame : Frame} (ping : frame.opcode = wsOpPing) :
    handleFrame o w ctrl msg frame = some (⟨w, .ws ctrl msg⟩, pong frame.payload) := by
  unfold handleFrame
  rw [ping, if_neg (by decide), if_pos rfl]

theorem handleFrame_pong {o : Outside D} {w : World F} {ctrl : Controller F} {msg : Reassembly}
    {frame : Frame} (isPong : frame.opcode = wsOpPong) :
    handleFrame o w ctrl msg frame = some (⟨w, .ws ctrl msg⟩, []) := by
  unfold handleFrame
  rw [isPong, if_neg (by decide), if_neg (by decide), if_neg (by decide)]

theorem takes_controls (o : Outside D) (w : World F) (ctrl : Controller F) (msg : Reassembly)
    (controls : List Control) :
    Takes o ⟨w, .ws ctrl msg⟩ (controls.map Control.frame) ⟨w, .ws ctrl msg⟩ (controlActs controls) := by
  induction controls with
  | nil => exact .nil _
  | cons control controls ih =>
      have one : Takes o ⟨w, .ws ctrl msg⟩ [control.frame] ⟨w, .ws ctrl msg⟩
          (if control.ping then pong control.payload else []) := by
        apply takes_frame (control_valid control)
        obtain ⟨ping, key, payload, short⟩ := control
        cases ping with
        | true => exact handleFrame_ping rfl
        | false => exact handleFrame_pong rfl
      exact one.append ih

/-! ### Fragments -/

theorem handleFrame_data {o : Outside D} {w : World F} {ctrl : Controller F} {msg : Reassembly}
    {frame : Frame} (data : frame.opcode ∈ [wsOpText, wsOpBin, wsOpCont]) :
    handleFrame o w ctrl msg frame = appendData o w ctrl (msg.opened frame.opcode) frame := by
  apply if_pos
  simpa using data

/-- The fragments of a binary message are dropped. -/
theorem takes_binary (o : Outside D) (w : World F) (ctrl : Controller F) {fragments : List Fragment}
    (some_ : fragments ≠ []) (fits : ∀ fragment ∈ fragments, fragment.payload.length ≤ msgBufSize) :
    ∀ opcode msg, opcode ∈ [wsOpText, wsOpBin, wsOpCont] → (msg.opened opcode).opcode = some wsOpBin →
      Takes o ⟨w, .ws ctrl msg⟩ (fragmentFrames opcode fragments) ⟨w, .ws ctrl .idle⟩
        (controlActs (controls fragments)) := by
  induction fragments with
  | nil => exact absurd rfl some_
  | cons fragment rest ih =>
      intro opcode msg data binary
      have short := fits fragment List.mem_cons_self
      have one : Takes o ⟨w, .ws ctrl msg⟩ [⟨rest.isEmpty, opcode, fragment.key, fragment.payload⟩]
          ⟨w, .ws ctrl (if rest.isEmpty then .idle else msg.opened opcode)⟩ [] := by
        apply takes_frame (fragment_valid data short)
        rw [handleFrame_data data, appendData, binary, if_neg (by decide)]
      have front := (takes_controls o w ctrl msg fragment.before).append one
      rw [fragmentFrames, controls, List.flatMap_cons]
      cases rest with
      | nil =>
          simpa [fragmentFrames] using front
      | cons next rest =>
          have later := ih (by simp) (fun f mem => fits f (List.mem_cons_of_mem _ mem)) wsOpCont
            (msg.opened opcode) (by decide) binary
          have all := front.append later
          simpa [controlActs, List.flatMap_append, controls] using all

/-- The fragments of a text message are put together and delivered. -/
theorem takes_text (o : Outside D) (w : World F) (ctrl : Controller F) {fragments : List Fragment}
    (some_ : fragments ≠ []) :
    ∀ opcode msg, opcode ∈ [wsOpText, wsOpBin, wsOpCont] →
      (msg.opened opcode).opcode = some wsOpText →
      (msg.opened opcode).msgbuf.length + (content fragments).length ≤ msgBufSize →
      Takes o ⟨w, .ws ctrl msg⟩ (fragmentFrames opcode fragments)
        (deliver o w ctrl ((msg.opened opcode).msgbuf ++ content fragments)).1
        (controlActs (controls fragments) ++
          (deliver o w ctrl ((msg.opened opcode).msgbuf ++ content fragments)).2) := by
  induction fragments with
  | nil => exact absurd rfl some_
  | cons fragment rest ih =>
      intro opcode msg data text fits
      have parts : content (fragment :: rest) = fragment.payload ++ content rest := rfl
      rw [parts, List.length_append] at fits
      have room : (msg.opened opcode).msgbuf.length + fragment.payload.length ≤ msgBufSize := by omega
      have taken := Reassembly.append_of_fits room
      have front := takes_controls o w ctrl msg fragment.before
      rw [fragmentFrames, parts, controls, List.flatMap_cons]
      have valid : ∀ fin, (ClientFrame.mk fin opcode fragment.key fragment.payload).Valid :=
        fun fin => fragment_valid data (by omega)
      cases rest with
      | nil =>
          have last : Takes o ⟨w, .ws ctrl msg⟩ [⟨true, opcode, fragment.key, fragment.payload⟩]
              (deliver o w ctrl ((msg.opened opcode).msgbuf ++ fragment.payload)).1
              (deliver o w ctrl ((msg.opened opcode).msgbuf ++ fragment.payload)).2 := by
            apply takes_frame (valid true)
            rw [handleFrame_data data, appendData, if_pos text, taken]
            rfl
          simpa [content, fragmentFrames] using front.append last
      | cons next rest =>
          let msg' : Reassembly := ⟨(msg.opened opcode).opcode,
            (msg.opened opcode).msgbuf ++ fragment.payload, by rw [List.length_append]; exact room⟩
          have one : Takes o ⟨w, .ws ctrl msg⟩ [⟨false, opcode, fragment.key, fragment.payload⟩]
              ⟨w, .ws ctrl msg'⟩ [] := by
            apply takes_frame (valid false)
            rw [handleFrame_data data, appendData, if_pos text, taken]
            rfl
          have size : msg'.msgbuf.length + (content (next :: rest)).length ≤ msgBufSize := by
            rw [List.length_append]
            omega
          have later := ih (by simp) wsOpCont msg' (by decide) text size
          have same : msg'.opened wsOpCont = msg' := rfl
          rw [same] at later
          have all := (front.append one).append later
          simpa [controlActs, List.flatMap_append, controls, msg'] using all

/-! ### Messages -/

/-- The answers of a controller to a list of messages, with nothing else in between, and
the controller afterwards. -/
def conversation (o : Outside D) (calls : Nat) (ctrl : Controller F) :
    List (List UInt8) → Controller F × List (Answer D)
  | [] => (ctrl, [])
  | payload :: rest =>
      let done := controllerOnMessage o.lib (o.envs calls) ctrl payload
      let later := conversation o (calls + 1) done.1 rest
      (later.1, ⟨done.2.2, done.2.1⟩ :: later.2)

/-- What the loop does for the messages of a transmission, if the controller takes them. -/
def sentActs (o : Outside D) (calls : Nat) (ctrl : Controller F) : List Sent → List (Act F)
  | [] => []
  | m :: rest =>
      controlActs (controls m.fragments) ++
        match m.text? with
        | none => sentActs o calls ctrl rest
        | some payload =>
            let done := controllerOnMessage o.lib (o.envs calls) ctrl payload
            .message payload done.2.2 :: done.2.1.map (clientSend o) ++
              sentActs o (calls + 1) done.1 rest

theorem takes_sent (o : Outside D) (sent : List Sent) :
    ∀ (w : World F) (ctrl : Controller F),
      (∀ answer ∈ (conversation o w.calls ctrl (sent.filterMap Sent.text?)).2, answer.rc = 0) →
      ∃ w' ctrl', Takes o ⟨w, .ws ctrl .idle⟩ (sent.flatMap Sent.frames) ⟨w', .ws ctrl' .idle⟩
        (sentActs o w.calls ctrl sent) := by
  induction sent with
  | nil =>
      intro w ctrl _
      exact ⟨w, ctrl, .nil _⟩
  | cons m rest ih =>
      intro w ctrl obeys
      rw [List.flatMap_cons, sentActs]
      have bounded := m.bounded
      cases kind : m.binary with
      | true =>
          have skipped : m.text? = none := by simp [Sent.text?, kind]
          rw [kind, if_pos rfl] at bounded
          rw [List.filterMap_cons_none skipped] at obeys
          obtain ⟨w', ctrl', later⟩ := ih w ctrl obeys
          have now : Takes o ⟨w, .ws ctrl .idle⟩ m.frames ⟨w, .ws ctrl .idle⟩
              (controlActs (controls m.fragments)) := by
            rw [Sent.frames, Sent.opcode, kind]
            exact takes_binary o w ctrl (List.cons_ne_nil _ _) bounded wsOpBin .idle (by decide) rfl
          rw [skipped]
          exact ⟨w', ctrl', now.append later⟩
      | false =>
          have text : m.text? = some (content m.fragments) := by simp [Sent.text?, kind]
          rw [kind, if_neg (by decide)] at bounded
          rw [List.filterMap_cons_some text, conversation] at obeys
          obtain ⟨taken, obeys⟩ := List.forall_mem_cons.mp obeys
          obtain ⟨w', ctrl', later⟩ := ih { w with calls := w.calls + 1 }
            (controllerOnMessage o.lib (o.envs w.calls) ctrl (content m.fragments)).1 obeys
          have goes : (deliver o w ctrl (content m.fragments)).1 =
              ⟨{ w with calls := w.calls + 1 },
                .ws (controllerOnMessage o.lib (o.envs w.calls) ctrl (content m.fragments)).1 .idle⟩ := by
            simp only [deliver]
            rw [if_neg (not_not.mpr taken)]
          have now : Takes o ⟨w, .ws ctrl .idle⟩ m.frames (deliver o w ctrl (content m.fragments)).1
              (controlActs (controls m.fragments) ++ (deliver o w ctrl (content m.fragments)).2) := by
            rw [Sent.frames, Sent.opcode, kind]
            have fits : (Reassembly.idle.opened wsOpText).msgbuf.length +
                (content m.fragments).length ≤ msgBufSize := (Nat.zero_add _).trans_le bounded
            exact takes_text o w ctrl (List.cons_ne_nil _ _) wsOpText .idle (by decide) rfl fits
          rw [goes] at now
          rw [text]
          refine ⟨w', ctrl', ?_⟩
          have all := now.append later
          simpa [deliver, List.append_assoc] using all

/-- **A transmission is taken frame by frame.** -/
theorem takes_transmission (o : Outside D) (w : World F) (ctrl : Controller F) (t : Transmission)
    (obeys : ∀ answer ∈ (conversation o w.calls ctrl t.messages).2, answer.rc = 0) :
    ∃ w' ctrl', Takes o ⟨w, .ws ctrl .idle⟩ t.frames ⟨w', .ws ctrl' .idle⟩
      (sentActs o w.calls ctrl t.sent ++ controlActs t.trailing) := by
  obtain ⟨w', ctrl', messages⟩ := takes_sent o t.sent w ctrl obeys
  exact ⟨w', ctrl', messages.append (takes_controls o w' ctrl' .idle t.trailing)⟩

end SpnavBridge.Daemon
