/-
# Daemon.Delivery -- the messages of a client reach the controller, once and in order

A read loop that is offered the frames of a `Transmission` in any pieces calls the controller
with the text messages and answers the pings, as long as it goes on reading.  It goes on
reading unless a message of the controller fits no frame: the controller answers a message of
up to 1 MiB, whose call identifier may be nearly as long, but `client_send` has room for 65532
bytes (`Framed`).  `delivered_iff` says that this is all that can go wrong.
-/
import SpnavBridge.Daemon.Transmission

namespace SpnavBridge.Daemon

open SpnavBridge.Theory SpnavBridge.Wire SpnavBridge.Kernel Connection

set_option autoImplicit false

variable {D F : Type} [CDouble D F]

/-! ## What was done -/

/-- The PONG frames among the data of a queue. -/
def pongs (queued : List (List UInt8)) : List (List UInt8) :=
  queued.filter fun data => data.head? == some (0x80 ||| wsOpPong)

/-- A message of the controller that `client_send` has a frame for. -/
def Framed (o : Outside D) (m : Message D) : Prop :=
  (o.lib.printUnformatted m.tree).length ≤ bufSize - 4

theorem clientSend_of_framed {o : Outside D} {m : Message D} (framed : Framed o m) :
    ∃ frame, (clientSend o m : Act F) = .queue frame ∧ frame.head? = some (0x80 ||| wsOpText) := by
  unfold Framed bufSize at framed
  have field : 2 + (wsLength (o.lib.printUnformatted m.tree).length).2.length ≤ 4 := by
    unfold wsLength
    split_ifs <;> simp only [List.length_nil, bigEndian_length] <;> omega
  unfold clientSend wsEncodeFrame
  rw [if_neg (by unfold intMax bufSize; omega)]
  exact ⟨_, rfl, rfl⟩

theorem clientSend_of_not_framed {o : Outside D} {m : Message D} (long : ¬ Framed o m) :
    (clientSend o m : Act F) = .reject := by
  unfold Framed bufSize at long
  have field : 4 ≤ 2 + (wsLength (o.lib.printUnformatted m.tree).length).2.length := by
    unfold wsLength
    split_ifs <;> simp only [List.length_nil, bigEndian_length] <;> omega
  unfold clientSend wsEncodeFrame
  rw [if_pos (by unfold intMax bufSize; omega)]

/-! ### Control frames -/

section Acts

variable (o : Outside D)

@[simp] theorem pongs_append (queued more : List (List UInt8)) :
    pongs (queued ++ more) = pongs queued ++ pongs more := List.filter_append _ _

theorem controlActs_eq (controls : List Control) :
    (controlActs controls : List (Act F)) =
      (controls.filter Control.ping).map fun control => .queue (pongFrame control.payload) := by
  induction controls with
  | nil => rfl
  | cons control controls ih =>
      rw [controlActs, List.flatMap_cons, ← controlActs, ih]
      cases kind : control.ping with
      | true => rw [if_pos rfl, pong_eq control.short, List.filter_cons_of_pos kind]; rfl
      | false => rw [if_neg (by decide), List.filter_cons_of_neg (by simp [kind])]; rfl

theorem payloads_controlActs (controls : List Control) :
    payloads (controlActs controls : List (Act F)) = [] := by
  simp [controlActs_eq, payloads, List.filterMap_map]

theorem pongs_controlActs (controls : List Control) :
    pongs (queuedData (controlActs controls : List (Act F))) =
      ((controls.filter Control.ping).map Control.payload).map pongFrame := by
  have data : queuedData (controlActs controls : List (Act F)) =
      ((controls.filter Control.ping).map Control.payload).map pongFrame := by
    simp [controlActs_eq, queuedData, List.filterMap_map, Function.comp_def]
  have all : ∀ frame ∈ ((controls.filter Control.ping).map Control.payload).map pongFrame,
      (frame.head? == some (0x80 ||| wsOpPong)) = true := by
    intro frame inside
    obtain ⟨payload, -, rfl⟩ := List.mem_map.mp inside
    exact beq_self_eq_true _
  rw [data, pongs, List.filter_eq_self.mpr all]

theorem rejects_controlActs (controls : List Control) :
    Output.rejects (controlActs controls : List (Act F)) = false := by
  simp [controlActs_eq, Output.rejects, Function.comp_def]

/-! ### Messages of the controller -/

theorem payloads_clientSend (sends : List (Message D)) :
    payloads (sends.map (clientSend o) : List (Act F)) = [] := by
  induction sends with
  | nil => rfl
  | cons m sends ih =>
      by_cases framed : Framed o m
      · obtain ⟨frame, sent, -⟩ := clientSend_of_framed (F := F) framed
        rw [List.map_cons, sent]
        exact ih
      · rw [List.map_cons, clientSend_of_not_framed framed]
        exact ih

theorem pongs_clientSend (sends : List (Message D)) :
    pongs (queuedData (sends.map (clientSend o) : List (Act F))) = [] := by
  induction sends with
  | nil => rfl
  | cons m sends ih =>
      by_cases framed : Framed o m
      · obtain ⟨frame, sent, head⟩ := clientSend_of_framed (F := F) framed
        rw [List.map_cons, sent]
        have text : (frame.head? == some (0x80 ||| wsOpPong)) = false := by
          rw [head]
          decide
        exact (List.filter_cons_of_neg (by simp [text])).trans ih
      · rw [List.map_cons, clientSend_of_not_framed framed]
        exact ih

theorem rejects_clientSend (sends : List (Message D)) :
    Output.rejects (sends.map (clientSend o) : List (Act F)) = false ↔ ∀ m ∈ sends, Framed o m := by
  induction sends with
  | nil => simp [Output.rejects]
  | cons m sends ih =>
      rw [List.forall_mem_cons, ← ih, List.map_cons]
      by_cases framed : Framed o m
      · obtain ⟨frame, sent, -⟩ := clientSend_of_framed (F := F) framed
        simp [Output.rejects, sent, framed]
      · simp [Output.rejects, clientSend_of_not_framed framed, framed]

/-! ### Transmissions -/

variable [CFloat F]

theorem payloads_sentActs (sent : List Sent) : ∀ calls (ctrl : Controller F),
    payloads (sentActs o calls ctrl sent) = sent.filterMap Sent.text? := by
  induction sent with
  | nil =>
      intro calls ctrl
      rfl
  | cons m rest ih =>
      intro calls ctrl
      rw [sentActs, payloads_append, payloads_controlActs, List.nil_append]
      cases text : m.text? with
      | none => rw [List.filterMap_cons_none text]; exact ih calls ctrl
      | some payload =>
          rw [List.filterMap_cons_some text]
          have sends := payloads_clientSend (F := F) o
            (controllerOnMessage o.lib (o.envs calls) ctrl payload).2.1
          simp only [payloads_append]
          rw [ih, payloads_message, sends, List.singleton_append]

theorem pongs_sentActs (sent : List Sent) : ∀ calls (ctrl : Controller F),
    pongs (queuedData (sentActs o calls ctrl sent)) =
      (((sent.flatMap fun m => controls m.fragments).filter Control.ping).map
        Control.payload).map pongFrame := by
  induction sent with
  | nil =>
      intro calls ctrl
      rfl
  | cons m rest ih =>
      intro calls ctrl
      rw [sentActs, queuedData_append, pongs_append, pongs_controlActs, List.flatMap_cons,
        List.filter_append, List.map_append, List.map_append]
      congr 1
      cases text : m.text? with
      | none => exact ih calls ctrl
      | some payload =>
          have sends := pongs_clientSend (F := F) o
            (controllerOnMessage o.lib (o.envs calls) ctrl payload).2.1
          simp only [queuedData_append, pongs_append]
          rw [ih, queuedData_message, sends, List.nil_append]

theorem rejects_sentActs (sent : List Sent) : ∀ calls (ctrl : Controller F),
    Output.rejects (sentActs o calls ctrl sent) = false ↔
      ∀ answer ∈ (conversation o calls ctrl (sent.filterMap Sent.text?)).2,
        ∀ m ∈ answer.sent, Framed o m := by
  induction sent with
  | nil => simp [sentActs, conversation, Output.rejects]
  | cons m rest ih =>
      intro calls ctrl
      rw [sentActs, Output.rejects_append, rejects_controlActs, Bool.false_or]
      cases text : m.text? with
      | none => rw [List.filterMap_cons_none text]; exact ih calls ctrl
      | some payload =>
          rw [List.filterMap_cons_some text, conversation, List.forall_mem_cons]
          simp only [Output.rejects_append, Bool.or_eq_false_iff]
          rw [ih]
          apply and_congr_left
          intro _
          exact rejects_clientSend o _

end Acts

/-! ## The read loop -/

section Loop

variable [CFloat F] {o : Outside D}

theorem serve_overflowed {c c' : Connection F} {io : Io} (stepped : c.serve o io = some c')
    (full : c.out.overflowed = true) : c'.out.overflowed = true := by
  cases serve_serves stepped with
  | skips chunk stopped => exact full
  | fills chunk size => exact full
  | reads chunk _ alive goes received =>
      rw [(receive_eq_some received).2.2.1]
      exact Output.foldl_overflowed _ full
  | flushes n => exact (c.out.flush_keeps n).2.2.trans full

theorem serve_received {start : Served F} {ios : List Io} {c : Connection F}
    (ran : run (serve o) (fresh start) ios = some c) :
    ∃ unread, offered ios = c.received ++ unread ∧
      ((c.out.failed = true ∨ c.served.phase.isClosing = true) ∨ unread = []) := by
  refine received_run (c := fresh start)
    (fun c => c.out.failed = true ∨ c.served.phase.isClosing = true) ?_ ?_ ran
  · intro c io c' stepped
    cases serve_serves stepped with
    | skips chunk stopped => exact Or.inr ⟨rfl, Or.inl stopped⟩
    | fills chunk full => exact Or.inr ⟨rfl, Or.inl (Or.inl rfl)⟩
    | reads chunk _ alive goes received =>
        exact Or.inl ⟨by simp [alive, goes], (receive_eq_some received).2.2.2.1⟩
    | flushes n => exact Or.inr ⟨rfl, Or.inr rfl⟩
  · intro c io c' stepped stopped
    cases serve_serves stepped with
    | skips chunk _ => exact stopped
    | fills chunk full => exact Or.inl rfl
    | reads chunk _ alive goes received => simp [alive, goes] at stopped
    | flushes n => exact stopped.imp (c.out.flush_keeps n).2.1.trans id

/-- A connection that has not failed has queued what its log has. -/
theorem queued_serve {start : Served F} {ios : List Io} {c : Connection F}
    (ran : run (serve o) (fresh start) ios = some c) (roomy : c.out.overflowed = false)
    (alive : c.out.failed = false) :
    Output.rejects c.log = false ∧ c.out.queued = queuedData c.log := by
  have queued : c.out.failed = false → Queued c := by
    refine run_keeps (I := fun c => c.out.failed = false → Queued c) ?_ ran
      (fun _ _ => ⟨rfl, rfl⟩)
    intro c io c' stepped queued alive
    cases serve_serves stepped with
    | skips chunk stopped => exact queued alive
    | fills chunk full => cases alive
    | reads chunk _ before goes received => exact queued_receive received (queued before)
    | flushes n =>
        obtain ⟨same, failed, overflowed⟩ := c.out.flush_keeps n
        intro roomy
        show (c.out.flush n).queued = _ ∧ (c.out.flush n).failed = _
        rw [same, failed]
        exact queued (failed ▸ alive) (overflowed ▸ roomy)
  obtain ⟨taken, verdict⟩ := queued alive roomy
  have framed : Output.rejects c.log = false := verdict.symm.trans alive
  exact ⟨framed, taken.trans (Output.accepted_eq framed)⟩

/-! ### In the middle of a transmission -/

variable {w : World F} {ctrl : Controller F} {t : Transmission}

theorem drain_wire (obeys : ∀ answer ∈ (conversation o w.calls ctrl t.messages).2, answer.rc = 0) :
    ∃ w' ctrl', drain (processOnce o) ⟨w, .ws ctrl .idle⟩ t.wire =
      ⟨⟨w', .ws ctrl' .idle⟩, [], sentActs o w.calls ctrl t.sent ++ controlActs t.trailing⟩ := by
  obtain ⟨w', ctrl', takes⟩ := takes_transmission o w ctrl t obeys
  refine ⟨w', ctrl', ?_⟩
  have whole := takes.drain_flatten (incremental_processOnce o) []
  rw [List.append_nil, drain_of_none (processOnce_nil o _), List.append_nil] at whole
  exact whole

/-- Where the front of a transmission leads: the connection is open, waits for less than
the input buffer holds, and has done the first of the acts. -/
theorem drain_front (obeys : ∀ answer ∈ (conversation o w.calls ctrl t.messages).2, answer.rc = 0)
    {front back : List UInt8} (cut : front ++ back = t.wire) :
    (drain (processOnce o) ⟨w, .ws ctrl .idle⟩ front).state.phase.isClosing = false ∧
      (drain (processOnce o) ⟨w, .ws ctrl .idle⟩ front).rest.length < inputBufSize ∧
      (drain (processOnce o) ⟨w, .ws ctrl .idle⟩ front).out <+:
        sentActs o w.calls ctrl t.sent ++ controlActs t.trailing := by
  have inc := incremental_processOnce (F := F) o
  obtain ⟨w', ctrl', whole⟩ := drain_wire obeys
  rw [← cut] at whole
  refine ⟨?_, ?_, ?_⟩
  · by_contra closing
    have halted := processOnce_closing o (Bool.not_eq_false _ ▸ closing)
    have same := (drain_append_of_halted inc halted back).1
    rw [whole] at same
    rw [← same] at closing
    exact closing rfl
  · obtain ⟨_, _, takes⟩ := takes_transmission o w ctrl t obeys
    rcases takes.drain_front inc cut (processOnce_nil o) with nothing | ⟨unit, mem, shorter⟩
    · rw [nothing]
      decide
    · obtain ⟨frame, inside, rfl⟩ := List.mem_map.mp mem
      exact lt_of_lt_of_le shorter (t.frame_le inside)
  · rw [drain_append inc] at whole
    exact ⟨_, congrArg Drained.out whole⟩

/-- **The loop goes on**, if every message of the controller fits a frame. -/
theorem serve_alive (obeys : ∀ answer ∈ (conversation o w.calls ctrl t.messages).2, answer.rc = 0)
    (framed : Output.rejects (sentActs o w.calls ctrl t.sent ++ controlActs t.trailing) = false)
    {ios : List Io} : ∀ {c c' : Connection F}, run (serve o) c ios = some c' →
      Tracks o ⟨w, .ws ctrl .idle⟩ c → c.received ++ offered ios = t.wire →
      c.out.failed = false → c'.out.overflowed = false → c'.out.failed = false := by
  induction ios with
  | nil =>
      intro c c' ran _ _ alive _
      cases ran
      exact alive
  | cons io ios ih =>
      intro c c' ran tracks cut alive roomy
      obtain ⟨next, stepped, later⟩ := run_cons ran
      obtain ⟨goes, room, -⟩ := drain_front obeys cut
      rw [← tracks.served] at goes
      rw [← tracks.inbuf] at room
      rw [offered_cons, ← List.append_assoc] at cut
      cases serve_serves stepped with
      | skips chunk stopped =>
          rcases stopped with failed | closing
          · rw [alive] at failed
            cases failed
          · rw [goes] at closing
            cases closing
      | fills chunk full => exact absurd full room.ne
      | flushes n =>
          refine ih later ⟨tracks.served, tracks.inbuf, tracks.log⟩ ?_ ?_ roomy
          · simpa [Io.chunk] using cut
          · exact (c.out.flush_keeps n).2.1.trans alive
      | reads chunk _ _ _ received =>
          have tracks' := tracks_receive received tracks
          obtain ⟨-, -, out, bytes, log⟩ := receive_eq_some received
          have cut' : next.received ++ offered ios = t.wire := by rw [bytes]; exact cut
          refine ih later tracks' cut' ?_ roomy
          have roomy' : next.out.overflowed = false := by
            by_contra full
            have full' := run_keeps (fun _ _ _ => serve_overflowed) later (Bool.not_eq_false _ ▸ full)
            rw [full'] at roomy
            cases roomy
          obtain ⟨more, acts⟩ := (drain_front obeys cut').2.2
          rw [← tracks'.log, log] at acts
          rw [← acts, Output.rejects_append, Output.rejects_append] at framed
          rw [out] at roomy' ⊢
          rw [(Output.foldl_emit _ alive roomy').2]
          simp only [Bool.or_eq_false_iff] at framed
          exact framed.1.2

end Loop

/-! ## Delivery -/

section Delivery

variable [CFloat F]

/-- The controller was called with the messages, the pings were answered, and the connection
goes on. -/
structure Delivered (t : Transmission) (c : Connection F) : Prop where
  messages : payloads c.log = t.messages
  pongs : pongs c.out.queued = t.pings.map pongFrame
  open_ : c.served.phase.isClosing = false
  alive : c.out.failed = false

/-- **Message delivery.**  Offered a transmission in any pieces, with a controller that takes
every message and an output queue that does not overflow, the read loop delivers it exactly
if every message the controller sends on the way fits a frame. -/
theorem delivered_iff {o : Outside D} {w : World F} {ctrl : Controller F} {t : Transmission}
    {ios : List Io} {c : Connection F}
    (ran : run (serve o) (fresh ⟨w, .ws ctrl .idle⟩) ios = some c)
    (whole : offered ios = t.wire)
    (obeys : ∀ answer ∈ (conversation o w.calls ctrl t.messages).2, answer.rc = 0)
    (roomy : c.out.overflowed = false) :
    Delivered t c ↔
      ∀ answer ∈ (conversation o w.calls ctrl t.messages).2, ∀ m ∈ answer.sent, Framed o m := by
  have tracks := tracks_serve ran
  obtain ⟨unread, split, ends⟩ := serve_received ran
  have cut : c.received ++ unread = t.wire := split.symm.trans whole
  have goes := (drain_front obeys cut).1
  rw [← tracks.served] at goes
  -- a connection that has not failed has read everything
  have done : c.out.failed = false →
      c.log = sentActs o w.calls ctrl t.sent ++ controlActs t.trailing := by
    intro alive
    obtain rfl : unread = [] := by
      rcases ends with (failed | closing) | nothing
      · rw [alive] at failed
        cases failed
      · rw [goes] at closing
        cases closing
      · exact nothing
    obtain ⟨w', ctrl', all⟩ := drain_wire obeys
    rw [List.append_nil] at cut
    rw [tracks.log, cut, all]
  constructor
  · intro delivered
    have framed := (queued_serve ran roomy delivered.alive).1
    rw [done delivered.alive, Output.rejects_append, rejects_controlActs, Bool.or_false] at framed
    exact (rejects_sentActs o t.sent w.calls ctrl).mp framed
  · intro framed
    have fits := (rejects_sentActs o t.sent w.calls ctrl).mpr framed
    have alive : c.out.failed = false := by
      refine serve_alive obeys ?_ ran (tracks_fresh o _) whole rfl roomy
      rw [Output.rejects_append, fits, rejects_controlActs, Bool.or_false]
    refine ⟨?_, ?_, goes, alive⟩
    · rw [done alive, payloads_append, payloads_sentActs, payloads_controlActs, List.append_nil]
      rfl
    · rw [(queued_serve ran roomy alive).2, done alive, queuedData_append, pongs_append,
        pongs_sentActs, pongs_controlActs, ← List.map_append, ← List.map_append, ← List.filter_append]
      rfl

end Delivery

/-! ### A handshake in fragments -/

instance {o : Outside D} {m : Message D} : Decidable (Framed o m) :=
  inferInstanceAs (Decidable (_ ≤ _))

/-- The first text of the handshake is cut in two, with a ping in between; a binary message
and a pong follow. -/
def rehearsal : Transmission where
  sent := [
    ⟨false, ⟨[], ![1, 2, 3, 4], ascii "[1, \"ctrl\", \"wss://127.51.68.120/"⟩,
      [⟨[⟨true, ![5, 6, 7, 8], ascii "?", by decide⟩], ![9, 9, 9, 9],
        ascii "3dconnexion3dcontroller/\"]"⟩], by decide +kernel⟩,
    ⟨true, ⟨[], ![0, 0, 0, 0], [1, 2, 3]⟩, [], by decide⟩,
    ⟨false, ⟨[], ![1, 2, 3, 4],
      ascii "[2, \"C1\", \"3dx_rpc:create\", \"3dconnexion:3dmouse\", \"1.7.14\"]"⟩, [],
      by decide +kernel⟩]
  trailing := [⟨false, ![1, 1, 1, 1], [], by decide⟩]

def rehearsalReads : List Io :=
  [.read (rehearsal.wire.take 30), .flush 1, .read ((rehearsal.wire.drop 30).take 31),
    .read (rehearsal.wire.drop 61)]

def newcomer : Controller ℚ := (controllerCreate (D := ℚ) (.at 0)).1

theorem delivered_iff_rehearsal :
    ∃ c, run (serve (.ofTexts handshakeTexts)) (fresh ⟨.initial, .ws newcomer .idle⟩)
        rehearsalReads = some c ∧ Delivered rehearsal c := by
  obtain ⟨c, ran, roomy⟩ := Option.map_eq_some_iff.mp (by decide +kernel :
    (run (serve (.ofTexts handshakeTexts)) (fresh ⟨.initial, .ws newcomer .idle⟩)
      rehearsalReads).map (fun c => c.out.overflowed) = some false)
  exact ⟨c, ran, (delivered_iff ran (by decide +kernel) (by decide +kernel) roomy).mpr
    (by decide +kernel)⟩

/-! ### A call identifier that is too long -/

section LongCall

variable (callId : CStr)

/-- The CALL that creates the mouse. -/
def mouseCall : List UInt8 :=
  ascii "[2,\"" ++ (callId.bytes ++ ascii "\",\"3dx_rpc:create\",\"3dconnexion:3dmouse\"]")

theorem mouseCall_length : (mouseCall callId).length = callId.length + 45 := by
  have front : (ascii "[2,\"").length = 4 := by decide +kernel
  have back : (ascii "\",\"3dx_rpc:create\",\"3dconnexion:3dmouse\"]").length = 41 := by
    decide +kernel
  simp only [mouseCall, CStr.length, List.length_append, front, back]
  omega

def mouseTexts : List (List UInt8 × Json ℚ) :=
  [(mouseCall callId, .array [.number 2, .string callId, .string (.lit "3dx_rpc:create"),
    .string (.lit "3dconnexion:3dmouse")])]

/-- The call as one frame. -/
def mouseTransmission (fits : (mouseCall callId).length ≤ msgBufSize) : Transmission where
  sent := [⟨false, ⟨[], ![1, 2, 3, 4], mouseCall callId⟩, [], by simpa [content] using fits⟩]
  trailing := []

def mouseResult : Message ℚ :=
  .callresult callId (some (.object [(.lit "connexion", .string (.lit "mouse0"))]))

theorem mouseCall_answer :
    controllerOnMessage (Outside.ofTexts (mouseTexts callId)).lib (.at 0) newcomer
      (mouseCall callId) = ({ newcomer with hs := .waitController }, [mouseResult callId], 0) := by
  have parsed : (Outside.ofTexts (mouseTexts callId)).lib.parseWithLength (mouseCall callId) =
      some (.array [.number 2, .string callId, .string (.lit "3dx_rpc:create"),
        .string (.lit "3dconnexion:3dmouse")]) := by
    simp [Outside.ofTexts, CJson.ofTexts, mouseTexts]
  rw [controllerOnMessage, parsed]
  rfl

theorem mouseResult_not_framed (long : bufSize - 4 < callId.length) :
    ¬ Framed (Outside.ofTexts (mouseTexts callId)) (mouseResult callId) := by
  have size := printString_length callId
  unfold Framed CJson.printUnformatted mouseResult Message.tree wampBuildCallresult
  simp only [printValue, printArray, List.length_append, List.length_cons, List.isEmpty_cons,
    if_false, Bool.false_eq_true]
  omega

variable {callId} (fits : (mouseCall callId).length ≤ msgBufSize)

theorem mouseTransmission_messages : (mouseTransmission callId fits).messages = [mouseCall callId] := by
  simp [Transmission.messages, mouseTransmission, Sent.text?, Sent.fragments, content]

theorem mouseTransmission_obeys :
    ∀ answer ∈ (conversation (Outside.ofTexts (mouseTexts callId)) 0 newcomer
      (mouseTransmission callId fits).messages).2, answer.rc = 0 := by
  rw [mouseTransmission_messages]
  intro answer inside
  obtain rfl := List.mem_singleton.mp inside
  exact congrArg (fun done => done.2.2) (mouseCall_answer callId)

/-- The controller takes the call, and there is no frame for its result. -/
theorem mouseTransmission_acts (long : bufSize - 4 < callId.length) :
    sentActs (Outside.ofTexts (mouseTexts callId)) 0 newcomer (mouseTransmission callId fits).sent ++
      controlActs (mouseTransmission callId fits).trailing =
        [.message (mouseCall callId) 0, .reject] := by
  have text : Sent.text? ⟨false, ⟨[], ![1, 2, 3, 4], mouseCall callId⟩, [], by
      simpa [content] using fits⟩ = some (mouseCall callId) := by
    simp [Sent.text?, Sent.fragments, content]
  simp only [mouseTransmission, sentActs, text]
  rw [show (Outside.ofTexts (mouseTexts callId)).envs 0 = .at 0 from rfl, mouseCall_answer]
  simp only [List.map_cons, clientSend_of_not_framed (mouseResult_not_framed callId long)]
  rfl

/-- The call fits the input buffer. -/
theorem mouseTransmission_read (c : Connection ℚ) (nothing : c.inbuf = []) :
    ∃ c', c.receive (.ofTexts (mouseTexts callId)) (mouseTransmission callId fits).wire = some c' := by
  have frames : (mouseTransmission callId fits).frames =
      [⟨true, wsOpText, ![1, 2, 3, 4], mouseCall callId⟩] := rfl
  have wire : (mouseTransmission callId fits).wire =
      (ClientFrame.mk true wsOpText ![1, 2, 3, 4] (mouseCall callId)).bytes := by
    rw [Transmission.wire, frames]
    simp
  apply receive_of_fits
  · rw [wire, ← List.length_pos_iff, ClientFrame.bytes_length]
    omega
  · rw [wire, nothing, List.length_nil, Nat.zero_add]
    apply (mouseTransmission callId fits).frame_le
    rw [frames]
    exact List.mem_singleton.mpr rfl

theorem mouseTransmission_breaks (long : bufSize - 4 < callId.length) :
    ∃ c, run (serve (.ofTexts (mouseTexts callId))) (fresh ⟨.initial, .ws newcomer .idle⟩)
        [.read (mouseTransmission callId fits).wire] = some c ∧
      c.out.overflowed = false ∧ c.out.failed = true := by
  obtain ⟨c, received⟩ := mouseTransmission_read fits (fresh ⟨.initial, .ws newcomer .idle⟩) rfl
  obtain ⟨w', ctrl', whole⟩ := drain_wire (w := .initial) (mouseTransmission_obeys fits)
  have out : c.out =
      ([.message (mouseCall callId) 0, .reject] : List (Act ℚ)).foldl Output.emit .fresh := by
    rw [(receive_eq_some received).2.2.1, ← mouseTransmission_acts fits long]
    exact congrArg (fun d => d.out.foldl Output.emit .fresh) whole
  have stepped : serve (.ofTexts (mouseTexts callId)) (fresh ⟨.initial, .ws newcomer .idle⟩)
      (.read (mouseTransmission callId fits).wire) = some c := by
    have goes : ¬ ((fresh ⟨.initial, .ws newcomer .idle⟩ : Connection ℚ).out.failed = true ∨
        (fresh ⟨.initial, .ws newcomer .idle⟩ : Connection ℚ).served.phase.isClosing = true) := by
      rintro (failed | closing)
      · cases failed
      · cases closing
    rw [serve, if_neg goes, if_neg (by decide)]
    exact received
  refine ⟨c, ?_, by rw [out]; rfl, by rw [out]; rfl⟩
  rw [run, List.foldlM_cons, stepped]
  rfl

end LongCall

/-- **The bridge fails a connection** on a call that is within its limit and that the
controller takes. -/
theorem delivery_breaks :
    ¬ ∀ (o : Outside ℚ) (w : World ℚ) (ctrl : Controller ℚ) (t : Transmission) (ios : List Io)
      (c : Connection ℚ), run (serve o) (fresh ⟨w, .ws ctrl .idle⟩) ios = some c →
        offered ios = t.wire →
        (∀ answer ∈ (conversation o w.calls ctrl t.messages).2, answer.rc = 0) →
        c.out.overflowed = false → Delivered t c := by
  intro always
  let longId : CStr := ⟨List.replicate 66000 65, fun inside =>
    absurd (List.eq_of_mem_replicate inside) (by decide)⟩
  have size : longId.length = 66000 := List.length_replicate
  have fits : (mouseCall longId).length ≤ msgBufSize := by
    rw [mouseCall_length, size]
    decide
  obtain ⟨c, ran, roomy, failed⟩ := mouseTransmission_breaks fits (by rw [size]; decide)
  have alive := (always _ _ _ _ _ c ran (List.append_nil _)
    (mouseTransmission_obeys fits) roomy).alive
  rw [failed] at alive
  cases alive

end SpnavBridge.Daemon
