/-
# Daemon.Peer -- what a client hears

Behind the 101 a client is sent frames only: the greeting of its controller, and what the
controller utters and the bridge pongs, turn by turn (`Talk.speech`).  Whatever the other
connections do, and in whatever pieces `SSL_write` takes it, the client hears this speech from
its beginning and nothing else; all of it, once nothing waits in `outbuf` (`peer_hears`).
-/
import SpnavBridge.Daemon.Sessions
import SpnavBridge.Daemon.Stream
import SpnavBridge.Wire.Unmasked

namespace SpnavBridge.Daemon

open SpnavBridge.Theory SpnavBridge.Wire SpnavBridge.Kernel

set_option autoImplicit false
set_option linter.unusedSectionVars false

variable {D F : Type} [CFloat F] [CDouble D F]

/-! ## Speech -/

/-- The frame of a message. -/
def frameOf (o : Outside D) (m : Message D) : ServerFrame :=
  ⟨wsOpText, o.lib.printUnformatted m.tree⟩

/-- What the client is told in a turn. -/
def utters (o : Outside D) (c : Controller F) : Turn F → List ServerFrame
  | .call number op => (controllerStep o.lib c ⟨op, o.envs number⟩).2.sent.map (frameOf o)
  | .ping payload => [⟨wsOpPong, payload⟩]

namespace Talk

variable (o : Outside D) (t : Talk F)

/-- The controller, heard by its client. -/
def speaker : Machine (Controller F) (Turn F) (List ServerFrame) :=
  ⟨(controllerCreate (D := D) (o.envs t.number)).1, fun c turn =>
    ((talkStep o c turn).1, utters o c turn)⟩

/-- The greeting, and all that is told behind it. -/
def speech : List ServerFrame :=
  (controllerCreate (D := D) (F := F) (o.envs t.number)).2.map (frameOf o) ++
    ((t.speaker o).answers t.turns).flatten

theorem speech_on (turn : Turn F) :
    (t.on [turn]).speech o = t.speech o ++ utters o (t.controller o) turn := by
  have answers : ((t.on [turn]).speaker o).answers (t.turns ++ [turn]) =
      (t.speaker o).answers t.turns ++ [utters o (t.controller o) turn] :=
    Machine.answers_snoc ..
  unfold speech
  rw [show (t.on [turn]).turns = t.turns ++ [turn] from rfl, answers, List.flatten_append]
  simp [on]

end Talk

/-! ## Speech on the wire -/

variable {o : Outside D}

/-- Messages that all fit a frame are queued as their frames. -/
theorem sends_encoded {sent : List (Message D)}
    (framed : Output.rejects (sent.map (clientSend (F := F) o)) = false) :
    List.Forall₂ (ServerFrame.Encodes bufSize) (sent.map (frameOf o))
      (queuedData (sent.map (clientSend (F := F) o))) := by
  induction sent with
  | nil => exact .nil
  | cons m sent ih =>
      rw [List.map_cons] at framed
      simp only [List.map_cons]
      cases encoded : wsEncodeFrame bufSize wsOpText (o.lib.printUnformatted m.tree) with
      | none =>
          have rejected : clientSend (F := F) o m = .reject := by rw [clientSend, encoded]
          rw [rejected] at framed
          cases framed
      | some frame =>
          have queued : clientSend (F := F) o m = .queue frame := by rw [clientSend, encoded]
          rw [queued] at framed ⊢
          have rest : Output.rejects (sent.map (clientSend (F := F) o)) = false := framed
          exact .cons ⟨show wsOpText ∈ wsOpcodes by decide, encoded⟩ (ih rest)

theorem pong_encoded {payload : List UInt8} (short : payload.length ≤ 125) :
    List.Forall₂ (ServerFrame.Encodes bufSize) [⟨wsOpPong, payload⟩]
      (queuedData (pong payload : List (Act F))) := by
  rw [pong]
  cases encoded : wsEncodeFrame bufSize wsOpPong payload with
  | some frame => exact .cons ⟨show wsOpPong ∈ wsOpcodes by decide, encoded⟩ .nil
  | none =>
      have made := pong_eq (F := F) short
      rw [pong, encoded] at made
      cases made

/-- A turn whose messages all fit a frame. -/
theorem utters_encoded {c : Controller F} {turn : Turn F}
    (framed : Output.rejects (talkStep o c turn).2 = false)
    (short : ∀ payload, turn.item? = some (.ping payload) → payload.length ≤ 125) :
    List.Forall₂ (ServerFrame.Encodes bufSize) (utters o c turn)
      (queuedData (talkStep o c turn).2) := by
  cases turn with
  | ping payload => exact pong_encoded (short payload rfl)
  | call number op =>
      cases op with
      | message json => exact sends_encoded (F := F) framed
      | spnav ev => exact sends_encoded (F := F) framed
      | setSensitivity value => exact sends_encoded (F := F) framed

/-- The 101 and the greeting. -/
theorem greeting_encoded {req : HttpRequest} {body : List UInt8} {accept : CBuf 28} {number : Nat}
    (framed : Output.rejects ((⟨req, body, accept, number, []⟩ : Talk F).deeds o) = false) :
    ∃ wire, queuedData ((⟨req, body, accept, number, []⟩ : Talk F).deeds o) =
        switchingProtocols accept :: wire ∧
      List.Forall₂ (ServerFrame.Encodes bufSize)
        ((⟨req, body, accept, number, []⟩ : Talk F).speech o) wire := by
  have deeds : (⟨req, body, accept, number, []⟩ : Talk F).deeds o =
      [.request req body, .queue (switchingProtocols accept)] ++
        (controllerCreate (D := D) (F := F) (o.envs number)).2.map (clientSend o) := by
    show _ :: _ :: (_ ++ []) = _
    rw [List.append_nil]
    rfl
  have speech : (⟨req, body, accept, number, []⟩ : Talk F).speech o =
      (controllerCreate (D := D) (F := F) (o.envs number)).2.map (frameOf o) := by
    show _ ++ [] = _
    rw [List.append_nil]
  rw [deeds, Output.rejects_append, Bool.or_eq_false_iff] at framed
  rw [deeds, speech, queuedData_append]
  exact ⟨_, rfl, sends_encoded framed.2⟩

/-- **What a talk queues** behind the 101 are the frames of its speech. -/
theorem speech_encoded (t : Talk F) (framed : Output.rejects (t.deeds o) = false)
    (short : ∀ payload, .ping payload ∈ t.items → payload.length ≤ 125) :
    ∃ wire, queuedData (t.deeds o) = switchingProtocols t.accept :: wire ∧
      List.Forall₂ (ServerFrame.Encodes bufSize) (t.speech o) wire := by
  obtain ⟨req, body, accept, number, turns⟩ := t
  induction turns using List.reverseRecOn with
  | nil => exact greeting_encoded framed
  | append_singleton turns turn ih =>
      have grown : (⟨req, body, accept, number, turns ++ [turn]⟩ : Talk F) =
          Talk.on ⟨req, body, accept, number, turns⟩ [turn] := rfl
      rw [grown] at framed short ⊢
      rw [Talk.deeds_on, Output.rejects_append, Bool.or_eq_false_iff] at framed
      rw [Talk.items_on] at short
      obtain ⟨wire, queued, encoded⟩ := ih framed.1 fun payload inside =>
        short payload (List.mem_append_left _ inside)
      have turned := utters_encoded framed.2 fun payload asked => short payload
        (List.mem_append_right _ (by simp [asked]))
      rw [Talk.deeds_on, queuedData_append, queued, Talk.speech_on]
      exact ⟨_, rfl, List.rel_append encoded turned⟩

/-! ## Pings are short -/

theorem control_of_wsDecodePayload {b0 : UInt8} {off plen : Nat} {buf : List UInt8} {frame : Frame}
    (decoded : wsDecodePayload b0 off plen buf = .done frame) (control : frame.opcode &&& 8 ≠ 0) :
    frame.payload.length ≤ 125 := by
  obtain ⟨-, decoded⟩ := Peek.guard_eq_done decoded
  obtain ⟨-, decoded⟩ := Peek.guard_eq_done decoded
  obtain ⟨allowed, decoded⟩ := Peek.guard_eq_done decoded
  obtain ⟨key, -, decoded⟩ := Peek.bind_eq_done decoded
  obtain ⟨masked, held, decoded⟩ := Peek.bind_eq_done decoded
  obtain ⟨enough, rfl⟩ := Peek.slice_eq_done held
  obtain rfl : _ = frame := by injection decoded
  have short : ¬ plen > 125 := fun long => allowed ⟨control, Or.inr long⟩
  show (xorCycle key _).length ≤ 125
  rw [xorCycle_length, List.length_take]
  omega

theorem control_of_wsDecodeFrame {buf : List UInt8} {frame : Frame}
    (decoded : wsDecodeFrame buf = .done frame) (control : frame.opcode &&& 8 ≠ 0) :
    frame.payload.length ≤ 125 := by
  obtain ⟨-, -, decoded⟩ := Peek.bind_eq_done decoded
  obtain ⟨b0, -, decoded⟩ := Peek.bind_eq_done decoded
  obtain ⟨b1, -, decoded⟩ := Peek.bind_eq_done decoded
  obtain ⟨-, decoded⟩ := Peek.guard_eq_done decoded
  obtain ⟨-, decoded⟩ := Peek.guard_eq_done decoded
  split_ifs at decoded
  · obtain ⟨size, -, decoded⟩ := Peek.bind_eq_done decoded
    exact control_of_wsDecodePayload decoded control
  · obtain ⟨size, -, decoded⟩ := Peek.bind_eq_done decoded
    exact control_of_wsDecodePayload decoded control
  · exact control_of_wsDecodePayload decoded control

theorem ping_of_frame {msg : Reassembly} {next : Frame} {reader : Reader} {items : List Item}
    {payload : List UInt8} (read : Reader.frame msg next = some (reader, items))
    (inside : .ping payload ∈ items) : next.opcode = wsOpPing ∧ next.payload = payload := by
  unfold Reader.frame at read
  split_ifs at read with data ping close
  · exfalso
    unfold Reader.data at read
    split at read
    · split at read
      · cases read
      · split_ifs at read
        · cases read
          rw [List.mem_singleton] at inside
          cases inside
        · cases read
          cases inside
    · cases read
      cases inside
  · cases read
    rw [List.mem_singleton] at inside
    cases inside
    exact ⟨ping, rfl⟩
  · cases read
    cases inside
  · cases read
    cases inside

/-- The pings that the bridge reads are as short as a control frame has to be. -/
theorem said_short (bytes : List UInt8) :
    ∀ payload, .ping payload ∈ said bytes → payload.length ≤ 125 := by
  have keep : ∀ payload, .ping payload ∈ [] ++ (drain readTurn .head bytes).out →
      payload.length ≤ 125 := by
    refine drain_keeps
      (I := fun past _ _ => ∀ payload, Item.ping payload ∈ past → payload.length ≤ 125) ?_ []
      (fun payload inside => nomatch inside)
    intro past reader buf reader' rest items turned before payload inside
    rcases List.mem_append.mp inside with old | new
    · exact before payload old
    · rcases turn_eq_some turned with ⟨n, read, -⟩ | ⟨-, -, -, rfl⟩
      · cases reader with
        | stopped => cases read
        | head =>
            change Reader.readHead buf = _ at read
            unfold Reader.readHead at read
            obtain ⟨⟨size, req⟩, -, read⟩ := Peek.bind_eq_done read
            obtain ⟨-, read⟩ := Peek.guard_eq_done read
            obtain ⟨body, -, read⟩ := Peek.bind_eq_done read
            cases read
            rw [List.mem_singleton] at new
            cases new
        | frames msg =>
            change Reader.readFrame msg buf = _ at read
            unfold Reader.readFrame at read
            obtain ⟨next, decoded, read⟩ := Peek.bind_eq_done read
            cases framed : Reader.frame msg next with
            | none => simp [framed, Peek.fail] at read
            | some done =>
                rw [framed] at read
                cases read
                obtain ⟨ping, rfl⟩ := ping_of_frame framed new
                exact control_of_wsDecodeFrame decoded (by rw [ping]; decide)
      · cases new
  exact keep

/-! ## What the queue took -/

/-- A connection that refused nothing has queued all that it did. -/
theorem queuedBytes_eq {log : List (Event F)} (unrefused : Unrefused log) :
    queuedBytes (outputs log) = (queuedData (deeds log)).flatten ∧
      Output.rejects (deeds log) = false := by
  induction log with
  | nil => exact ⟨rfl, rfl⟩
  | cons event log ih =>
      obtain ⟨queued, framed⟩ := ih fun event inside => unrefused event (List.mem_cons_of_mem _ inside)
      have here := unrefused event List.mem_cons_self
      cases event with
      | output event =>
          cases event with
          | queued data =>
              refine ⟨?_, framed⟩
              show data ++ queuedBytes (outputs log) = data ++ (queuedData (deeds log)).flatten
              rw [queued]
          | refused data => cases here
          | attempt data verdict => exact ⟨queued, framed⟩
      | act act =>
          cases act with
          | reject => cases here
          | _ => exact ⟨queued, framed⟩
      | _ => exact ⟨queued, framed⟩

/-! ## Runs -/

/-- What has come in at the other end: a part of the 101, or the 101 and frames. -/
def Hears (accepted waiting : List UInt8) (head : List UInt8) (speech : List ServerFrame) : Prop :=
  (accepted <+: head ∧ waiting ≠ []) ∨
    ∃ frames, accepted = head ++ frames ∧ heardFrames frames <+: speech ∧
      (waiting = [] → heardFrames frames = speech)

/-- The queue of a talk, seen from the other end. -/
theorem hears_talk {log : List (Event F)} {q : Queue} {t : Talk F} (intact : Intact (outputs log) q)
    (unrefused : Unrefused log) (done : deeds log = t.deeds o) (first : t.items <+: said (received log)) :
    Hears (acceptedBytes (outputs log)) q.outbuf (switchingProtocols t.accept) (t.speech o) := by
  obtain ⟨bytes, framed⟩ := queuedBytes_eq unrefused
  rw [done] at bytes framed
  obtain ⟨wire, queued, encoded⟩ := speech_encoded t framed fun payload inside =>
    said_short _ payload (first.subset inside)
  have stream := intact.stream
  rw [bytes, queued, List.flatten_cons] at stream
  rcases List.append_eq_append_iff.mp stream with ⟨behind, head, rest⟩ | ⟨frames, head, rest⟩
  · cases behind with
    | nil =>
        rw [List.append_nil] at head
        refine Or.inr ⟨[], by rw [List.append_nil, head], ?_⟩
        exact heard_of_encoded encoded rest
    | cons byte behind => exact Or.inl ⟨⟨_, head.symm⟩, by rw [rest]; exact List.cons_ne_nil _ _⟩
  · exact Or.inr ⟨frames, head, heard_of_encoded encoded rest.symm⟩

theorem intact_run {p : Platform D} (sensitivity : F) (saved : Option CStr) (polls : List PollResult)
    (i : Fin maxClients) (used : (((mainLoop p sensitivity saved).after polls).clients i).used = true) :
    Intact (outputs (history (slotEvents p sensitivity saved polls i)))
      (((mainLoop p sensitivity saved).after polls).clients i).out := by
  obtain ⟨live, -⟩ := connection_invariant p (I := Streaming) streaming_opened
    (fun _ _ _ _ step streaming => streaming.step step)
    (fun _ _ value streaming => streaming.assign value) sensitivity saved polls i
  exact (live used).queue.intact

/-- **What a client hears.**  Behind the upgrade it is sent the 101 and then, in frames that any
client can read, what its controller and the bridge said to its turns: nothing is lost, doubled,
reordered or taken from another connection, and what it has not heard yet waits in `outbuf`. -/
theorem peer_hears (p : Platform D) (sensitivity : F) (saved : Option CStr)
    (polls : List PollResult) (i : Fin maxClients) :
    let log := history (slotEvents p sensitivity saved polls i)
    let cl := ((mainLoop p sensitivity saved).after polls).clients i
    ∃ talk : Option (Talk F),
      cl.ctrl = talk.map (fun t => t.controller p.toOutside) ∧
      ∀ t ∈ talk, t.Admitted p.toOutside ∧ t.items <+: said (received log) ∧
        (cl.phase = .ws → t.items = said (received log)) ∧
        SinceUpgrade p sensitivity saved polls i t ∧
        Hears (acceptedBytes (outputs log)) cl.out.outbuf (switchingProtocols t.accept)
          (t.speech p.toOutside) := by
  intro log cl
  obtain ⟨talk, stands, untold, since⟩ := stands_run p sensitivity saved polls i
  cases used : cl.used with
  | false =>
      obtain rfl := untold used
      refine ⟨none, ?_, fun t there => (nomatch there)⟩
      rw [show cl = .closed from ((shape_run (p := p) sensitivity saved polls i).2 used).1]
      rfl
  | true =>
      have stands := stands used
      refine ⟨talk, stands.ctrl, fun t there => ?_⟩
      obtain rfl : talk = some t := there
      have intact := intact_run (p := p) sensitivity saved polls i used
      have unrefused := stands.candid (settled_run (p := p) sensitivity saved polls i used).1
      have said := stands.said_eq
      cases stands.course with
      | talks t follows =>
          exact ⟨follows.admitted, follows.said, said, since t rfl,
            hears_talk intact unrefused follows.deeds follows.said⟩

end SpnavBridge.Daemon
