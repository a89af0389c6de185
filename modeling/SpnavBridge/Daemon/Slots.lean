/-
# Daemon.Slots -- what a slot looks like between two iterations

The fields of `struct client` are changed by a dozen pieces of the main loop.  `Shape` is
what all of them keep, for a connection and its history; `Settled` is what `close_client` at
the end of an iteration adds; and `timely_attend` says that a client that survives its
deadlines cannot miss them in the same iteration.  `slot_invariant` puts them together.
-/
import SpnavBridge.Daemon.Stream

namespace SpnavBridge.Daemon

open SpnavBridge.Theory SpnavBridge.Wire SpnavBridge.Kernel

set_option autoImplicit false
set_option linter.unusedSectionVars false

variable {D F : Type} [CFloat F] [CDouble D F]

/-! ## Phases -/

/-- The phase may be followed by the other. -/
inductive Forward : ClientPhase → ClientPhase → Prop
  | handshake : Forward .tls .http
  | upgrade : Forward .http .ws
  | answered : Forward .http .closing
  | finished : Forward .ws .closing

theorem Forward.ne_tls {phase next : ClientPhase} (forward : Forward phase next) : next ≠ .tls := by
  cases forward <;> exact ClientPhase.noConfusion

theorem Forward.closes {phase : ClientPhase} (open_ : phase = .http ∨ phase = .ws) :
    Forward phase .closing := by
  rcases open_ with rfl | rfl
  · exact .answered
  · exact .finished

/-- The phase that a history leads to. -/
def phaseOf (log : List (Event F)) : ClientPhase :=
  log.foldl (fun phase event => match event with
    | .phase next => next
    | _ => phase) .tls

theorem phaseOf_snoc (log : List (Event F)) (event : Event F) :
    phaseOf (log ++ [event]) = match event with
      | .phase next => next
      | _ => phaseOf log := by
  rw [phaseOf, List.foldl_append]
  rfl

/-- A phase only moves forward, and a closing client reads nothing more and delivers no
message. -/
def Orderly (past : List (Event F)) : Event F → Prop
  | .phase next => Forward (phaseOf past) next
  | .sslRead _ => phaseOf past ≠ .closing
  | .act (.message _ _) => phaseOf past ≠ .closing
  | _ => True

/-! ## The invariant -/

/-- A connection in the middle of its life. -/
structure Shape (log : List (Event F)) (cl : Client F) : Prop where
  fd : 0 ≤ cl.fd
  ssl : cl.ssl = true
  ws : cl.phase = .ws → cl.ctrl ≠ none
  ctrl : cl.ctrl ≠ none → cl.phase = .ws ∨ cl.phase = .closing
  tls : cl.phase = .tls → cl.inbuf = [] ∧ cl.out.outbuf = []
  inbuf : cl.inbuf.length ≤ inputBufSize
  msgbuf : cl.msgbuf.length ≤ msgBufSize
  outbuf : cl.out.outbuf.length ≤ bufSize * 2
  opcode : cl.msgOpcode = -1 ∨ cl.msgOpcode = wsOpText.toNat ∨ cl.msgOpcode = wsOpBin.toNat
  idle : cl.msgOpcode = -1 → cl.msgbuf = []
  phase : phaseOf log = cl.phase
  orderly : Along Orderly log

theorem shape_opened (fd : Nat) (now : Int) :
    Shape [] (Client.closed.opened fd now : Client F) where
  fd := Int.natCast_nonneg fd
  ssl := rfl
  ws := ClientPhase.noConfusion
  ctrl := fun there => absurd rfl there
  tls := fun _ => ⟨rfl, rfl⟩
  inbuf := Nat.zero_le _
  msgbuf := Nat.zero_le _
  outbuf := Nat.zero_le _
  opcode := Or.inl rfl
  idle := fun _ => rfl
  phase := rfl
  orderly := along_nil

variable {p : Platform D}

theorem Shape.log {log : List (Event F)} {cl : Client F} {event : Event F} (shape : Shape log cl)
    (orderly : Orderly log event) (same : ∀ next, event ≠ .phase next) :
    Shape (log ++ [event]) cl :=
  { shape with
    phase := by
      rw [phaseOf_snoc]
      cases event with
      | phase next => exact absurd rfl (same next)
      | _ => exact shape.phase
    orderly := (along_snoc _ _).mpr ⟨shape.orderly, orderly⟩ }

/-- What a client can queue without the handshake being over. -/
theorem Shape.queueOutput {log : List (Event F)} {cl : Client F} (shape : Shape log cl)
    (active : cl.active) (now : Int) (data : List UInt8) :
    Shape log { cl with out := (cl.out.queueOutput now data).1 } := by
  have open_ : cl.phase ≠ .tls := by
    rcases active with open_ | there
    · exact open_
    · rcases shape.ctrl there with ws | closing
      · rw [ws]
        exact ClientPhase.noConfusion
      · rw [closing]
        exact ClientPhase.noConfusion
  exact
    { shape with
      tls := fun tls => absurd tls open_
      outbuf := Queue.queueOutput_fits shape.outbuf now data }

theorem Shape.assign {log : List (Event F)} {cl : Client F} (value : F) (shape : Shape log cl) :
    Shape log (cl.assign value) := by
  unfold Client.assign
  split
  · exact
      { shape with
        ws := by
          intro ws
          show cl.ctrl.map _ ≠ none
          simpa using shape.ws ws
        ctrl := by
          intro there
          exact shape.ctrl (by simpa using there) }
  · exact shape

theorem Shape.enter {log : List (Event F)} {cl : Client F} {ctrl : Option (Controller F)}
    {next : ClientPhase} (shape : Shape log cl) (forward : Forward cl.phase next)
    (ws : next = .ws → ctrl ≠ none) (there : ctrl ≠ none → next = .ws ∨ next = .closing) :
    Shape (log ++ [.phase next]) { cl with ctrl, phase := next } :=
  { shape with
    ws := ws
    ctrl := there
    tls := fun tls => absurd tls forward.ne_tls
    phase := phaseOf_snoc log (.phase next)
    orderly := by
      refine (along_snoc _ _).mpr ⟨shape.orderly, ?_⟩
      show Forward (phaseOf log) next
      rw [shape.phase]
      exact forward }

/-- A client that may be read is not closing. -/
theorem Shape.readable {log : List (Event F)} {cl : Client F} (shape : Shape log cl)
    (open_ : cl.phase = .http ∨ cl.phase = .ws) : phaseOf log ≠ .closing := by
  rw [shape.phase]
  exact ne_closing_of_open open_

theorem Shape.work {log events : List (Event F)} {s s' : Place F} (shape : Shape log s.2)
    (work : Work p s events s') : Shape (log ++ events) s'.2 := by
  cases work with
  | outside calls later => rw [List.append_nil]; exact shape
  | saves saved => rw [List.append_nil]; exact shape
  | notes act plain =>
      refine shape.log ?_ (by simp)
      cases act with
      | message payload rc => cases plain
      | _ => trivial
  | fails => rw [List.append_nil]; exact { shape with }
  | queues data active =>
      refine (shape.queueOutput active _ data).log ?_ (by simp)
      trivial
  | assigns value asked => exact (shape.assign value).log trivial (by simp)
  | upgrades created http =>
      rename_i sh cl
      refine shape.enter ?_ (fun _ => Option.some_ne_none _) fun _ => Or.inl rfl
      rw [show (sh, cl).2.phase = .http from http]
      exact .upgrade
  | closes open_ =>
      rename_i sh cl
      exact shape.enter (.closes open_) ClientPhase.noConfusion fun _ => Or.inr rfl
  | opens opcode data =>
      rw [List.append_nil]
      exact
        { shape with
          msgbuf := Nat.zero_le _
          opcode := by
            right
            rcases data with rfl | rfl
            · exact Or.inl rfl
            · exact Or.inr rfl
          idle := fun _ => rfl }
  | appends payload text room =>
      rw [List.append_nil]
      exact
        { shape with
          msgbuf := by
            rw [List.length_append]
            exact room
          idle := by
            intro idle
            have text : _ = (wsOpText.toNat : Int) := text
            rw [idle] at text
            exact absurd text (by decide) }
  | ends =>
      rw [List.append_nil]
      exact
        { shape with
          msgbuf := Nat.zero_le _
          opcode := Or.inl rfl
          idle := fun _ => rfl }
  | delivers ctrl e ws held =>
      rename_i sh cl
      refine Shape.log ?_ (shape.readable (Or.inr ws)) (by simp)
      exact
        { shape with
          ws := fun _ => Option.some_ne_none _
          ctrl := fun _ => Or.inl ws }
  | moves ctrl e ev held =>
      rename_i sh cl
      rw [List.append_nil]
      exact
        { shape with
          ws := fun _ => Option.some_ne_none _
          ctrl := fun _ => shape.ctrl (by rw [show (sh, cl).2.ctrl = some ctrl from held]; simp) }

theorem Shape.step {log events : List (Event F)} {s s' : Place F} (shape : Shape log s.2)
    (step : Step p s events s') : Shape (log ++ events) s'.2 := by
  cases step with
  | works work => exact shape.work work
  | checks now => exact shape.log trivial (by simp)
  | consumes rest fits open_ =>
      rw [List.append_nil]
      exact { shape with tls := fun tls => absurd tls open_, inbuf := fits }
  | accepts tls =>
      rename_i sh cl
      have accepted : Shape (log ++ [.sslAccept .done]) cl := shape.log trivial (by simp)
      rw [show ([.sslAccept .done, .phase .http] : List (Event F)) =
        [.sslAccept .done] ++ [.phase .http] from rfl, ← List.append_assoc]
      have none_ : cl.ctrl = none := by
        by_contra there
        rcases shape.ctrl there with ws | closing
        · rw [show (sh, cl).2.phase = .tls from tls] at ws
          cases ws
        · rw [show (sh, cl).2.phase = .tls from tls] at closing
          cases closing
      refine accepted.enter ?_ ClientPhase.noConfusion fun there => absurd none_ there
      rw [show cl.phase = .tls from tls]
      exact .handshake
  | acceptWants wait verdict tls either =>
      refine Shape.log ?_ trivial (by simp)
      exact { shape with }
  | acceptFails tls =>
      refine Shape.log ?_ trivial (by simp)
      exact { shape with }
  | flushes ssl open_ readFree =>
      rename_i sh cl
      have flushed : Shape log { cl with out := (cl.out.flushOutput (p.clock sh.calls) ssl).1 } :=
        { shape with
          tls := fun tls => absurd tls open_
          outbuf := Queue.flushOutput_fits shape.outbuf _ ssl }
      cases (cl.out.flushOutput (p.clock sh.calls) ssl).2 with
      | none =>
          rw [Option.toList_none, List.map_nil, List.append_nil]
          exact flushed
      | some event => exact flushed.log trivial (by simp)
  | reads chunk open_ writeFree fits =>
      rename_i sh cl
      have read : Shape log { cl with readWait := 0, inbuf := cl.inbuf ++ chunk } :=
        { shape with
          tls := fun tls => absurd tls (ne_tls_of_open open_)
          inbuf := by
            rw [List.length_append]
            exact fits }
      exact read.log (shape.readable open_) (by simp)
  | readWants wait verdict open_ writeFree room which =>
      rename_i sh cl
      have read : Shape log { cl with readWait := wait } := { shape with }
      exact read.log (shape.readable open_) (by simp)
  | readFails open_ writeFree =>
      rename_i sh cl
      have read : Shape log cl.fail := { shape with }
      exact read.log (shape.readable open_) (by simp)

/-- **Every connection keeps its shape**, and a slot without one is as it was at the start. -/
theorem shape_run (sensitivity : F) (saved : Option CStr) (polls : List PollResult)
    (i : Fin maxClients) :
    let log := history (slotEvents p sensitivity saved polls i)
    let cl := ((mainLoop p sensitivity saved).after polls).clients i
    (cl.used = true → Shape log cl) ∧ (cl.used = false → cl = .closed ∧ LastConnection Shape log) :=
  connection_invariant p shape_opened (fun _ _ _ _ step shape => shape.step step)
    (fun _ _ value shape => shape.assign value) sensitivity saved polls i

/-! ## Deadlines -/

/-- The client has missed no deadline at the time `now`. -/
structure Timely (now : Int) (cl : Client F) : Prop where
  accepted : cl.phase = .tls ∨ cl.phase = .http → now - cl.acceptedAt < ioTimeout
  sending : cl.out.outbuf ≠ [] → now - cl.out.writeStarted < ioTimeout

theorem timely_of_not_expired {events : UInt16} {now : Int} {cl : Client F}
    (not_ : ¬ Stage.expired events now cl) : Timely now cl := by
  unfold Stage.expired at not_
  simp only [not_or, not_and, not_le] at not_
  exact ⟨fun early => not_.2.1 early, fun sending => not_.2.2 sending⟩

theorem Timely.queueOutput {now later : Int} {cl : Client F} (timely : Timely now cl)
    (after : now ≤ later) (data : List UInt8) :
    Timely now { cl with out := (cl.out.queueOutput later data).1 } := by
  refine ⟨timely.accepted, ?_⟩
  unfold Queue.queueOutput
  split
  · exact timely.sending
  · split
    · exact timely.sending
    · intro _
      show now - (if cl.out.outbuf = [] then later else cl.out.writeStarted) < ioTimeout
      split
      · unfold ioTimeout
        omega
      · rename_i sending
        exact timely.sending sending

theorem Timely.flushOutput {now later : Int} {cl : Client F} (timely : Timely now cl)
    (after : now ≤ later) (ssl : (len : Nat) → WriteResult len) :
    Timely now { cl with out := (cl.out.flushOutput later ssl).1 } := by
  refine ⟨timely.accepted, ?_⟩
  unfold Queue.flushOutput
  split
  · exact timely.sending
  · dsimp only
    cases ssl cl.out.attemptLen with
    | wrote n some_ le =>
        intro _
        show now - later < ioTimeout
        unfold ioTimeout
        omega
    | _ => exact timely.sending

theorem Timely.assign {now : Int} {cl : Client F} (value : F) (timely : Timely now cl) :
    Timely now (cl.assign value) := by
  unfold Client.assign
  split
  · exact ⟨timely.accepted, timely.sending⟩
  · exact timely

theorem Timely.enter {now : Int} {cl cl' : Client F} (timely : Timely now cl)
    (out : cl'.out = cl.out) (late : cl'.phase = .ws ∨ cl'.phase = .closing) : Timely now cl' where
  accepted := by
    rintro (tls | http)
    · rw [tls] at late
      rcases late with ws | closing
      · cases ws
      · cases closing
    · rw [http] at late
      rcases late with ws | closing
      · cases ws
      · cases closing
  sending := by
    rw [out]
    exact timely.sending

/-- From call `n` on, the client has failed or misses no deadline of that time. -/
structure OnTime (p : Platform D) (n : Nat) (s : Place F) : Prop where
  later : n ≤ s.1.calls
  timely : s.2.out.failed = true ∨ Timely (p.clock n) s.2

theorem OnTime.work {n : Nat} {s s' : Place F} {events : List (Event F)}
    (onTime : OnTime p n s) (work : Work p s events s') : OnTime p n s' := by
  obtain ⟨later, timely⟩ := onTime
  cases work with
  | outside calls after => exact ⟨later.trans after, timely⟩
  | fails => exact ⟨later, Or.inl rfl⟩
  | queues data active =>
      rename_i sh cl
      refine ⟨later, ?_⟩
      rcases timely with failed | timely
      · left
        show (cl.out.queueOutput (p.clock sh.calls) data).1.failed = true
        rw [Queue.queueOutput, if_pos failed]
        exact failed
      · exact Or.inr (timely.queueOutput (p.monotone later) data)
  | assigns value asked =>
      rename_i sh cl
      refine ⟨later, timely.imp (fun failed => ?_) fun timely => timely.assign value⟩
      show (cl.assign value).out.failed = true
      unfold Client.assign
      split <;> exact failed
  | upgrades created http =>
      exact ⟨later, timely.imp id fun timely => timely.enter rfl (Or.inl rfl)⟩
  | closes open_ => exact ⟨later, timely.imp id fun timely => timely.enter rfl (Or.inr rfl)⟩
  | _ => exact ⟨later, timely.imp id fun timely => ⟨timely.accepted, timely.sending⟩⟩

theorem OnTime.step {n : Nat} {s s' : Place F} {events : List (Event F)}
    (onTime : OnTime p n s) (step : Step p s events s') : OnTime p n s' := by
  cases step with
  | works work => exact onTime.work work
  | accepts tls =>
      exact ⟨onTime.later, onTime.timely.imp id fun timely =>
        ⟨fun _ => timely.accepted (Or.inl tls), timely.sending⟩⟩
  | flushes ssl open_ readFree =>
      rename_i sh cl
      refine ⟨onTime.later, onTime.timely.imp (fun failed => ?_) fun timely =>
        timely.flushOutput (p.monotone onTime.later) ssl⟩
      show (cl.out.flushOutput (p.clock sh.calls) ssl).1.failed = true
      rw [Queue.flushOutput, if_pos (Or.inr failed)]
      exact failed
  | acceptFails tls => exact ⟨onTime.later, Or.inl rfl⟩
  | readFails open_ writeFree => exact ⟨onTime.later, Or.inl rfl⟩
  | _ =>
      exact ⟨onTime.later, onTime.timely.imp id fun timely => ⟨timely.accepted, timely.sending⟩⟩

/-- A client that is attended to and has not failed misses no deadline of the time at which
they were checked. -/
theorem timely_attend (events : UInt16) (sh : Shared F) (cl : Client F) :
    (Stage.attend p events sh cl).client.out.failed = true ∨
      Timely (p.clock sh.calls) (Stage.attend p events sh cl).client := by
  have start : OnTime p sh.calls ((Stage.checkDeadlines p events sh cl).shared,
      (Stage.checkDeadlines p events sh cl).client) := by
    refine ⟨Nat.le_succ _, ?_⟩
    unfold Stage.checkDeadlines
    dsimp only
    split
    · exact Or.inl rfl
    · rename_i not_
      exact Or.inr (timely_of_not_expired not_)
  have path := Theory.Path.trans (handshake_path (p := p) events ((Stage.checkDeadlines p events sh cl).shared,
    (Stage.checkDeadlines p events sh cl).client)) (transfer_path events _)
  exact (path.keeps (I := OnTime p sh.calls) (fun _ _ _ step onTime => onTime.step step) start).timely

/-! ## The end of an iteration -/

/-- A client that is still there need not be closed. -/
def Settled (cl : Client F) : Prop :=
  cl.used = true → cl.out.failed = false ∧ ¬ (cl.phase = .closing ∧ cl.out.outbuf = [])

theorem settled_closed : Settled (.closed : Client F) := fun used => Bool.noConfusion used

theorem settled_opened (fd : Nat) (now : Int) :
    Settled (Client.closed.opened fd now : Client F) :=
  fun _ => ⟨rfl, fun done => ClientPhase.noConfusion done.1⟩

theorem Settled.assign {cl : Client F} (value : F) (settled : Settled cl) :
    Settled (cl.assign value) := by
  unfold Client.assign
  split
  · exact settled
  · exact settled

theorem settled_finish (sh : Shared F) (cl : Client F) :
    Settled (Stage.finish sh cl).client := by
  unfold Stage.finish
  split
  · exact settled_closed
  · rename_i stays
    intro _
    refine ⟨?_, fun done => stays (Or.inr done)⟩
    by_contra failed
    exact stays (Or.inl (by simpa using failed))

/-- A slot that need not be closed and has no controller, such as one without a connection. -/
def Fresh (cl : Client F) : Prop := cl.ctrl = none ∧ Settled cl

theorem Fresh.assign {cl : Client F} (value : F) (fresh : Fresh cl) : Fresh (cl.assign value) := by
  refine ⟨?_, fresh.2.assign value⟩
  unfold Client.assign
  split
  · show cl.ctrl.map _ = none
    rw [fresh.1]
    rfl
  · exact fresh.1

theorem Fresh.spnavEvent {cl : Client F} (fresh : Fresh cl) (ev : SbEvent) (sh : Shared F) :
    Fresh (Stage.spnavEvent p ev sh cl).client := by
  unfold Stage.spnavEvent
  rw [fresh.1]
  exact fresh

theorem fresh_openClient (fd : Nat) (ssl : Bool) (sh : Shared F) :
    Fresh (Bridge.openClient p fd ssl sh .closed).client := by
  unfold Bridge.openClient
  dsimp only
  split
  · exact ⟨rfl, settled_opened fd _⟩
  · exact ⟨rfl, settled_closed⟩

theorem unused_dropClient (sh : Shared F) (cl : Client F) :
    (Bridge.dropClient sh cl).client.used = false := by
  unfold Bridge.dropClient
  split
  · rfl
  · rename_i unused
    simpa using unused

namespace Bridge

variable (p)

/-- Before the clients have their turns. -/
def told (b : Bridge F) (reports : Reports) : Bridge F :=
  ((b.acceptClient p reports.accepted).1.fanOut p reports.device).1

/-- The events of the connection that is accepted and of the device. -/
def toldEvents (b : Bridge F) (reports : Reports) : List (SlotEvent F) :=
  (b.acceptClient p reports.accepted).2 ++
    ((b.acceptClient p reports.accepted).1.fanOut p reports.device).2

/-- The turns of the clients that are polled. -/
def turns (b : Bridge F) (reports : Reports) (i : Fin maxClients) : Stage F :=
  servePolled p (b.clients i).used (reports.revents i)

variable {p}

theorem iterate_ready (b : Bridge F) (reports : Reports) (running : b.running = true)
    (kept : reports.lost = false) :
    b.iterate p (.ready reports) =
      (((b.told p reports).each (b.turns p reports) (List.finRange maxClients)).1,
        b.toldEvents p reports ++
          ((b.told p reports).each (b.turns p reports) (List.finRange maxClients)).2) := by
  rw [iterate, running]
  dsimp only
  rw [kept]
  rfl

theorem each_running (b : Bridge F) (stage : Fin maxClients → Stage F)
    (slots : List (Fin maxClients)) : (b.each stage slots).1.running = b.running := by
  induction slots using List.reverseRecOn with
  | nil => rfl
  | append_singleton slots i ih =>
      rw [each_snoc]
      exact ih

theorem told_running (b : Bridge F) (reports : Reports) :
    (b.told p reports).running = b.running := by
  have accepted : (b.acceptClient p reports.accepted).1.running = b.running := by
    unfold acceptClient
    split <;> rfl
  unfold told fanOut
  induction reports.device using List.reverseRecOn with
  | nil => exact accepted
  | append_singleton device ev ih =>
      rw [List.foldl_append]
      exact (each_running _ _ _).trans ih

/-- A slot with a connection keeps it up to the clients' turns. -/
theorem told_used (b : Bridge F) (reports : Reports) {i : Fin maxClients}
    (used : (b.clients i).used = true) : ((b.told p reports).clients i).used = true := by
  have hears : ∀ (cl : Client F) (value : F), cl.used = true → (cl.assign value).used = true :=
    fun cl value used => (sameIo_assign value cl).used.trans used
  refine fanOut_keeps hears _ _ (fun ev sh cl used => ?_) ?_
  · have path := spnavEvent_path (p := p) ev (sh, cl)
    exact path.keeps (I := fun s => s.2.used = true)
      (fun _ _ _ still used => still.1.sameIo.used.trans used) used
  · refine acceptClient_keeps (I := fun cl => cl.used = true) hears b _ (fun _ _ _ free => ?_) used
    rw [used] at free
    cases free

/-- A slot without a connection gets at most a new one. -/
theorem told_fresh (b : Bridge F) (reports : Reports) {i : Fin maxClients}
    (closed : b.clients i = .closed) :
    Fresh ((b.told p reports).clients i) := by
  have hears : ∀ (cl : Client F) (value : F), Fresh cl → Fresh (cl.assign value) :=
    fun _ value fresh => fresh.assign value
  refine fanOut_keeps hears _ _ (fun ev sh _ fresh => fresh.spnavEvent ev sh) ?_
  refine acceptClient_keeps (I := Fresh) hears b _ (fun fd ssl sh _ => ?_) ?_
  · rw [closed]
    exact fresh_openClient fd ssl sh
  · rw [closed]
    exact ⟨rfl, settled_closed⟩

theorem shutDown_unused (b : Bridge F) (i : Fin maxClients) :
    (b.shutDown.1.clients i).used = false := by
  obtain ⟨sh, cl, -, after, -⟩ := each_self b (fun _ => dropClient)
    (List.nodup_finRange maxClients) (List.mem_finRange i)
  exact after.keeps (I := fun cl => cl.used = false)
    (fun cl value unused => (sameIo_assign value cl).used.trans unused) (unused_dropClient sh cl)

/-- When the connection to spacenavd is lost, no client is left. -/
theorem lost_unused {b : Bridge F} {reports : Reports} (running : b.running = true)
    (lost : reports.lost = true) (i : Fin maxClients) :
    ((b.iterate p (.ready reports)).1.clients i).used = false := by
  have dropped : (b.iterate p (.ready reports)).1 = (b.told p reports).shutDown.1 := by
    rw [iterate, running]
    dsimp only
    rw [lost]
    rfl
  rw [dropped]
  exact shutDown_unused _ i

theorem not_lost_of_used {b : Bridge F} {reports : Reports} {i : Fin maxClients}
    (running : b.running = true)
    (stays : ((b.iterate p (.ready reports)).1.clients i).used = true) : reports.lost = false := by
  cases lost : reports.lost with
  | false => rfl
  | true => exact absurd (stays.symm.trans (lost_unused running lost i)) Bool.noConfusion

/-- A client that was polled has its turn, unless the connection to spacenavd was lost. -/
theorem iterate_serves (b : Bridge F) (reports : Reports) {i : Fin maxClients}
    (running : b.running = true) (kept : reports.lost = false)
    (used : (b.clients i).used = true) :
    ∃ sh cl, cl.used = true ∧
      Heard (Stage.serve p (reports.revents i) sh cl).client
        ((b.iterate p (.ready reports)).1.clients i) ∧
      ∃ before, eventsOf i (b.iterate p (.ready reports)).2 =
        before ++ (Stage.serve p (reports.revents i) sh cl).events := by
  obtain ⟨sh, cl, before, after, events⟩ := each_self (b.told p reports) (b.turns p reports)
    (List.nodup_finRange maxClients) (List.mem_finRange i)
  have used' : cl.used = true := before.keeps (I := fun cl => cl.used = true)
    (fun cl value used => (sameIo_assign value cl).used.trans used) (told_used b reports used)
  have turn : b.turns p reports i sh cl = Stage.serve p (reports.revents i) sh cl :=
    if_pos ⟨used, used'⟩
  rw [turn] at after events
  rw [iterate_ready b reports running kept]
  refine ⟨sh, cl, used', after, eventsOf i (b.toldEvents p reports), ?_⟩
  rw [eventsOf_append, events]

theorem iterate_skips (b : Bridge F) (reports : Reports) {i : Fin maxClients}
    (running : b.running = true) (kept : reports.lost = false)
    (closed : b.clients i = .closed) : Settled ((b.iterate p (.ready reports)).1.clients i) := by
  rw [iterate_ready b reports running kept]
  refine each_keeps (I := Settled) (fun _ value settled => settled.assign value) _ _ _
    (fun sh cl settled => ?_) (told_fresh b reports closed).2
  have skipped : b.turns p reports i sh cl = ⟨sh, cl, []⟩ := by
    refine if_neg fun polled => ?_
    rw [closed] at polled
    cases polled.1
  rw [skipped]
  exact settled

/-- **An iteration leaves every slot settled.** -/
theorem iterate_settled (b : Bridge F) (poll : PollResult) (i : Fin maxClients)
    (clean : (b.clients i).used = false → b.clients i = .closed)
    (settled : Settled (b.clients i)) : Settled ((b.iterate p poll).1.clients i) := by
  have dropped : ∀ b : Bridge F, Settled (b.shutDown.1.clients i) := by
    intro b used
    rw [shutDown_unused] at used
    cases used
  by_cases running : b.running = true
  · cases poll with
    | interrupted => simpa [iterate, running] using settled
    | broken => simpa [iterate, running] using dropped b
    | ready reports =>
        cases kept : reports.lost with
        | true => simpa [iterate, running, kept] using dropped _
        | false =>
            cases used : (b.clients i).used with
            | true =>
                obtain ⟨sh, cl, -, after, -⟩ := iterate_serves (p := p) b reports running kept used
                exact after.keeps (fun _ value settled => settled.assign value)
                  (settled_finish _ _)
            | false => exact iterate_skips b reports running kept (clean used)
  · simpa [iterate, running] using settled

end Bridge

/-! ## Every slot, after every iteration -/

/-- The fields of a slot at the end of an iteration. -/
structure SlotInvariant (cl : Client F) : Prop where
  free : cl.used = false → cl = .closed
  fd : cl.used = true → 0 ≤ cl.fd
  ssl : cl.used = true → cl.ssl = true
  alive : cl.used = true → cl.out.failed = false
  unfinished : cl.used = true → ¬ (cl.phase = .closing ∧ cl.out.outbuf = [])
  ws : cl.phase = .ws → cl.ctrl ≠ none
  ctrl : cl.ctrl ≠ none → cl.phase = .ws ∨ cl.phase = .closing
  tls : cl.phase = .tls → cl.inbuf = [] ∧ cl.out.outbuf = []
  inbuf : cl.inbuf.length ≤ inputBufSize
  msgbuf : cl.msgbuf.length ≤ msgBufSize
  outbuf : cl.out.outbuf.length ≤ bufSize * 2
  opcode : cl.used = true →
    cl.msgOpcode = -1 ∨ cl.msgOpcode = wsOpText.toNat ∨ cl.msgOpcode = wsOpBin.toNat
  idle : cl.msgOpcode = -1 → cl.msgbuf = []

theorem slotInvariant_closed : SlotInvariant (.closed : Client F) where
  free _ := rfl
  fd used := Bool.noConfusion used
  ssl used := Bool.noConfusion used
  alive used := Bool.noConfusion used
  unfinished used := Bool.noConfusion used
  ws ws := ClientPhase.noConfusion ws
  ctrl there := absurd rfl there
  tls _ := ⟨rfl, rfl⟩
  inbuf := Nat.zero_le _
  msgbuf := Nat.zero_le _
  outbuf := Nat.zero_le _
  opcode used := Bool.noConfusion used
  idle _ := rfl

theorem slotInvariant_of_shape {log : List (Event F)} {cl : Client F} (used : cl.used = true)
    (shape : Shape log cl) (settled : Settled cl) : SlotInvariant cl where
  free unused := by
    rw [used] at unused
    cases unused
  fd _ := shape.fd
  ssl _ := shape.ssl
  alive used := (settled used).1
  unfinished used := (settled used).2
  ws := shape.ws
  ctrl := shape.ctrl
  tls := shape.tls
  inbuf := shape.inbuf
  msgbuf := shape.msgbuf
  outbuf := shape.outbuf
  opcode _ := shape.opcode
  idle := shape.idle

theorem settled_run (sensitivity : F) (saved : Option CStr) (polls : List PollResult)
    (i : Fin maxClients) : Settled (((mainLoop p sensitivity saved).after polls).clients i) := by
  induction polls using List.reverseRecOn with
  | nil => exact settled_closed
  | append_singleton polls poll ih =>
      rw [Machine.after_snoc]
      refine Bridge.iterate_settled _ poll i (fun unused => ?_) ih
      exact ((shape_run sensitivity saved polls i).2 unused).1

/-- A client that is served has its deadlines checked, and is closed if it misses one. -/
theorem timely_serve (events : UInt16) (sh : Shared F) (cl : Client F) :
    ∃ now, Event.checked now ∈ (Stage.serve p events sh cl).events ∧
      ((Stage.serve p events sh cl).client.used = true →
        Timely now (Stage.serve p events sh cl).client) := by
  refine ⟨p.clock sh.calls, ?_, fun stays => ?_⟩
  · exact List.mem_append_left _ (List.mem_append_left _ (List.mem_append_left _
      (List.mem_singleton.mpr rfl)))
  · have attended := timely_attend (p := p) events sh cl
    have served : (Stage.serve p events sh cl).client =
        (Stage.finish (Stage.attend p events sh cl).shared
          (Stage.attend p events sh cl).client).client := rfl
    rw [served] at stays ⊢
    unfold Stage.finish at stays ⊢
    split at stays
    · cases stays
    · rename_i not_
      rw [if_neg not_]
      exact attended.resolve_left fun failed => not_ (Or.inl failed)

/-- **The slots.**  At the end of every iteration every slot keeps its invariant, and its
connection has only moved forward; and a client that was polled is closed, or misses no
deadline of the time at which its turn began. -/
theorem slot_invariant (p : Platform D) (sensitivity : F) (saved : Option CStr)
    (polls : List PollResult) (i : Fin maxClients) :
    let loop := mainLoop p sensitivity saved
    let cl := (loop.after polls).clients i
    let log := history (slotEvents p sensitivity saved polls i)
    SlotInvariant cl ∧ Along Orderly log ∧ (cl.used = true → phaseOf log = cl.phase) ∧
      ∀ past reports, polls = past ++ [.ready reports] → (loop.after past).running = true →
        ((loop.after past).clients i).used = true → cl.used = true →
          ∃ now, .checked now ∈ eventsOf i ((loop.after past).iterate p (.ready reports)).2 ∧
            Timely now cl := by
  intro loop cl log
  obtain ⟨live, free⟩ := shape_run (p := p) sensitivity saved polls i
  refine ⟨?_, ?_, fun used => (live used).phase, ?_⟩
  · cases used : cl.used with
    | true => exact slotInvariant_of_shape used (live used) (settled_run sensitivity saved polls i)
    | false =>
        rw [show cl = .closed from (free used).1]
        exact slotInvariant_closed
  · cases used : cl.used with
    | true => exact (live used).orderly
    | false =>
        rcases (free used).2 with none_ | ⟨front, last, whole, shape⟩
        · rw [show log = [] from none_]
          exact along_nil
        · rw [show log = front ++ [.closed] from whole]
          exact (along_snoc _ _).mpr ⟨shape.orderly, trivial⟩
  · rintro past reports rfl running used stays
    have same : cl = ((loop.after past).iterate p (.ready reports)).1.clients i := by
      show (loop.after (past ++ [.ready reports])).clients i = _
      rw [Machine.after_snoc]
      rfl
    rw [same] at stays ⊢
    have kept := Bridge.not_lost_of_used running stays
    obtain ⟨sh, served, -, after, before, events⟩ :=
      Bridge.iterate_serves (p := p) (loop.after past) reports running kept used
    obtain ⟨now, checked, timely⟩ := timely_serve (p := p) (reports.revents i) sh served
    refine ⟨now, ?_, ?_⟩
    · rw [events]
      exact List.mem_append_right _ checked
    · refine after.keeps (I := fun cl => cl.used = true → Timely now cl) ?_ timely stays
      intro cl value timely used
      exact (timely ((sameIo_assign value cl).used.symm.trans used)).assign value

end SpnavBridge.Daemon
