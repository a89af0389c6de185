/-
# Daemon.Wakeup -- a reported event wakes its client up

The mask of a client is never empty, and an event of the mask leads to an operation of
OpenSSL in the client's turn, the one that is owed among them.  A client for which it does
not is closed in the same iteration, for one of two reasons (`woken_or_closed`).

`unwoken_sessions` has a run for each of the reasons.
-/
import SpnavBridge.Daemon.Device
import SpnavBridge.Daemon.Waits

namespace SpnavBridge.Daemon

open SpnavBridge.Theory SpnavBridge.Wire SpnavBridge.Kernel

set_option autoImplicit false
set_option linter.unusedSectionVars false

variable {D F : Type} [CFloat F] [CDouble D F] {p : Platform D}

/-! ## The events of the mask -/

theorem and_or_ne_zero {events one other : UInt16} :
    events &&& (one ||| other) ≠ 0 ↔ events &&& one ≠ 0 ∨ events &&& other ≠ 0 := by
  have parts : events &&& (one ||| other) = (events &&& one) ||| (events &&& other) := by
    apply UInt16.toBitVec_inj.mp
    simp only [UInt16.toBitVec_and, UInt16.toBitVec_or]
    exact BitVec.and_or_distrib_left
  rw [parts, ne_eq, UInt16.or_eq_zero_iff, not_and_or]

/-- **The mask is not empty** for a client that need not be closed. -/
theorem pollMask_ne_zero {cl : Client F} (waits : Waits cl) (alive : cl.out.failed = false)
    (unfinished : ¬ (cl.phase = .closing ∧ cl.out.outbuf = [])) : pollMask cl ≠ 0 := by
  have more : ∀ mask : UInt16, mask ≠ 0 → mask ||| pollOut ≠ 0 := by
    intro mask some_ none_
    exact some_ (UInt16.or_eq_zero_iff.mp none_).1
  unfold pollMask
  split
  · rename_i tls
    exact (waits.tls tls).1.ne_zero
  · split
    · rename_i owed
      have wait := (waits.write owed).resolve_left (by rw [alive]; exact Bool.false_ne_true)
      exact wait.ne_zero
    · dsimp only
      by_cases closing : cl.phase = .closing
      · rw [if_pos closing, if_pos fun empty => unfinished ⟨closing, empty⟩]
        decide
      · rw [if_neg closing]
        have reading : (if cl.readWait ≠ 0 then cl.readWait else pollIn) ≠ 0 := by
          split
          · assumption
          · decide
        split
        · exact more _ reading
        · exact reading

/-- More output adds to what is waited for. -/
theorem Since.pollMask {cl cl' : Client F} (since : Since cl cl') {events : UInt16}
    (some_ : events &&& Daemon.pollMask cl ≠ 0) : events &&& Daemon.pollMask cl' ≠ 0 := by
  unfold Daemon.pollMask at some_ ⊢
  rw [since.phase, since.io.tlsWait, since.io.writeLen, since.io.writeWait, since.io.readWait]
  split
  · rename_i tls
    rwa [if_pos tls] at some_
  · rename_i open_
    rw [if_neg open_] at some_
    split
    · rename_i owed
      rwa [if_pos owed] at some_
    · rename_i free
      rw [if_neg free] at some_
      dsimp only at some_ ⊢
      by_cases sending : cl.out.outbuf = []
      · rw [if_neg (not_not.mpr sending)] at some_
        split
        · exact and_or_ne_zero.mpr (Or.inl some_)
        · exact some_
      · rw [if_pos sending] at some_
        have sending' : cl'.out.outbuf ≠ [] := by
          intro empty
          exact sending (List.prefix_nil.mp (empty ▸ since.outbuf))
        rw [if_pos sending']
        exact some_

/-! ## The operations of a turn -/

/-- The operations among the events. -/
def sslOps (events : List (Event F)) : List SslOp := events.filterMap Event.ssl?

@[simp] theorem sslOps_append (events more : List (Event F)) :
    sslOps (events ++ more) = sslOps events ++ sslOps more := List.filterMap_append

/-- Something is tried, and what is owed is. -/
structure Woken (cl : Client F) (ops : List SslOp) : Prop where
  tried : ops ≠ []
  accept : cl.phase = .tls → ∃ verdict, .accept verdict ∈ ops
  write : cl.out.writeLen ≠ 0 →
    ∃ verdict, .write (cl.out.outbuf.take cl.out.writeLen) verdict ∈ ops
  read : cl.readWait = pollOut → ∃ verdict, .read verdict ∈ ops

/-- No operation is owed. -/
structure OwesNothing (cl : Client F) : Prop where
  accept : cl.phase ≠ .tls
  write : cl.out.writeLen = 0
  read : cl.readWait ≠ pollOut

theorem Woken.mono {cl : Client F} {ops more : List SslOp} (woken : Woken cl ops)
    (longer : ∀ op, op ∈ ops → op ∈ more) : Woken cl more where
  tried := by
    obtain ⟨op, tried⟩ := List.exists_mem_of_ne_nil ops woken.tried
    exact List.ne_nil_of_mem (longer op tried)
  accept tls := (woken.accept tls).imp fun _ tried => longer _ tried
  write owed := (woken.write owed).imp fun _ tried => longer _ tried
  read wants := (woken.read wants).imp fun _ tried => longer _ tried

theorem OwesNothing.woken {cl : Client F} (owes : OwesNothing cl) {ops : List SslOp} {op : SslOp}
    (tried : op ∈ ops) : Woken cl ops where
  tried := List.ne_nil_of_mem tried
  accept tls := absurd tls owes.accept
  write owed := absurd owes.write owed
  read wants := absurd wants owes.read

theorem Since.woken {cl cl' : Client F} (since : Since cl cl') (waits : Waits cl)
    {ops : List SslOp} (woken : Woken cl' ops) : Woken cl ops where
  tried := woken.tried
  accept tls := woken.accept (since.phase.trans tls)
  write owed := by
    obtain ⟨verdict, tried⟩ := woken.write (by rw [since.io.writeLen]; exact owed)
    obtain ⟨more, longer⟩ := since.outbuf
    rw [since.io.writeLen, ← longer, List.take_append_of_le_length waits.attempted] at tried
    exact ⟨verdict, tried⟩
  read wants := woken.read (since.io.readWait.trans wants)

theorem Since.owesNothing {cl cl' : Client F} (since : Since cl cl') (owes : OwesNothing cl') :
    OwesNothing cl where
  accept := since.phase ▸ owes.accept
  write := since.io.writeLen ▸ owes.write
  read := since.io.readWait ▸ owes.read

theorem accept_tries (sh : Shared F) (cl : Client F) :
    ∃ verdict, SslOp.accept verdict ∈ sslOps (Stage.accept p sh cl).events := by
  unfold Stage.accept
  cases p.sslAccept sh.calls with
  | done => exact ⟨_, List.mem_cons_self⟩
  | _ => exact ⟨_, List.mem_singleton.mpr rfl⟩

theorem flush_tries (sh : Shared F) {cl : Client F} (some_ : cl.out.outbuf ≠ [])
    (alive : cl.out.failed = false) :
    ∃ verdict, SslOp.write (cl.out.outbuf.take cl.out.attemptLen) verdict ∈
      sslOps (Stage.flush p sh cl).events := by
  have goes : ¬ (cl.out.outbuf = [] ∨ cl.out.failed = true) := by simp [some_, alive]
  unfold Stage.flush Queue.flushOutput
  rw [if_neg goes]
  exact ⟨_, List.mem_singleton.mpr rfl⟩

/-- A read that has room is tried. -/
theorem readLoop_tries (reads : Nat) (sh : Shared F) {cl : Client F}
    (room : cl.inbuf.length ≠ inputBufSize) :
    ∃ verdict, SslOp.read verdict ∈ sslOps (Stage.readLoop p (reads + 1) sh cl).events := by
  unfold Stage.readLoop
  dsimp only
  rw [if_neg room]
  cases p.sslRead sh.calls (inputBufSize - cl.inbuf.length) with
  | got chunk some_ fits => exact ⟨.got chunk, List.mem_cons_self⟩
  | _ => exact ⟨_, List.mem_singleton.mpr rfl⟩

theorem readLoop_full (reads : Nat) (sh : Shared F) {cl : Client F}
    (full : cl.inbuf.length = inputBufSize) :
    Stage.readLoop p (reads + 1) sh cl = ⟨sh, cl.fail, []⟩ := by
  unfold Stage.readLoop
  dsimp only
  rw [if_pos full]

theorem finish_ops (sh : Shared F) (cl : Client F) : sslOps (Stage.finish sh cl).events = [] := by
  unfold Stage.finish
  split <;> rfl

theorem finish_failed (sh : Shared F) {cl : Client F} (failed : cl.out.failed = true) :
    (Stage.finish sh cl).client.used = false := by
  unfold Stage.finish
  rw [if_pos (Or.inl failed)]
  rfl

/-- A client that has failed is closed in its turn, without an operation. -/
theorem serve_failed (events : UInt16) (sh : Shared F) {cl : Client F}
    (failed : cl.out.failed = true) :
    (Stage.serve p events sh cl).client.used = false ∧
      sslOps (Stage.serve p events sh cl).events = [] := by
  have still : (Stage.checkDeadlines p events sh cl).client.out.failed = true := by
    unfold Stage.checkDeadlines
    dsimp only
    split
    · rfl
    · exact failed
  unfold Stage.serve Stage.attend Outcome.andThen
  dsimp only
  rw [Stage.handshake, if_neg (by simp [still])]
  dsimp only
  rw [Stage.transfer, if_neg (by simp [still])]
  refine ⟨finish_failed _ still, ?_⟩
  simp only [sslOps_append, finish_ops]
  rfl

section Turn

variable {events : UInt16} {sh : Shared F} {cl : Client F}
  (timely : ¬ Stage.expired events (p.clock sh.calls) cl) (alive : cl.out.failed = false)
  (waits : Waits cl)

include timely in
theorem checkDeadlines_timely :
    Stage.checkDeadlines p events sh cl =
      ⟨{ sh with calls := sh.calls + 1 }, cl, [.checked (p.clock sh.calls)]⟩ := by
  unfold Stage.checkDeadlines
  dsimp only
  rw [if_neg timely]

include timely alive in
theorem serve_accepts (tls : cl.phase = .tls) (reported : events &&& cl.tlsWait ≠ 0) :
    ∃ verdict, SslOp.accept verdict ∈ sslOps (Stage.serve p events sh cl).events := by
  obtain ⟨verdict, tried⟩ := accept_tries (p := p) { sh with calls := sh.calls + 1 } cl
  have goes : (!cl.out.failed) = true ∧ cl.phase = .tls ∧ events &&& cl.tlsWait ≠ 0 := by
    simp [alive, tls, reported]
  refine ⟨verdict, ?_⟩
  unfold Stage.serve Stage.attend
  rw [checkDeadlines_timely timely]
  unfold Outcome.andThen
  dsimp only
  rw [Stage.handshake, if_pos goes]
  simp only [sslOps_append, List.mem_append]
  exact Or.inl (Or.inl (Or.inr tried))

/-- A client whose handshake is over has its output and its input looked at. -/
def transferred (p : Platform D) (events : UInt16) (sh : Shared F) (cl : Client F) : Outcome F :=
  (Stage.write p events { sh with calls := sh.calls + 1 } cl).andThen (Stage.read p events)

include timely alive in
theorem serve_eq (open_ : cl.phase ≠ .tls) :
    Stage.serve p events sh cl =
      Outcome.andThen { transferred p events sh cl with
        events := [.checked (p.clock sh.calls)] ++ (transferred p events sh cl).events }
        Stage.finish := by
  have shakes : ¬ ((!cl.out.failed) = true ∧ cl.phase = .tls ∧ events &&& cl.tlsWait ≠ 0) :=
    fun goes => open_ goes.2.1
  have goes : (!cl.out.failed) = true ∧ cl.phase ≠ .tls := by simp [alive, open_]
  unfold Stage.serve Stage.attend
  rw [checkDeadlines_timely timely]
  unfold Outcome.andThen
  dsimp only
  rw [Stage.handshake, if_neg shakes]
  dsimp only
  rw [Stage.transfer, if_pos goes]
  rfl

include timely alive in
theorem serve_ops (open_ : cl.phase ≠ .tls) :
    sslOps (Stage.serve p events sh cl).events = sslOps (transferred p events sh cl).events := by
  rw [serve_eq timely alive open_]
  unfold Outcome.andThen
  simp only [sslOps_append, finish_ops, List.append_nil]
  rfl

variable (p events sh) in
/-- Output that no read and no event stands against is written. -/
theorem transferred_writes (alive : cl.out.failed = false) (some_ : cl.out.outbuf ≠ [])
    (readFree : cl.readWait ≠ pollOut)
    (ready : cl.out.writeWait = 0 ∨ events &&& cl.out.writeWait ≠ 0) :
    ∃ verdict, SslOp.write (cl.out.outbuf.take cl.out.attemptLen) verdict ∈
      sslOps (transferred p events sh cl).events := by
  obtain ⟨verdict, tried⟩ := flush_tries (p := p) { sh with calls := sh.calls + 1 } some_ alive
  refine ⟨verdict, ?_⟩
  unfold transferred Outcome.andThen
  dsimp only
  rw [Stage.write, if_pos ⟨some_, readFree, ready⟩, sslOps_append]
  exact List.mem_append_left _ tried

variable (p events sh) in
/-- Where nothing is written, a read that its event is reported for is tried. -/
theorem transferred_eq (idle : cl.out.outbuf = [] ∨ cl.readWait = pollOut)
    (writeFree : cl.out.writeLen = 0) (open_ : cl.phase ≠ .closing)
    (reported : events &&& Stage.readEvent cl ≠ 0) :
    transferred p events sh cl =
      Stage.readLoop p maxReads { sh with calls := sh.calls + 2 } cl := by
  have quiet : ¬ (cl.out.outbuf ≠ [] ∧ cl.readWait ≠ pollOut ∧
      (cl.out.writeWait = 0 ∨ events &&& cl.out.writeWait ≠ 0)) := by
    rintro ⟨some_, readFree, -⟩
    exact idle.elim some_ readFree
  unfold transferred Outcome.andThen
  dsimp only
  rw [Stage.write, if_neg quiet, Stage.read, if_pos ⟨writeFree, open_, Or.inl reported⟩]
  rfl

include waits in
/-- An attempt that has to be repeated goes before a read that wants to write. -/
theorem readFree_of_owed (owed : cl.out.writeLen ≠ 0) : cl.readWait ≠ pollOut :=
  fun wants => owed (waits.blocked wants).1

include timely alive waits in
theorem wakes_handshake (tls : cl.phase = .tls) (reported : events &&& pollMask cl ≠ 0) :
    Woken cl (sslOps (Stage.serve p events sh cl).events) := by
  rw [pollMask, if_pos tls] at reported
  obtain ⟨verdict, tried⟩ := serve_accepts timely alive tls reported
  exact
    { tried := List.ne_nil_of_mem tried
      accept := fun _ => ⟨verdict, tried⟩
      write := fun owed => absurd (waits.tls tls).2 owed
      read := fun wants => absurd tls (ne_tls_of_open (waits.blocked wants).2.1) }

include alive waits in
theorem wakes_owed (tls : cl.phase ≠ .tls) (owed : cl.out.writeLen ≠ 0)
    (reported : events &&& pollMask cl ≠ 0) :
    Woken cl (sslOps (transferred p events sh cl).events) := by
  rw [pollMask, if_neg tls, if_pos owed] at reported
  have readFree := readFree_of_owed waits owed
  have some_ : cl.out.outbuf ≠ [] := by
    intro empty
    have attempted := waits.attempted
    rw [empty] at attempted
    exact owed (Nat.le_zero.mp attempted)
  obtain ⟨verdict, tried⟩ := transferred_writes p events sh alive some_ readFree (Or.inr reported)
  rw [Queue.attemptLen, if_neg owed] at tried
  exact
    { tried := List.ne_nil_of_mem tried
      accept := fun impossible => absurd impossible tls
      write := fun _ => ⟨verdict, tried⟩
      read := fun wants => absurd wants readFree }

include waits in
/-- Where nothing is written, the event that is reported is one of the read's. -/
theorem reported_for_read (tls : cl.phase ≠ .tls) (writeFree : cl.out.writeLen = 0)
    (idle : cl.out.outbuf = [] ∨ cl.readWait = pollOut) (reported : events &&& pollMask cl ≠ 0) :
    cl.phase ≠ .closing ∧ events &&& Stage.readEvent cl ≠ 0 := by
  rw [pollMask, if_neg tls, if_neg (not_not.mpr writeFree)] at reported
  dsimp only at reported
  have open_ : cl.phase ≠ .closing := by
    intro closing
    rcases idle with empty | wants
    · rw [if_pos closing, if_neg (not_not.mpr empty)] at reported
      exact reported UInt16.and_zero
    · exact ne_closing_of_open (waits.blocked wants).2.1 closing
  refine ⟨open_, ?_⟩
  unfold Stage.readEvent
  rw [if_neg open_] at reported
  rcases idle with empty | wants
  · rw [if_neg (not_not.mpr empty)] at reported
    exact reported
  · rw [wants, if_pos zero_ne_pollOut.symm] at reported ⊢
    split at reported
    · exact (and_or_ne_zero.mp reported).elim id id
    · exact reported

include timely alive waits in
theorem wakes_read (tls : cl.phase ≠ .tls) (writeFree : cl.out.writeLen = 0)
    (idle : cl.out.outbuf = [] ∨ cl.readWait = pollOut) (reported : events &&& pollMask cl ≠ 0) :
    Woken cl (sslOps (Stage.serve p events sh cl).events) ∨
      (cl.inbuf.length = inputBufSize ∧ OwesNothing cl ∧
        (Stage.serve p events sh cl).client.used = false) := by
  obtain ⟨open_, event⟩ := reported_for_read waits tls writeFree idle reported
  have reads := transferred_eq p events sh idle writeFree open_ event
  by_cases full : cl.inbuf.length = inputBufSize
  · refine Or.inr ⟨full, ⟨tls, writeFree, fun wants => (waits.blocked wants).2.2 full⟩, ?_⟩
    rw [serve_eq timely alive tls, reads, show maxReads = 15 + 1 from rfl, readLoop_full _ _ full]
    exact finish_failed _ rfl
  · obtain ⟨verdict, tried⟩ := readLoop_tries (p := p) 15 { sh with calls := sh.calls + 2 } full
    rw [serve_ops timely alive tls, reads]
    exact Or.inl
      { tried := List.ne_nil_of_mem tried
        accept := fun impossible => absurd impossible tls
        write := fun impossible => absurd writeFree impossible
        read := fun _ => ⟨verdict, tried⟩ }

include timely alive waits in
/-- **A turn that a reported event leads to.** -/
theorem serve_wakes (reported : events &&& pollMask cl ≠ 0) :
    Woken cl (sslOps (Stage.serve p events sh cl).events) ∨
      (cl.inbuf.length = inputBufSize ∧ OwesNothing cl ∧
        (Stage.serve p events sh cl).client.used = false) := by
  by_cases tls : cl.phase = .tls
  · exact Or.inl (wakes_handshake timely alive waits tls reported)
  by_cases owed : cl.out.writeLen ≠ 0
  · rw [serve_ops timely alive tls]
    exact Or.inl (wakes_owed alive waits tls owed reported)
  have writeFree : cl.out.writeLen = 0 := not_not.mp owed
  by_cases sends : cl.out.outbuf ≠ [] ∧ cl.readWait ≠ pollOut
  · -- there is output that nothing stands against
    obtain ⟨verdict, tried⟩ := transferred_writes p events sh alive sends.1 sends.2
      (Or.inl (waits.rest writeFree))
    rw [serve_ops timely alive tls]
    exact Or.inl (OwesNothing.woken ⟨tls, writeFree, sends.2⟩ tried)
  · have idle : cl.out.outbuf = [] ∨ cl.readWait = pollOut := by
      by_contra neither
      rw [not_or] at neither
      exact sends neither
    exact wakes_read timely alive waits tls writeFree idle reported

end Turn

/-! ## No lost wake-up -/

namespace Bridge

/-- The loop stops with no client left. -/
theorem iterate_stopped {b : Bridge F} {poll : PollResult}
    (before : b.running = false → ∀ i, (b.clients i).used = false)
    (stopped : (b.iterate p poll).1.running = false) (i : Fin maxClients) :
    ((b.iterate p poll).1.clients i).used = false := by
  cases running : b.running with
  | false => simpa [iterate, running] using before running i
  | true =>
      cases poll with
      | interrupted => simp [iterate, running] at stopped
      | broken => simpa [iterate, running] using shutDown_unused b i
      | ready reports =>
          cases kept : reports.lost with
          | true => exact lost_unused (p := p) running kept i
          | false =>
              rw [iterate_ready b reports running kept, each_running, told_running,
                running] at stopped
              cases stopped

end Bridge

theorem stopped_unused (sensitivity : F) (saved : Option CStr) (polls : List PollResult)
    (stopped : ((mainLoop p sensitivity saved).after polls).running = false) :
    ∀ i, (((mainLoop p sensitivity saved).after polls).clients i).used = false := by
  induction polls using List.reverseRecOn with
  | nil => exact fun _ => rfl
  | append_singleton polls poll ih =>
      rw [Machine.after_snoc] at stopped ⊢
      exact Bridge.iterate_stopped ih stopped

variable (p) in
/-- `poll` reports something that the client waits for, and no error or hang-up, and its turn
finds no deadline missed. -/
structure Bridge.Reported (b : Bridge F) (reports : Reports) (i : Fin maxClients) : Prop where
  used : (b.clients i).used = true
  mask : reports.revents i &&& pollMask (b.clients i) ≠ 0
  timely : ¬ Stage.expired (reports.revents i) (p.clock (b.turn p reports i).1.calls)
    (b.turn p reports i).2

/-- Why a client is closed without an operation: it is marked failed when its turn comes, or its
input is full and no operation is owed. -/
def Bridge.GivenUp (p : Platform D) (b : Bridge F) (reports : Reports) (i : Fin maxClients) :
    Prop :=
  (b.turn p reports i).2.out.failed = true ∨
    ((b.turn p reports i).2.inbuf.length = inputBufSize ∧ OwesNothing (b.clients i))

/-- One iteration, on a client that something is reported for. -/
theorem Bridge.reported_wakes {b : Bridge F} {reports : Reports} {i : Fin maxClients}
    (running : b.running = true) (kept : reports.lost = false) (waits : Waits (b.clients i))
    (reported : b.Reported p reports i) :
    Woken (b.clients i) (sslOps (eventsOf i (b.iterate p (.ready reports)).2)) ∨
      (b.GivenUp p reports i ∧ ((b.iterate p (.ready reports)).1.clients i).used = false) := by
  have since := turn_since (p := p) b reports reported.used
  obtain ⟨after, events⟩ := iterate_turn (p := p) b reports i running kept
  have turn : b.turns p reports i (b.turn p reports i).1 (b.turn p reports i).2 =
      Stage.serve p (reports.revents i) (b.turn p reports i).1 (b.turn p reports i).2 :=
    if_pos ⟨reported.used, since.io.used.trans reported.used⟩
  rw [turn] at after events
  have closed : ∀ {cl : Client F}, Heard cl ((b.iterate p (.ready reports)).1.clients i) →
      cl.used = false → ((b.iterate p (.ready reports)).1.clients i).used = false :=
    fun heard unused => heard.keeps (I := fun cl => cl.used = false)
      (fun cl value unused => (sameIo_assign value cl).used.trans unused) unused
  have whole : ∀ op, op ∈ sslOps (Stage.serve p (reports.revents i)
      (b.turn p reports i).1 (b.turn p reports i).2).events →
        op ∈ sslOps (eventsOf i (b.iterate p (.ready reports)).2) := by
    intro op tried
    rw [events, sslOps_append]
    exact List.mem_append_right _ tried
  cases failed : (b.turn p reports i).2.out.failed with
  | true => exact Or.inr ⟨Or.inl failed, closed after (serve_failed _ _ failed).1⟩
  | false =>
      rcases serve_wakes reported.timely failed (turn_waits b reports reported.used waits)
        (since.pollMask reported.mask) with woken | ⟨full, owes, unused⟩
      · exact Or.inl ((since.woken waits woken).mono whole)
      · exact Or.inr ⟨Or.inr ⟨full, since.owesNothing owes⟩, closed after unused⟩

/-- Bytes that are decrypted already make `poll` return at once. -/
theorem Bridge.pollTimeout_zero {b : Bridge F} {i : Fin maxClients}
    {pending : Fin maxClients → Bool} (used : (b.clients i).used = true)
    (early : (b.clients i).phase = .http ∨ (b.clients i).phase = .ws)
    (free : (b.clients i).out.writeLen = 0) (there : pending i = true) :
    b.pollTimeout pending = 0 := by
  have hurried : (b.clients i).used && hurries (b.clients i) (pending i) := by
    simp [used, hurries, free, there, early]
  exact if_pos (List.any_eq_true.mpr ⟨i, List.mem_finRange i, hurried⟩)

/-- **No lost wake-up.**  At the top of the loop the mask of a client is not empty, and bytes
that are decrypted already make `poll` return at once; and an event of the mask leads to an
operation, the one that is owed among them, or the client is closed for one of the reasons. -/
theorem woken_or_closed (p : Platform D) (sensitivity : F) (saved : Option CStr) (spnavFd : Int)
    (polls : List DevicePoll) (i : Fin maxClients) :
    let s := (deviceLoop p sensitivity saved spnavFd).after polls
    let cl := s.bridge.clients i
    (cl.used = true → pollMask cl ≠ 0) ∧
    (∀ pending : Fin maxClients → Bool, cl.used = true → cl.phase = .http ∨ cl.phase = .ws →
      cl.out.writeLen = 0 → pending i = true → s.bridge.pollTimeout pending = 0) ∧
    ∀ reports, s.bridge.Reported p (s.reports reports) i →
      Woken cl (sslOps (eventsOf i (s.iterate p (.ready reports)).2)) ∨
        (s.bridge.GivenUp p (s.reports reports) i ∧
          ((s.iterate p (.ready reports)).1.bridge.clients i).used = false) := by
  intro s cl
  have connected : s.bridge.running = true → s.connected = true :=
    connected_of_running (p := p) sensitivity saved spnavFd polls
  obtain ⟨results, -, same⟩ := session_bridge (p := p) sensitivity saved spnavFd polls
  have same : s.bridge = (mainLoop p sensitivity saved).after results := same
  have waits : cl.used = true → Waits cl := by
    show (s.bridge.clients i).used = true → Waits (s.bridge.clients i)
    rw [same]
    exact waits_run sensitivity saved results i
  refine ⟨fun used => ?_, fun pending used early free there => ?_, fun reports reported => ?_⟩
  · have settled := settled_run (p := p) sensitivity saved results i
    rw [← same] at settled
    obtain ⟨alive, unfinished⟩ := settled used
    exact pollMask_ne_zero (waits used) alive unfinished
  · exact Bridge.pollTimeout_zero used early free there
  · have running : s.bridge.running = true := by
      by_contra stopped
      have unused := stopped_unused (p := p) sensitivity saved results (by
        rw [← same]
        simpa using stopped) i
      rw [← same] at unused
      exact Bool.false_ne_true (unused.symm.trans reported.used)
    exact Bridge.reported_wakes running (Session.reports_kept (connected running) reports)
      (waits reported.used) reported

/-! ## Clients that are given up -/

/-! ### A run of one client -/

def firstSlot : Fin maxClients := ⟨0, by decide⟩

namespace Bridge

variable {D F : Type} [CFloat F] [CDouble D F] {p : Platform D}

/-- No other client has its turn before the first. -/
theorem turn_first (b : Bridge F) (reports : Reports) :
    b.turn p reports firstSlot =
      ((b.told p reports).shared, (b.told p reports).clients firstSlot) := by
  unfold turn
  rw [show (List.finRange maxClients).take firstSlot = [] from List.take_zero]
  rfl

theorem iterate_first (b : Bridge F) (reports : Reports) (running : b.running = true)
    (kept : reports.lost = false) (used : (b.clients firstSlot).used = true) :
    let done := Stage.serve p (reports.revents firstSlot) (b.told p reports).shared
      ((b.told p reports).clients firstSlot)
    Heard done.client ((b.iterate p (.ready reports)).1.clients firstSlot) ∧
      eventsOf firstSlot (b.iterate p (.ready reports)).2 =
        eventsOf firstSlot (b.toldEvents p reports) ++ done.events := by
  have turn := iterate_turn (p := p) b reports firstSlot running kept
  have silent : b.turnEvents p reports firstSlot = b.toldEvents p reports := by
    unfold turnEvents
    rw [show (List.finRange maxClients).take firstSlot = [] from List.take_zero]
    exact List.append_nil _
  have serves : b.turns p reports firstSlot (b.told p reports).shared
      ((b.told p reports).clients firstSlot) = Stage.serve p (reports.revents firstSlot)
        (b.told p reports).shared ((b.told p reports).clients firstSlot) :=
    if_pos ⟨used, told_used b reports used⟩
  rw [turn_first, silent, serves] at turn
  exact turn

/-- A device event goes to slot after slot. -/
theorem told_device (b : Bridge F) (reports : Reports) (none_ : reports.accepted = none)
    (ev : SbEvent) (one : reports.device = [ev]) :
    b.told p reports =
        (b.each (fun _ => Stage.spnavEvent p ev) (List.finRange maxClients)).1 ∧
      b.toldEvents p reports =
        (b.each (fun _ => Stage.spnavEvent p ev) (List.finRange maxClients)).2 := by
  unfold told toldEvents acceptClient fanOut
  rw [none_, one]
  generalize List.finRange maxClients = slots
  exact ⟨rfl, rfl⟩

end Bridge

/-- The platform of one client: OpenSSL does everything at once, and reads what `reads` has for
the call. -/
def Platform.prompt (reads : Nat → List UInt8) : Platform ℚ where
  toOutside := .ofTexts handshakeTexts
  clock _ := 0
  monotone _ := le_rfl
  sslAccept _ := .done
  sslWrite _ len := if some_ : 0 < len then .wrote len some_ le_rfl else .failed
  sslRead n room :=
    if fits : reads n ≠ [] ∧ (reads n).length ≤ room then .got (reads n) fits.1 fits.2
    else .wantRead
  sslPending _ := false
  created _ := true

/-- The client sends its upgrade request with the messages of the handshake, and `input` in the
next iteration. -/
def session (input : List UInt8) : Platform ℚ := .prompt fun n =>
  if n = 4 then
    upgradeRequest onshape ++ handshakeTexts.flatMap fun text => (textFrame text.1).bytes
  else if n = 19 then input
  else []

def readable (device : List SbEvent) (lost : Bool) : Reports :=
  ⟨none, device, lost, fun i => if i = firstSlot then pollIn else 0⟩

theorem readable_first (device : List SbEvent) (lost : Bool) :
    (readable device lost).revents firstSlot = pollIn := by
  show (if firstSlot = firstSlot then pollIn else 0) = pollIn
  exact if_pos rfl

def connecting : List PollResult := [.ready ⟨some (5, true), [], false, fun _ => 0⟩]

/-- The gate of the controller is open, and no chain is under way. -/
def Pushable (c : Controller ℚ) : Prop :=
  c.hs = .ready ∧ c.knownClient = true ∧ c.subscribed = true ∧ c.focus = true ∧ c.chain = .none

instance (c : Controller ℚ) : Decidable (Pushable c) := inferInstanceAs (Decidable (_ ∧ _))

/-- A client behind its handshake, with answers to send. -/
def Opened (cl : Client ℚ) : Prop :=
  cl.used = true ∧ cl.phase = .ws ∧ cl.inbuf = [] ∧ cl.readWait = 0 ∧ cl.out.outbuf ≠ [] ∧
    cl.out.writeLen = 0 ∧ cl.out.writeWait = 0 ∧ cl.out.writeStarted = 0 ∧
    cl.out.failed = false ∧
    (cl.ctrl.any fun c => decide (Pushable c)) = true

instance (cl : Client ℚ) : Decidable (Opened cl) := inferInstanceAs (Decidable (_ ∧ _))

theorem transferred_session {input : List UInt8} (some_ : input ≠ [])
    (fits : input.length ≤ inputBufSize) {sh : Shared ℚ} {cl : Client ℚ} (calls : sh.calls = 15)
    (opened : Opened cl) :
    (transferred (session input) pollIn sh cl).client =
      (Stage.processClientBuffer (session input) { sh with calls := 20 }
        { cl with out := .zeroed, inbuf := input }).client := by
  obtain ⟨-, ws, inbuf, readWait, sending, writeLen, writeWait, -, alive, -⟩ := opened
  have flushed : cl.out.flushOutput 0 ((session input).sslWrite 16) =
      (.zeroed, some (.attempt cl.out.outbuf (.wrote cl.out.outbuf.length))) := by
    have goes : ¬ (cl.out.outbuf = [] ∨ cl.out.failed = true) := by simp [sending, alive]
    have pos : 0 < cl.out.outbuf.length := List.length_pos_iff.mpr sending
    have wrote : (session input).sslWrite 16 cl.out.outbuf.length =
        .wrote cl.out.outbuf.length pos le_rfl := dif_pos pos
    rw [Queue.flushOutput, if_neg goes, Queue.attemptLen, if_pos writeLen, wrote]
    simp [Queue.settle, Queue.zeroed, alive, WriteResult.verdict]
  have flush : Stage.write (session input) pollIn { sh with calls := sh.calls + 1 } cl =
      ⟨{ sh with calls := 18 }, { cl with out := .zeroed },
        [.output (.attempt cl.out.outbuf (.wrote cl.out.outbuf.length))]⟩ := by
    rw [Stage.write, if_pos ⟨sending, by rw [readWait]; exact zero_ne_pollOut, Or.inl writeWait⟩,
      Stage.flush, calls]
    dsimp only
    rw [show (session input).clock (15 + 1 + 1) = 0 from rfl, show (15 + 1 = 16) from rfl, flushed]
    rfl
  have read : (session input).sslRead 19 (inputBufSize - 0) = .got input some_ fits := by
    show (if fits : input ≠ [] ∧ input.length ≤ inputBufSize then
      ReadResult.got input fits.1 fits.2 else .wantRead) = _
    exact dif_pos ⟨some_, fits⟩
  unfold transferred Outcome.andThen
  rw [flush]
  dsimp only
  have event : pollIn &&& Stage.readEvent cl ≠ 0 := by
    rw [Stage.readEvent, if_neg (not_not.mpr readWait)]
    decide
  rw [Stage.read, if_pos ⟨rfl, by rw [ws]; decide, Or.inl event⟩]
  unfold maxReads Stage.readLoop
  dsimp only
  rw [if_neg (by rw [inbuf]; decide), inbuf]
  simp only [List.length_nil, read]
  unfold Outcome.andThen
  simp [session, Platform.prompt, readWait]

/-- The first client, when it has read and handled the input. -/
def Bridge.processed (b : Bridge ℚ) (input : List UInt8) : Client ℚ :=
  (Stage.processClientBuffer (session input) { b.shared with calls := 20 }
    { b.clients firstSlot with out := .zeroed, inbuf := input }).client

/-- The next iteration reads the input. -/
theorem session_reads {input : List UInt8} (some_ : input ≠ []) (fits : input.length ≤ inputBufSize)
    {b : Bridge ℚ} (running : b.running = true) (calls : b.shared.calls = 15)
    (opened : Opened (b.clients firstSlot)) (alive : (b.processed input).out.failed = false)
    (ws : (b.processed input).phase = .ws) :
    Heard (b.processed input)
      ((b.iterate (session input) (.ready (readable [] false))).1.clients firstSlot) := by
  obtain ⟨used, ws', -, -, -, -, -, started, alive', -⟩ := id opened
  have timely : ¬ Stage.expired pollIn ((session input).clock b.shared.calls)
      (b.clients firstSlot) := by
    rintro (errors | ⟨early, -⟩ | ⟨-, late⟩)
    · exact errors (by decide)
    · rw [ws'] at early
      rcases early with impossible | impossible <;> cases impossible
    · rw [show (session input).clock b.shared.calls = 0 from rfl, started] at late
      exact absurd late (by decide)
  have open_ : (b.clients firstSlot).phase ≠ .tls := by
    rw [ws']
    exact ClientPhase.noConfusion
  have client : (Stage.serve (session input) pollIn b.shared (b.clients firstSlot)).client =
      b.processed input := by
    rw [serve_eq timely alive' open_]
    show (Stage.finish _ (transferred _ _ _ _).client).client = _
    rw [transferred_session some_ fits calls opened]
    show (Stage.finish _ (b.processed input)).client = _
    rw [Stage.finish, if_neg (by simp [alive, ws])]
  have served : Heard (Stage.serve (session input) pollIn b.shared (b.clients firstSlot)).client
      ((b.iterate (session input) (.ready (readable [] false))).1.clients firstSlot) :=
    (Bridge.iterate_first (p := session input) b (readable [] false) running rfl used).1
  rw [client] at served
  exact served

/-- The run up to the end of the handshake. -/
def opening : List PollResult := connecting ++ [.ready (readable [] false)]

/-- The run up to the end of the iteration that reads the input. -/
def reading : List PollResult := opening ++ [.ready (readable [] false)]

def Ready (b : Bridge ℚ) : Prop :=
  b.running = true ∧ b.shared.calls = 15 ∧ Opened (b.clients firstSlot)

instance (b : Bridge ℚ) : Decidable (Ready b) := inferInstanceAs (Decidable (_ ∧ _))

theorem used_running (p : Platform ℚ) (polls : List PollResult)
    (used : (((mainLoop p (1 : ℚ) none).after polls).clients firstSlot).used = true) :
    ((mainLoop p (1 : ℚ) none).after polls).running = true := by
  by_contra stopped
  have unused := stopped_unused (p := p) 1 none polls (by simpa using stopped) firstSlot
  exact Bool.false_ne_true (unused.symm.trans used)

/-- Something is reported that the first client waits for, and no operation is tried. -/
def Unwoken (p : Platform ℚ) (b : Bridge ℚ) (reports : Reports) : Prop :=
  b.Reported p reports firstSlot ∧
    sslOps (eventsOf firstSlot (b.iterate p (.ready reports)).2) = []

theorem reported_of_reading {cl : Client ℚ} (ws : cl.phase = .ws) (writeFree : cl.out.writeLen = 0)
    (idle : cl.readWait = 0) : pollIn &&& pollMask cl ≠ 0 := by
  unfold pollMask
  rw [ws, writeFree, idle]
  by_cases sending : cl.out.outbuf = []
  · rw [if_neg (not_not.mpr sending)]
    exact (by decide : pollIn &&& pollIn ≠ 0)
  · rw [if_pos sending]
    exact (by decide : pollIn &&& (pollIn ||| pollOut) ≠ 0)

/-! ### Output without room -/

def ping : ClientFrame := ⟨true, wsOpPing, fun _ => 0, List.replicate 125 0⟩

theorem ping_size : ping.payload.length = 125 := List.length_replicate

theorem ping_valid : ping.Valid where
  opcode := by decide
  control _ := ⟨rfl, ping_size.le⟩
  size := by
    rw [ping_size]
    decide

def pings : Nat → List UInt8
  | 0 => []
  | k + 1 => ping.bytes ++ pings k

theorem pings_length (k : Nat) : (pings k).length = 131 * k := by
  induction k with
  | zero => rfl
  | succ k ih =>
      rw [pings, List.length_append, ih, ClientFrame.bytes_length, ping_size, ClientFrame.off,
        wsLength_length, ping_size]
      unfold wsHeaderLength
      split <;> omega

theorem pongFrame_length : (pongFrame ping.payload).length = 127 := by
  rw [pongFrame, List.length_cons, List.length_cons, ping_size]

theorem ping_turn (input : List UInt8) (sh : Shared ℚ) {cl : Client ℚ} (ws : cl.phase = .ws)
    (rest : List UInt8) :
    ∃ events sh', Stage.processTurn (session input) (sh, cl) (ping.bytes ++ rest) =
      some ((sh', { cl with out := (cl.out.queueOutput 0 (pongFrame ping.payload)).1 }), rest,
        events) := by
  refine ⟨[.output (cl.out.queueOutput 0 (pongFrame ping.payload)).2],
    { sh with calls := sh.calls + 1 }, ?_⟩
  unfold Stage.processTurn
  dsimp only
  rw [ws]
  dsimp only
  rw [ClientFrame.wsDecodeFrame_bytes ping_valid rest]
  dsimp only
  unfold Stage.handleFrame
  rw [if_neg (by decide), if_pos (show ping.opcode = wsOpPing from rfl)]
  dsimp only
  rw [Stage.answerPing, pong_eq ping_size.le, if_pos rfl, List.drop_left]
  rw [← ws]
  rfl

theorem pings_drained (input : List UInt8) (k fuel : Nat) (enough : k < fuel) (sh : Shared ℚ)
    (cl : Client ℚ) (ws : cl.phase = .ws) (alive : cl.out.failed = false)
    (started : cl.out.writeStarted = 0) (room : cl.out.outbuf.length + 127 * k ≤ bufSize * 2) :
    ∃ outbuf, outbuf.length = cl.out.outbuf.length + 127 * k ∧
      (drainFuel (Stage.processTurn (session input)) fuel (sh, cl) (pings k)).state.2 =
        { cl with out := { cl.out with outbuf } } ∧
      (drainFuel (Stage.processTurn (session input)) fuel (sh, cl) (pings k)).rest = [] := by
  induction k generalizing fuel sh cl with
  | zero =>
      have stuck : Stage.processTurn (session input) (sh, cl) [] = none := by
        unfold Stage.processTurn
        dsimp only
        rw [ws]
        rfl
      rw [pings, drainFuel_of_none stuck]
      exact ⟨cl.out.outbuf, rfl, rfl, rfl⟩
  | succ k ih =>
      obtain ⟨fuel, rfl⟩ : ∃ n, fuel = n + 1 := ⟨fuel - 1, by omega⟩
      have one : (pongFrame ping.payload).length = 127 := pongFrame_length
      have queued : (cl.out.queueOutput 0 (pongFrame ping.payload)).1 =
          { cl.out with outbuf := cl.out.outbuf ++ pongFrame ping.payload } := by
        have fits : ¬ (pongFrame ping.payload).length > bufSize * 2 - cl.out.outbuf.length := by omega
        rw [Queue.queueOutput, if_neg (by simp [alive]), if_neg fits]
        simp [started]
      obtain ⟨events, sh', turned⟩ := ping_turn input sh ws (pings k)
      rw [queued] at turned
      obtain ⟨outbuf, longer, state, rest⟩ := ih fuel (by omega) sh'
        { cl with out := { cl.out with outbuf := cl.out.outbuf ++ pongFrame ping.payload } }
        ws alive started (by rw [List.length_append]; omega)
      rw [pings, drainFuel, turned]
      refine ⟨outbuf, ?_, state, rest⟩
      rw [longer, List.length_append]
      omega

/-- What a controller asks for when the device is pushed. -/
def pushMessage : Message ℚ := .rpcCall
  { controllerUri := controllerUri, kind := selfRead, prop := .lit "model.extents", value := none,
    callId := wampGenId (Env.at 0).rnd 18 }

theorem push_sends {c : Controller ℚ} (pushable : Pushable c) :
    (controllerOnSpnavEvent (D := ℚ) (.at 0) c pushed).2 = [pushMessage] := by
  obtain ⟨hs, known, subscribed, focus, chain⟩ := pushable
  unfold controllerOnSpnavEvent
  rw [if_neg (by simp [hs, known, subscribed, focus])]
  dsimp only
  rw [if_neg (show ¬ (c.chain ≠ .none ∧ _) from fun both => both.1 chain),
    if_neg (not_not.mpr chain), if_pos (show pushed.type = .motion from rfl)]
  rfl

theorem push_frame : ∃ frame,
    (clientSend (.ofTexts handshakeTexts) pushMessage : Act ℚ) = .queue frame ∧
      8 < frame.length := by
  have size : (wsEncodeFrame bufSize wsOpText
      ((Outside.ofTexts handshakeTexts).lib.printUnformatted pushMessage.tree)).any
        (fun frame => 8 < frame.length) = true := by
    decide +kernel
  cases encoded : wsEncodeFrame bufSize wsOpText
      ((Outside.ofTexts handshakeTexts).lib.printUnformatted pushMessage.tree) with
  | none =>
      rw [encoded] at size
      cases size
  | some frame =>
      refine ⟨frame, ?_, by simpa [encoded] using size⟩
      rw [clientSend, encoded]

/-- A client whose output queue has no room for another request. -/
structure Brimful (cl : Client ℚ) : Prop where
  used : cl.used = true
  ws : cl.phase = .ws
  ctrl : ∃ c, cl.ctrl = some c ∧ Pushable c
  readWait : cl.readWait = 0
  writeLen : cl.out.writeLen = 0
  started : cl.out.writeStarted = 0
  alive : cl.out.failed = false
  full : bufSize * 2 < cl.out.outbuf.length + 9

/-- A client that has just failed. -/
structure Overflowed (cl : Client ℚ) : Prop where
  ws : cl.phase = .ws
  started : cl.out.writeStarted = 0
  failed : cl.out.failed = true

theorem Overflowed.assign {cl : Client ℚ} (value : ℚ) (overflowed : Overflowed cl) :
    Overflowed (cl.assign value) := by
  unfold Client.assign
  split
  · exact { overflowed with }
  · exact overflowed

theorem push_overflows (input : List UInt8) (sh : Shared ℚ) {cl : Client ℚ}
    (brimful : Brimful cl) :
    Overflowed (Stage.spnavEvent (session input) pushed sh cl).client ∧
      sslOps (Stage.spnavEvent (session input) pushed sh cl).events = [] := by
  obtain ⟨c, held, pushable⟩ := brimful.ctrl
  obtain ⟨frame, framed, long⟩ := push_frame
  have overflows : frame.length > bufSize * 2 - cl.out.outbuf.length := by
    have full := brimful.full
    omega
  unfold Stage.spnavEvent
  rw [held]
  dsimp only
  rw [if_pos brimful.used, show (session input).envs sh.calls = .at 0 from rfl,
    push_sends pushable, List.map_singleton,
    show (session input).toOutside = .ofTexts handshakeTexts from rfl, framed]
  unfold Stage.performAll Stage.perform Stage.queueOutput Queue.queueOutput
  dsimp only
  rw [if_neg (by simp [brimful.alive]), if_pos overflows]
  exact ⟨⟨brimful.ws, brimful.started, rfl⟩, rfl⟩

theorem Pushable.assign {c : Controller ℚ} (value : ℚ) (pushable : Pushable c) :
    Pushable (controllerSetSensitivity c value).1 := by
  unfold controllerSetSensitivity
  split <;> exact pushable

theorem Brimful.assign {cl : Client ℚ} (value : ℚ) (brimful : Brimful cl) :
    Brimful (cl.assign value) := by
  unfold Client.assign
  split
  · obtain ⟨c, held, pushable⟩ := brimful.ctrl
    refine { brimful with ctrl := ⟨_, ?_, pushable.assign value⟩ }
    show cl.ctrl.map _ = _
    rw [held]
    rfl
  · exact brimful

/-- The answers to 1032 pings fill the output queue up to eight bytes. -/
theorem processed_pings {input : List UInt8} (many : input = pings 1032) {b : Bridge ℚ}
    (opened : Opened (b.clients firstSlot)) : Brimful (b.processed input) := by
  obtain ⟨used, ws, -, readWait, -, -, -, -, -, held⟩ := opened
  obtain ⟨c, held, pushable⟩ := (Option.any_eq_true _ _).mp held
  have enough : 1032 < input.length + 2 := by
    rw [many, pings_length]
    omega
  obtain ⟨outbuf, size, state, rest⟩ := pings_drained input 1032 _ enough
    { b.shared with calls := 20 } { b.clients firstSlot with out := .zeroed, inbuf := input }
    ws rfl rfl
    (by show 0 + 127 * 1032 ≤ bufSize * 2; decide)
  rw [← many] at state rest
  have same : b.processed input =
      { b.clients firstSlot with out := { Queue.zeroed with outbuf }, inbuf := [] } := by
    unfold Bridge.processed Stage.processClientBuffer drain
    dsimp only
    rw [state, rest]
  rw [same]
  refine ⟨used, ws, ⟨c, held, of_decide_eq_true pushable⟩, readWait, rfl, rfl, rfl, ?_⟩
  show bufSize * 2 < outbuf.length + 9
  rw [size]
  exact (by decide : bufSize * 2 < 0 + 127 * 1032 + 9)

theorem unwoken_of_brimful {input : List UInt8} {b : Bridge ℚ} (running : b.running = true)
    (brimful : Brimful (b.clients firstSlot)) :
    Unwoken (session input) b (readable [pushed] false) := by
  obtain ⟨told, toldEvents⟩ := b.told_device (p := session input) (readable [pushed] false) rfl
    pushed rfl
  obtain ⟨sh, cl, before, after, events⟩ := Bridge.each_self b
    (fun _ => Stage.spnavEvent (session input) pushed) (List.nodup_finRange maxClients)
    (List.mem_finRange firstSlot)
  rw [← told] at after
  rw [← toldEvents] at events
  obtain ⟨overflowed, silent⟩ := push_overflows input sh
    (before.keeps (fun _ value brimful => brimful.assign value) brimful)
  have turn : Overflowed ((b.told (session input) (readable [pushed] false)).clients firstSlot) :=
    after.keeps (fun _ value overflowed => overflowed.assign value) overflowed
  generalize at_ : b.told (session input) (readable [pushed] false) = there at *
  have timely : ¬ Stage.expired pollIn ((session input).clock there.shared.calls)
      (there.clients firstSlot) := by
    rintro (errors | ⟨early, -⟩ | ⟨-, late⟩)
    · exact errors (by decide)
    · rw [turn.ws] at early
      rcases early with impossible | impossible <;> cases impossible
    · rw [show (session input).clock there.shared.calls = 0 from rfl, turn.started] at late
      exact absurd late (by decide)
  have serves := (b.iterate_first (p := session input) (readable [pushed] false) running rfl
    brimful.used).2
  have unserved := (serve_failed (p := session input) pollIn there.shared turn.failed).2
  refine ⟨⟨brimful.used, reported_of_reading brimful.ws brimful.writeLen brimful.readWait, ?_⟩,
    ?_⟩
  · rw [Bridge.turn_first, at_, readable_first]
    exact timely
  · rw [serves, sslOps_append, events, silent, readable_first, at_, List.nil_append]
    exact unserved

theorem unwoken_pings {input : List UInt8} (many : input = pings 1032)
    (ready : Ready ((mainLoop (session input) 1 none).after opening)) :
    Unwoken (session input) ((mainLoop (session input) 1 none).after reading)
      (readable [pushed] false) := by
  have brimful : Brimful
      (((mainLoop (session input) (1 : ℚ) none).after reading).clients firstSlot) := by
    rw [reading, Machine.after_snoc]
    generalize (mainLoop (session input) 1 none).after opening = b at ready ⊢
    have processed := processed_pings many ready.2.2
    have size : input.length = 131 * 1032 := by rw [many, pings_length]
    have some_ : input ≠ [] := List.ne_nil_of_length_pos (by rw [size]; decide)
    have reads := session_reads some_
      (by rw [size]; decide) ready.1 ready.2.1 ready.2.2 processed.alive processed.ws
    exact reads.keeps (fun _ value brimful => brimful.assign value) processed
  have running := used_running _ _ brimful.used
  generalize (mainLoop (session input) (1 : ℚ) none).after reading = b at brimful running ⊢
  exact unwoken_of_brimful running brimful

/-! ### Input without room -/

/-- A frame of one byte more than a message may have. -/
def longFrame : ClientFrame := ⟨true, wsOpBin, fun _ => 0, List.replicate (msgBufSize + 1) 0⟩

theorem longFrame_payload : longFrame.payload = List.replicate (msgBufSize + 1) 0 := rfl

theorem longFrame_size : longFrame.payload.length = msgBufSize + 1 := by
  rw [longFrame_payload, List.length_replicate]

theorem longFrame_valid : longFrame.Valid where
  opcode := by decide
  control isControl := absurd isControl (by decide)
  size := by
    rw [longFrame_size]
    unfold msgBufSize intMax
    omega

theorem longFrame_length : longFrame.bytes.length = inputBufSize + 1 := by
  rw [ClientFrame.bytes_length, ClientFrame.off, wsLength_length, longFrame_size]
  unfold wsHeaderLength inputBufSize msgBufSize
  norm_num

/-- All of it that there is room for. -/
def longInput : List UInt8 := longFrame.bytes.take inputBufSize

theorem longInput_length : longInput.length = inputBufSize := by
  rw [longInput, List.length_take, longFrame_length]
  exact Nat.min_eq_left (Nat.le_succ _)

theorem longInput_waits : wsDecodeFrame longInput = .incomplete := by
  refine ClientFrame.wsDecodeFrame_front longFrame_valid (List.take_prefix _ _) fun whole => ?_
  have size := congrArg List.length whole
  rw [longFrame_length] at size
  exact Nat.ne_of_lt (Nat.lt_succ_self _) (longInput_length.symm.trans size)

/-- A client with nothing to send whose input is full. -/
structure Stuffed (cl : Client ℚ) : Prop where
  used : cl.used = true
  ws : cl.phase = .ws
  readWait : cl.readWait = 0
  out : cl.out = .zeroed
  full : cl.inbuf.length = inputBufSize

theorem Stuffed.assign {cl : Client ℚ} (value : ℚ) (stuffed : Stuffed cl) :
    Stuffed (cl.assign value) := by
  unfold Client.assign
  split
  · exact { stuffed with }
  · exact stuffed

/-- Input that holds no whole frame stays where it is. -/
theorem processed_waits {input : List UInt8} (waits : wsDecodeFrame input = .incomplete)
    (full : input.length = inputBufSize) {b : Bridge ℚ} (opened : Opened (b.clients firstSlot)) :
    Stuffed (b.processed input) := by
  obtain ⟨used, ws, -, readWait, -⟩ := opened
  have stuck : ∀ sh (cl : Client ℚ), cl.phase = .ws →
      Stage.processTurn (session input) (sh, cl) input = none := by
    intro sh cl ws
    unfold Stage.processTurn
    dsimp only
    rw [ws]
    dsimp only
    rw [waits]
  have same : b.processed input =
      { b.clients firstSlot with out := .zeroed, inbuf := input } := by
    have kept := drain_of_none (stuck { b.shared with calls := 20 }
      { b.clients firstSlot with out := .zeroed, inbuf := input } ws)
    unfold Bridge.processed Stage.processClientBuffer
    dsimp only
    rw [kept]
  rw [same]
  exact ⟨used, ws, readWait, rfl, full⟩

theorem unwoken_of_stuffed {input : List UInt8} {b : Bridge ℚ} (running : b.running = true)
    (stuffed : Stuffed (b.clients firstSlot)) :
    Unwoken (session input) b (readable [] false) := by
  obtain ⟨used, ws, readWait, out, full⟩ := id stuffed
  have timely : ¬ Stage.expired pollIn ((session input).clock b.shared.calls)
      (b.clients firstSlot) := by
    rintro (errors | ⟨early, -⟩ | ⟨sending, -⟩)
    · exact errors (by decide)
    · rw [ws] at early
      rcases early with impossible | impossible <;> cases impossible
    · rw [out] at sending
      exact sending rfl
  refine ⟨⟨used, reported_of_reading ws (by rw [out]; rfl) readWait, timely⟩, ?_⟩
  have whole : eventsOf firstSlot (b.iterate (session input) (.ready (readable [] false))).2 =
      (Stage.serve (session input) pollIn b.shared (b.clients firstSlot)).events :=
    (Bridge.iterate_first (p := session input) b (readable [] false) running rfl used).2
  have reads := @transferred_eq _ _ _ _ (session input) pollIn b.shared (b.clients firstSlot)
    (Or.inl (by rw [out]; rfl)) (by rw [out]; rfl) (by rw [ws]; decide)
    (by rw [Stage.readEvent, readWait]; decide)
  rw [whole, serve_ops timely (by rw [out]; rfl) (by rw [ws]; decide), reads,
    show maxReads = 15 + 1 from rfl, readLoop_full _ _ full]
  rfl

theorem unwoken_waiting {input : List UInt8} (waits : wsDecodeFrame input = .incomplete)
    (full : input.length = inputBufSize)
    (ready : Ready ((mainLoop (session input) 1 none).after opening)) :
    Unwoken (session input) ((mainLoop (session input) 1 none).after reading)
      (readable [] false) := by
  have stuffed : Stuffed
      (((mainLoop (session input) (1 : ℚ) none).after reading).clients firstSlot) := by
    rw [reading, Machine.after_snoc]
    generalize (mainLoop (session input) 1 none).after opening = b at ready ⊢
    have processed := processed_waits waits full ready.2.2
    have some_ : input ≠ [] := List.ne_nil_of_length_pos (by rw [full]; decide)
    have reads := session_reads some_
      full.le ready.1 ready.2.1 ready.2.2 (by rw [processed.out]; rfl) processed.ws
    exact reads.keeps (fun _ value stuffed => stuffed.assign value) processed
  have running := used_running _ _ stuffed.used
  generalize (mainLoop (session input) (1 : ℚ) none).after reading = b at stuffed running ⊢
  exact unwoken_of_stuffed running stuffed

/-- **Both of the reasons happen**: a push of the device finds the output queue full, and a
frame does not fit the input. -/
theorem unwoken_sessions :
    Unwoken (session (pings 1032)) ((mainLoop (session (pings 1032)) 1 none).after reading)
      (readable [pushed] false) ∧
    Unwoken (session longInput) ((mainLoop (session longInput) 1 none).after reading)
      (readable [] false) := by
  constructor
  · exact unwoken_pings rfl (by decide +kernel)
  · exact unwoken_waiting longInput_waits longInput_length (by decide +kernel)

end SpnavBridge.Daemon
