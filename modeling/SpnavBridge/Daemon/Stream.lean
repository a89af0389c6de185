/-
# Daemon.Stream -- what the main loop sends is what was queued, and retries are kept apart

On every connection the main loop calls `queue_output` and `flush_output` in some order, so
the queue is in one of the states that `intact_after` speaks of.  OpenSSL asks for more: an
operation that wanted to wait is the next one to be tried again, the write with the same
bytes.  `write_len` keeps reads away from a write that is owed, and `read_wait` keeps writes
away from a read that wants to write (`Retries`).
-/
import SpnavBridge.Daemon.History

namespace SpnavBridge.Daemon

open SpnavBridge.Theory SpnavBridge.Wire SpnavBridge.Kernel

set_option autoImplicit false
set_option linter.unusedSectionVars false

variable {D F : Type} [CFloat F] [CDouble D F]

/-! ## Operations on the connection -/

/-- An operation of OpenSSL, with what came of it. -/
inductive SslOp where
  | accept (verdict : AcceptVerdict)
  | write (data : List UInt8) (verdict : WriteVerdict)
  | read (verdict : ReadVerdict)
  deriving DecidableEq

def Event.ssl? : Event F → Option SslOp
  | .sslAccept verdict => some (.accept verdict)
  | .output (.attempt data verdict) => some (.write data verdict)
  | .sslRead verdict => some (.read verdict)
  | _ => none

def Event.output? : Event F → Option QueueEvent
  | .output event => some event
  | _ => none

/-- What happened to the output queue. -/
def outputs (log : List (Event F)) : List QueueEvent := log.filterMap Event.output?

/-- The last operation. -/
def lastSsl (log : List (Event F)) : Option SslOp := (log.filterMap Event.ssl?).getLast?

@[simp] theorem outputs_append (log more : List (Event F)) :
    outputs (log ++ more) = outputs log ++ outputs more := List.filterMap_append

theorem lastSsl_snoc (log : List (Event F)) (event : Event F) :
    lastSsl (log ++ [event]) = event.ssl?.or (lastSsl log) := by
  unfold lastSsl
  rw [List.filterMap_append, List.getLast?_append]
  cases op : event.ssl? <;> simp [op]

/-- A write that wanted to wait is followed by a write of the same bytes, and a read that
wanted to write by a read. -/
def Retries (past : List (Event F)) (event : Event F) : Prop :=
  ∀ op, event.ssl? = some op →
    (∀ data verdict, lastSsl past = some (.write data verdict) → verdict.wants = true →
      ∃ verdict', op = .write data verdict') ∧
    (lastSsl past = some (.read .wantWrite) → ∃ verdict', op = .read verdict')

/-- A write that is the last operation and has to be repeated is what the queue owes. -/
theorem owed_of_lastSsl {log : List (Event F)} {data : List UInt8} {verdict : WriteVerdict}
    (last : lastSsl log = some (.write data verdict)) (wants : verdict.wants = true) :
    owed (outputs log) = some data := by
  induction log using List.reverseRecOn with
  | nil => cases last
  | append_singleton log event ih =>
      rw [lastSsl_snoc] at last
      rw [outputs_append]
      cases event with
      | output event =>
          show owed (outputs log ++ [event]) = some data
          cases event with
          | attempt data' verdict' =>
              obtain ⟨rfl, rfl⟩ : data' = data ∧ verdict' = verdict := by
                simpa [Event.ssl?] using last
              rw [owed_snoc]
              simp [wants]
          | queued data' => rw [owed_snoc]; exact ih last
          | refused data' => rw [owed_snoc]; exact ih last
      | sslAccept verdict' => simp [Event.ssl?] at last
      | sslRead verdict' => simp [Event.ssl?] at last
      | _ =>
          rw [show outputs [_] = [] from rfl, List.append_nil]
          exact ih last

/-! ## The invariant -/

/-- The calls on the queue of a connection are some interleaving of `queue_output` and
`flush_output`. -/
def Interleaves (log : List (Event F)) (q : Queue) : Prop :=
  ∃ ops, queueEvents ops = outputs log ∧ queueMachine.after ops = q

/-- A connection in the middle of its life. -/
structure Streaming (log : List (Event F)) (cl : Client F) : Prop where
  queue : Interleaves log cl.out
  retries : Along Retries log
  reading : lastSsl log = some (.read .wantWrite) → cl.readWait = pollOut
  shaking : cl.phase = .tls → ∀ op, lastSsl log = some op → ∃ verdict, op = .accept verdict

theorem Interleaves.intact {log : List (Event F)} {q : Queue} (queue : Interleaves log q) :
    Intact (outputs log) q := by
  obtain ⟨ops, same, rfl⟩ := queue
  rw [← same]
  exact intact_after ops

theorem Interleaves.step {log events : List (Event F)} {q : Queue} (queue : Interleaves log q)
    (op : QueueOp) (does : outputs events = (q.step op).2.toList) :
    Interleaves (log ++ events) (q.step op).1 := by
  obtain ⟨ops, same, rfl⟩ := queue
  refine ⟨ops ++ [op], ?_, Machine.after_snoc ..⟩
  rw [queueEvents_snoc, same, outputs_append, does]

/-- Events that are no calls on the queue. -/
theorem Interleaves.silent {log events : List (Event F)} {q : Queue} (queue : Interleaves log q)
    (silent : outputs events = []) : Interleaves (log ++ events) q := by
  obtain ⟨ops, same, at_⟩ := queue
  exact ⟨ops, by rw [same, outputs_append, silent, List.append_nil], at_⟩

theorem streaming_opened (fd : Nat) (now : Int) :
    Streaming [] (Client.closed.opened fd now : Client F) where
  queue := ⟨[], rfl, rfl⟩
  retries := along_nil
  reading := by
    intro last
    cases last
  shaking := by
    intro _ op last
    cases last

variable {p : Platform D}

/-- Events that are no operations leave the retries alone. -/
theorem Streaming.quiet {log : List (Event F)} {cl cl' : Client F} {event : Event F}
    (streaming : Streaming log cl) (quiet : event.ssl? = none)
    (queue : Interleaves (log ++ [event]) cl'.out) (readWait : cl'.readWait = cl.readWait)
    (phase : cl'.phase = .tls → cl.phase = .tls) : Streaming (log ++ [event]) cl' where
  queue := queue
  retries := by
    refine (along_snoc _ _).mpr ⟨streaming.retries, fun op is => ?_⟩
    rw [quiet] at is
    cases is
  reading := by
    rw [lastSsl_snoc, quiet, Option.none_or, readWait]
    exact streaming.reading
  shaking := by
    intro tls
    rw [lastSsl_snoc, quiet, Option.none_or]
    exact streaming.shaking (phase tls)

/-- A step without events. -/
theorem Streaming.unseen {log : List (Event F)} {cl cl' : Client F}
    (streaming : Streaming log cl) (queue : Interleaves log cl'.out)
    (readWait : cl'.readWait = cl.readWait) (phase : cl'.phase = .tls → cl.phase = .tls) :
    Streaming log cl' where
  queue := queue
  retries := streaming.retries
  reading := by
    rw [readWait]
    exact streaming.reading
  shaking := fun tls => streaming.shaking (phase tls)

theorem interleaves_fail {log : List (Event F)} {cl : Client F}
    (queue : Interleaves log cl.out) : Interleaves log cl.fail.out := by
  have failed : Interleaves (log ++ []) cl.fail.out := queue.step .fail rfl
  rw [List.append_nil] at failed
  exact failed

theorem Streaming.work {log events : List (Event F)} {s s' : Place F}
    (streaming : Streaming log s.2) (work : Work p s events s') :
    Streaming (log ++ events) s'.2 := by
  have readWait := work.sameIo.readWait
  cases work with
  | queues data active =>
      rename_i sh cl
      refine streaming.quiet ?_ ?_ rfl id
      · unfold Queue.queueOutput
        split
        · rfl
        · split <;> rfl
      · exact streaming.queue.step (.queue (p.clock sh.calls) data) rfl
  | notes act plain => exact streaming.quiet rfl (streaming.queue.silent rfl) rfl id
  | assigns value asked =>
      rename_i sh cl
      have same : (cl.assign value).out = cl.out ∧ (cl.assign value).phase = cl.phase := by
        unfold Client.assign
        split <;> exact ⟨rfl, rfl⟩
      refine streaming.quiet rfl ?_ readWait (fun tls => same.2.symm.trans tls)
      rw [same.1]
      exact streaming.queue.silent rfl
  | upgrades created http =>
      exact streaming.quiet rfl (streaming.queue.silent rfl) rfl ClientPhase.noConfusion
  | closes open_ =>
      exact streaming.quiet rfl (streaming.queue.silent rfl) rfl ClientPhase.noConfusion
  | delivers ctrl e ws held => exact streaming.quiet rfl (streaming.queue.silent rfl) rfl id
  | fails =>
      rw [List.append_nil]
      exact streaming.unseen (interleaves_fail streaming.queue) rfl id
  | _ =>
      rw [List.append_nil]
      exact streaming.unseen streaming.queue rfl id

/-- An operation that is due: nothing has to be repeated before it. -/
theorem Streaming.retries_snoc {log : List (Event F)} {cl : Client F} {event : Event F}
    {op : SslOp} (streaming : Streaming log cl) (is : event.ssl? = some op)
    (writes : ∀ data, owed (outputs log) = some data → ∃ verdict, op = .write data verdict)
    (reads : cl.readWait = pollOut → ∃ verdict, op = .read verdict) :
    Along Retries (log ++ [event]) := by
  refine (along_snoc _ _).mpr ⟨streaming.retries, fun op' is' => ?_⟩
  obtain rfl : op = op' := Option.some.inj (is.symm.trans is')
  exact ⟨fun data verdict last wants => writes data (owed_of_lastSsl last wants),
    fun last => reads (streaming.reading last)⟩

/-- A read, of a client that owes no write. -/
theorem Streaming.read {log : List (Event F)} {cl cl' : Client F} {verdict : ReadVerdict}
    (streaming : Streaming log cl) (open_ : cl.phase ≠ .tls) (writeFree : cl.out.writeLen = 0)
    (queue : Interleaves log cl'.out)
    (waits : verdict = .wantWrite → cl'.readWait = pollOut) (phase : cl'.phase = cl.phase) :
    Streaming (log ++ [.sslRead verdict]) cl' where
  queue := queue.silent rfl
  retries := by
    refine streaming.retries_snoc rfl (fun data owes => ?_) fun _ => ⟨verdict, rfl⟩
    exact absurd writeFree (streaming.queue.intact.owes data owes).2.2
  reading := by
    rw [lastSsl_snoc]
    intro last
    apply waits
    simpa [Event.ssl?] using last
  shaking := by
    rw [phase]
    exact fun tls => absurd tls open_

/-- A step of the handshake. -/
theorem Streaming.accept {log : List (Event F)} {cl cl' : Client F} {verdict : AcceptVerdict}
    (streaming : Streaming log cl) (tls : cl.phase = .tls) (queue : Interleaves log cl'.out) :
    Streaming (log ++ [.sslAccept verdict]) cl' where
  queue := queue.silent rfl
  retries := by
    refine (along_snoc _ _).mpr ⟨streaming.retries, fun op is => ⟨?_, ?_⟩⟩
    · intro data verdict' last
      obtain ⟨_, impossible⟩ := streaming.shaking tls _ last
      cases impossible
    · intro last
      obtain ⟨_, impossible⟩ := streaming.shaking tls _ last
      cases impossible
  reading := by
    rw [lastSsl_snoc]
    intro last
    simp [Event.ssl?] at last
  shaking := by
    intro _ op last
    rw [lastSsl_snoc] at last
    exact ⟨verdict, by simpa [Event.ssl?, eq_comm] using last⟩

theorem Streaming.flush {log : List (Event F)} {cl : Client F} (streaming : Streaming log cl)
    (now : Int) (ssl : (len : Nat) → WriteResult len) (open_ : cl.phase ≠ .tls)
    (readFree : cl.readWait ≠ pollOut) :
    Streaming (log ++ ((cl.out.flushOutput now ssl).2.toList.map .output))
      { cl with out := (cl.out.flushOutput now ssl).1 } := by
  have does : outputs ((cl.out.flushOutput now ssl).2.toList.map (.output : _ → Event F)) =
      (cl.out.flushOutput now ssl).2.toList := by
    cases (cl.out.flushOutput now ssl).2 <;> rfl
  have queue := streaming.queue.step (.flush now ssl) does
  have attempts : ∀ data verdict, (cl.out.flushOutput now ssl).2 = some (.attempt data verdict) →
      ∀ owed', owed (outputs log) = some owed' → owed' = data := by
    intro data verdict attempt owed' owes
    have repeats := (queue.intact.repeats)
    rw [outputs_append, attempt] at repeats
    exact (((along_snoc (outputs log) (.attempt data verdict)).mp repeats).2 owed' owes).symm
  unfold Queue.step at queue
  cases event : (cl.out.flushOutput now ssl).2 with
  | none =>
      rw [event] at queue
      simp only [Option.toList_none, List.map_nil, List.append_nil] at queue ⊢
      exact streaming.unseen queue rfl id
  | some event' =>
      obtain ⟨data, verdict, rfl⟩ : ∃ data verdict, event' = .attempt data verdict := by
        unfold Queue.flushOutput at event
        split at event
        · cases event
        · injection event with event
          exact ⟨_, _, event.symm⟩
      rw [event] at queue
      simp only [Option.toList_some, List.map_cons, List.map_nil] at queue ⊢
      exact
        { queue := queue
          retries := by
            refine streaming.retries_snoc rfl (fun owed' owes => ?_)
              fun waits => absurd waits readFree
            exact ⟨verdict, by rw [attempts data verdict event owed' owes]⟩
          reading := by
            rw [lastSsl_snoc]
            intro last
            simp [Event.ssl?] at last
          shaking := fun tls => absurd tls open_ }

theorem Streaming.step {log events : List (Event F)} {s s' : Place F}
    (streaming : Streaming log s.2) (step : Step p s events s') :
    Streaming (log ++ events) s'.2 := by
  cases step with
  | works work => exact streaming.work work
  | checks now => exact streaming.quiet rfl (streaming.queue.silent rfl) rfl id
  | consumes rest fits open_ =>
      rw [List.append_nil]
      exact streaming.unseen streaming.queue rfl id
  | accepts tls =>
      rename_i sh cl
      have accepted : Streaming (log ++ [.sslAccept .done]) cl :=
        streaming.accept tls streaming.queue
      rw [show ([.sslAccept .done, .phase .http] : List (Event F)) =
        [.sslAccept .done] ++ [.phase .http] from rfl, ← List.append_assoc]
      exact accepted.quiet rfl (accepted.queue.silent rfl) rfl ClientPhase.noConfusion
  | acceptWants wait verdict tls either => exact streaming.accept tls streaming.queue
  | acceptFails tls => exact streaming.accept tls (interleaves_fail streaming.queue)
  | flushes ssl open_ readFree => exact streaming.flush _ ssl open_ readFree
  | reads chunk open_ writeFree fits =>
      exact streaming.read (ne_tls_of_open open_) writeFree streaming.queue (by simp) rfl
  | readWants wait verdict open_ writeFree room which =>
      refine streaming.read (ne_tls_of_open open_) writeFree streaming.queue ?_ rfl
      rintro rfl
      rcases which with ⟨impossible, -⟩ | ⟨-, waits⟩
      · cases impossible
      · exact waits
  | readFails open_ writeFree =>
      exact streaming.read (ne_tls_of_open open_) writeFree (interleaves_fail streaming.queue)
        (by simp) rfl

theorem Streaming.assign {log : List (Event F)} {cl : Client F} (value : F)
    (streaming : Streaming log cl) : Streaming log (cl.assign value) := by
  have same : (cl.assign value).out = cl.out ∧ (cl.assign value).phase = cl.phase := by
    unfold Client.assign
    split <;> exact ⟨rfl, rfl⟩
  refine streaming.unseen ?_ (sameIo_assign value cl).readWait (fun tls => same.2.symm.trans tls)
  rw [same.1]
  exact streaming.queue

/-! ## Stream integrity -/

/-- **Stream integrity.**  Every interleaving of the calls on a queue keeps it intact; in
every run of the main loop, every connection is such an interleaving, and an operation that
wanted to wait is the next one on its connection. -/
theorem stream_integrity (p : Platform D) (sensitivity : F) (saved : Option CStr) :
    (∀ ops, Intact (queueEvents ops) (queueMachine.after ops)) ∧
      ∀ (polls : List PollResult) (i : Fin maxClients),
        let log := history (slotEvents p sensitivity saved polls i)
        let cl := ((mainLoop p sensitivity saved).after polls).clients i
        Along Retries log ∧
          (cl.used = true → Interleaves log cl.out ∧ Intact (outputs log) cl.out) := by
  refine ⟨intact_after, fun polls i => ?_⟩
  obtain ⟨live, free⟩ := connection_invariant p (I := Streaming) streaming_opened
    (fun _ _ _ _ step streaming => streaming.step step)
    (fun _ _ value streaming => streaming.assign value) sensitivity saved polls i
  refine ⟨?_, fun used => ⟨(live used).queue, (live used).queue.intact⟩⟩
  cases used : (((mainLoop p sensitivity saved).after polls).clients i).used with
  | true => exact (live used).retries
  | false =>
      rcases (free used).2 with none_ | ⟨front, cl, whole, streaming⟩
      · rw [none_]
        exact along_nil
      · rw [whole]
        refine (along_snoc _ _).mpr ⟨streaming.retries, fun op is => ?_⟩
        cases is

end SpnavBridge.Daemon
