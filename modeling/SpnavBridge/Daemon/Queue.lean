/-
# Daemon.Queue -- the output side of `struct client`, and the retries of `SSL_write`

`flush_output` hands `outbuf[0 .. write_len)` to `SSL_write`, and OpenSSL asks for the same
bytes again after it wanted to read or write first.  `write_len` keeps the length of the
attempt until then, while `queue_output` goes on appending behind it.

A queue is a machine over calls of the two in any order.  `intact_after` says of every run
what was accepted by `SSL_write`, what is still in `outbuf` and what was queued, and that
an attempt that has to be repeated is repeated as it was.
-/
import SpnavBridge.Daemon.Output
import SpnavBridge.Theory.Machine

namespace SpnavBridge.Daemon

open SpnavBridge.Theory SpnavBridge.Wire SpnavBridge.Kernel

set_option autoImplicit false

/-! ## `poll` events -/

def pollIn : UInt16 := 0x001
def pollOut : UInt16 := 0x004
def pollErr : UInt16 := 0x008
def pollHup : UInt16 := 0x010
def pollNval : UInt16 := 0x020

/-! ## Data -/

/-- What `SSL_write` of `len` bytes comes to; any other error is `failed`. -/
inductive WriteResult (len : Nat) where
  | wrote (n : Nat) (some_ : 0 < n) (le : n ≤ len)
  | wantRead
  | wantWrite
  | failed

/-- The same without the length. -/
inductive WriteVerdict where
  | wrote (n : Nat)
  | wantRead
  | wantWrite
  | failed
  deriving DecidableEq

def WriteResult.verdict {len : Nat} : WriteResult len → WriteVerdict
  | .wrote n _ _ => .wrote n
  | .wantRead => .wantRead
  | .wantWrite => .wantWrite
  | .failed => .failed

/-- `SSL_write` asked for a retry. -/
def WriteVerdict.wants : WriteVerdict → Bool
  | .wantRead => true
  | .wantWrite => true
  | _ => false

/-- The fields of `struct client` that `queue_output` and `flush_output` keep, with
`outbuf[0 .. outlen)` as a list. -/
structure Queue where
  outbuf : List UInt8
  writeLen : Nat
  writeWait : UInt16
  writeStarted : Int
  failed : Bool
  deriving DecidableEq

/-- What a call does that can be seen from outside. -/
inductive QueueEvent where
  | queued (data : List UInt8)
  | refused (data : List UInt8)
  /-- the bytes `SSL_write` was given, from the start of `outbuf`, and what came of it -/
  | attempt (data : List UInt8) (verdict : WriteVerdict)
  deriving DecidableEq

namespace Queue

def zeroed : Queue := ⟨[], 0, 0, 0, false⟩

/-! ## The two functions -/

/-- `queue_output` at the time `now`. -/
def queueOutput (q : Queue) (now : Int) (data : List UInt8) : Queue × QueueEvent :=
  if q.failed then (q, .refused data)
  else if data.length > bufSize * 2 - q.outbuf.length then ({ q with failed := true }, .refused data)
  else
    ({ q with
        writeStarted := if q.outbuf = [] then now else q.writeStarted
        outbuf := q.outbuf ++ data }, .queued data)

/-- The length that `flush_output` attempts. -/
def attemptLen (q : Queue) : Nat := if q.writeLen = 0 then q.outbuf.length else q.writeLen

theorem attemptLen_le {q : Queue} (attempted : q.writeLen ≤ q.outbuf.length) :
    q.attemptLen ≤ q.outbuf.length := by
  unfold attemptLen
  split
  · exact le_refl _
  · exact attempted

theorem attemptLen_pos {q : Queue} (some_ : q.outbuf ≠ []) : 0 < q.attemptLen := by
  unfold attemptLen
  split
  · exact List.length_pos_iff.mpr some_
  · rename_i owed
    exact Nat.pos_of_ne_zero owed

/-- What an attempt of `len` bytes leaves behind. -/
def settle (q : Queue) (now : Int) {len : Nat} : WriteResult len → Queue
  | .wrote n _ _ =>
      { q with outbuf := q.outbuf.drop n, writeLen := 0, writeWait := 0, writeStarted := now }
  | .wantRead => { q with writeLen := len, writeWait := pollIn }
  | .wantWrite => { q with writeLen := len, writeWait := pollOut }
  | .failed => { q with writeLen := len, failed := true }

theorem queueOutput_fits {q : Queue} (fits : q.outbuf.length ≤ bufSize * 2) (now : Int)
    (data : List UInt8) : (q.queueOutput now data).1.outbuf.length ≤ bufSize * 2 := by
  unfold queueOutput
  split
  · exact fits
  · split
    · exact fits
    · show (q.outbuf ++ data).length ≤ bufSize * 2
      rw [List.length_append]
      omega

/-- `flush_output` at the time `now`. -/
def flushOutput (q : Queue) (now : Int) (ssl : (len : Nat) → WriteResult len) :
    Queue × Option QueueEvent :=
  if q.outbuf = [] ∨ q.failed then (q, none)
  else
    let result := ssl q.attemptLen
    (q.settle now result, some (.attempt (q.outbuf.take q.attemptLen) result.verdict))

theorem flushOutput_fits {q : Queue} (fits : q.outbuf.length ≤ bufSize * 2) (now : Int)
    (ssl : (len : Nat) → WriteResult len) :
    (q.flushOutput now ssl).1.outbuf.length ≤ bufSize * 2 := by
  unfold flushOutput
  split
  · exact fits
  · cases ssl q.attemptLen with
    | wrote n some_ le => exact (List.drop_sublist n q.outbuf).length_le.trans fits
    | _ => exact fits

end Queue

/-! ## Interleavings -/

/-- A call on the queue.  The rest of the program can fail the connection at any time. -/
inductive QueueOp where
  | queue (now : Int) (data : List UInt8)
  | flush (now : Int) (ssl : (len : Nat) → WriteResult len)
  | fail

def Queue.step (q : Queue) : QueueOp → Queue × Option QueueEvent
  | .queue now data => ((q.queueOutput now data).1, some (q.queueOutput now data).2)
  | .flush now ssl => q.flushOutput now ssl
  | .fail => ({ q with failed := true }, none)

/-- The queue of a connection, from when it is accepted on. -/
def queueMachine : Machine Queue QueueOp (Option QueueEvent) := ⟨.zeroed, Queue.step⟩

/-- What happened along a run. -/
def queueEvents (ops : List QueueOp) : List QueueEvent := (queueMachine.answers ops).filterMap id

@[simp] theorem queueEvents_snoc (ops : List QueueOp) (op : QueueOp) :
    queueEvents (ops ++ [op]) =
      queueEvents ops ++ ((queueMachine.after ops).step op).2.toList := by
  rw [queueEvents, Machine.answers_snoc, List.filterMap_append]
  show _ ++ List.filterMap id [((queueMachine.after ops).step op).2] = _
  cases ((queueMachine.after ops).step op).2 <;> rfl

/-! ## Reading a history -/

/-- The bytes `SSL_write` accepted. -/
def acceptedBytes (past : List QueueEvent) : List UInt8 :=
  past.flatMap fun event => match event with
    | .attempt data (.wrote n) => data.take n
    | _ => []

/-- The bytes that were queued. -/
def queuedBytes (past : List QueueEvent) : List UInt8 :=
  past.flatMap fun event => match event with
    | .queued data => data
    | _ => []

/-- The attempt that waits for its retry. -/
def owed (past : List QueueEvent) : Option (List UInt8) :=
  past.foldl (fun owes event => match event with
    | .attempt data verdict => if verdict.wants then some data else none
    | _ => owes) none

/-- An attempt that follows one that has to be repeated repeats it. -/
def Repeats (past : List QueueEvent) : QueueEvent → Prop
  | .attempt data _ => ∀ data', owed past = some data' → data = data'
  | _ => True

@[simp] theorem acceptedBytes_snoc (past : List QueueEvent) (event : QueueEvent) :
    acceptedBytes (past ++ [event]) = acceptedBytes past ++ match event with
      | .attempt data (.wrote n) => data.take n
      | _ => [] := by
  rw [acceptedBytes, List.flatMap_append, List.flatMap_singleton]
  rfl

@[simp] theorem queuedBytes_snoc (past : List QueueEvent) (event : QueueEvent) :
    queuedBytes (past ++ [event]) = queuedBytes past ++ match event with
      | .queued data => data
      | _ => [] := by
  rw [queuedBytes, List.flatMap_append, List.flatMap_singleton]
  rfl

@[simp] theorem owed_snoc (past : List QueueEvent) (event : QueueEvent) :
    owed (past ++ [event]) = match event with
      | .attempt data verdict => if verdict.wants then some data else none
      | _ => owed past := by
  rw [owed, List.foldl_append]
  rfl

/-! ## Integrity -/

/-- Nothing is lost, duplicated or reordered; the lengths are in bounds; and an attempt
that has to be repeated is still there and is repeated as it was. -/
structure Intact (past : List QueueEvent) (q : Queue) : Prop where
  stream : acceptedBytes past ++ q.outbuf = queuedBytes past
  attempted : q.writeLen ≤ q.outbuf.length
  room : q.outbuf.length ≤ bufSize * 2
  owes : ∀ data, owed past = some data →
    q.writeLen = data.length ∧ q.outbuf.take q.writeLen = data ∧ q.writeLen ≠ 0
  free : owed past = none → q.writeLen = 0 ∨ q.failed = true
  repeats : Along Repeats past

theorem intact_zeroed : Intact [] .zeroed where
  stream := rfl
  attempted := Nat.zero_le _
  room := Nat.zero_le _
  owes := by
    intro data owes
    cases owes
  free := fun _ => Or.inl rfl
  repeats := along_nil

section Steps

variable {past : List QueueEvent} {q : Queue}

/-- Data that is queued goes behind whatever has to be repeated. -/
theorem Intact.queueOutput (intact : Intact past q) (now : Int) (data : List UInt8) :
    Intact (past ++ [(q.queueOutput now data).2]) (q.queueOutput now data).1 := by
  by_cases failed : q.failed = true
  · rw [Queue.queueOutput, if_pos failed]
    exact
      { intact with
        stream := by simpa using intact.stream
        owes := by simpa using intact.owes
        free := by simpa using intact.free
        repeats := (along_snoc _ _).mpr ⟨intact.repeats, trivial⟩ }
  by_cases full : data.length > bufSize * 2 - q.outbuf.length
  · rw [Queue.queueOutput, if_neg failed, if_pos full]
    exact
      { intact with
        stream := by simpa using intact.stream
        owes := by simpa using intact.owes
        free := fun _ => Or.inr rfl
        repeats := (along_snoc _ _).mpr ⟨intact.repeats, trivial⟩ }
  · rw [Queue.queueOutput, if_neg failed, if_neg full]
    have attempted := intact.attempted
    have room := intact.room
    refine
      { stream := ?_
        attempted := ?_
        room := ?_
        owes := ?_
        free := by simpa using intact.free
        repeats := (along_snoc _ _).mpr ⟨intact.repeats, trivial⟩ }
    · simp only [acceptedBytes_snoc, queuedBytes_snoc, List.append_nil]
      rw [← List.append_assoc, intact.stream]
    · show q.writeLen ≤ (q.outbuf ++ data).length
      rw [List.length_append]
      omega
    · show (q.outbuf ++ data).length ≤ bufSize * 2
      rw [List.length_append]
      omega
    · intro owed' owes
      rw [owed_snoc] at owes
      obtain ⟨size, front, some_⟩ := intact.owes owed' owes
      refine ⟨size, ?_, some_⟩
      show (q.outbuf ++ data).take q.writeLen = owed'
      rw [List.take_append_of_le_length attempted, front]

/-- An attempt is the owed one, if there is one. -/
theorem Intact.attempt (intact : Intact past q) (data : List UInt8) (owes : owed past = some data) :
    q.outbuf.take q.attemptLen = data := by
  obtain ⟨-, front, some_⟩ := intact.owes data owes
  rw [Queue.attemptLen, if_neg some_, front]

/-- An attempt that wrote nothing has to be repeated, or has failed. -/
theorem Intact.pending (intact : Intact past q) (some_ : q.outbuf ≠ []) {verdict : WriteVerdict}
    (nothing : ∀ n, verdict ≠ .wrote n) (wait : UInt16) {failed : Bool}
    (fails : verdict.wants = false → failed = true) :
    Intact (past ++ [.attempt (q.outbuf.take q.attemptLen) verdict])
      { q with writeLen := q.attemptLen, writeWait := wait, failed } where
  stream := by
    cases verdict with
    | wrote n => exact absurd rfl (nothing n)
    | _ => simpa using intact.stream
  attempted := Queue.attemptLen_le intact.attempted
  room := intact.room
  owes := by
    intro data owes
    have size : (q.outbuf.take q.attemptLen).length = q.attemptLen := by
      rw [List.length_take, Nat.min_eq_left (Queue.attemptLen_le intact.attempted)]
    rw [owed_snoc] at owes
    dsimp only at owes
    split at owes
    · injection owes with owes
      exact ⟨by rw [← owes, size], owes, (Queue.attemptLen_pos some_).ne'⟩
    · cases owes
  free := by
    intro none_
    rw [owed_snoc] at none_
    dsimp only at none_
    split at none_
    · cases none_
    · rename_i wants
      exact Or.inr (fails (by simpa using wants))
  repeats := (along_snoc _ _).mpr ⟨intact.repeats, intact.attempt⟩

theorem Intact.flushOutput (intact : Intact past q) (now : Int)
    (ssl : (len : Nat) → WriteResult len) :
    Intact (past ++ (q.flushOutput now ssl).2.toList) (q.flushOutput now ssl).1 := by
  by_cases idle : q.outbuf = [] ∨ q.failed = true
  · rw [Queue.flushOutput, if_pos idle, Option.toList_none, List.append_nil]
    exact intact
  · rw [Queue.flushOutput, if_neg idle]
    have some_ := (not_or.mp idle).1
    have room := intact.room
    rw [Option.toList_some]
    cases ssl q.attemptLen with
    | wrote n positive short =>
        refine
          { stream := ?_
            attempted := Nat.zero_le _
            room := ?_
            owes := ?_
            free := fun _ => Or.inl rfl
            repeats := (along_snoc _ _).mpr ⟨intact.repeats, intact.attempt⟩ }
        · simp only [acceptedBytes_snoc, queuedBytes_snoc, List.append_nil, WriteResult.verdict]
          rw [List.take_take, Nat.min_eq_left short, List.append_assoc]
          show acceptedBytes past ++ (q.outbuf.take n ++ q.outbuf.drop n) = queuedBytes past
          rw [List.take_append_drop, intact.stream]
        · show (q.outbuf.drop n).length ≤ bufSize * 2
          rw [List.length_drop]
          omega
        · intro data owes
          simp [WriteResult.verdict, WriteVerdict.wants] at owes
    | wantRead => exact intact.pending some_ (by simp [WriteResult.verdict]) pollIn nofun
    | wantWrite => exact intact.pending some_ (by simp [WriteResult.verdict]) pollOut nofun
    | failed => exact intact.pending some_ (by simp [WriteResult.verdict]) q.writeWait fun _ => rfl

theorem Intact.fail (intact : Intact past q) : Intact past { q with failed := true } :=
  { intact with free := fun _ => Or.inr rfl }

theorem Intact.step (intact : Intact past q) (op : QueueOp) :
    Intact (past ++ (q.step op).2.toList) (q.step op).1 := by
  cases op with
  | queue now data => exact intact.queueOutput now data
  | flush now ssl => exact intact.flushOutput now ssl
  | fail =>
      show Intact (past ++ []) { q with failed := true }
      rw [List.append_nil]
      exact intact.fail

end Steps

/-- **Stream integrity**, for every interleaving of the calls. -/
theorem intact_after (ops : List QueueOp) : Intact (queueEvents ops) (queueMachine.after ops) := by
  refine queueMachine.invariant (I := fun past q => Intact (queueEvents past) q) ?_ ?_ ops
  · exact intact_zeroed
  · intro past op intact
    rw [queueEvents_snoc]
    exact intact.step op

end SpnavBridge.Daemon
