/-
# Daemon.Waits -- what a client waits for, and where its turn begins

What a client is polled for is computed from its phase, its output, `write_len` and the three
`*_wait` fields, and what its turn tries depends on them as well, in other branches.
`Waits` is what connects the fields, in every connection of every run (`waits_run`).

A client has its turn after a connection was accepted, the device was read and other clients
had theirs.  Until then it only gets more to send (`turn_since`).
-/
import SpnavBridge.Daemon.Slots

namespace SpnavBridge.Daemon

open SpnavBridge.Theory SpnavBridge.Wire SpnavBridge.Kernel

set_option autoImplicit false
set_option linter.unusedSectionVars false

variable {D F : Type} [CFloat F] [CDouble D F]

/-! ## The invariant -/

/-- One of the two events that OpenSSL can ask for. -/
def Either (wait : UInt16) : Prop := wait = pollIn ∨ wait = pollOut

theorem Either.ne_zero {wait : UInt16} (either : Either wait) : wait ≠ 0 := by
  rcases either with rfl | rfl <;> decide

theorem zero_ne_pollOut : (0 : UInt16) ≠ pollOut := by decide

/-- What a client waits for. -/
structure Waits (cl : Client F) : Prop where
  tls : cl.phase = .tls → Either cl.tlsWait ∧ cl.out.writeLen = 0
  attempted : cl.out.writeLen ≤ cl.out.outbuf.length
  write : cl.out.writeLen ≠ 0 → cl.out.failed = true ∨ Either cl.out.writeWait
  rest : cl.out.writeLen = 0 → cl.out.writeWait = 0
  read : cl.readWait = 0 ∨ Either cl.readWait
  /-- a read that wants to write goes before every write, and has room for what it reads -/
  blocked : cl.readWait = pollOut →
    cl.out.writeLen = 0 ∧ (cl.phase = .http ∨ cl.phase = .ws) ∧ cl.inbuf.length ≠ inputBufSize

theorem waits_opened (fd : Nat) (now : Int) : Waits (Client.closed.opened fd now : Client F) where
  tls _ := ⟨Or.inl rfl, rfl⟩
  attempted := Nat.zero_le _
  write some_ := absurd rfl some_
  rest _ := rfl
  read := Or.inl rfl
  blocked impossible := absurd impossible zero_ne_pollOut

theorem Waits.fail {cl : Client F} (waits : Waits cl) : Waits cl.fail :=
  { waits with write := fun _ => Or.inl rfl }

/-- The output queue with more in it, or failed. -/
theorem Waits.queueOutput {cl : Client F} (waits : Waits cl) (now : Int) (data : List UInt8) :
    Waits { cl with out := (cl.out.queueOutput now data).1 } := by
  unfold Queue.queueOutput
  split
  · exact waits
  · split
    · exact { waits with write := fun _ => Or.inl rfl }
    · have longer : cl.out.writeLen ≤ (cl.out.outbuf ++ data).length := by
        rw [List.length_append]
        exact waits.attempted.trans (Nat.le_add_right _ _)
      exact { waits with attempted := longer }

theorem Waits.flushOutput {cl : Client F} (waits : Waits cl) (open_ : cl.phase ≠ .tls)
    (readFree : cl.readWait ≠ pollOut) (now : Int) (ssl : (len : Nat) → WriteResult len) :
    Waits { cl with out := (cl.out.flushOutput now ssl).1 } := by
  unfold Queue.flushOutput
  split
  · exact waits
  · rename_i goes
    rw [not_or] at goes
    -- the attempt has to be repeated, or has failed
    have pending : ∀ (wait : UInt16) (failed : Bool), failed = true ∨ Either wait →
        Waits { cl with out :=
          { cl.out with writeLen := cl.out.attemptLen, writeWait := wait, failed } } := by
      intro wait failed why
      exact
        { tls := fun tls => absurd tls open_
          attempted := Queue.attemptLen_le waits.attempted
          write := fun _ => why
          rest := fun none_ => absurd none_ (Queue.attemptLen_pos goes.1).ne'
          read := waits.read
          blocked := fun wants => absurd wants readFree }
    dsimp only
    cases ssl cl.out.attemptLen with
    | wrote n pos le =>
        exact
          { tls := fun tls => absurd tls open_
            attempted := Nat.zero_le _
            write := fun impossible => absurd rfl impossible
            rest := fun _ => rfl
            read := waits.read
            blocked := fun wants => absurd wants readFree }
    | wantRead => exact pending pollIn cl.out.failed (Or.inr (Or.inl rfl))
    | wantWrite => exact pending pollOut cl.out.failed (Or.inr (Or.inr rfl))
    | failed => exact pending cl.out.writeWait true (Or.inl rfl)

theorem Waits.assign {cl : Client F} (value : F) (waits : Waits cl) : Waits (cl.assign value) := by
  unfold Client.assign
  split
  · exact { waits with }
  · exact waits

variable {p : Platform D}

/-- A client that no read waits for may change its phase. -/
theorem Waits.enter {cl : Client F} (waits : Waits cl) {next : ClientPhase} (late : next ≠ .tls)
    (idle : next = cl.phase ∨ cl.readWait = 0) (ctrl : Option (Controller F)) :
    Waits { cl with ctrl, phase := next } :=
  { waits with
    tls := fun tls => absurd tls late
    blocked := by
      intro wants
      obtain ⟨writeFree, open_, room⟩ := waits.blocked wants
      refine ⟨writeFree, ?_, room⟩
      rcases idle with same | quiet
      · rw [show next = cl.phase from same]
        exact open_
      · exact absurd (quiet.symm.trans wants) zero_ne_pollOut }

theorem Waits.work {s s' : Place F} {events : List (Event F)} (waits : Waits s.2)
    (work : Work p s events s') (idle : s'.2.phase = s.2.phase ∨ s.2.readWait = 0) :
    Waits s'.2 := by
  cases work with
  | fails => exact waits.fail
  | queues data active => exact waits.queueOutput _ data
  | assigns value asked => exact waits.assign value
  | upgrades created http => exact waits.enter ClientPhase.noConfusion idle _
  | closes open_ => exact waits.enter ClientPhase.noConfusion idle _
  | _ => exact { waits with }

theorem Waits.step {s s' : Place F} {events : List (Event F)} (waits : Waits s.2)
    (step : Step p s events s') : Waits s'.2 := by
  cases step with
  | works work idle => exact waits.work work idle
  | checks now => exact waits
  | consumes rest fits open_ quiet =>
      refine { waits with blocked := fun wants => ?_ }
      exact absurd (quiet.symm.trans wants) zero_ne_pollOut
  | accepts tls =>
      rename_i sh cl
      refine { waits with tls := ClientPhase.noConfusion, blocked := fun wants => ?_ }
      obtain ⟨-, open_, -⟩ := waits.blocked wants
      exact absurd tls (ne_tls_of_open open_)
  | acceptWants wait verdict tls either =>
      exact { waits with tls := fun tls => ⟨either, (waits.tls tls).2⟩ }
  | acceptFails tls => exact waits.fail
  | flushes ssl open_ readFree => exact waits.flushOutput open_ readFree _ ssl
  | reads chunk open_ writeFree fits =>
      exact
        { waits with
          read := Or.inl rfl
          blocked := fun impossible => absurd impossible zero_ne_pollOut }
  | readWants wait verdict open_ writeFree room which =>
      refine { waits with read := ?_, blocked := fun _ => ⟨writeFree, open_, room⟩ }
      rcases which with ⟨-, rfl⟩ | ⟨-, rfl⟩
      · exact Or.inr (Or.inl rfl)
      · exact Or.inr (Or.inr rfl)
  | readFails open_ writeFree => exact waits.fail

theorem waits_run (sensitivity : F) (saved : Option CStr) (polls : List PollResult)
    (i : Fin maxClients)
    (used : (((mainLoop p sensitivity saved).after polls).clients i).used = true) :
    Waits (((mainLoop p sensitivity saved).after polls).clients i) :=
  (connection_invariant p (I := fun _ cl => Waits cl) waits_opened
    (fun _ _ _ _ step waits => waits.step step) (fun _ _ value waits => waits.assign value)
    sensitivity saved polls i).1 used

/-! ## The turn of a client -/

namespace Bridge

theorem each_append (b : Bridge F) (stage : Fin maxClients → Stage F)
    (slots more : List (Fin maxClients)) :
    b.each stage (slots ++ more) =
      (((b.each stage slots).1.each stage more).1,
        (b.each stage slots).2 ++ ((b.each stage slots).1.each stage more).2) := by
  induction more using List.reverseRecOn with
  | nil =>
      rw [List.append_nil]
      exact Prod.ext rfl (List.append_nil _).symm
  | append_singleton more i ih =>
      rw [← List.append_assoc, each_snoc, ih, each_snoc, List.append_assoc]

variable (p) in
/-- Where the turn of a client begins. -/
def turn (b : Bridge F) (reports : Reports) (i : Fin maxClients) : Place F :=
  let before := (b.told p reports).each (b.turns p reports) ((List.finRange maxClients).take i)
  (before.1.shared, before.1.clients i)

variable (p) in
/-- The events in front of the turn of a client. -/
def turnEvents (b : Bridge F) (reports : Reports) (i : Fin maxClients) : List (SlotEvent F) :=
  b.toldEvents p reports ++
    ((b.told p reports).each (b.turns p reports) ((List.finRange maxClients).take i)).2

/-- **The turn of a client in an iteration**: behind it, the client only hears of changes. -/
theorem iterate_turn (b : Bridge F) (reports : Reports) (i : Fin maxClients)
    (running : b.running = true) (kept : reports.lost = false) :
    let done := b.turns p reports i (b.turn p reports i).1 (b.turn p reports i).2
    Heard done.client ((b.iterate p (.ready reports)).1.clients i) ∧
      eventsOf i (b.iterate p (.ready reports)).2 =
        eventsOf i (b.turnEvents p reports i) ++ done.events := by
  intro done
  have slots : List.finRange maxClients =
      (List.finRange maxClients).take i ++ [i] ++ (List.finRange maxClients).drop (i + 1) := by
    have here : (List.finRange maxClients).drop i = i :: (List.finRange maxClients).drop (i + 1) := by
      rw [List.drop_eq_getElem_cons (by rw [List.length_finRange]; exact i.isLt)]
      simp
    rw [List.append_assoc, List.singleton_append, ← here, List.take_append_drop]
  have nodup := List.nodup_finRange maxClients
  rw [slots] at nodup
  have apart : i ∉ (List.finRange maxClients).drop (i + 1) := fun there =>
    (List.nodup_append.mp nodup).2.2 i (by simp) i there rfl
  obtain ⟨heard, silent⟩ := each_other
    ((b.told p reports).each (b.turns p reports) ((List.finRange maxClients).take i ++ [i])).1
    (b.turns p reports) apart
  obtain ⟨client, events⟩ := at_self
    ((b.told p reports).each (b.turns p reports) ((List.finRange maxClients).take i)).1 i
    (b.turns p reports i)
  rw [iterate_ready b reports running kept, slots, each_append]
  rw [each_snoc] at heard silent ⊢
  refine ⟨?_, ?_⟩
  · rw [client] at heard
    exact heard
  · dsimp only at silent ⊢
    rw [turnEvents, eventsOf_append, eventsOf_append, eventsOf_append, eventsOf_append, silent,
      events, List.append_nil, List.append_assoc]
    rfl

/-- What device events and the sensitivity leave alone, a client still has at its turn. -/
theorem turn_keeps {I : Client F → Prop} (hears : ∀ cl value, I cl → I (cl.assign value))
    (works : ∀ s events s', Still p s events s' → I s.2 → I s'.2)
    (b : Bridge F) (reports : Reports) {i : Fin maxClients} (used : (b.clients i).used = true)
    (start : I (b.clients i)) : I (b.turn p reports i).2 := by
  have outside : i ∉ (List.finRange maxClients).take i := by
    intro inside
    obtain ⟨n, here, same⟩ := List.mem_take_iff_getElem.mp inside
    have value : n = i := by simpa using congrArg Fin.val same
    rw [lt_min_iff] at here
    omega
  refine (each_other _ _ outside).1.keeps hears ?_
  refine fanOut_keeps hears _ _ (fun ev sh cl kept => ?_) ?_
  · exact (spnavEvent_path (p := p) ev (sh, cl)).keeps (I := fun s => I s.2) works kept
  · refine acceptClient_keeps hears b _ (fun _ _ _ free => ?_) start
    rw [used] at free
    cases free

end Bridge

/-- The client has more to send, and its wait fields are as they were. -/
structure Since (cl cl' : Client F) : Prop where
  io : SameIo cl cl'
  phase : cl'.phase = cl.phase
  outbuf : cl.out.outbuf <+: cl'.out.outbuf

theorem since_queueOutput (cl : Client F) (now : Int) (data : List UInt8) :
    cl.out.outbuf <+: (cl.out.queueOutput now data).1.outbuf := by
  unfold Queue.queueOutput
  split
  · exact List.prefix_rfl
  · split
    · exact List.prefix_rfl
    · exact List.prefix_append _ _

theorem Since.assign {cl cl' : Client F} (since : Since cl cl') (value : F) :
    Since cl (cl'.assign value) where
  io := since.io.trans (sameIo_assign value cl')
  phase := (assign_phase value cl').trans since.phase
  outbuf := by
    unfold Client.assign
    split <;> exact since.outbuf

theorem Since.still {cl : Client F} {s s' : Place F} {events : List (Event F)}
    (since : Since cl s.2) (still : Still p s events s') : Since cl s'.2 where
  io := since.io.trans still.1.sameIo
  phase := still.2.trans since.phase
  outbuf := by
    cases still.1 with
    | queues data active => exact since.outbuf.trans (since_queueOutput _ _ data)
    | assigns value asked => exact (since.assign value).outbuf
    | _ => exact since.outbuf

theorem turn_since (b : Bridge F) (reports : Reports) {i : Fin maxClients}
    (used : (b.clients i).used = true) : Since (b.clients i) (b.turn p reports i).2 :=
  Bridge.turn_keeps (fun _ value since => since.assign value)
    (fun _ _ _ still since => since.still still) b reports used
    ⟨.refl _, rfl, List.prefix_rfl⟩

theorem turn_waits (b : Bridge F) (reports : Reports) {i : Fin maxClients}
    (used : (b.clients i).used = true) (waits : Waits (b.clients i)) :
    Waits (b.turn p reports i).2 :=
  Bridge.turn_keeps (fun _ value waits => waits.assign value)
    (fun _ _ _ still waits => waits.work still.1 (Or.inl still.2)) b reports used waits

end SpnavBridge.Daemon
