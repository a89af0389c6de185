/-
# Daemon.Chunking -- the cut of a stream into reads does not matter

Two schedules that offer the same bytes to a fresh connection lead to the same place
(`chunking_independent`).  A run that stopped reading early did so because its phase is
closing, and then the bytes it did not read would have changed nothing
(`tracks_offered`); that is the whole argument, since a connection is a function of what it
received (`Connection.tracks_pump`).
-/
import SpnavBridge.Daemon.Client

namespace SpnavBridge.Daemon

open SpnavBridge.Theory SpnavBridge.Wire SpnavBridge.Kernel Connection

set_option autoImplicit false

variable {D F : Type} [CFloat F] [CDouble D F]

/-! ## One run -/

theorem pump_received {o : Outside D} {start : Served F} {ios : List Io} {c : Connection F}
    (ran : run (pump o) (fresh start) ios = some c) :
    ∃ unread, offered ios = c.received ++ unread ∧
      (c.served.phase.isClosing = true ∨ unread = []) := by
  refine received_run (c := fresh start) (fun c => c.served.phase.isClosing = true) ?_ ?_ ran
  · intro c io c' stepped
    cases pump_pumps stepped with
    | skips chunk closing => exact Or.inr ⟨rfl, Or.inl closing⟩
    | reads chunk _ goes received =>
        exact Or.inl ⟨by simp [goes], (receive_eq_some received).2.2.2.1⟩
    | flushes n => exact Or.inr ⟨rfl, Or.inr rfl⟩
  · intro c io c' stepped closing
    cases pump_pumps stepped with
    | skips chunk _ => exact closing
    | reads chunk _ goes received =>
        rw [closing] at goes
        cases goes
    | flushes n => exact closing

/-- A run leads where draining all the bytes offered leads, read or not. -/
theorem tracks_offered {o : Outside D} {start : Served F} {ios : List Io} {c : Connection F}
    (ran : run (pump o) (fresh start) ios = some c) :
    c.served = (drain (processOnce o) start (offered ios)).state ∧
      c.log = (drain (processOnce o) start (offered ios)).out ∧
      (c.served.phase.isClosing = false →
        c.inbuf = (drain (processOnce o) start (offered ios)).rest) := by
  have tracks := tracks_pump ran
  obtain ⟨unread, split, ends⟩ := pump_received ran
  rw [split]
  rcases ends with closing | rfl
  · have halted : ∀ later,
        processOnce o (drain (processOnce o) start c.received).state later = none := by
      intro later
      rw [← tracks.served]
      exact processOnce_closing o closing later
    obtain ⟨state, out⟩ := drain_append_of_halted (incremental_processOnce o) halted unread
    refine ⟨tracks.served.trans state.symm, tracks.log.trans out.symm, fun goes => ?_⟩
    rw [closing] at goes
    cases goes
  · rw [List.append_nil]
    exact ⟨tracks.served, tracks.log, fun _ => tracks.inbuf⟩

theorem queued_pump {o : Outside D} {start : Served F} {ios : List Io} {c : Connection F}
    (ran : run (pump o) (fresh start) ios = some c) : Queued c := by
  refine run_keeps (fun c io c' stepped queued => ?_) ran (fun _ => ⟨rfl, rfl⟩)
  cases pump_pumps stepped with
  | skips chunk closing => exact queued
  | reads chunk _ goes received => exact queued_receive received queued
  | flushes n =>
      obtain ⟨same, failed, overflowed⟩ := c.out.flush_keeps n
      intro roomy
      rw [same, failed]
      exact queued (overflowed ▸ roomy)

/-! ## Two runs -/

/-- What a run did and where it stands: the requests with their bodies and the messages given
to the controller (both in `log`), the bytes queued, the phase with the message in progress,
and the input that is left. -/
structure SameOutcome (c c' : Connection F) : Prop where
  log : c.log = c'.log
  queued : c.out.queued.flatten = c'.out.queued.flatten
  served : c.served = c'.served
  inbuf : c.served.phase.isClosing = false → c.inbuf = c'.inbuf

/-- **Chunking independence.**  From the start of a connection, two schedules that offer the
same bytes have the same outcome, if neither overflows the output queue. -/
theorem chunking_independent {o : Outside D} {w : World F} {ios ios' : List Io}
    {c c' : Connection F} (ran : run (pump o) (fresh ⟨w, .http⟩) ios = some c)
    (ran' : run (pump o) (fresh ⟨w, .http⟩) ios' = some c') (same : offered ios = offered ios')
    (roomy : c.out.overflowed = false) (roomy' : c'.out.overflowed = false) :
    SameOutcome c c' := by
  obtain ⟨served, log, inbuf⟩ := tracks_offered ran
  obtain ⟨served', log', inbuf'⟩ := tracks_offered ran'
  have sameServed : c.served = c'.served := by rw [served, served', same]
  have sameLog : c.log = c'.log := by rw [log, log', same]
  refine ⟨sameLog, ?_, sameServed, fun goes => ?_⟩
  · rw [(queued_pump ran roomy).1, (queued_pump ran' roomy').1, sameLog]
  · have goes' : c'.served.phase.isClosing = false := sameServed ▸ goes
    rw [inbuf goes, inbuf' goes', same]

/-- An upgrade with two messages behind it, in one read or in three. -/
def pipelined : List UInt8 :=
  upgradeRequest onshape ++ handshakeTexts.flatMap fun text => (textFrame text.1).bytes

def cuts : List Io :=
  [.read (pipelined.take 100), .flush 0, .read ((pipelined.drop 100).take 150), .flush 200,
    .read (pipelined.drop 250)]

theorem chunking_independent_pipelined :
    ∃ c c', run (pump (.ofTexts handshakeTexts)) (fresh ⟨.initial, .http⟩) [.read pipelined] = some c ∧
      run (pump (.ofTexts handshakeTexts)) (fresh ⟨.initial, .http⟩) cuts = some c' ∧
      c.log.length = 9 ∧ SameOutcome c c' := by
  obtain ⟨c, ran, facts⟩ := Option.map_eq_some_iff.mp (by decide +kernel :
    (run (pump (.ofTexts handshakeTexts)) (fresh ⟨.initial, .http⟩) [.read pipelined]).map
      (fun c => (c.log.length, c.out.overflowed)) = some (9, false))
  obtain ⟨c', ran', roomy'⟩ := Option.map_eq_some_iff.mp (by decide +kernel :
    (run (pump (.ofTexts handshakeTexts)) (fresh ⟨.initial, .http⟩) cuts).map
      (fun c => c.out.overflowed) = some false)
  obtain ⟨size, roomy⟩ := Prod.mk.inj facts
  exact ⟨c, c', ran, ran', size, chunking_independent ran ran' (by decide +kernel) roomy roomy'⟩

end SpnavBridge.Daemon
