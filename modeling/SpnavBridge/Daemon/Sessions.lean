/-
# Daemon.Sessions -- every connection of the main loop is a talk

The main loop serves eight slots in turn, reads what has come in for one of them, hands every
device event to all and tells all what one of them has changed.  Seen from one slot that is
the talk of one controller (`session_refines`): its turns are what the client said, in the
order of the bytes and however they came in, the device events since the upgrade, all of
them and in order, and the sensitivity, as it was at the upgrade and whenever any client has
set it since; and what the connection has done is what the controller answered.
-/
import SpnavBridge.Daemon.Talks
import SpnavBridge.Daemon.Waits

namespace SpnavBridge.Daemon

open SpnavBridge.Theory SpnavBridge.Wire SpnavBridge.Kernel

set_option autoImplicit false
set_option linter.unusedSectionVars false

variable {D F : Type} [CFloat F] [CDouble D F] {p : Platform D}

/-! ## Calls are counted -/

/-- A stage does not count back, and leaves the sensitivity that its events say. -/
structure Grows (stage : Stage F) : Prop where
  later : ∀ sh cl, sh.calls ≤ (stage sh cl).shared.calls
  tally : ∀ sh cl, (stage sh cl).shared.sensitivity =
    (assigned (stage sh cl).events).getLastD sh.sensitivity

theorem Step.later {s s' : Place F} {events : List (Event F)} (step : Step p s events s') :
    s.1.calls ≤ s'.1.calls := by
  cases step with
  | works work idle =>
      cases work with
      | outside calls later => exact later
      | _ => exact le_rfl
  | _ => exact le_rfl

theorem calls_of_path {s s' : Place F} {events : List (Event F)} (path : Path (Step p) s events s') :
    s.1.calls ≤ s'.1.calls :=
  path.keeps (I := fun s' => s.1.calls ≤ s'.1.calls)
    (fun _ _ _ step later => later.trans step.later) le_rfl

theorem goesOn_of_path {s s' : Place F} {events : List (Event F)} (path : Path (Step p) s events s') :
    ∀ event ∈ events, event.goesOn = true := by
  refine path.invariant (I := fun past _ => ∀ event ∈ past, event.goesOn = true) ?_ [] (by simp)
  intro past s events s' step before event inside
  rcases List.mem_append.mp inside with old | new
  · exact before event old
  · exact Step.goesOn p step event new

theorem Still.tally {s s' : Place F} {events : List (Event F)} (still : Still p s events s') :
    s'.1.sensitivity = (assigned events).getLastD s.1.sensitivity := still.1.tally

theorem grows_servePolled (polled : Bool) (events : UInt16) :
    Grows (F := F) (Bridge.servePolled p polled events) := by
  have finish : ∀ (sh : Shared F) (cl : Client F), (Stage.finish sh cl).shared = sh ∧
      assigned (Stage.finish sh cl).events = [] := by
    intro sh cl
    unfold Stage.finish
    split <;> exact ⟨rfl, rfl⟩
  constructor
  · intro sh cl
    unfold Bridge.servePolled
    split
    · refine (calls_of_path (attend_path (p := p) events (sh, cl))).trans (le_of_eq ?_)
      exact congrArg Shared.calls (finish _ _).1.symm
    · exact le_rfl
  · intro sh cl
    unfold Bridge.servePolled
    split
    · have attended := tally_of_path (fun _ _ _ step => Step.tally step)
        (attend_path (p := p) events (sh, cl))
      obtain ⟨same, silent⟩ := finish (Stage.attend p events sh cl).shared
        (Stage.attend p events sh cl).client
      show (Stage.finish _ _).shared.sensitivity = (assigned (_ ++ _)).getLastD _
      rw [same, assigned_append, silent, List.append_nil]
      exact attended
    · rfl

theorem grows_spnavEvent (ev : SbEvent) : Grows (F := F) (Stage.spnavEvent p ev) :=
  ⟨fun sh cl => calls_of_path (Still.steps (spnavEvent_path (p := p) ev (sh, cl))),
    fun sh cl => tally_of_path (fun _ _ _ still => Still.tally still)
      (spnavEvent_path (p := p) ev (sh, cl))⟩

theorem grows_openClient (fd : Nat) (ssl : Bool) : Grows (F := F) (Bridge.openClient p fd ssl) := by
  constructor <;> intro sh cl <;> unfold Bridge.openClient <;> dsimp only <;> split
  · exact Nat.le_succ _
  · exact Nat.le_succ _
  · rfl
  · rfl

/-- A history begins where the slot was given its connection. -/
theorem history_reopened (past : List (Event F)) {events : List (Event F)}
    (goesOn : ∀ event ∈ events, event.goesOn = true) :
    history (past ++ ([.opened] ++ events)) = events := by
  rw [← List.append_assoc, history_append _ goesOn, history_opened]
  rfl

/-! ## What all slots hear -/

/-- The sensitivities that the events of the slots set. -/
def changes (events : List (SlotEvent F)) : List F := events.filterMap fun event => event.2.assigned?

@[simp] theorem changes_append (events more : List (SlotEvent F)) :
    changes (events ++ more) = changes events ++ changes more := List.filterMap_append

@[simp] theorem changes_slot (i : Fin maxClients) (events : List (Event F)) :
    changes (events.map (i, ·)) = assigned events := by
  unfold changes assigned
  rw [List.filterMap_map]
  rfl

/-- Tells a client of one change after the other. -/
def Client.learn (cl : Client F) (values : List F) : Client F :=
  values.foldl (fun cl value => cl.assign value) cl

theorem Client.learn_append (cl : Client F) (values more : List F) :
    cl.learn (values ++ more) = (cl.learn values).learn more := List.foldl_append

theorem Client.learn_used (cl : Client F) (values : List F) : (cl.learn values).used = cl.used := by
  induction values generalizing cl with
  | nil => rfl
  | cons value values ih => exact (ih (cl.assign value)).trans (sameIo_assign value cl).used

namespace Bridge

/-- A stage on one slot, for the other slots and the process. -/
theorem at_tally (b : Bridge F) (i : Fin maxClients) {stage : Stage F} (grows : Grows stage) :
    b.shared.calls ≤ (b.at_ i stage).1.shared.calls ∧
      (b.at_ i stage).1.shared.sensitivity =
        (changes (b.at_ i stage).2).getLastD b.shared.sensitivity := by
  refine ⟨grows.later _ _, ?_⟩
  rw [at_, changes_slot]
  exact grows.tally _ _

theorem at_learns (b : Bridge F) {i j : Fin maxClients} (other : j ≠ i) (stage : Stage F) :
    (b.at_ i stage).1.clients j = (b.clients j).learn (changes (b.at_ i stage).2) := by
  rw [at_, changes_slot]
  exact if_neg other

theorem each_tally (b : Bridge F) {stage : Fin maxClients → Stage F} (grows : ∀ i, Grows (stage i))
    (slots : List (Fin maxClients)) :
    b.shared.calls ≤ (b.each stage slots).1.shared.calls ∧
      (b.each stage slots).1.shared.sensitivity =
        (changes (b.each stage slots).2).getLastD b.shared.sensitivity := by
  induction slots using List.reverseRecOn with
  | nil => exact ⟨le_rfl, rfl⟩
  | append_singleton slots i ih =>
      obtain ⟨later, tally⟩ := at_tally (b.each stage slots).1 i (grows i)
      rw [each_snoc]
      refine ⟨ih.1.trans later, ?_⟩
      rw [changes_append, getLastD_append, ← ih.2]
      exact tally

/-- A slot that is left out hears of every change. -/
theorem each_learns (b : Bridge F) (stage : Fin maxClients → Stage F)
    {slots : List (Fin maxClients)} {j : Fin maxClients} (outside : j ∉ slots) :
    (b.each stage slots).1.clients j = (b.clients j).learn (changes (b.each stage slots).2) := by
  induction slots using List.reverseRecOn with
  | nil => rfl
  | append_singleton slots i ih =>
      rw [List.mem_append, not_or, List.mem_singleton] at outside
      rw [each_snoc, changes_append, Client.learn_append, ← ih outside.1]
      exact at_learns _ outside.2 (stage i)

/-- The turn of a slot in a round: what the others do in front of it and behind it, and where it
begins. -/
structure TurnOf (b : Bridge F) (stage : Fin maxClients → Stage F) (slots : List (Fin maxClients))
    (j : Fin maxClients) (front back : List (SlotEvent F)) (sh : Shared F) (cl : Client F) :
    Prop where
  before : b.shared.calls ≤ sh.calls
  behind : (stage j sh cl).shared.calls ≤ (b.each stage slots).1.shared.calls
  sensitivity : sh.sensitivity = (changes front).getLastD b.shared.sensitivity
  events : (b.each stage slots).2 = front ++ ((stage j sh cl).events.map (j, ·) ++ back)
  own : eventsOf j (b.each stage slots).2 = (stage j sh cl).events
  client : cl = (b.clients j).learn (changes front)
  after : (b.each stage slots).1.clients j = (stage j sh cl).client.learn (changes back)

/-- One slot in a round, with the calls and the changes of the others. -/
theorem each_turn (b : Bridge F) {stage : Fin maxClients → Stage F} (grows : ∀ i, Grows (stage i))
    {slots : List (Fin maxClients)} {j : Fin maxClients} (nodup : slots.Nodup) (inside : j ∈ slots) :
    ∃ front back sh cl, TurnOf b stage slots j front back sh cl := by
  obtain ⟨ahead, behind, rfl⟩ := List.append_of_mem inside
  have apart : j ∉ ahead ∧ j ∉ behind := by
    rw [List.nodup_append, List.nodup_cons] at nodup
    exact ⟨fun there => nodup.2.2 j there j List.mem_cons_self rfl, nodup.2.1.1⟩
  have split : b.each stage (ahead ++ j :: behind) =
      ((((b.each stage ahead).1.at_ j (stage j)).1.each stage behind).1,
        (b.each stage ahead).2 ++ (((b.each stage ahead).1.at_ j (stage j)).2 ++
          (((b.each stage ahead).1.at_ j (stage j)).1.each stage behind).2)) := by
    rw [← List.singleton_append, each_append, each_append]
    rfl
  obtain ⟨client, events⟩ := at_self (b.each stage ahead).1 j (stage j)
  have tally := each_tally b grows ahead
  refine ⟨(b.each stage ahead).2, (((b.each stage ahead).1.at_ j (stage j)).1.each stage behind).2,
    (b.each stage ahead).1.shared, (b.each stage ahead).1.clients j,
    ⟨tally.1, ?_, tally.2, ?_, ?_, each_learns b stage apart.1, ?_⟩⟩
  · rw [split]
    exact (each_tally ((b.each stage ahead).1.at_ j (stage j)).1 grows behind).1
  · rw [split]
    rfl
  · rw [split, eventsOf_append, eventsOf_append, (each_other b stage apart.1).2, events,
      (each_other ((b.each stage ahead).1.at_ j (stage j)).1 stage apart.2).2]
    exact List.append_nil _
  · rw [split, ← client]
    exact each_learns ((b.each stage ahead).1.at_ j (stage j)).1 stage apart.2

end Bridge

/-! ## A slot in an iteration -/

/-- What the device and the other clients make of a talk: every event and every change is a
turn. -/
def Fed : Option (Talk F) → List SbEvent → List F → Option (Talk F) → Prop
  | none, _, _, none => True
  | some t, device, values, some t' => ∃ turns, t' = t.on turns ∧
      turns.filterMap Turn.event? = device ∧ turns.filterMap Turn.sensitivity? = values
  | _, _, _, _ => False

theorem Fed.trans {talk talk' talk'' : Option (Talk F)} {device device' : List SbEvent}
    {values values' : List F} (first : Fed talk device values talk')
    (second : Fed talk' device' values' talk'') :
    Fed talk (device ++ device') (values ++ values') talk'' := by
  cases talk with
  | none =>
      cases talk' with
      | some t => exact first.elim
      | none =>
          cases talk'' with
          | some t => exact second.elim
          | none => trivial
  | some t =>
      cases talk' with
      | none => exact first.elim
      | some t' =>
          cases talk'' with
          | none => exact second.elim
          | some t'' =>
              obtain ⟨turns, rfl, fed, told⟩ := first
              obtain ⟨later, rfl, fed', told'⟩ := second
              exact ⟨turns ++ later, t.on_on turns later, by simp [fed, fed'],
                by simp [told, told']⟩

/-- A turn for everyone who has a talk. -/
theorem fed_turn (talk : Option (Talk F)) (turn : Turn F) :
    Fed talk turn.event?.toList turn.sensitivity?.toList (talk.map fun t => t.on [turn]) := by
  cases talk with
  | none => trivial
  | some t =>
      exact ⟨[turn], rfl, by cases kind : turn.event? <;> simp [kind],
        by cases kind : turn.sensitivity? <;> simp [kind]⟩

theorem fed_nil (talk : Option (Talk F)) : Fed talk [] [] talk := by
  cases talk with
  | none => trivial
  | some t => exact ⟨[], t.on_nil.symm, rfl, rfl⟩

/-- What an iteration makes of the talk of slot `i`, where the sensitivity of the bridge was `s`.
The device is heard before the client, so an upgrade comes behind the device events of its
iteration. -/
def Iterated (i : Fin maxClients) (s : F) :
    Option (Talk F) → List SbEvent → List (SlotEvent F) → Option (Talk F) → Prop
  | none, _, _, none => True
  | none, _, events, some t => t.events = [] ∧ ∃ front back,
      events = front ++ (i, .phase .ws) :: back ∧
        t.sensitivities = (changes front).getLastD s :: changes back
  | some t, device, events, some t' => ∃ turns, t' = t.on turns ∧
      turns.filterMap Turn.event? = device ∧ turns.filterMap Turn.sensitivity? = changes events
  | some _, _, _, none => False

section Iterated

variable {i : Fin maxClients} {s s' : F} {talk talk' talk'' : Option (Talk F)}
  {device : List SbEvent} {events more : List (SlotEvent F)}

/-- The own part of a slot. -/
theorem iterated_of_goes {own : List (Event F)} (goes : Goes s talk own s' talk') :
    Iterated i s talk [] (own.map (i, ·)) talk' := by
  cases talk with
  | none =>
      cases talk' with
      | none => trivial
      | some t =>
          obtain ⟨quiet, front, back, rfl, told⟩ := goes.talks
          refine ⟨quiet, front.map (i, ·), back.map (i, ·), by simp, ?_⟩
          rw [changes_slot, changes_slot, told]
  | some t =>
      cases talk' with
      | none => exact goes.talks.elim
      | some t' =>
          obtain ⟨turns, rfl, quiet, told⟩ := goes.talks
          exact ⟨turns, rfl, quiet, told.trans (changes_slot i own).symm⟩

/-- What came in front of it. -/
theorem Fed.iterated {device' : List SbEvent} (fed : Fed talk device (changes events) talk')
    (iterated : Iterated i ((changes events).getLastD s) talk' device' more talk'') :
    Iterated i s talk (device ++ device') (events ++ more) talk'' := by
  cases talk with
  | none =>
      cases talk' with
      | some t => exact fed.elim
      | none =>
          cases talk'' with
          | none => trivial
          | some t =>
              obtain ⟨quiet, front, back, rfl, told⟩ := iterated
              refine ⟨quiet, events ++ front, back, (List.append_assoc ..).symm, ?_⟩
              rw [told, changes_append, getLastD_append]
  | some t =>
      cases talk' with
      | none => exact fed.elim
      | some t' =>
          cases talk'' with
          | none => exact iterated.elim
          | some t'' =>
              obtain ⟨turns, rfl, fed, told⟩ := fed
              obtain ⟨later, rfl, fed', told'⟩ := iterated
              exact ⟨turns ++ later, t.on_on turns later, by simp [fed, fed'],
                by simp [told, told']⟩

/-- And behind it. -/
theorem Iterated.fed (iterated : Iterated i s talk device events talk')
    (fed : Fed talk' [] (changes more) talk'') :
    Iterated i s talk device (events ++ more) talk'' := by
  cases talk with
  | none =>
      cases talk' with
      | none =>
          cases talk'' with
          | none => trivial
          | some t => exact fed.elim
      | some t =>
          cases talk'' with
          | none => exact fed.elim
          | some t' =>
              obtain ⟨quiet, front, back, rfl, told⟩ := iterated
              obtain ⟨turns, rfl, quiet', told'⟩ := fed
              refine ⟨by simp [quiet, quiet'], front, back ++ more, by simp, ?_⟩
              rw [Talk.sensitivities_on, told, told', changes_append, List.cons_append]
  | some t =>
      cases talk' with
      | none => exact iterated.elim
      | some t' =>
          cases talk'' with
          | none => exact fed.elim
          | some t'' =>
              obtain ⟨turns, rfl, fed', told⟩ := iterated
              obtain ⟨later, rfl, quiet, told'⟩ := fed
              exact ⟨turns ++ later, t.on_on turns later, by simp [fed', quiet],
                by simp [told, told']⟩

end Iterated

/-- What the other clients change is a turn, too. -/
theorem Stands.learn {calls : Nat} {log : List (Event F)} {cl : Client F} {talk : Option (Talk F)}
    (stands : Stands p calls log cl talk) (used : cl.used = true) (values : List F) :
    ∃ talk', Stands p calls log (cl.learn values) talk' ∧ Fed talk [] values talk' := by
  induction values generalizing cl talk with
  | nil => exact ⟨talk, stands, fed_nil talk⟩
  | cons value values ih =>
      have first := stands.assign used value
      obtain ⟨talk', stands', fed⟩ := ih first ((sameIo_assign value cl).used.trans used)
      exact ⟨talk', stands', (fed_turn talk (.call 0 (.setSensitivity value))).trans fed⟩

namespace Bridge

variable {log : List (Event F)} {talk : Option (Talk F)} {i : Fin maxClients}

/-- An event of the device does not set the sensitivity. -/
theorem assigned_spnavEvent (ev : SbEvent) (sh : Shared F) (cl : Client F) :
    assigned (Stage.spnavEvent p ev sh cl).events = [] := by
  unfold Stage.spnavEvent
  cases cl.ctrl with
  | none => rfl
  | some c =>
      dsimp only
      split
      · have outputs := isOutput_clientSends (F := F) p.toOutside
          (controllerOnSpnavEvent (D := D) (p.envs sh.calls) c ev).2
        have performs := performAll_performs (p := p) { sh with calls := sh.calls + 1 }
          { cl with ctrl := some (controllerOnSpnavEvent (D := D) (p.envs sh.calls) c ev).1 }
          (Or.inl outputs)
        rw [assigned_eq, performs.deeds, List.filterMap_eq_nil_iff]
        exact unassigned_of_output outputs
      · rfl

/-- A device event is a turn of every slot's talk. -/
theorem spnavEvent_stands (b : Bridge F) (ev : SbEvent)
    (stands : Stands p b.shared.calls log (b.clients i) talk) (used : (b.clients i).used = true) :
    let done := b.each (fun _ => Stage.spnavEvent p ev) (List.finRange maxClients)
    ∃ talk', Stands p done.1.shared.calls (log ++ eventsOf i done.2) (done.1.clients i) talk' ∧
      (done.1.clients i).used = true ∧ Fed talk [ev] (changes done.2) talk' := by
  intro done
  obtain ⟨front, back, sh, cl, turn⟩ := each_turn b (fun _ => grows_spnavEvent (p := p) ev)
    (List.nodup_finRange maxClients) (List.mem_finRange i)
  obtain ⟨talk', stands', fed⟩ := (stands.later turn.before).learn used (changes front)
  rw [← turn.client] at stands'
  have used' : cl.used = true := by rw [turn.client, Client.learn_used, used]
  have turned := stands'.spnavEvent used' ev
  have used'' : (Stage.spnavEvent p ev sh cl).client.used = true :=
    (spnavEvent_path (p := p) ev (sh, cl)).keeps (I := fun s => s.2.used = true)
      (fun _ _ _ still used => still.1.sameIo.used.trans used) used'
  obtain ⟨talk'', stands'', fed'⟩ := turned.learn used'' (changes back)
  rw [← turn.after] at stands''
  refine ⟨talk'', ?_, ?_, ?_⟩
  · rw [turn.own]
    exact stands''.later turn.behind
  · rw [turn.after, Client.learn_used, used'']
  · have whole := (fed.trans (fed_turn talk' (.call sh.calls (.spnav ev)))).trans fed'
    rw [turn.events, changes_append, changes_append, changes_slot, assigned_spnavEvent,
      List.nil_append]
    simpa [Turn.event?, Turn.sensitivity?] using whole

theorem fanOut_snoc (b : Bridge F) (device : List SbEvent) (ev : SbEvent) :
    b.fanOut p (device ++ [ev]) =
      (((b.fanOut p device).1.each (fun _ => Stage.spnavEvent p ev) (List.finRange maxClients)).1,
        (b.fanOut p device).2 ++ ((b.fanOut p device).1.each (fun _ => Stage.spnavEvent p ev)
          (List.finRange maxClients)).2) := by
  unfold fanOut
  rw [List.foldl_append]
  rfl

theorem fanOut_tally (b : Bridge F) (device : List SbEvent) :
    (b.fanOut p device).1.shared.sensitivity =
      (changes (b.fanOut p device).2).getLastD b.shared.sensitivity := by
  induction device using List.reverseRecOn with
  | nil => rfl
  | append_singleton device ev ih =>
      rw [fanOut_snoc, changes_append, getLastD_append, ← ih]
      exact (each_tally _ (fun _ => grows_spnavEvent ev) _).2

theorem fanOut_stands (b : Bridge F) (device : List SbEvent)
    (stands : Stands p b.shared.calls log (b.clients i) talk) (used : (b.clients i).used = true) :
    ∃ talk', Stands p (b.fanOut p device).1.shared.calls (log ++ eventsOf i (b.fanOut p device).2)
        ((b.fanOut p device).1.clients i) talk' ∧
      ((b.fanOut p device).1.clients i).used = true ∧
        Fed talk device (changes (b.fanOut p device).2) talk' := by
  induction device using List.reverseRecOn with
  | nil =>
      refine ⟨talk, ?_, used, fed_nil talk⟩
      show Stands p b.shared.calls (log ++ []) (b.clients i) talk
      rwa [List.append_nil]
  | append_singleton device ev ih =>
      obtain ⟨talk', stands', used', fed⟩ := ih
      obtain ⟨talk'', stands'', used'', fed'⟩ := spnavEvent_stands _ ev stands' used'
      rw [fanOut_snoc, eventsOf_append, ← List.append_assoc, changes_append]
      exact ⟨talk'', stands'', used'', fed.trans fed'⟩

/-- The turn of a slot that is polled. -/
theorem serve_stands (b : Bridge F) (stage : Fin maxClients → Stage F) (grows : ∀ k, Grows (stage k))
    {polled : Bool} {events : UInt16} (polls : stage i = servePolled p polled events)
    (stands : Stands p b.shared.calls log (b.clients i) talk) (used : (b.clients i).used = true)
    (stays : ((b.each stage (List.finRange maxClients)).1.clients i).used = true) :
    let done := b.each stage (List.finRange maxClients)
    ∃ talk', Stands p done.1.shared.calls (log ++ eventsOf i done.2) (done.1.clients i) talk' ∧
      Iterated i b.shared.sensitivity talk [] done.2 talk' := by
  intro done
  obtain ⟨front, back, sh, cl, turn⟩ :=
    each_turn b grows (List.nodup_finRange maxClients) (List.mem_finRange i)
  obtain ⟨talk', stands', fed⟩ := (stands.later turn.before).learn used (changes front)
  rw [← turn.client] at stands'
  have alive : (stage i sh cl).client.used = true := by
    rwa [turn.after, Client.learn_used] at stays
  have own : ∃ talk'', Stands p (stage i sh cl).shared.calls (log ++ (stage i sh cl).events)
      (stage i sh cl).client talk'' ∧
        Goes sh.sensitivity talk' (stage i sh cl).events (stage i sh cl).shared.sensitivity talk'' := by
    rw [polls] at alive ⊢
    unfold servePolled at alive ⊢
    split
    · rename_i goes
      rw [if_pos goes] at alive
      -- the client that stays has not been closed
      have finished : ∀ (sh : Shared F) (cl : Client F),
          (Stage.finish sh cl).client.used = true → Stage.finish sh cl = ⟨sh, cl, []⟩ := by
        intro sh cl stays
        unfold Stage.finish at stays ⊢
        split
        · rename_i closes
          rw [if_pos closes] at stays
          cases stays
        · rfl
      obtain ⟨talk'', stands'', goes'⟩ := goesOn_attend events sh cl log talk' stands'
      have last := finished _ _ alive
      unfold Stage.serve Outcome.andThen
      rw [last, List.append_nil]
      exact ⟨talk'', stands'', goes'⟩
    · exact goesOn_skip sh cl log talk' stands'
  obtain ⟨talk'', stands'', goes⟩ := own
  obtain ⟨talk3, stands3, fed'⟩ := stands''.learn alive (changes back)
  rw [← turn.after] at stands3
  refine ⟨talk3, ?_, ?_⟩
  · rw [turn.own]
    exact stands3.later turn.behind
  · rw [show done.2 = _ from turn.events]
    rw [turn.sensitivity] at goes
    exact fed.iterated ((iterated_of_goes goes).fed fed')

/-! ### No connection is opened on a slot that has one -/

theorem each_goesOn (b : Bridge F) {stage : Fin maxClients → Stage F}
    (grows : ∀ k, Grows (stage k))
    (turn : ∀ sh cl, ∀ event ∈ (stage i sh cl).events, event.goesOn = true) :
    ∀ event ∈ eventsOf i (b.each stage (List.finRange maxClients)).2, event.goesOn = true := by
  obtain ⟨front, back, sh, cl, turned⟩ :=
    each_turn b grows (List.nodup_finRange maxClients) (List.mem_finRange i)
  rw [turned.own]
  exact turn sh cl

theorem servePolled_goesOn (polled : Bool) (events : UInt16) (sh : Shared F) (cl : Client F) :
    ∀ event ∈ (servePolled p polled events sh cl).events, event.goesOn = true := by
  have finished : ∀ (sh : Shared F) (cl : Client F), ∀ event ∈ (Stage.finish sh cl).events,
      event.goesOn = true := by
    intro sh cl event inside
    unfold Stage.finish at inside
    split at inside
    · rw [List.mem_singleton.mp inside]
      rfl
    · cases inside
  intro event inside
  unfold servePolled at inside
  split at inside
  · rcases List.mem_append.mp inside with attended | last
    · exact goesOn_of_path (attend_path (p := p) events (sh, cl)) event attended
    · exact finished _ _ event last
  · cases inside

theorem fanOut_goesOn (b : Bridge F) (device : List SbEvent) :
    ∀ event ∈ eventsOf i (b.fanOut p device).2, event.goesOn = true := by
  induction device using List.reverseRecOn with
  | nil =>
      intro event inside
      cases inside
  | append_singleton device ev ih =>
      intro event inside
      rw [fanOut_snoc, eventsOf_append] at inside
      rcases List.mem_append.mp inside with before | now
      · exact ih event before
      · exact each_goesOn _ (fun _ => grows_spnavEvent ev)
          (fun sh cl => goesOn_of_path (Still.steps (spnavEvent_path (p := p) ev (sh, cl)))) event now

/-! ### An iteration -/

/-- The device and the turns, on a slot that has a connection when they begin. -/
theorem told_stands (b told : Bridge F) (reports : Reports)
    (stands : Stands p told.shared.calls log (told.clients i) talk)
    (used : (told.clients i).used = true)
    (stays : (((told.fanOut p reports.device).1.each (b.turns p reports)
      (List.finRange maxClients)).1.clients i).used = true) :
    let fed := told.fanOut p reports.device
    let done := fed.1.each (b.turns p reports) (List.finRange maxClients)
    (∃ talk', Stands p done.1.shared.calls (log ++ eventsOf i (fed.2 ++ done.2))
        (done.1.clients i) talk' ∧
      Iterated i told.shared.sensitivity talk reports.device (fed.2 ++ done.2) talk') ∧
      ∀ event ∈ eventsOf i (fed.2 ++ done.2), event.goesOn = true := by
  intro fed done
  have grows : ∀ k, Grows (b.turns p reports k) := fun k => grows_servePolled _ _
  obtain ⟨talk', stands', used', feeds⟩ := fanOut_stands told reports.device stands used
  obtain ⟨talk'', stands'', goes⟩ := serve_stands fed.1 _ grows rfl stands' used' stays
  rw [eventsOf_append]
  refine ⟨⟨talk'', ?_, ?_⟩, ?_⟩
  · rw [← List.append_assoc]
    exact stands''
  · rw [fanOut_tally] at goes
    have whole := feeds.iterated goes
    rwa [List.append_nil] at whole
  · intro event inside
    rcases List.mem_append.mp inside with before | now
    · exact fanOut_goesOn told reports.device event before
    · exact each_goesOn fed.1 grows (servePolled_goesOn _ _) event now

theorem acceptClient_tally (b : Bridge F) (accepted : Option (Nat × Bool)) :
    b.shared.calls ≤ (b.acceptClient p accepted).1.shared.calls ∧
      (b.acceptClient p accepted).1.shared.sensitivity =
        (changes (b.acceptClient p accepted).2).getLastD b.shared.sensitivity := by
  unfold acceptClient
  split
  · rename_i fd ssl k found
    exact at_tally b k (grows_openClient fd ssl)
  · exact ⟨le_rfl, rfl⟩

/-- A slot with a connection is not given another. -/
theorem acceptClient_other (b : Bridge F) (accepted : Option (Nat × Bool))
    (used : (b.clients i).used = true) :
    (b.acceptClient p accepted).1.clients i =
        (b.clients i).learn (changes (b.acceptClient p accepted).2) ∧
      eventsOf i (b.acceptClient p accepted).2 = [] := by
  unfold acceptClient
  split
  · rename_i fd ssl k found
    have other : i ≠ k := by
      rintro rfl
      rw [findFreeSlot_free found] at used
      cases used
    exact ⟨at_learns b other _, (at_other b other _).2⟩
  · exact ⟨rfl, rfl⟩

/-- A free slot stays free, or has just been given a connection. -/
theorem acceptClient_free (b : Bridge F) (accepted : Option (Nat × Bool))
    (free : b.clients i = .closed)
    (used : ((b.acceptClient p accepted).1.clients i).used = true) :
    Stands p (b.acceptClient p accepted).1.shared.calls []
        ((b.acceptClient p accepted).1.clients i) none ∧
      eventsOf i (b.acceptClient p accepted).2 = [.opened] := by
  unfold acceptClient at used ⊢
  split
  · rename_i fd ssl k found
    simp only [found] at used
    by_cases same : i = k
    · subst same
      obtain ⟨client, events⟩ := at_self b i (openClient p fd ssl)
      rw [client] at used ⊢
      rw [events, free] at *
      unfold openClient at used ⊢
      cases ssl with
      | false => cases used
      | true =>
          refine ⟨⟨.listens rfl (Or.inl rfl) ⟨rfl, rfl⟩ rfl rfl, fun msg at_ => ?_,
            fun _ => unrefused_nil⟩, rfl⟩
          exact absurd at_.1 nofun
    · rw [at_learns b same, Client.learn_used, free] at used
      cases used
  · rename_i none_
    exfalso
    split at used
    · rename_i found
      exact none_ _ _ _ rfl found
    · rw [free] at used
      cases used

/-- Nothing but `accept` gives a slot a connection. -/
theorem unused_stays (b told : Bridge F) (reports : Reports) (unpolled : (b.clients i).used = false)
    (unused : (told.clients i).used = false) :
    (((told.fanOut p reports.device).1.each (b.turns p reports)
      (List.finRange maxClients)).1.clients i).used = false := by
  have hears : ∀ (cl : Client F) (value : F), cl.used = false → (cl.assign value).used = false :=
    fun cl value unused => (sameIo_assign value cl).used.trans unused
  refine each_keeps (I := fun cl => cl.used = false) hears _ _ _ (fun sh cl unused => ?_) ?_
  · have skipped : b.turns p reports i sh cl = ⟨sh, cl, []⟩ := by
      refine if_neg fun polled => ?_
      rw [unpolled] at polled
      cases polled.1
    rw [skipped]
    exact unused
  · refine fanOut_keeps (I := fun cl => cl.used = false) hears _ _ (fun ev sh cl unused => ?_) unused
    unfold Stage.spnavEvent
    cases cl.ctrl with
    | none => exact unused
    | some ctrl =>
        dsimp only
        rw [if_neg (by simp [unused])]
        exact unused

/-- **A slot in an iteration**, from its history before to its history behind. -/
theorem iterate_stands {past : List (Event F)} (b : Bridge F) (reports : Reports)
    (running : b.running = true) (kept : reports.lost = false)
    (stands : (b.clients i).used = true → Stands p b.shared.calls (history past) (b.clients i) talk)
    (free : (b.clients i).used = false → b.clients i = .closed ∧ talk = none)
    (stays : ((b.iterate p (.ready reports)).1.clients i).used = true) :
    ∃ talk', Stands p (b.iterate p (.ready reports)).1.shared.calls
        (history (past ++ eventsOf i (b.iterate p (.ready reports)).2))
        ((b.iterate p (.ready reports)).1.clients i) talk' ∧
      Iterated i b.shared.sensitivity talk reports.device (b.iterate p (.ready reports)).2 talk' := by
  rw [iterate_ready b reports running kept] at stays ⊢
  obtain ⟨told, is⟩ : ∃ told, told = (b.acceptClient p reports.accepted).1 := ⟨_, rfl⟩
  have told_eq : b.told p reports = (told.fanOut p reports.device).1 := by rw [is]; rfl
  have events : b.toldEvents p reports =
      (b.acceptClient p reports.accepted).2 ++ (told.fanOut p reports.device).2 := by rw [is]; rfl
  rw [told_eq] at stays ⊢
  rw [events, List.append_assoc, eventsOf_append]
  cases used : (b.clients i).used with
  | true =>
      obtain ⟨heard, silent⟩ := acceptClient_other (p := p) b reports.accepted used
      obtain ⟨calls, tally⟩ := acceptClient_tally (p := p) b reports.accepted
      rw [← is] at heard calls tally
      obtain ⟨talk', stands', fed⟩ := ((stands used).later calls).learn used
        (changes (b.acceptClient p reports.accepted).2)
      rw [← heard] at stands'
      have used' : (told.clients i).used = true := by rw [heard, Client.learn_used, used]
      obtain ⟨⟨talk'', stands'', iterated⟩, goesOn⟩ := told_stands b told reports stands' used' stays
      rw [tally] at iterated
      rw [silent, List.nil_append, history_append past goesOn]
      exact ⟨talk'', stands'', fed.iterated iterated⟩
  | false =>
      obtain ⟨closed, rfl⟩ := free used
      have used' : (told.clients i).used = true := by
        by_contra unused
        have still := unused_stays (p := p) b told reports used (by simpa using unused)
        rw [still] at stays
        cases stays
      obtain ⟨opened, first⟩ := acceptClient_free (p := p) b reports.accepted closed (is ▸ used')
      obtain ⟨-, tally⟩ := acceptClient_tally (p := p) b reports.accepted
      rw [← is] at opened tally
      obtain ⟨⟨talk'', stands'', iterated⟩, goesOn⟩ := told_stands b told reports opened used' stays
      rw [tally] at iterated
      rw [first, history_reopened past goesOn]
      rw [List.nil_append] at stands''
      have none_ : Fed (none : Option (Talk F)) [] (changes (b.acceptClient p reports.accepted).2)
        none := trivial
      exact ⟨talk'', stands'', none_.iterated iterated⟩

end Bridge

/-! ## Runs -/

/-- The device events that an iteration hands out. -/
def PollResult.device : PollResult → List SbEvent
  | .ready reports => reports.device
  | _ => []

section Run

variable (p) (sensitivity : F) (saved : Option CStr)

/-- What the slots did from iteration `n` of the run on. -/
def eventsFrom (polls : List PollResult) (n : Nat) : List (SlotEvent F) :=
  (((mainLoop p sensitivity saved).answers polls).drop n).flatten

/-- The talk began in an iteration of the run, with the sensitivity that was in effect then, and has
heard the device and every change of the sensitivity since. -/
def SinceUpgrade (polls : List PollResult) (i : Fin maxClients) (t : Talk F) : Prop :=
  ∃ past poll rest front back, polls = past ++ poll :: rest ∧
    (((mainLoop p sensitivity saved).after past).iterate p poll).2 =
      front ++ (i, .phase .ws) :: back ∧
    t.events = rest.flatMap PollResult.device ∧
    t.sensitivities =
      (changes front).getLastD ((mainLoop p sensitivity saved).after past).shared.sensitivity ::
        changes (back ++ eventsFrom p sensitivity saved polls (past.length + 1))

theorem eventsFrom_snoc (polls : List PollResult) (poll : PollResult) {n : Nat}
    (inside : n ≤ polls.length) :
    eventsFrom p sensitivity saved (polls ++ [poll]) n =
      eventsFrom p sensitivity saved polls n ++
        (((mainLoop p sensitivity saved).after polls).iterate p poll).2 := by
  have size : n ≤ ((mainLoop p sensitivity saved).answers polls).length := by
    rwa [Machine.length_answers]
  unfold eventsFrom
  rw [Machine.answers_snoc, List.drop_append_of_le_length size, List.flatten_append]
  simp [Machine.answer, mainLoop]

theorem eventsFrom_length (polls : List PollResult) :
    eventsFrom p sensitivity saved polls polls.length = [] := by
  unfold eventsFrom
  rw [List.drop_of_length_le (Machine.length_answers ..).le, List.flatten_nil]

theorem running_of_used (polls : List PollResult) (i : Fin maxClients)
    (used : (((mainLoop p sensitivity saved).after polls).clients i).used = true) :
    ((mainLoop p sensitivity saved).after polls).running = true := by
  induction polls using List.reverseRecOn with
  | nil => rfl
  | append_singleton polls poll ih =>
      rw [Machine.after_snoc] at used ⊢
      generalize (mainLoop p sensitivity saved).after polls = b at ih used ⊢
      change ((b.iterate p poll).1.clients i).used = true at used
      show (b.iterate p poll).1.running = true
      cases running : b.running with
      | false =>
          simp only [Bridge.iterate, running, Bool.not_false, if_true] at used ⊢
          exact (ih used).symm.trans running ▸ rfl
      | true =>
          cases poll with
          | interrupted => simp [Bridge.iterate, running]
          | broken =>
              simp only [Bridge.iterate, running, Bool.not_true, Bool.false_eq_true, if_false] at used
              rw [Bridge.shutDown_unused] at used
              cases used
          | ready reports =>
              have kept := Bridge.not_lost_of_used running used
              rw [Bridge.iterate_ready b reports running kept]
              show (Bridge.each _ _ _).1.running = true
              rw [Bridge.each_running, Bridge.told_running, running]

theorem since_snoc {polls : List PollResult} {poll : PollResult} {i : Fin maxClients}
    {talk talk' : Option (Talk F)} (since : ∀ t ∈ talk, SinceUpgrade p sensitivity saved polls i t)
    (iterated : Iterated i ((mainLoop p sensitivity saved).after polls).shared.sensitivity talk
      poll.device (((mainLoop p sensitivity saved).after polls).iterate p poll).2 talk') :
    ∀ t ∈ talk', SinceUpgrade p sensitivity saved (polls ++ [poll]) i t := by
  intro t there
  obtain rfl : talk' = some t := there
  cases talk with
  | none =>
      obtain ⟨quiet, front, back, split, told⟩ := iterated
      refine ⟨polls, poll, [], front, back, rfl, split, quiet, ?_⟩
      rw [show polls.length + 1 = (polls ++ [poll]).length by simp, eventsFrom_length,
        List.append_nil]
      exact told
  | some t' =>
      obtain ⟨turns, rfl, fed, told'⟩ := iterated
      obtain ⟨past, first, rest, front, back, rfl, upgrade, events, told⟩ := since t' rfl
      refine ⟨past, first, rest ++ [poll], front, back, by simp, upgrade, ?_, ?_⟩
      · rw [Talk.events_on, events, fed, List.flatMap_append, List.flatMap_singleton]
      · rw [Talk.sensitivities_on, told, told', eventsFrom_snoc p sensitivity saved _ poll (by simp),
          ← List.append_assoc, List.cons_append, ← changes_append]

/-- Every connection of a run stands somewhere in its talk. -/
theorem stands_run (polls : List PollResult) (i : Fin maxClients) :
    let b := (mainLoop p sensitivity saved).after polls
    ∃ talk, ((b.clients i).used = true → Stands p b.shared.calls
        (history (slotEvents p sensitivity saved polls i)) (b.clients i) talk) ∧
      ((b.clients i).used = false → talk = none) ∧
        ∀ t ∈ talk, SinceUpgrade p sensitivity saved polls i t := by
  induction polls using List.reverseRecOn with
  | nil =>
      exact ⟨none, fun used => Bool.noConfusion used, fun _ => rfl, fun t there => by cases there⟩
  | append_singleton polls poll ih =>
      intro b'
      obtain ⟨talk, stands, untold, since⟩ := ih
      have free := (shape_run (p := p) sensitivity saved polls i).2
      have grows := fun talk' (iterated : Iterated i _ talk poll.device _ talk') =>
        since_snoc p sensitivity saved since iterated
      have snoc : b' = (((mainLoop p sensitivity saved).after polls).iterate p poll).1 :=
        Machine.after_snoc ..
      have running : (b'.clients i).used = true → b'.running = true :=
        running_of_used p sensitivity saved (polls ++ [poll]) i
      rw [slotEvents_snoc]
      generalize (mainLoop p sensitivity saved).after polls = b at stands untold free grows snoc ⊢
      cases used : (b'.clients i).used with
      | false =>
          exact ⟨none, fun there => Bool.noConfusion there, fun _ => rfl, fun t there => by cases there⟩
      | true =>
          have runs := running used
          rw [snoc] at used runs ⊢
          have ran : b.running = true := by
            by_contra ended
            have same : b.iterate p poll = (b, []) := by
              simp [Bridge.iterate, Bool.eq_false_iff.mpr ended]
            rw [same] at runs
            exact ended runs
          cases poll with
          | broken =>
              simp only [Bridge.iterate, ran, Bool.not_true, Bool.false_eq_true, if_false] at used
              rw [Bridge.shutDown_unused] at used
              cases used
          | interrupted =>
              have same : b.iterate p .interrupted = (b, []) := by simp [Bridge.iterate, ran]
              rw [same] at used grows ⊢
              refine ⟨talk, fun _ => ?_, fun unused => Bool.noConfusion unused, grows talk ?_⟩
              · rw [eventsOf_nil, List.append_nil]
                exact stands used
              · have still : Goes b.shared.sensitivity talk [] b.shared.sensitivity talk :=
                  .refl _ talk rfl
                exact iterated_of_goes still
          | ready reports =>
              have kept := Bridge.not_lost_of_used ran used
              obtain ⟨talk', stands', iterated⟩ := Bridge.iterate_stands b reports ran kept stands
                (fun unused => ⟨(free unused).1, untold unused⟩) used
              exact ⟨talk', fun _ => stands', fun unused => Bool.noConfusion unused,
                grows talk' iterated⟩

theorem Stands.ctrl {calls : Nat} {log : List (Event F)} {cl : Client F} {talk : Option (Talk F)}
    (stands : Stands p calls log cl talk) :
    cl.ctrl = talk.map (fun t => t.controller p.toOutside) := by
  cases stands.course with
  | listens ctrl phase idle silent waits => exact ctrl
  | hangsUp ctrl closing silent => exact ctrl
  | replied ctrl closing req body w said answered => exact ctrl
  | talks t follows => exact follows.ctrl

/-- A client that still speaks has been heard to the end. -/
theorem Stands.said_eq {calls : Nat} {log : List (Event F)} {cl : Client F} {t : Talk F}
    (stands : Stands p calls log cl (some t)) (ws : cl.phase = .ws) :
    t.items = said (received log) := by
  cases stands.course with
  | talks t follows =>
      obtain ⟨reader, at_, reads⟩ := follows.reads ws
      cases reader with
      | head => exact absurd (ws.symm.trans at_) ClientPhase.noConfusion
      | stopped => exact absurd (ws.symm.trans at_) ClientPhase.noConfusion
      | frames msg => exact (reads.said_eq (stands.waits msg at_)).symm

/-- **Every connection is the talk of its controller.**  Whatever the slots do in between, the
controller is in the state that its turns lead to, and what the connection did is what was
answered to them; the turns are what the client said, all that the device did since the upgrade,
and the sensitivity, as it was at the upgrade and as any client has set it since.  A connection
without a controller has answered one request at most. -/
theorem session_refines (polls : List PollResult) (i : Fin maxClients) :
    let log := history (slotEvents p sensitivity saved polls i)
    let cl := ((mainLoop p sensitivity saved).after polls).clients i
    ∃ talk : Option (Talk F),
      (cl.ctrl = talk.map fun t =>
        (controllerMachine p.lib (p.envs t.number)).after (t.calls p.toOutside)) ∧
      (∀ t ∈ talk, t.Admitted p.toOutside ∧
        deeds log = t.deeds p.toOutside ∧
        t.numbers.Pairwise (· < ·) ∧
        t.items <+: said (received log) ∧ (cl.phase = .ws → t.items = said (received log)) ∧
        SinceUpgrade p sensitivity saved polls i t) ∧
      (talk = none → cl.used = true → deeds log = [] ∨ ∃ req body w,
        [.request req body] <+: said (received log) ∧
          deeds log = .request req body :: replies p.toOutside w req body) := by
  intro log cl
  obtain ⟨talk, stands, untold, since⟩ := stands_run p sensitivity saved polls i
  cases used : cl.used with
  | false =>
      obtain rfl := untold used
      refine ⟨none, ?_, fun t there => (nomatch there), fun _ there => Bool.noConfusion there⟩
      rw [show cl = .closed from ((shape_run (p := p) sensitivity saved polls i).2 used).1]
      rfl
  | true =>
      obtain ⟨course, waits, -⟩ := stands used
      refine ⟨talk, ?_, fun t there => ?_, ?_⟩
      · rw [(stands used).ctrl]
        exact congrArg (talk.map ·) (funext fun t => t.controller_eq p.toOutside)
      · obtain rfl : talk = some t := there
        have said := (stands used).said_eq
        cases course with
        | talks t follows =>
            exact ⟨follows.admitted, follows.deeds, follows.order, follows.said, said, since t rfl⟩
      · rintro rfl _
        cases course with
        | listens ctrl phase idle silent waits => exact Or.inl silent
        | hangsUp ctrl closing silent => exact Or.inl silent
        | replied ctrl closing req body w said answered => exact Or.inr ⟨req, body, w, said, answered⟩

end Run

end SpnavBridge.Daemon
