/-
# Daemon.History -- the history of a slot along a run of the main loop

`OwnStep` adds to the steps of a client what is done on its slot: a connection is opened on
it, and it is closed.  `SlotStep` adds what happens elsewhere: the other slots go on, and the
controller hears of a change that another client asked for.  Whatever the main loop does,
every slot walks a path of them (`run_path`).

`history` is what happened since the last connection was opened on a slot, so a statement
about a connection is one about a history.
-/
import SpnavBridge.Daemon.Steps

namespace SpnavBridge.Daemon

open SpnavBridge.Theory SpnavBridge.Wire SpnavBridge.Kernel

set_option autoImplicit false
set_option linter.unusedSectionVars false

variable {D F : Type} [CFloat F] [CDouble D F]

/-! ## Histories -/

/-- The events of a slot. -/
def eventsOf (i : Fin maxClients) (trace : List (SlotEvent F)) : List (Event F) :=
  trace.filterMap fun event => if event.1 = i then some event.2 else none

/-- What happened since the last connection was opened. -/
def history (events : List (Event F)) : List (Event F) :=
  events.foldl (fun log event => match event with
    | .opened => []
    | event => log ++ [event]) []

/-- The event opens no connection. -/
def Event.goesOn : Event F → Bool
  | .opened => false
  | _ => true

@[simp] theorem eventsOf_nil (i : Fin maxClients) : eventsOf i ([] : List (SlotEvent F)) = [] :=
  rfl

@[simp] theorem eventsOf_append (i : Fin maxClients) (trace more : List (SlotEvent F)) :
    eventsOf i (trace ++ more) = eventsOf i trace ++ eventsOf i more := List.filterMap_append

theorem eventsOf_slot (i j : Fin maxClients) (events : List (Event F)) :
    eventsOf j (events.map (i, ·)) = if i = j then events else [] := by
  unfold eventsOf
  rw [List.filterMap_map]
  split
  · rename_i same
    simp [same]
  · rename_i other
    simp [other]

theorem history_opened (past : List (Event F)) : history (past ++ [.opened]) = [] := by
  rw [history, List.foldl_append]
  rfl

theorem history_append (past : List (Event F)) {events : List (Event F)}
    (goesOn : ∀ event ∈ events, event.goesOn = true) :
    history (past ++ events) = history past ++ events := by
  induction events using List.reverseRecOn with
  | nil => simp
  | append_singleton events event ih =>
      have last := goesOn event (by simp)
      have front := ih fun event inside => goesOn event (List.mem_append_left _ inside)
      rw [← List.append_assoc, history, List.foldl_append]
      show (match event with
        | .opened => []
        | event => history (past ++ events) ++ [event]) = _
      rw [front]
      cases event with
      | opened => cases last
      | _ => exact List.append_assoc ..

/-! ## Steps of a slot -/

/-- What is done on a slot at once. -/
inductive OwnStep (p : Platform D) : Place F → List (Event F) → Place F → Prop
  | serves {s s' : Place F} {events : List (Event F)} (used : s.2.used = true)
      (step : Step p s events s') : OwnStep p s events s'
  | outside {sh : Shared F} {cl : Client F} (calls : Nat) :
      OwnStep p (sh, cl) [] ({ sh with calls }, cl)
  | opens {sh : Shared F} {cl : Client F} (fd : Nat) (free : cl.used = false) :
      OwnStep p (sh, cl) [.opened] (sh, cl.opened fd (p.clock sh.calls))
  | refuses {sh : Shared F} {cl : Client F} :
      OwnStep p (sh, cl) [.opened, .closed] (sh, .closed)
  | closes {sh : Shared F} {cl : Client F} (used : cl.used = true) :
      OwnStep p (sh, cl) [.closed] (sh, .closed)

/-- What happens to a slot at once, here or elsewhere. -/
inductive SlotStep (p : Platform D) : Place F → List (Event F) → Place F → Prop
  | own {s s' : Place F} {events : List (Event F)} (step : OwnStep p s events s') :
      SlotStep p s events s'
  | elsewhere {sh : Shared F} {cl : Client F} (sh' : Shared F) :
      SlotStep p (sh, cl) [] (sh', cl)
  | hears {sh : Shared F} {cl : Client F} (value : F) :
      SlotStep p (sh, cl) [] (sh, cl.assign value)

variable {p : Platform D}

theorem slotPath_of_own {s s' : Place F} {events : List (Event F)}
    (path : Path (OwnStep p) s events s') : Path (SlotStep p) s events s' :=
  path.mono (I := fun _ => True) (fun _ _ _ _ _ => trivial) (fun _ _ _ _ step => .own step) trivial

theorem ownPath_of_steps {s s' : Place F} {events : List (Event F)} (used : s.2.used = true)
    (path : Path (Step p) s events s') : Path (OwnStep p) s events s' :=
  path.mono (I := fun s => s.2.used = true) (fun _ _ _ step used => step.used.trans used)
    (fun _ _ _ used step => .serves used step) used

theorem hear_path (sh : Shared F) (cl : Client F) (events : List (Event F)) :
    Path (SlotStep p) (sh, cl) [] (sh, cl.hear events) := by
  unfold Client.hear
  induction events.filterMap Event.assigned? generalizing cl with
  | nil => exact .nil
  | cons value values ih => exact .cons (.hears value) (ih _)

/-- The stage may be run on any slot. -/
def SlotStage (p : Platform D) (stage : Stage F) : Prop := ∀ s, Walks (OwnStep p) stage s

theorem finish_path {s : Place F} (used : s.2.used = true) : Walks (OwnStep p) Stage.finish s := by
  unfold Walks Stage.finish
  split
  · exact .single (.closes used)
  · exact .nil

theorem slotStage_servePolled (polled : Bool) (events : UInt16) :
    SlotStage (F := F) p (Bridge.servePolled p polled events) := by
  intro s
  unfold Walks Bridge.servePolled
  split
  · rename_i goes
    have path := attend_path (p := p) events s
    have used := path.keeps (I := fun s => s.2.used = true)
      (fun _ _ _ step used => step.used.trans used) goes.2
    exact Walks.andThen (ownPath_of_steps goes.2 path) (finish_path used)
  · exact .nil

theorem slotStage_spnavEvent (ev : SbEvent) : SlotStage (F := F) p (Stage.spnavEvent p ev) := by
  intro s
  by_cases used : s.2.used = true
  · exact ownPath_of_steps used (Still.steps (spnavEvent_path ev s))
  · unfold Walks Stage.spnavEvent
    cases s.2.ctrl with
    | none => exact .nil
    | some ctrl =>
        dsimp only
        rw [if_neg used]
        exact .nil

theorem slotStage_dropClient : SlotStage (F := F) p Bridge.dropClient := by
  intro s
  unfold Walks Bridge.dropClient
  split
  · rename_i used
    exact .single (.closes used)
  · exact .nil

/-! ## Slots in an iteration -/

namespace Bridge

/-- From `b` to what is done, slot `i` walks a path with its events. -/
def SlotPath (p : Platform D) (i : Fin maxClients) (b : Bridge F)
    (done : Bridge F × List (SlotEvent F)) : Prop :=
  Path (SlotStep p) (b.shared, b.clients i) (eventsOf i done.2) (done.1.shared, done.1.clients i)

theorem SlotPath.nil (i : Fin maxClients) (b : Bridge F) : SlotPath p i b (b, []) := Theory.Path.nil

theorem SlotPath.trans {i : Fin maxClients} {b : Bridge F} {first second : Bridge F × List (SlotEvent F)}
    (before : SlotPath p i b first) (after : SlotPath p i first.1 second) :
    SlotPath p i b (second.1, first.2 ++ second.2) := by
  unfold SlotPath
  rw [eventsOf_append]
  exact Theory.Path.trans before after

theorem at_path {i : Fin maxClients} (b : Bridge F) {stage : Stage F}
    (walks : Walks (OwnStep p) stage (b.shared, b.clients i)) (j : Fin maxClients) :
    SlotPath p j b (b.at_ i stage) := by
  unfold SlotPath at_
  dsimp only
  rw [eventsOf_slot]
  by_cases same : i = j
  · subst same
    rw [if_pos rfl, if_pos rfl]
    exact slotPath_of_own walks
  · rw [if_neg same, if_neg (Ne.symm same)]
    exact .cons (.elsewhere _) (hear_path _ _ _)

theorem each_path (b : Bridge F) {stage : Fin maxClients → Stage F}
    (walks : ∀ i, SlotStage p (stage i)) (slots : List (Fin maxClients)) (j : Fin maxClients) :
    SlotPath p j b (b.each stage slots) := by
  unfold each
  induction slots using List.reverseRecOn with
  | nil => exact .nil j b
  | append_singleton slots i ih =>
      rw [List.foldl_append]
      exact ih.trans (at_path _ (walks i _) j)

theorem fanOut_path (b : Bridge F) (device : List SbEvent) (j : Fin maxClients) :
    SlotPath p j b (b.fanOut p device) := by
  unfold fanOut
  induction device using List.reverseRecOn with
  | nil => exact .nil j b
  | append_singleton device ev ih =>
      rw [List.foldl_append]
      exact ih.trans (each_path _ (fun _ => slotStage_spnavEvent ev) _ j)

theorem shutDown_path (b : Bridge F) (j : Fin maxClients) : SlotPath p j b b.shutDown := by
  unfold shutDown
  generalize List.finRange maxClients = slots
  have path := each_path (p := p) b (fun _ => slotStage_dropClient) slots j
  unfold SlotPath at path ⊢
  dsimp only
  exact path

theorem findFreeSlot_free {b : Bridge F} {i : Fin maxClients} (found : b.findFreeSlot = some i) :
    (b.clients i).used = false := by
  have free := List.find?_some found
  simpa using free

theorem openClient_path (fd : Nat) (ssl : Bool) {s : Place F} (free : s.2.used = false) :
    Walks (OwnStep p) (openClient p fd ssl) s := by
  unfold Walks openClient
  dsimp only
  split
  · rename_i there
    subst there
    exact (Theory.Path.single (.opens fd free)).then_ (.outside _)
  · exact .cons (.outside _) (.single .refuses)

theorem acceptClient_path (b : Bridge F) (accepted : Option (Nat × Bool)) (j : Fin maxClients) :
    SlotPath p j b (b.acceptClient p accepted) := by
  unfold acceptClient
  split
  · rename_i fd ssl i found
    exact at_path b (openClient_path fd ssl (findFreeSlot_free found)) j
  · exact .nil j b

/-- **A slot in an iteration.** -/
theorem iterate_path (b : Bridge F) (poll : PollResult) (j : Fin maxClients) :
    SlotPath p j b (b.iterate p poll) := by
  unfold iterate
  split
  · exact .nil j b
  · cases poll with
    | interrupted => exact .nil j b
    | broken => exact shutDown_path b j
    | ready reports =>
        dsimp only
        refine ((acceptClient_path b _ j).trans (fanOut_path _ _ j)).trans ?_
        split
        · exact shutDown_path _ j
        · exact each_path _ (fun _ => slotStage_servePolled _ _) _ j

end Bridge

/-! ## One slot among the others -/

/-- The client has heard of some changes of the sensitivity, and nothing else. -/
def Heard (cl cl' : Client F) : Prop :=
  ∃ values : List F, cl' = values.foldl (fun cl value => cl.assign value) cl

theorem Heard.refl (cl : Client F) : Heard cl cl := ⟨[], rfl⟩

theorem Heard.trans {cl cl' cl'' : Client F} (first : Heard cl cl') (second : Heard cl' cl'') :
    Heard cl cl'' := by
  obtain ⟨values, rfl⟩ := first
  obtain ⟨more, rfl⟩ := second
  exact ⟨values ++ more, List.foldl_append.symm⟩

theorem heard_hear (cl : Client F) (events : List (Event F)) : Heard cl (cl.hear events) :=
  ⟨events.filterMap Event.assigned?, rfl⟩

/-- What a client keeps when it hears of one change, it keeps. -/
theorem Heard.keeps {I : Client F → Prop} (hears : ∀ cl value, I cl → I (cl.assign value))
    {cl cl' : Client F} (heard : Heard cl cl') (start : I cl) : I cl' := by
  obtain ⟨values, rfl⟩ := heard
  induction values generalizing cl with
  | nil => exact start
  | cons value values ih => exact ih (hears cl value start)

namespace Bridge

theorem at_self (b : Bridge F) (i : Fin maxClients) (stage : Stage F) :
    (b.at_ i stage).1.clients i = (stage b.shared (b.clients i)).client ∧
      eventsOf i (b.at_ i stage).2 = (stage b.shared (b.clients i)).events := by
  refine ⟨if_pos rfl, ?_⟩
  rw [at_, eventsOf_slot, if_pos rfl]

theorem at_other (b : Bridge F) {i j : Fin maxClients} (other : j ≠ i) (stage : Stage F) :
    Heard (b.clients j) ((b.at_ i stage).1.clients j) ∧ eventsOf j (b.at_ i stage).2 = [] := by
  refine ⟨?_, ?_⟩
  · show Heard (b.clients j) (if j = i then _ else _)
    rw [if_neg other]
    exact heard_hear _ _
  · rw [at_, eventsOf_slot, if_neg (Ne.symm other)]

theorem each_snoc (b : Bridge F) (stage : Fin maxClients → Stage F) (slots : List (Fin maxClients))
    (i : Fin maxClients) :
    b.each stage (slots ++ [i]) =
      (((b.each stage slots).1.at_ i (stage i)).1,
        (b.each stage slots).2 ++ ((b.each stage slots).1.at_ i (stage i)).2) := by
  unfold each
  rw [List.foldl_append]
  rfl

/-- A slot that is left out only hears of changes. -/
theorem each_other (b : Bridge F) (stage : Fin maxClients → Stage F) {slots : List (Fin maxClients)}
    {j : Fin maxClients} (outside : j ∉ slots) :
    Heard (b.clients j) ((b.each stage slots).1.clients j) ∧
      eventsOf j (b.each stage slots).2 = [] := by
  induction slots using List.reverseRecOn with
  | nil => exact ⟨.refl _, rfl⟩
  | append_singleton slots i ih =>
      rw [List.mem_append, not_or, List.mem_singleton] at outside
      obtain ⟨heard, silent⟩ := ih outside.1
      obtain ⟨heard', silent'⟩ := at_other (b.each stage slots).1 outside.2 (stage i)
      rw [each_snoc]
      refine ⟨heard.trans heard', ?_⟩
      rw [eventsOf_append, silent, silent']
      rfl

/-- **One slot in a round**: it hears of changes, has its turn, and hears of more. -/
theorem each_self (b : Bridge F) (stage : Fin maxClients → Stage F) {slots : List (Fin maxClients)}
    {j : Fin maxClients} (nodup : slots.Nodup) (inside : j ∈ slots) :
    ∃ sh cl, Heard (b.clients j) cl ∧
      Heard (stage j sh cl).client ((b.each stage slots).1.clients j) ∧
      eventsOf j (b.each stage slots).2 = (stage j sh cl).events := by
  induction slots using List.reverseRecOn with
  | nil => cases inside
  | append_singleton slots i ih =>
      have apart : i ∉ slots := by
        have split := List.nodup_append.mp nodup
        exact fun there => split.2.2 i there i (List.mem_singleton.mpr rfl) rfl
      rw [each_snoc, eventsOf_append]
      by_cases same : j = i
      · subst same
        obtain ⟨heard, silent⟩ := each_other b stage apart
        obtain ⟨client, events⟩ := at_self (b.each stage slots).1 j (stage j)
        refine ⟨(b.each stage slots).1.shared, (b.each stage slots).1.clients j, heard, ?_, ?_⟩
        · rw [client]
          exact .refl _
        · rw [silent, events]
          rfl
      · have inside' : j ∈ slots := by
          rcases List.mem_append.mp inside with there | last
          · exact there
          · exact absurd (List.mem_singleton.mp last) same
        obtain ⟨sh, cl, before, after, events⟩ := ih (List.nodup_append.mp nodup).1 inside'
        obtain ⟨heard, silent⟩ := at_other (b.each stage slots).1 same (stage i)
        refine ⟨sh, cl, before, after.trans heard, ?_⟩
        rw [events, silent, List.append_nil]

/-- What a slot keeps in its own turn and when it hears of changes, it keeps in a round. -/
theorem each_keeps {I : Client F → Prop} (hears : ∀ cl value, I cl → I (cl.assign value))
    (b : Bridge F) (stage : Fin maxClients → Stage F) (slots : List (Fin maxClients))
    {j : Fin maxClients} (keep : ∀ sh cl, I cl → I (stage j sh cl).client)
    (start : I (b.clients j)) : I ((b.each stage slots).1.clients j) := by
  induction slots using List.reverseRecOn with
  | nil => exact start
  | append_singleton slots i ih =>
      rw [each_snoc]
      by_cases same : j = i
      · subst same
        rw [(at_self _ _ _).1]
        exact keep _ _ ih
      · exact (at_other _ same _).1.keeps hears ih

theorem fanOut_keeps {I : Client F → Prop} (hears : ∀ cl value, I cl → I (cl.assign value))
    (b : Bridge F) (device : List SbEvent) {j : Fin maxClients}
    (keep : ∀ ev sh cl, I cl → I (Stage.spnavEvent p ev sh cl).client)
    (start : I (b.clients j)) : I ((b.fanOut p device).1.clients j) := by
  unfold fanOut
  induction device using List.reverseRecOn with
  | nil => exact start
  | append_singleton device ev ih =>
      rw [List.foldl_append]
      exact each_keeps hears _ _ _ (keep ev) ih

/-- A connection is accepted on a free slot; the others go on as they were. -/
theorem acceptClient_keeps {I : Client F → Prop} (hears : ∀ cl value, I cl → I (cl.assign value))
    (b : Bridge F) (accepted : Option (Nat × Bool)) {j : Fin maxClients}
    (keep : ∀ fd ssl sh, (b.clients j).used = false →
      I (openClient p fd ssl sh (b.clients j)).client)
    (start : I (b.clients j)) : I ((b.acceptClient p accepted).1.clients j) := by
  unfold acceptClient
  split
  · rename_i fd ssl i found
    by_cases same : j = i
    · subst same
      rw [(at_self _ _ _).1]
      exact keep _ _ _ (findFreeSlot_free found)
    · exact (at_other _ same _).1.keeps hears start
  · exact start

end Bridge

/-! ## Runs -/

variable (p)

/-- The events of a slot along a run. -/
def slotEvents (sensitivity : F) (saved : Option CStr) (polls : List PollResult)
    (i : Fin maxClients) : List (Event F) :=
  eventsOf i ((mainLoop p sensitivity saved).answers polls).flatten

theorem slotEvents_snoc (sensitivity : F) (saved : Option CStr) (polls : List PollResult)
    (poll : PollResult) (i : Fin maxClients) :
    slotEvents p sensitivity saved (polls ++ [poll]) i =
      slotEvents p sensitivity saved polls i ++
        eventsOf i (((mainLoop p sensitivity saved).after polls).iterate p poll).2 := by
  unfold slotEvents
  rw [Machine.answers_snoc, List.flatten_append, eventsOf_append, List.flatten_singleton]
  rfl

/-- **Every slot walks a path**, from a free slot on. -/
theorem run_path (sensitivity : F) (saved : Option CStr) (polls : List PollResult)
    (i : Fin maxClients) :
    Path (SlotStep p) (⟨sensitivity, saved, 0⟩, .closed) (slotEvents p sensitivity saved polls i)
      (((mainLoop p sensitivity saved).after polls).shared,
        ((mainLoop p sensitivity saved).after polls).clients i) := by
  induction polls using List.reverseRecOn with
  | nil => exact .nil
  | append_singleton polls poll ih =>
      rw [slotEvents_snoc, Machine.after_snoc]
      exact ih.trans (Bridge.iterate_path _ poll i)

/-! ## Invariants of connections -/

/-- No step of a client opens a connection. -/
theorem Step.goesOn {s s' : Place F} {events : List (Event F)} (step : Step p s events s') :
    ∀ event ∈ events, event.goesOn = true := by
  intro event inside
  cases step with
  | works work =>
      cases work <;> first | (cases inside; done) | (rw [List.mem_singleton.mp inside]; rfl)
  | flushes ssl open_ readFree =>
      obtain ⟨output, -, rfl⟩ := List.mem_map.mp inside
      rfl
  | accepts tls =>
      rcases List.mem_cons.mp inside with rfl | inside
      · rfl
      · rw [List.mem_singleton.mp inside]
        rfl
  | consumes rest fits open_ => cases inside
  | _ =>
      rw [List.mem_singleton.mp inside]
      rfl

/-- The connection that a slot had last, up to the point where it was closed. -/
def LastConnection (I : List (Event F) → Client F → Prop) (log : List (Event F)) : Prop :=
  log = [] ∨ ∃ front cl, log = front ++ [.closed] ∧ I front cl

/-- **The invariant rule for connections.**  What holds of a connection that was just opened,
and is kept by its steps and by what its controller hears, holds of every connection in
every run; and a slot without one is as `close_client` left it. -/
theorem connection_invariant {I : List (Event F) → Client F → Prop}
    (opens : ∀ fd now, I [] (Client.closed.opened fd now))
    (serves : ∀ log s events s', Step p s events s' → I log s.2 → I (log ++ events) s'.2)
    (hears : ∀ log cl value, I log cl → I log (cl.assign value))
    (sensitivity : F) (saved : Option CStr) (polls : List PollResult) (i : Fin maxClients) :
    let log := history (slotEvents p sensitivity saved polls i)
    let cl := ((mainLoop p sensitivity saved).after polls).clients i
    (cl.used = true → I log cl) ∧ (cl.used = false → cl = .closed ∧ LastConnection I log) := by
  have kept := (run_path p sensitivity saved polls i).invariant
    (I := fun past s => (s.2.used = true → I (history past) s.2) ∧
      (s.2.used = false → s.2 = .closed ∧ LastConnection I (history past)))
    ?_ [] ⟨fun used => Bool.noConfusion used, fun _ => ⟨rfl, Or.inl rfl⟩⟩
  · exact kept
  · rintro past s events s' step ⟨live, free⟩
    cases step with
    | own step =>
        cases step with
        | serves used step =>
            have used' := step.used.trans used
            refine ⟨fun _ => ?_, fun free' => ?_⟩
            · rw [history_append past step.goesOn]
              exact serves _ s events s' step (live used)
            · rw [used'] at free'
              cases free'
        | outside calls =>
            rw [List.append_nil]
            exact ⟨live, free⟩
        | opens fd unused =>
            rename_i sh cl
            obtain rfl : cl = .closed := (free unused).1
            rw [history_opened]
            exact ⟨fun _ => opens fd _, fun free' => Bool.noConfusion free'⟩
        | refuses =>
            refine ⟨fun used => Bool.noConfusion used, fun _ => ⟨rfl, Or.inr ?_⟩⟩
            refine ⟨[], _, ?_, opens 0 0⟩
            rw [show ([.opened, .closed] : List (Event F)) = [.opened] ++ [.closed] from rfl,
              ← List.append_assoc, history_append _ (by simp [Event.goesOn]), history_opened]
        | closes used =>
            rename_i sh cl
            refine ⟨fun used => Bool.noConfusion used, fun _ => ⟨rfl, Or.inr ?_⟩⟩
            exact ⟨_, cl, history_append past (by simp [Event.goesOn]), live used⟩
    | elsewhere sh' =>
        rw [List.append_nil]
        exact ⟨live, free⟩
    | hears value =>
        rename_i sh cl
        rw [List.append_nil]
        have same : (cl.assign value).used = cl.used := (sameIo_assign value cl).used
        refine ⟨fun used => hears _ cl value (live (same.symm.trans used)), fun unused => ?_⟩
        have unused' := same.symm.trans unused
        have unchanged : cl.assign value = cl := by
          unfold Client.assign
          rw [unused']
          rfl
        show cl.assign value = .closed ∧ _
        rw [unchanged]
        exact free unused'

end SpnavBridge.Daemon
