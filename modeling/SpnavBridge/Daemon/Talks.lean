/-
# Daemon.Talks -- a connection as a talk with one controller

Behind its upgrade all that a connection does is the talk of one controller: what the client
says, what the device does and what the sensitivity is set to are its turns, and what it
answers to them is what the connection does (`Talk.deeds`).  `Course` says where a connection
stands, before its request, behind a refused one or in its talk.  Every stage of the main loop
goes on with it (`goesOn_serve`, `Course.spnavEvent`, `Course.assign`).
-/
import SpnavBridge.Daemon.Inbound
import SpnavBridge.Daemon.Slots

namespace SpnavBridge.Daemon

open SpnavBridge.Theory SpnavBridge.Wire SpnavBridge.Kernel

set_option autoImplicit false
set_option linter.unusedSectionVars false

/-! ## Talks -/

/-- The sensitivity that is set. -/
def Act.assigned? {F : Type} : Act F → Option F
  | .assign value => some value
  | _ => none

/-- What the controller of a connection is given, or what the connection answers for it.
`number` counts the calls that go outside. -/
inductive Turn (F : Type) where
  | call (number : Nat) (op : Op F)
  | ping (payload : List UInt8)

namespace Turn

variable {F : Type}

/-- What the client said. -/
def item? : Turn F → Option Item
  | .call _ (.message json) => some (.text json)
  | .ping payload => some (.ping payload)
  | _ => none

/-- What the device did. -/
def event? : Turn F → Option SbEvent
  | .call _ (.spnav ev) => some ev
  | _ => none

/-- What the sensitivity was set to. -/
def sensitivity? : Turn F → Option F
  | .call _ (.setSensitivity value) => some value
  | _ => none

/-- The number of a call that reads the clock and `RAND_bytes`. -/
def number? : Turn F → Option Nat
  | .call _ (.setSensitivity _) => none
  | .call number _ => some number
  | .ping _ => none

end Turn

variable {D F : Type} [CFloat F] [CDouble D F]

theorem unassigned_of_output {acts : List (Act F)} (output : ∀ act ∈ acts, act.isOutput = true) :
    ∀ act ∈ acts, act.assigned? = none := by
  intro act inside
  have is := output act inside
  cases act with
  | assign value => cases is
  | _ => rfl

/-- A turn, and what is done about it. -/
def talkStep (o : Outside D) (c : Controller F) : Turn F → Controller F × List (Act F)
  | .call number (.message json) =>
      let done := controllerStep o.lib c ⟨.message json, o.envs number⟩
      (done.1, .message json done.2.rc :: done.2.sent.map (clientSend o))
  | .call number op =>
      let done := controllerStep o.lib c ⟨op, o.envs number⟩
      (done.1, done.2.sent.map (clientSend o))
  | .ping payload => (c, pong payload)

/-- An upgrade, and the turns behind it. -/
structure Talk (F : Type) where
  req : HttpRequest
  body : List UInt8
  accept : CBuf 28
  -- of the call that made the controller
  number : Nat
  turns : List (Turn F)

namespace Talk

section Readings

variable (t : Talk F)

/-- What the client said. -/
def items : List Item := .request t.req t.body :: t.turns.filterMap Turn.item?

def events : List SbEvent := t.turns.filterMap Turn.event?

/-- What the controller was told of the sensitivity, from the upgrade on. -/
def sensitivities : List F := t.turns.filterMap Turn.sensitivity?

def numbers : List Nat := t.number :: t.turns.filterMap Turn.number?

/-- The talk with more turns. -/
def on (turns : List (Turn F)) : Talk F := { t with turns := t.turns ++ turns }

variable (o : Outside D)

/-- The controller from `controller_create` on. -/
def machine : Machine (Controller F) (Turn F) (List (Act F)) :=
  ⟨(controllerCreate (D := D) (o.envs t.number)).1, talkStep o⟩

def controller : Controller F := (t.machine o).after t.turns

/-- All that the connection does. -/
def deeds : List (Act F) :=
  .request t.req t.body :: .queue (switchingProtocols t.accept) ::
    ((controllerCreate (D := D) (F := F) (o.envs t.number)).2.map (clientSend o) ++
      ((t.machine o).answers t.turns).flatten)

/-- The upgrade was one that the bridge accepts. -/
structure Admitted : Prop where
  upgrade : t.req.isWsUpgrade = true
  origin : originAllowed t.req.origin.str = true
  key : t.req.wsKey.str ≠ .empty
  accept : wsComputeAccept o.digest t.req.wsKey.str = some t.accept

end Readings

/-- The calls of the controller, as its own machine takes them. -/
def calls (o : Outside D) (t : Talk F) : List (Call F) :=
  t.turns.filterMap fun
    | .call number op => some ⟨op, o.envs number⟩
    | .ping _ => none

/-- A talk is a life of its controller. -/
theorem controller_eq (o : Outside D) (t : Talk F) :
    t.controller o = (controllerMachine o.lib (o.envs t.number)).after (t.calls o) := by
  obtain ⟨req, body, accept, number, turns⟩ := t
  induction turns using List.reverseRecOn with
  | nil => rfl
  | append_singleton turns turn ih =>
      have before : (Talk.mk req body accept number (turns ++ [turn])).controller o =
          (talkStep o ((Talk.mk req body accept number turns).controller o) turn).1 :=
        Machine.after_snoc ..
      rw [before, ih]
      unfold calls
      rw [List.filterMap_append]
      cases turn with
      | ping payload => simp [talkStep]
      | call number' op =>
          have last : ∀ c : Controller F, (talkStep o c (.call number' op)).1 =
              (controllerStep o.lib c ⟨op, o.envs number'⟩).1 := by
            intro c
            cases op <;> rfl
          rw [last]
          exact (Machine.after_snoc (controllerMachine o.lib (o.envs number)) _
            ⟨op, o.envs number'⟩).symm

variable {o : Outside D} {t : Talk F}

@[simp] theorem items_on (turns : List (Turn F)) :
    (t.on turns).items = t.items ++ turns.filterMap Turn.item? := by
  simp [items, on]

@[simp] theorem events_on (turns : List (Turn F)) :
    (t.on turns).events = t.events ++ turns.filterMap Turn.event? := by
  simp [events, on]

@[simp] theorem sensitivities_on (turns : List (Turn F)) :
    (t.on turns).sensitivities = t.sensitivities ++ turns.filterMap Turn.sensitivity? := by
  simp [sensitivities, on]

@[simp] theorem numbers_on (turns : List (Turn F)) :
    (t.on turns).numbers = t.numbers ++ turns.filterMap Turn.number? := by
  simp [numbers, on]

theorem on_nil : t.on [] = t := by
  simp [on]

theorem on_on (turns more : List (Turn F)) : (t.on turns).on more = t.on (turns ++ more) := by
  simp [on]

theorem controller_on (turn : Turn F) :
    (t.on [turn]).controller o = (talkStep o (t.controller o) turn).1 :=
  Machine.after_snoc ..

theorem deeds_on (turn : Turn F) :
    (t.on [turn]).deeds o = t.deeds o ++ (talkStep o (t.controller o) turn).2 := by
  have answers : ((t.on [turn]).machine o).answers (t.turns ++ [turn]) =
      (t.machine o).answers t.turns ++ [(talkStep o (t.controller o) turn).2] :=
    Machine.answers_snoc ..
  unfold deeds
  rw [show (t.on [turn]).turns = t.turns ++ [turn] from rfl, answers, List.flatten_append]
  simp [on]

/-- A talk does not set the sensitivity of the bridge. -/
theorem unassigned (t : Talk F) : ∀ act ∈ t.deeds o, act.assigned? = none := by
  have step : ∀ (c : Controller F) (turn : Turn F), ∀ act ∈ (talkStep o c turn).2,
      act.assigned? = none := by
    intro c turn
    cases turn with
    | ping payload => exact unassigned_of_output (isOutput_pong payload)
    | call number op =>
        cases op with
        | message json =>
            intro act inside
            rcases List.mem_cons.mp inside with rfl | inside
            · rfl
            · exact unassigned_of_output (isOutput_clientSends o _) act inside
        | spnav ev => exact unassigned_of_output (isOutput_clientSends o _)
        | setSensitivity value => exact unassigned_of_output (isOutput_clientSends o _)
  obtain ⟨req, body, accept, number, turns⟩ := t
  induction turns using List.reverseRecOn with
  | nil =>
      intro act inside
      rcases List.mem_cons.mp inside with rfl | inside
      · rfl
      rcases List.mem_cons.mp inside with rfl | inside
      · rfl
      exact unassigned_of_output (isOutput_clientSends o _) act
        (by simpa [machine, Machine.answers] using inside)
  | append_singleton turns turn ih =>
      intro act inside
      rw [show Talk.mk req body accept number (turns ++ [turn]) =
        (Talk.mk req body accept number turns).on [turn] from rfl, deeds_on] at inside
      rcases List.mem_append.mp inside with before | now
      · exact ih act before
      · exact step _ turn act now

theorem admitted_on (turns : List (Turn F)) : (t.on turns).Admitted o ↔ t.Admitted o :=
  ⟨fun ⟨upgrade, origin, key, accept⟩ => ⟨upgrade, origin, key, accept⟩,
    fun ⟨upgrade, origin, key, accept⟩ => ⟨upgrade, origin, key, accept⟩⟩

end Talk

/-! ## Reading a history -/

/-- What a connection did, whether the queue took it or not. -/
def Event.deed? : Event F → Option (Act F)
  -- data that is queued shows as an output
  | .act (.queue _) => none
  | .act deed => some deed
  | .output (.queued data) => some (.queue data)
  | .output (.refused data) => some (.queue data)
  | _ => none

def deeds (log : List (Event F)) : List (Act F) := log.filterMap Event.deed?

/-- The sensitivities that were set. -/
def assigned (log : List (Event F)) : List F := log.filterMap Event.assigned?

/-- The bytes `SSL_read` delivered. -/
def received (log : List (Event F)) : List UInt8 :=
  log.flatMap fun
    | .sslRead (.got chunk) => chunk
    | _ => []

/-- The queue had no room for the data, or no frame had room for the message. -/
def Event.refuses : Event F → Bool
  | .output (.refused _) => true
  | .act .reject => true
  | _ => false

def Unrefused (log : List (Event F)) : Prop := ∀ event ∈ log, event.refuses = false

theorem Unrefused.append {log more : List (Event F)} (first : Unrefused log)
    (second : Unrefused more) : Unrefused (log ++ more) := by
  intro event inside
  rcases List.mem_append.mp inside with before | now
  · exact first event before
  · exact second event now

theorem unrefused_nil : Unrefused ([] : List (Event F)) := fun _ inside => nomatch inside

/-- A client that has not failed did not fail before, and has refused nothing. -/
def Candid (cl cl' : Client F) (events : List (Event F)) : Prop :=
  cl'.out.failed = false → cl.out.failed = false ∧ Unrefused events

theorem Candid.trans {cl cl' cl'' : Client F} {events more : List (Event F)}
    (first : Candid cl cl' events) (second : Candid cl' cl'' more) :
    Candid cl cl'' (events ++ more) := by
  intro alive
  obtain ⟨alive', unrefused'⟩ := second alive
  obtain ⟨alive'', unrefused⟩ := first alive'
  exact ⟨alive'', unrefused.append unrefused'⟩

/-- Events that refuse nothing, on a client that fails no more than before. -/
theorem candid_of_same {cl cl' : Client F} {events : List (Event F)}
    (same : cl'.out.failed = false → cl.out.failed = false)
    (plain : events.all (fun event => !event.refuses) = true) : Candid cl cl' events :=
  fun alive => ⟨same alive, fun event inside => by
    simpa using List.all_eq_true.mp plain event inside⟩

@[simp] theorem deeds_append (log more : List (Event F)) :
    deeds (log ++ more) = deeds log ++ deeds more := List.filterMap_append

@[simp] theorem assigned_append (log more : List (Event F)) :
    assigned (log ++ more) = assigned log ++ assigned more := List.filterMap_append

/-- Setting the sensitivity is a deed. -/
theorem assigned_eq (log : List (Event F)) : assigned log = (deeds log).filterMap Act.assigned? := by
  unfold assigned deeds
  rw [List.filterMap_filterMap]
  refine List.filterMap_congr fun event _ => ?_
  cases event with
  | act deed => cases deed <;> rfl
  | output event => cases event <;> rfl
  | _ => rfl

theorem assigned_of_silent {log : List (Event F)} (silent : deeds log = []) : assigned log = [] := by
  rw [assigned_eq, silent, List.filterMap_nil]

@[simp] theorem received_append (log more : List (Event F)) :
    received (log ++ more) = received log ++ received more := List.flatMap_append

theorem deeds_queueOutput (q : Queue) (now : Int) (data : List UInt8) :
    deeds [.output (q.queueOutput now data).2] = [(.queue data : Act F)] := by
  unfold Queue.queueOutput
  split
  · rfl
  · split <;> rfl

/-! ## The sensitivity of the bridge -/

theorem getLastD_append {α : Type} (front back : List α) (first : α) :
    (front ++ back).getLastD first = back.getLastD (front.getLastD first) := by
  induction back using List.reverseRecOn with
  | nil => rw [List.append_nil, List.getLastD_nil]
  | append_singleton back last _ =>
      rw [← List.append_assoc, List.getLastD_concat, List.getLastD_concat]

theorem Work.tally {p : Platform D} {s s' : Place F} {events : List (Event F)}
    (work : Work p s events s') :
    s'.1.sensitivity = (assigned events).getLastD s.1.sensitivity := by
  cases work with
  | assigns value asked => rfl
  | notes act plain =>
      cases act with
      | assign value => cases plain
      | _ => rfl
  | _ => rfl

theorem Step.tally {p : Platform D} {s s' : Place F} {events : List (Event F)}
    (step : Step p s events s') :
    s'.1.sensitivity = (assigned events).getLastD s.1.sensitivity := by
  cases step with
  | works work idle => exact work.tally
  | flushes ssl open_ readFree =>
      rename_i sh cl
      cases (cl.out.flushOutput (p.clock sh.calls) ssl).2 with
      | none => rfl
      | some event => rfl
  | _ => rfl

/-- **The sensitivity of the bridge is what was set last.** -/
theorem tally_of_path {R : Place F → List (Event F) → Place F → Prop} {s s' : Place F}
    {events : List (Event F)}
    (step : ∀ s events s', R s events s' →
      s'.1.sensitivity = (assigned events).getLastD s.1.sensitivity)
    (path : Path R s events s') :
    s'.1.sensitivity = (assigned events).getLastD s.1.sensitivity := by
  refine path.invariant (I := fun past s' => s'.1.sensitivity = (assigned past).getLastD
    s.1.sensitivity) ?_ [] rfl
  intro past s events s' stepped before
  rw [step _ _ _ stepped, before, assigned_append, getLastD_append]

/-! ## Where a connection stands -/

/-- A connection in its talk, with `buf` not looked at yet. -/
structure Follows (p : Platform D) (calls : Nat) (log : List (Event F)) (cl : Client F)
    (buf : List UInt8) (t : Talk F) : Prop where
  ctrl : cl.ctrl = some (t.controller p.toOutside)
  deeds : deeds log = t.deeds p.toOutside
  admitted : t.Admitted p.toOutside
  order : t.numbers.Pairwise (· < ·)
  past : ∀ number ∈ t.numbers, number < calls
  said : t.items <+: said (received log)
  open_ : cl.phase = .ws ∨ cl.phase = .closing
  reads : cl.phase = .ws → ∃ reader, cl.At reader ∧ Reads (received log) reader buf t.items

/-- The answer to a request that begins no talk. -/
def replies (o : Outside D) (w : World F) (req : HttpRequest) (body : List UInt8) : List (Act F) :=
  match (handleHttpRequest o w req body).2.1 with
  | none => (handleHttpRequest o w req body).2.2
  -- `controller_create` has failed
  | some _ => (handleHttpRequest o w req body).2.2.take 1

/-- Where a connection stands, and its talk if it has one. -/
inductive Course (p : Platform D) (calls : Nat) (log : List (Event F)) (cl : Client F)
    (buf : List UInt8) : Option (Talk F) → Prop
  | listens (ctrl : cl.ctrl = none) (phase : cl.phase = .tls ∨ cl.phase = .http)
      (idle : cl.msgbuf = [] ∧ cl.msgOpcode = -1) (silent : deeds log = [])
      (waits : received log = buf) : Course p calls log cl buf none
  | hangsUp (ctrl : cl.ctrl = none) (phase : cl.phase = .closing) (silent : deeds log = []) :
      Course p calls log cl buf none
  | replied (ctrl : cl.ctrl = none) (phase : cl.phase = .closing) (req : HttpRequest)
      (body : List UInt8) (w : World F) (said : [.request req body] <+: said (received log))
      (answered : deeds log = .request req body :: replies p.toOutside w req body) :
      Course p calls log cl buf none
  | talks (t : Talk F) (follows : Follows p calls log cl buf t) : Course p calls log cl buf (some t)

/-- What a stage makes of the talk, where the sensitivity of the bridge was `s`: it goes on without
the device, or begins with the sensitivity as it is by then. -/
def Talks (s : F) : Option (Talk F) → List (Event F) → Option (Talk F) → Prop
  | none, _, none => True
  | none, events, some t => t.events = [] ∧ ∃ front back, events = front ++ .phase .ws :: back ∧
      t.sensitivities = (assigned front).getLastD s :: assigned back
  | some t, events, some t' => ∃ turns, t' = t.on turns ∧ turns.filterMap Turn.event? = [] ∧
      turns.filterMap Turn.sensitivity? = assigned events
  | some _, _, none => False

/-- And what it makes of the sensitivity. -/
structure Goes (s : F) (talk : Option (Talk F)) (events : List (Event F)) (s' : F)
    (talk' : Option (Talk F)) : Prop where
  tally : s' = (assigned events).getLastD s
  talks : Talks s talk events talk'

theorem Goes.refl (s : F) (talk : Option (Talk F)) {events : List (Event F)}
    (silent : deeds events = []) : Goes s talk events s talk := by
  have unassigned := assigned_of_silent silent
  refine ⟨by rw [unassigned, List.getLastD_nil], ?_⟩
  cases talk with
  | none => trivial
  | some t => exact ⟨[], t.on_nil.symm, rfl, unassigned.symm⟩

theorem Talks.trans {s : F} {talk talk' talk'' : Option (Talk F)} {events more : List (Event F)}
    (first : Talks s talk events talk')
    (second : Talks ((assigned events).getLastD s) talk' more talk'') :
    Talks s talk (events ++ more) talk'' := by
  cases talk with
  | none =>
      cases talk' with
      | none =>
          cases talk'' with
          | none => trivial
          | some t =>
              obtain ⟨quiet, front, back, rfl, told⟩ := second
              refine ⟨quiet, events ++ front, back, (List.append_assoc ..).symm, ?_⟩
              rw [told, assigned_append, getLastD_append]
      | some t =>
          cases talk'' with
          | none => exact second.elim
          | some t' =>
              obtain ⟨quiet, front, back, rfl, told⟩ := first
              obtain ⟨turns, rfl, quiet', told'⟩ := second
              refine ⟨by simp [quiet, quiet'], front, back ++ more, by simp, ?_⟩
              rw [Talk.sensitivities_on, told, told', assigned_append, List.cons_append]
  | some t =>
      cases talk' with
      | none => exact first.elim
      | some t' =>
          cases talk'' with
          | none => exact second.elim
          | some t'' =>
              obtain ⟨turns, rfl, quiet, told⟩ := first
              obtain ⟨later, rfl, quiet', told'⟩ := second
              exact ⟨turns ++ later, t.on_on turns later, by simp [quiet, quiet'],
                by simp [told, told']⟩

theorem Goes.trans {s s' s'' : F} {talk talk' talk'' : Option (Talk F)}
    {events more : List (Event F)} (first : Goes s talk events s' talk')
    (second : Goes s' talk' more s'' talk'') : Goes s talk (events ++ more) s'' talk'' := by
  obtain ⟨rfl, talks⟩ := first
  obtain ⟨rfl, talks'⟩ := second
  exact ⟨by rw [assigned_append, getLastD_append], talks.trans talks'⟩

/-- A connection in its talk has set no sensitivity. -/
theorem Follows.unassigned {p : Platform D} {calls : Nat} {log : List (Event F)} {cl : Client F}
    {buf : List UInt8} {t : Talk F} (follows : Follows p calls log cl buf t) : assigned log = [] := by
  rw [assigned_eq, follows.deeds, List.filterMap_eq_nil_iff]
  exact t.unassigned

/-! ### What a connection does not look at -/

/-- The fields that where a connection stands depends on. -/
structure SameTalk (cl cl' : Client F) : Prop where
  ctrl : cl'.ctrl = cl.ctrl
  phase : cl'.phase = cl.phase
  msgbuf : cl'.msgbuf = cl.msgbuf
  msgOpcode : cl'.msgOpcode = cl.msgOpcode

theorem SameTalk.refl (cl : Client F) : SameTalk cl cl := ⟨rfl, rfl, rfl, rfl⟩

theorem SameTalk.trans {cl cl' cl'' : Client F} (first : SameTalk cl cl')
    (second : SameTalk cl' cl'') : SameTalk cl cl'' :=
  ⟨second.ctrl.trans first.ctrl, second.phase.trans first.phase,
    second.msgbuf.trans first.msgbuf, second.msgOpcode.trans first.msgOpcode⟩

/-- Reading on needs neither a controller nor anything else of a client. -/
theorem Client.At.of_same {cl cl' : Client F} {reader : Reader} (at_ : cl.At reader)
    (phase : cl'.phase = cl.phase) (msgbuf : cl'.msgbuf = cl.msgbuf)
    (msgOpcode : cl'.msgOpcode = cl.msgOpcode) : cl'.At reader := by
  cases reader with
  | head => exact phase.trans at_
  | frames msg => exact ⟨phase.trans at_.1, msgbuf.trans at_.2.1, msgOpcode.trans at_.2.2⟩
  | stopped => exact phase.trans at_

section Courses

variable {p : Platform D} {calls calls' : Nat} {log events : List (Event F)} {cl cl' : Client F}
  {buf rest : List UInt8} {t : Talk F} {talk : Option (Talk F)}

/-- Nothing that counts has happened. -/
theorem Course.still (course : Course p calls log cl buf talk) (later : calls ≤ calls')
    (same : SameTalk cl cl') (silent : Daemon.deeds events = []) (unread : received events = []) :
    Course p calls' (log ++ events) cl' buf talk := by
  have heard : received (log ++ events) = received log := by simp [unread]
  have did : Daemon.deeds (log ++ events) = Daemon.deeds log := by simp [silent]
  cases course with
  | listens ctrl phase idle quiet waits =>
      exact .listens (same.ctrl.trans ctrl) (by rwa [same.phase])
        ⟨same.msgbuf.trans idle.1, same.msgOpcode.trans idle.2⟩ (did.trans quiet)
        (heard.trans waits)
  | hangsUp ctrl phase quiet =>
      exact .hangsUp (same.ctrl.trans ctrl) (same.phase.trans phase) (did.trans quiet)
  | replied ctrl phase req body w said answered =>
      exact .replied (same.ctrl.trans ctrl) (same.phase.trans phase) req body w
        (by rwa [heard]) (did.trans answered)
  | talks t follows =>
      refine .talks t
        { ctrl := same.ctrl.trans follows.ctrl
          deeds := did.trans follows.deeds
          admitted := follows.admitted
          order := follows.order
          past := fun number inside => (follows.past number inside).trans_le later
          said := by rw [heard]; exact follows.said
          open_ := by rw [same.phase]; exact follows.open_
          reads := fun ws => ?_ }
      obtain ⟨reader, at_, reads⟩ := follows.reads (same.phase.symm.trans ws)
      exact ⟨reader, at_.of_same same.phase same.msgbuf same.msgOpcode, by rwa [heard]⟩

/-- Bytes that come in wait behind the others. -/
theorem Course.receive (course : Course p calls log cl buf talk) (chunk : List UInt8) :
    Course p calls (log ++ [.sslRead (.got chunk)]) cl (buf ++ chunk) talk := by
  have heard : received (log ++ [.sslRead (.got chunk)]) = received log ++ chunk := by
    simp [received]
  have did : Daemon.deeds (log ++ [.sslRead (.got chunk)]) = Daemon.deeds log := by
    simp [Daemon.deeds, Event.deed?]
  cases course with
  | listens ctrl phase idle quiet waits =>
      exact .listens ctrl phase idle (did.trans quiet) (by rw [heard, waits])
  | hangsUp ctrl phase quiet => exact .hangsUp ctrl phase (did.trans quiet)
  | replied ctrl phase req body w said answered =>
      refine .replied ctrl phase req body w ?_ (did.trans answered)
      rw [heard]
      exact said.trans (said_append _ _)
  | talks t follows =>
      refine .talks t { follows with
        deeds := did.trans follows.deeds
        said := by rw [heard]; exact follows.said.trans (said_append _ _)
        reads := fun ws => ?_ }
      obtain ⟨reader, at_, reads⟩ := follows.reads ws
      exact ⟨reader, at_, by rw [heard]; exact reads.receive chunk⟩

/-! ### Turns -/

/-- A turn, or none, and what is done about it. -/
def told (o : Outside D) (c : Controller F) : Option (Turn F) → Controller F × List (Act F)
  | none => (c, [])
  | some turn => talkStep o c turn

/-- The outcome is that of the turn. -/
structure Tells (p : Platform D) (calls : Nat) (c : Controller F) (turn : Option (Turn F))
    (d : Outcome F) : Prop where
  ctrl : d.client.ctrl = some (told p.toOutside c turn).1
  deeds : deeds d.events = (told p.toOutside c turn).2
  unread : received d.events = []
  later : calls ≤ d.shared.calls
  number : ∀ number ∈ turn.toList.filterMap Turn.number?, calls ≤ number ∧ number < d.shared.calls

theorem Follows.tells {d : Outcome F} {turn : Option (Turn F)}
    (follows : Follows p calls log cl buf t) (tells : Tells p calls (t.controller p.toOutside) turn d)
    (front : (t.on turn.toList).items <+: Daemon.said (received log))
    (open_ : d.client.phase = .ws ∨ d.client.phase = .closing)
    (reads : d.client.phase = .ws → ∃ reader, d.client.At reader ∧
      Reads (received log) reader rest (t.on turn.toList).items) :
    Follows p d.shared.calls (log ++ d.events) d.client rest (t.on turn.toList) := by
  have heard : received (log ++ d.events) = received log := by simp [tells.unread]
  have spoken : (t.on turn.toList).controller p.toOutside =
        (told p.toOutside (t.controller p.toOutside) turn).1 ∧
      (t.on turn.toList).deeds p.toOutside =
        t.deeds p.toOutside ++ (told p.toOutside (t.controller p.toOutside) turn).2 := by
    cases turn with
    | none => simp [told, t.on_nil]
    | some turn => exact ⟨Talk.controller_on turn, Talk.deeds_on turn⟩
  refine
    { ctrl := tells.ctrl.trans (congrArg some spoken.1.symm)
      deeds := by rw [deeds_append, follows.deeds, tells.deeds, spoken.2]
      admitted := (Talk.admitted_on _).mpr follows.admitted
      order := ?_
      past := ?_
      said := by rw [heard]; exact front
      open_ := open_
      reads := by rw [heard]; exact reads }
  · rw [Talk.numbers_on, List.pairwise_append]
    refine ⟨follows.order, ?_, fun number inside next inside' => ?_⟩
    · cases turn with
      | none => exact .nil
      | some turn =>
          show (List.filterMap Turn.number? [turn]).Pairwise (· < ·)
          cases kind : turn.number? <;> simp [kind]
    · exact (follows.past number inside).trans_le (tells.number next inside').1
  · rw [Talk.numbers_on]
    intro number inside
    rcases List.mem_append.mp inside with before | now
    · exact (follows.past number before).trans_le tells.later
    · exact (tells.number number now).2

/-- A connection that closes says no more. -/
theorem Follows.closes (follows : Follows p calls log cl buf t) (cl' : Client F)
    (ctrl : cl'.ctrl = cl.ctrl) (phase : cl'.phase = .closing) (rest : List UInt8) :
    Follows p calls (log ++ [.phase .closing]) cl' rest t := by
  have heard : received (log ++ [.phase .closing]) = received log := by simp [received]
  have did : Daemon.deeds (log ++ [.phase .closing]) = Daemon.deeds log := by
    simp [Daemon.deeds, Event.deed?]
  exact { follows with
    ctrl := ctrl.trans follows.ctrl
    deeds := did.trans follows.deeds
    said := by rw [heard]; exact follows.said
    open_ := Or.inr phase
    reads := fun ws => by rw [phase] at ws; cases ws }

end Courses

/-! ## Frames -/

section Frames

variable {p : Platform D}

/-- Acts that are performed are what the connection does, and all of it. -/
structure Performs (acts : List (Act F)) (sh : Shared F) (cl : Client F) (d : Outcome F) : Prop where
  deeds : deeds d.events = acts
  unread : received d.events = []
  same : SameTalk cl d.client
  inbuf : d.client.inbuf = cl.inbuf
  later : sh.calls ≤ d.shared.calls

theorem perform_performs (act : Act F) (sh : Shared F) (cl : Client F)
    (plain : act.isOutput = true ∨ cl.ctrl = none) :
    Performs [act] sh cl (Stage.perform p act sh cl) := by
  cases act with
  | queue data =>
      exact ⟨deeds_queueOutput _ _ data, rfl, ⟨rfl, rfl, rfl, rfl⟩, rfl, Nat.le_succ _⟩
  | reject => exact ⟨rfl, rfl, ⟨rfl, rfl, rfl, rfl⟩, rfl, le_rfl⟩
  | assign value =>
      have unheld : cl.ctrl = none := plain.resolve_left Bool.noConfusion
      have same : SameTalk cl (cl.assign value) := by
        unfold Client.assign
        split
        · exact ⟨by simp [unheld], rfl, rfl, rfl⟩
        · exact .refl cl
      exact ⟨rfl, rfl, same, (sameIo_assign value cl).inbuf, le_rfl⟩
  | request req body => exact ⟨rfl, rfl, .refl cl, rfl, le_rfl⟩
  | message payload rc => exact ⟨rfl, rfl, .refl cl, rfl, le_rfl⟩
  | readOut => exact ⟨rfl, rfl, .refl cl, rfl, le_rfl⟩

theorem performAll_performs {acts : List (Act F)} (sh : Shared F) (cl : Client F)
    (plain : (∀ act ∈ acts, act.isOutput = true) ∨ cl.ctrl = none) :
    Performs acts sh cl (Stage.performAll p acts sh cl) := by
  induction acts generalizing sh cl with
  | nil => exact ⟨rfl, rfl, .refl cl, rfl, le_rfl⟩
  | cons act acts ih =>
      have first := perform_performs (p := p) act sh cl
        (plain.imp_left fun output => output act List.mem_cons_self)
      have rest := ih (Stage.perform p act sh cl).shared (Stage.perform p act sh cl).client (plain.imp
        (fun output act inside => output act (List.mem_cons_of_mem _ inside))
        first.same.ctrl.trans)
      refine ⟨?_, ?_, first.same.trans rest.same, rest.inbuf.trans first.inbuf,
        first.later.trans rest.later⟩
      · show deeds ((Stage.perform p act sh cl).events ++ _) = _
        rw [deeds_append, first.deeds, rest.deeds]
        rfl
      · show received ((Stage.perform p act sh cl).events ++ _) = _
        rw [received_append, first.unread, rest.unread]
        rfl

/-- A whole message is a turn of the controller. -/
theorem deliver_tells (sh : Shared F) (cl : Client F) {c : Controller F}
    (held : cl.ctrl = some c) :
    let d := Stage.deliver p sh cl
    Tells p sh.calls c (some (.call sh.calls (.message cl.msgbuf))) d ∧
      (d.client.phase = cl.phase ∨ d.client.phase = .closing) ∧
      d.client.msgbuf = cl.msgbuf ∧ d.client.msgOpcode = cl.msgOpcode := by
  intro d
  generalize is : d = d'
  unfold d Stage.deliver at is
  simp only [held] at is
  generalize sends : controllerOnMessage p.lib (p.envs sh.calls) c cl.msgbuf = done at is
  have answer : told p.toOutside c (some (.call sh.calls (.message cl.msgbuf))) =
      (done.1, .message cl.msgbuf done.2.2 :: done.2.1.map (clientSend p.toOutside)) := by
    simp only [told, talkStep, controllerStep, sends]
  have performs := performAll_performs (p := p) { sh with calls := sh.calls + 1 }
    { cl with ctrl := some done.1 } (Or.inl (isOutput_clientSends p.toOutside done.2.1))
  let told' := Stage.performAll p (done.2.1.map (clientSend p.toOutside))
    { sh with calls := sh.calls + 1 } { cl with ctrl := some done.1 }
  change Performs _ _ _ told' at performs
  have later : sh.calls < told'.shared.calls := performs.later
  -- the verdict adds nothing but the phase
  have tells : ∀ d : Outcome F, d.client.ctrl = told'.client.ctrl →
      deeds d.events = .message cl.msgbuf done.2.2 :: deeds told'.events →
      received d.events = received told'.events → d.shared = told'.shared →
        Tells p sh.calls c (some (.call sh.calls (.message cl.msgbuf))) d := by
    intro d ctrl did unread shared
    refine ⟨?_, ?_, unread.trans performs.unread, shared ▸ later.le, ?_⟩
    · rw [ctrl, performs.same.ctrl, answer]
    · rw [did, performs.deeds, answer]
    · intro number inside
      obtain rfl : number = sh.calls := by simpa [Turn.number?] using inside
      exact ⟨le_rfl, shared ▸ later⟩
  by_cases refused : done.2.2 ≠ 0
  · rw [if_pos refused] at is
    subst is
    refine ⟨tells _ rfl ?_ ?_ rfl, Or.inr rfl, performs.same.msgbuf, performs.same.msgOpcode⟩
    · show deeds (([.act (.message cl.msgbuf done.2.2)] ++ told'.events) ++ [.phase .closing]) = _
      rw [deeds_append, deeds_append]
      exact List.append_nil _
    · show received (([.act (.message cl.msgbuf done.2.2)] ++ told'.events) ++ [.phase .closing]) = _
      rw [received_append, received_append]
      exact List.append_nil _
  · rw [if_neg refused] at is
    subst is
    exact ⟨tells _ rfl rfl rfl rfl, Or.inl performs.same.phase, performs.same.msgbuf,
      performs.same.msgOpcode⟩

/-- A frame that the reader goes on behind is a turn of the controller, or none. -/
structure ReadsOn (p : Platform D) (sh : Shared F) (c : Controller F) (reader : Reader)
    (items : List Item) (d : Outcome F) (turn : Option (Turn F)) : Prop where
  tells : Tells p sh.calls c turn d
  items : turn.toList.filterMap Turn.item? = items
  quiet : turn.toList.filterMap Turn.event? = []
  unset : turn.toList.filterMap Turn.sensitivity? = []
  goesOn : (d.client.phase = .ws ∧ d.client.At reader) ∨ d.client.phase = .closing

/-- Nothing but the reassembly goes on. -/
theorem ReadsOn.silent {sh : Shared F} {cl : Client F} {c : Controller F} {reader : Reader}
    (ctrl : cl.ctrl = some c) (ws : cl.phase = .ws) (at_ : cl.At reader) :
    ReadsOn p sh c reader [] ⟨sh, cl, []⟩ none :=
  ⟨⟨ctrl, rfl, rfl, le_rfl, by simp⟩, rfl, rfl, rfl, Or.inl ⟨ws, at_⟩⟩

theorem appendFrame_readsOn {sh : Shared F} {cl : Client F} {c : Controller F} {msg : Reassembly}
    {frame : Frame} {reader : Reader} {items : List Item} (held : cl.ctrl = some c)
    (at_ : cl.At (.frames msg)) (reads : Reader.data msg frame = some (reader, items)) :
    ∃ turn, ReadsOn p sh c reader items (Stage.appendFrame p frame sh cl) turn := by
  unfold Reader.data at reads
  by_cases text : msg.opcode = some wsOpText
  · rw [if_pos text] at reads
    have isText : Stage.isText cl := at_.isText.mpr text
    cases appended : msg.append frame.payload with
    | none => simp [appended] at reads
    | some whole =>
        have content : whole.msgbuf = msg.msgbuf ++ frame.payload ∧ whole.opcode = msg.opcode := by
          unfold Reassembly.append at appended
          split_ifs at appended
          cases appended
          exact ⟨rfl, rfl⟩
        simp only [appended] at reads
        have isText' : Stage.isText { cl with msgbuf := cl.msgbuf ++ frame.payload } := isText
        by_cases fin : frame.fin = true
        · rw [if_pos fin] at reads
          cases reads
          have done : Stage.appendFrame p frame sh cl =
              let d := Stage.deliver p sh { cl with msgbuf := cl.msgbuf ++ frame.payload }
              { d with client := { d.client with msgOpcode := -1, msgbuf := [] } } := by
            simp only [Stage.appendFrame, if_pos isText, if_pos fin, if_pos (And.intro fin isText')]
          obtain ⟨tells, phase, -⟩ := deliver_tells (p := p) sh
            { cl with msgbuf := cl.msgbuf ++ frame.payload } held
          rw [done]
          refine ⟨_, ⟨⟨tells.ctrl, tells.deeds, tells.unread, tells.later, tells.number⟩, ?_, rfl, rfl, ?_⟩⟩
          · rw [content.1, ← at_.2.1]
            rfl
          · exact phase.imp_left fun same => ⟨same.trans at_.1, same.trans at_.1, rfl, rfl⟩
        · rw [if_neg fin] at reads
          cases reads
          have done : Stage.appendFrame p frame sh cl =
              ⟨sh, { cl with msgbuf := cl.msgbuf ++ frame.payload }, []⟩ := by
            simp only [Stage.appendFrame, if_pos isText, if_neg fin,
              if_neg (show ¬ (frame.fin = true ∧ _) from fun both => fin both.1)]
          rw [done]
          refine ⟨none, .silent held at_.1 ⟨at_.1, ?_, ?_⟩⟩
          · rw [content.1, ← at_.2.1]
          · show cl.msgOpcode = _
            rw [at_.2.2, Reassembly.code, Reassembly.code, content.2]
  · rw [if_neg text] at reads
    cases reads
    have notText : ¬ Stage.isText cl := fun is => text (at_.isText.mp is)
    by_cases fin : frame.fin = true
    · have done : Stage.appendFrame p frame sh cl =
          ⟨sh, { cl with msgOpcode := -1, msgbuf := [] }, []⟩ := by
        simp only [Stage.appendFrame, if_neg notText, if_pos fin,
          if_neg (show ¬ (frame.fin = true ∧ _) from fun both => notText both.2)]
      rw [done, if_pos fin]
      exact ⟨none, .silent held at_.1 ⟨at_.1, rfl, rfl⟩⟩
    · have done : Stage.appendFrame p frame sh cl = ⟨sh, cl, []⟩ := by
        simp only [Stage.appendFrame, if_neg notText, if_neg fin,
          if_neg (show ¬ (frame.fin = true ∧ _) from fun both => notText both.2)]
      rw [done, if_neg fin]
      exact ⟨none, .silent held at_.1 at_⟩

/-- The frame has room in `msgbuf` where the reader has room for it. -/
theorem data_eq_none {cl : Client F} {msg : Reassembly} {frame : Frame}
    (at_ : cl.At (.frames msg)) :
    Reader.data msg frame = none ↔
      Stage.isText cl ∧ cl.msgbuf.length + frame.payload.length > msgBufSize := by
  rw [at_.isText, at_.2.1]
  unfold Reader.data Reassembly.append
  by_cases text : msg.opcode = some wsOpText
  · rw [if_pos text]
    by_cases fits : msg.msgbuf.length + frame.payload.length ≤ msgBufSize
    · simp only [dif_pos fits]
      refine iff_of_false ?_ fun full => absurd full.2 (not_lt.mpr fits)
      split <;> exact Option.some_ne_none _
    · simp [fits, text, not_le.mp fits]
  · rw [if_neg text]
    exact iff_of_false (Option.some_ne_none _) fun full => text full.1

theorem handleFrame_readsOn (sh : Shared F) {cl : Client F} {c : Controller F} {msg : Reassembly}
    {frame : Frame} {reader : Reader} {items : List Item} (held : cl.ctrl = some c)
    (at_ : cl.At (.frames msg)) (reads : Reader.frame msg frame = some (reader, items)) :
    (Stage.handleFrame p frame sh cl).2 = true ∧
      ∃ turn, ReadsOn p sh c reader items (Stage.handleFrame p frame sh cl).1 turn := by
  unfold Reader.frame at reads
  unfold Stage.handleFrame
  split
  · rename_i isData
    rw [if_pos isData] at reads
    have opened := at_.opened frame.opcode
    have room : ¬ (Stage.isText (Stage.openMessage frame.opcode cl) ∧ _) := fun full =>
      Option.some_ne_none _ (reads.symm.trans ((data_eq_none opened).mpr full))
    have held' : (Stage.openMessage frame.opcode cl).ctrl = some c := by
      unfold Stage.openMessage
      split <;> exact held
    dsimp only
    rw [if_neg room]
    exact ⟨rfl, appendFrame_readsOn held' opened reads⟩
  · rename_i notData
    rw [if_neg notData] at reads
    split
    · rename_i isPing
      rw [if_pos isPing] at reads
      cases reads
      have performs := performAll_performs (p := p) sh cl
        (Or.inl (isOutput_pong frame.payload))
      refine ⟨rfl, some (.ping frame.payload), ⟨⟨?_, performs.deeds, performs.unread,
        performs.later, by simp [Turn.number?]⟩, rfl, rfl, rfl, Or.inl ⟨?_, ?_⟩⟩⟩
      · exact performs.same.ctrl.trans held
      · exact performs.same.phase.trans at_.1
      · exact at_.of_same performs.same.phase performs.same.msgbuf performs.same.msgOpcode
    · rename_i notPing
      rw [if_neg notPing] at reads
      split
      · rename_i isClose
        rw [if_pos isClose] at reads
        cases reads
        exact ⟨rfl, none, ⟨held, rfl, rfl, le_rfl, by simp⟩, rfl, rfl, rfl, Or.inr rfl⟩
      · rename_i notClose
        rw [if_neg notClose] at reads
        cases reads
        exact ⟨rfl, none, .silent held at_.1 at_⟩

/-- A message over the limit ends the connection. -/
theorem handleFrame_refuses (sh : Shared F) {cl : Client F} {msg : Reassembly} {frame : Frame}
    (at_ : cl.At (.frames msg)) (refused : Reader.frame msg frame = none) :
    ∃ cl', cl'.ctrl = cl.ctrl ∧
      Stage.handleFrame p frame sh cl = (Stage.enter .closing sh cl', false) := by
  unfold Reader.frame at refused
  unfold Stage.handleFrame
  split_ifs at refused with isData
  refine ⟨Stage.openMessage frame.opcode cl, ?_, ?_⟩
  · unfold Stage.openMessage
    split <;> rfl
  · rw [if_pos isData]
    exact if_pos ((data_eq_none (at_.opened frame.opcode)).mp refused)

end Frames

/-! ## Turns of `process_client_buffer` -/

section Turns

variable {p : Platform D} {sh sh' : Shared F} {log events : List (Event F)} {cl cl' : Client F}
  {buf rest : List UInt8} {t : Talk F} {talk : Option (Talk F)}

theorem processTurn_closing (closing : cl.phase = .closing) :
    Stage.processTurn p (sh, cl) buf = none := by
  simp [Stage.processTurn, closing]

/-- A frame. -/
theorem Follows.turn (follows : Follows p sh.calls log cl buf t) (ws : cl.phase = .ws)
    (turned : Stage.processTurn p (sh, cl) buf = some ((sh', cl'), rest, events)) :
    ∃ turns, turns.filterMap Turn.event? = [] ∧ turns.filterMap Turn.sensitivity? = [] ∧
      Follows p sh'.calls (log ++ events) cl' rest (t.on turns) := by
  obtain ⟨reader, at_, reads⟩ := follows.reads ws
  obtain ⟨msg, rfl⟩ : ∃ msg, reader = .frames msg := by
    cases reader with
    | head => exact absurd (ws.symm.trans at_) ClientPhase.noConfusion
    | frames msg => exact ⟨msg, rfl⟩
    | stopped => exact absurd (ws.symm.trans at_) ClientPhase.noConfusion
  simp only [Stage.processTurn, ws] at turned
  cases decoded : wsDecodeFrame buf with
  | incomplete => simp [decoded] at turned
  | malformed =>
      rw [decoded] at turned
      cases turned
      refine ⟨[], rfl, rfl, ?_⟩
      rw [Talk.on_nil]
      exact follows.closes { cl with phase := .closing } rfl rfl buf
  | done frame =>
      simp only [decoded] at turned
      cases framed : Reader.frame msg frame with
      | none =>
          obtain ⟨opened, ctrl, refuses⟩ := handleFrame_refuses (p := p) sh at_ framed
          rw [refuses] at turned
          cases turned
          refine ⟨[], rfl, rfl, ?_⟩
          rw [Talk.on_nil]
          exact follows.closes { opened with phase := .closing } ctrl rfl _
      | some next =>
          obtain ⟨reader', items⟩ := next
          obtain ⟨consumed, turn, on⟩ := handleFrame_readsOn (p := p) sh
            follows.ctrl at_ framed
          have goes : readTurn (.frames msg) buf =
              some (reader', buf.drop frame.consumed, items) := by
            refine turn_of_done ?_
            show Reader.readFrame msg buf = _
            rw [Reader.readFrame, Peek.bind_of_done decoded]
            simp only [framed]
            rfl
          have reads' : Reads (received log) reader' (buf.drop frame.consumed)
              (t.on turn.toList).items := by
            rw [Talk.items_on, on.items]
            exact reads.turn goes
          simp only [consumed, if_true] at turned
          cases turned
          refine ⟨turn.toList, on.quiet, on.unset, ?_⟩
          refine follows.tells on.tells reads'.prefix_said (on.goesOn.imp_left And.left)
            fun ws' => ⟨reader', ?_, reads'⟩
          rcases on.goesOn with goes | closing
          · exact goes.2
          · rw [closing] at ws'
            cases ws'

/-- An upgrade that is accepted. -/
theorem handleHttpRequest_upgraded {o : Outside D} {w : World F} {req : HttpRequest}
    {body : List UInt8} {ctrl : Controller F}
    (upgraded : (handleHttpRequest o w req body).2.1 = some ctrl) :
    ∃ accept, (⟨req, body, accept, w.calls, []⟩ : Talk F).Admitted o ∧
      ctrl = (controllerSetSensitivity
        (controllerCreate (D := D) (F := F) (o.envs w.calls)).1 w.sensitivity).1 ∧
      (handleHttpRequest o w req body).2.2 = .queue (switchingProtocols accept) ::
        (controllerCreate (D := D) (F := F) (o.envs w.calls)).2.map (clientSend o) := by
  unfold handleHttpRequest at upgraded ⊢
  by_cases upgrade : req.isWsUpgrade = true
  · rw [if_pos upgrade] at upgraded ⊢
    unfold handleWsUpgrade at upgraded ⊢
    cases allowed : originAllowed req.origin.str with
    | false => simp [allowed] at upgraded
    | true =>
        by_cases keyless : req.wsKey.str = .empty
        · simp [allowed, keyless] at upgraded
        · cases accepted : wsComputeAccept o.digest req.wsKey.str with
          | none => simp [allowed, keyless, accepted] at upgraded
          | some accept =>
              simp only [allowed, keyless, accepted, Bool.not_true, Bool.false_eq_true, if_false,
                Option.some.injEq] at upgraded ⊢
              exact ⟨accept, ⟨upgrade, allowed, keyless, accepted⟩, upgraded.symm, rfl⟩
  · rw [if_neg upgrade] at upgraded
    cases upgraded

/-- What a client makes of its request, with `rest` behind it. -/
theorem handleRequest_course {req : HttpRequest} {body : List UInt8} (unheld : cl.ctrl = none)
    (idle : cl.msgbuf = [] ∧ cl.msgOpcode = -1) (silent : deeds log = [])
    (reads : Reads (received log) (if req.isWsUpgrade then .frames .idle else .stopped) rest
      [.request req body]) :
    let d := Stage.handleRequest p req body sh cl
    ∃ talk, Course p d.shared.calls (log ++ d.events) d.client rest talk ∧
      Talks sh.sensitivity none d.events talk := by
  intro d
  let w : World F := ⟨sh.sensitivity, [], sh.saved, sh.calls⟩
  let handled := handleHttpRequest p.toOutside w req body
  let sh' : Shared F := { sh with saved := handled.1.saved, calls := sh.calls + 1 }
  -- any of the acts, and the phase behind them
  have acted : ∀ (acts : List (Act F)) (phase : ClientPhase),
      let told := Stage.performAll p acts sh' cl
      let events := ([.act (.request req body)] ++ told.events) ++ [.phase phase]
      Performs acts sh' cl told ∧ deeds (log ++ events) = .request req body :: acts ∧
        received (log ++ events) = received log := by
    intro acts phase told events
    have performs : Performs acts sh' cl told := performAll_performs sh' cl (Or.inr unheld)
    refine ⟨performs, ?_, ?_⟩
    · rw [deeds_append, silent]
      show deeds (([.act (.request req body)] ++ told.events) ++ [.phase phase]) = _
      rw [deeds_append, deeds_append, performs.deeds]
      exact List.append_nil _
    · rw [received_append]
      show _ ++ received (([.act (.request req body)] ++ told.events) ++ [.phase phase]) = _
      rw [received_append, received_append, performs.unread]
      exact List.append_nil _
  have replied : ∀ acts, acts = replies p.toOutside w req body →
      d = ((Stage.note (.request req body) sh' cl).andThen (Stage.performAll p acts)).andThen
        (Stage.enter .closing) →
      ∃ talk, Course p d.shared.calls (log ++ d.events) d.client rest talk ∧
        Talks sh.sensitivity none d.events talk := by
    intro acts answer is
    obtain ⟨performs, did, heard⟩ := acted acts .closing
    rw [is]
    refine ⟨none, .replied (performs.same.ctrl.trans unheld) rfl req body w ?_ ?_, trivial⟩
    · exact (congrArg said heard).symm ▸ reads.prefix_said
    · rw [← answer]
      exact did
  cases upgraded : handled.2.1 with
  | none =>
      refine replied handled.2.2 ?_ ?_
      · show handled.2.2 = match handled.2.1 with
          | none => handled.2.2
          | some _ => handled.2.2.take 1
        rw [upgraded]
      · show Stage.handleRequest p req body sh cl = _
        unfold Stage.handleRequest
        simp only [show (handleHttpRequest p.toOutside
          ⟨sh.sensitivity, [], sh.saved, sh.calls⟩ req body).2.1 = none from upgraded]
        rfl
  | some ctrl =>
      obtain ⟨accept, admitted, held, acts⟩ := handleHttpRequest_upgraded upgraded
      cases created : p.created sh.calls with
      | false =>
          refine replied (handled.2.2.take 1) ?_ ?_
          · show handled.2.2.take 1 = match handled.2.1 with
              | none => handled.2.2
              | some _ => handled.2.2.take 1
            rw [upgraded]
          · show Stage.handleRequest p req body sh cl = _
            unfold Stage.handleRequest
            simp only [show (handleHttpRequest p.toOutside
              ⟨sh.sensitivity, [], sh.saved, sh.calls⟩ req body).2.1 = some ctrl from upgraded,
              created, Bool.false_eq_true, if_false]
            rfl
      | true =>
          obtain ⟨performs, did, heard⟩ := acted handled.2.2 .ws
          have is : d = ((Stage.note (.request req body) sh' cl).andThen
              (Stage.performAll p handled.2.2)).andThen fun sh cl =>
                Stage.enter .ws sh { cl with ctrl := some ctrl } := by
            show Stage.handleRequest p req body sh cl = _
            unfold Stage.handleRequest
            simp only [show (handleHttpRequest p.toOutside
              ⟨sh.sensitivity, [], sh.saved, sh.calls⟩ req body).2.1 = some ctrl from upgraded,
              created, if_true]
            rfl
          rw [is]
          have upgrade := admitted.upgrade
          rw [upgrade, if_pos rfl] at reads
          -- the first turn tells the controller the sensitivity
          refine ⟨some ⟨req, body, accept, sh.calls, [.call 0 (.setSensitivity sh.sensitivity)]⟩,
            .talks _ ⟨congrArg some held, ?_, ⟨admitted.upgrade, admitted.origin, admitted.key, admitted.accept⟩,
              List.pairwise_singleton _ _, ?_, ?_, Or.inl rfl, fun _ => ⟨.frames .idle, ?_, ?_⟩⟩,
            rfl, _, [], rfl, ?_⟩
          · refine did.trans ?_
            rw [show handled.2.2 = _ from acts]
            simp only [Talk.deeds]
            congr 2
          · intro number inside
            rw [List.mem_singleton.mp inside]
            exact performs.later
          · exact (congrArg said heard).symm ▸ reads.prefix_said
          · exact ⟨rfl, performs.same.msgbuf.trans idle.1, performs.same.msgOpcode.trans idle.2⟩
          · exact heard.symm ▸ reads
          · -- nothing that is done in front of the upgrade sets it
            have unset : assigned ([.act (.request req body)] ++ (Stage.performAll p handled.2.2
                sh' cl).events) = [] := by
              rw [assigned_eq, deeds_append, performs.deeds, List.filterMap_eq_nil_iff,
                show handled.2.2 = _ from acts]
              intro act inside
              rcases List.mem_cons.mp inside with rfl | inside
              · rfl
              rcases List.mem_cons.mp inside with rfl | inside
              · rfl
              exact unassigned_of_output (isOutput_clientSends _ _) act inside
            show [sh.sensitivity] = (assigned ([.act (.request req body)] ++ (Stage.performAll p
              handled.2.2 sh' cl).events)).getLastD sh.sensitivity :: []
            rw [unset, List.getLastD_nil]

/-- A request that is there in full. -/
theorem readTurn_request {size : Nat} {req : HttpRequest}
    (parsed : httpParseRequest buf = .done (size, req)) (short : req.contentLength ≤ bodyMax)
    (whole : size + req.contentLength ≤ buf.length) :
    readTurn .head buf = some (if req.isWsUpgrade then .frames .idle else .stopped,
      buf.drop (size + req.contentLength),
      [.request req ((buf.drop size).take req.contentLength)]) := by
  refine turn_of_done ?_
  show Reader.readHead buf = _
  rw [Reader.readHead, Peek.bind_of_done parsed]
  simp only [if_neg (not_lt.mpr short)]
  rw [Peek.bind_of_done (show Peek.slice size req.contentLength buf = .done _ from
    if_neg (not_lt.mpr whole))]
  rfl

/-- **One turn of `process_client_buffer`** goes on with the talk of a connection. -/
theorem Course.turn (course : Course p sh.calls log cl buf talk)
    (turned : Stage.processTurn p (sh, cl) buf = some ((sh', cl'), rest, events)) :
    ∃ talk', Course p sh'.calls (log ++ events) cl' rest talk' ∧
      Goes sh.sensitivity talk events sh'.sensitivity talk' := by
  have tally : sh'.sensitivity = (assigned events).getLastD sh.sensitivity :=
    tally_of_path (fun _ _ _ work => Work.tally work) (processTurn_path turned).1
  suffices on : ∃ talk', Course p sh'.calls (log ++ events) cl' rest talk' ∧
      Talks sh.sensitivity talk events talk' from
    on.imp fun talk' on => ⟨on.1, tally, on.2⟩
  have open_ : cl.phase ≠ .closing := by
    intro closing
    rw [processTurn_closing closing] at turned
    cases turned
  cases course with
  | hangsUp ctrl closing silent => exact absurd closing open_
  | replied ctrl closing req body w said answered => exact absurd closing open_
  | talks t follows =>
      obtain ⟨turns, quiet, unset, follows'⟩ :=
        follows.turn (follows.open_.resolve_right open_) turned
      have unassigned := follows'.unassigned
      rw [assigned_append, follows.unassigned, List.nil_append] at unassigned
      exact ⟨some (t.on turns), .talks _ follows', turns, rfl, quiet, unset.trans unassigned.symm⟩
  | listens ctrl phase idle silent waits =>
      rcases phase with tls | http
      · simp [Stage.processTurn, tls] at turned
      · have hangsUp : deeds (log ++ [.phase .closing]) = [] := by
          rw [deeds_append, silent]
          rfl
        simp only [Stage.processTurn, http] at turned
        cases parsed : httpParseRequest buf with
        | incomplete => simp [parsed] at turned
        | malformed =>
            rw [parsed] at turned
            cases turned
            exact ⟨none, .hangsUp ctrl rfl hangsUp, trivial⟩
        | done value =>
            obtain ⟨size, req⟩ := value
            simp only [parsed] at turned
            split_ifs at turned with large short
            · cases turned
              exact ⟨none, .hangsUp ctrl rfl hangsUp, trivial⟩
            · cases turned
              refine handleRequest_course ctrl idle silent ?_
              have request := readTurn_request parsed (not_lt.mp large) (not_lt.mp short)
              rw [waits]
              exact (Reads.start buf).turn request

/-! ### Refusals -/

theorem candid_queueOutput (cl : Client F) (now : Int) (data : List UInt8) :
    Candid cl { cl with out := (cl.out.queueOutput now data).1 }
      [.output (cl.out.queueOutput now data).2] := by
  intro alive
  unfold Queue.queueOutput at alive ⊢
  cases failed : cl.out.failed with
  | true => simp [failed] at alive
  | false =>
      simp only [failed, Bool.false_eq_true, if_false] at alive ⊢
      by_cases full : data.length > bufSize * 2 - cl.out.outbuf.length
      · rw [if_pos full] at alive
        cases alive
      · rw [if_neg full]
        exact ⟨trivial, fun event inside => by rw [List.mem_singleton.mp inside]; rfl⟩

theorem candid_assign (value : F) (cl : Client F) {events : List (Event F)}
    (plain : events.all (fun event => !event.refuses) = true) :
    Candid cl (cl.assign value) events := by
  refine candid_of_same (fun alive => ?_) plain
  unfold Client.assign at alive
  split at alive <;> exact alive

theorem candid_perform (act : Act F) (sh : Shared F) (cl : Client F) :
    Candid cl (Stage.perform p act sh cl).client (Stage.perform p act sh cl).events := by
  cases act with
  | queue data => exact candid_queueOutput cl _ data
  | reject => exact fun alive => by cases alive
  | assign value => exact candid_assign value cl rfl
  | request req body => exact candid_of_same id rfl
  | message payload rc => exact candid_of_same id rfl
  | readOut => exact candid_of_same id rfl

theorem candid_performAll (acts : List (Act F)) (sh : Shared F) (cl : Client F) :
    Candid cl (Stage.performAll p acts sh cl).client (Stage.performAll p acts sh cl).events := by
  induction acts generalizing sh cl with
  | nil => exact candid_of_same id rfl
  | cons act acts ih => exact (candid_perform act sh cl).trans (ih _ _)

theorem candid_deliver (sh : Shared F) (cl : Client F) :
    Candid cl (Stage.deliver p sh cl).client (Stage.deliver p sh cl).events := by
  unfold Stage.deliver
  cases cl.ctrl with
  | none => exact candid_of_same id rfl
  | some ctrl =>
      dsimp only
      generalize controllerOnMessage p.lib (p.envs sh.calls) ctrl cl.msgbuf = done
      have told : Candid cl _ ([.act (.message cl.msgbuf done.2.2)] ++ _) :=
        Candid.trans (candid_of_same id rfl) (candid_performAll (p := p)
          (done.2.1.map (clientSend p.toOutside)) { sh with calls := sh.calls + 1 }
          { cl with ctrl := some done.1 })
      split
      · exact told.trans (candid_of_same id rfl)
      · exact told

theorem candid_handleFrame (frame : Frame) (sh : Shared F) (cl : Client F) :
    Candid cl (Stage.handleFrame p frame sh cl).1.client
      (Stage.handleFrame p frame sh cl).1.events := by
  have opened : Candid cl (Stage.openMessage frame.opcode cl) [] := by
    refine candid_of_same (fun alive => ?_) rfl
    unfold Stage.openMessage at alive
    split at alive <;> exact alive
  have appended : ∀ cl : Client F, Candid cl (Stage.appendFrame p frame sh cl).client
      (Stage.appendFrame p frame sh cl).events := by
    intro cl
    unfold Stage.appendFrame
    dsimp only
    generalize longer_ : (if Stage.isText cl then
      { cl with msgbuf := cl.msgbuf ++ frame.payload } else cl) = longer
    have same : Candid cl longer [] := by
      subst longer_
      split <;> exact candid_of_same id rfl
    generalize told_ : (if frame.fin ∧ Stage.isText longer then Stage.deliver p sh longer
      else ⟨sh, longer, []⟩) = told
    have delivered : Candid cl told.client ([] ++ told.events) := by
      subst told_
      split
      · exact same.trans (candid_deliver sh longer)
      · exact same.trans (candid_of_same id rfl)
    split <;> exact delivered
  unfold Stage.handleFrame
  split_ifs
  · dsimp only
    split_ifs
    · exact opened.trans (candid_of_same id rfl)
    · exact opened.trans (appended _)
  · exact candid_performAll _ _ _
  · exact candid_of_same id rfl
  · exact candid_of_same id rfl

theorem candid_handleRequest (req : HttpRequest) (body : List UInt8) (sh : Shared F)
    (cl : Client F) :
    Candid cl (Stage.handleRequest p req body sh cl).client
      (Stage.handleRequest p req body sh cl).events := by
  unfold Stage.handleRequest
  dsimp only
  generalize handleHttpRequest p.toOutside ⟨sh.sensitivity, [], sh.saved, sh.calls⟩ req body = handled
  have acted : ∀ acts : List (Act F), Candid cl
      (Stage.performAll p acts
        { sh with saved := handled.1.saved, calls := sh.calls + 1 } cl).client
      ([.act (.request req body)] ++ (Stage.performAll p acts
        { sh with saved := handled.1.saved, calls := sh.calls + 1 } cl).events) :=
    fun acts => Candid.trans (candid_of_same id rfl) (candid_performAll _ _ _)
  cases handled.2.1 with
  | none => exact (acted _).trans (candid_of_same id rfl)
  | some ctrl =>
      dsimp only
      split_ifs
      · exact (acted _).trans (candid_of_same id rfl)
      · exact (acted _).trans (candid_of_same id rfl)

theorem candid_processTurn
    (turned : Stage.processTurn p (sh, cl) buf = some ((sh', cl'), rest, events)) :
    Candid cl cl' events := by
  cases phase : cl.phase with
  | tls => simp [Stage.processTurn, phase] at turned
  | closing => simp [Stage.processTurn, phase] at turned
  | http =>
      simp only [Stage.processTurn, phase] at turned
      cases parsed : httpParseRequest buf with
      | incomplete => simp [parsed] at turned
      | malformed =>
          rw [parsed] at turned
          cases turned
          exact candid_of_same id rfl
      | done value =>
          simp only [parsed] at turned
          split_ifs at turned
          · cases turned
            exact candid_of_same id rfl
          · cases turned
            exact candid_handleRequest _ _ sh cl
  | ws =>
      simp only [Stage.processTurn, phase] at turned
      cases decoded : wsDecodeFrame buf with
      | incomplete => simp [decoded] at turned
      | malformed =>
          rw [decoded] at turned
          cases turned
          exact candid_of_same id rfl
      | done frame =>
          simp only [decoded] at turned
          cases turned
          exact candid_handleFrame frame sh cl

/-! ## Stages -/

/-- A client in `PHASE_WS` has nothing in `inbuf` that can be read yet. -/
def Client.Waits (cl : Client F) : Prop :=
  ∀ msg, cl.At (.frames msg) → readTurn (.frames msg) cl.inbuf = none

theorem processTurn_progress {s s' : Shared F × Client F}
    (turned : Stage.processTurn p s buf = some (s', rest, events)) :
    rest.length < buf.length ∨ ∀ later, Stage.processTurn p s' later = none := by
  obtain ⟨sh, cl⟩ := s
  have closes : ∀ (sh : Shared F) (cl : Client F), cl.phase = .closing →
      ∀ later, Stage.processTurn p (sh, cl) later = none :=
    fun sh cl closing later => processTurn_closing closing
  cases phase : cl.phase with
  | tls => simp [Stage.processTurn, phase] at turned
  | closing => simp [Stage.processTurn, phase] at turned
  | http =>
      simp only [Stage.processTurn, phase] at turned
      cases parsed : httpParseRequest buf with
      | incomplete => simp [parsed] at turned
      | malformed =>
          rw [parsed] at turned
          cases turned
          exact Or.inr (closes _ _ rfl)
      | done value =>
          obtain ⟨size, req⟩ := value
          simp only [parsed] at turned
          split_ifs at turned with large short
          · cases turned
            exact Or.inr (closes _ _ rfl)
          · cases turned
            have pos := (consumed_of_httpParseRequest parsed).1
            left
            rw [List.length_drop]
            omega
  | ws =>
      simp only [Stage.processTurn, phase] at turned
      cases decoded : wsDecodeFrame buf with
      | incomplete => simp [decoded] at turned
      | malformed =>
          rw [decoded] at turned
          cases turned
          exact Or.inr (closes _ _ rfl)
      | done frame =>
          simp only [decoded] at turned
          cases handled : (Stage.handleFrame p frame sh cl).2 with
          | true =>
              simp only [handled, if_true] at turned
              cases turned
              obtain ⟨pos, whole⟩ := consumed_of_wsDecodeFrame decoded
              left
              rw [List.length_drop]
              omega
          | false =>
              cases turned
              refine Or.inr (closes _ _ ?_)
              -- only a message over the limit is left where it is
              unfold Stage.handleFrame at handled ⊢
              split_ifs at handled ⊢ with isData
              dsimp only at handled ⊢
              split_ifs at handled ⊢
              rfl

/-- Where `process_client_buffer` returns, the reader waits, too. -/
theorem readTurn_of_processTurn (ws : cl.phase = .ws)
    (waits : Stage.processTurn p (sh, cl) buf = none) (msg : Reassembly) :
    readTurn (.frames msg) buf = none := by
  refine turn_of_incomplete ?_
  have undecoded : wsDecodeFrame buf = .incomplete := by
    simp only [Stage.processTurn, ws] at waits
    cases decoded : wsDecodeFrame buf with
    | incomplete => rfl
    | malformed => simp [decoded] at waits
    | done frame => simp [decoded] at waits
  exact Peek.bind_of_incomplete undecoded

/-- A connection between two stages: nothing in `inbuf` is left to read. -/
structure Stands (p : Platform D) (calls : Nat) (log : List (Event F)) (cl : Client F)
    (talk : Option (Talk F)) : Prop where
  course : Course p calls log cl cl.inbuf talk
  waits : cl.Waits
  candid : cl.out.failed = false → Unrefused log

/-- The stage goes on with the talk of every connection. -/
def GoesOn (p : Platform D) (stage : Stage F) : Prop :=
  ∀ sh cl log talk, Stands p sh.calls log cl talk → ∃ talk',
    Stands p (stage sh cl).shared.calls (log ++ (stage sh cl).events) (stage sh cl).client talk' ∧
      Goes sh.sensitivity talk (stage sh cl).events (stage sh cl).shared.sensitivity talk'

theorem GoesOn.andThen {first next : Stage F} (begins : GoesOn p first) (ends : GoesOn p next) :
    GoesOn p fun sh cl => (first sh cl).andThen next := by
  intro sh cl log talk stands
  obtain ⟨talk', stands', goes⟩ := begins sh cl log talk stands
  obtain ⟨talk'', stands'', goes'⟩ := ends _ _ _ talk' stands'
  refine ⟨talk'', ?_, goes.trans goes'⟩
  show Stands p _ (log ++ ((first sh cl).events ++ _)) _ talk''
  rw [← List.append_assoc]
  exact stands''

theorem Stands.still {calls calls' : Nat} (stands : Stands p calls log cl talk)
    (later : calls ≤ calls') (same : SameTalk cl cl') (inbuf : cl'.inbuf = cl.inbuf)
    (silent : deeds events = []) (unread : received events = []) (candid : Candid cl cl' events) :
    Stands p calls' (log ++ events) cl' talk := by
  refine ⟨?_, fun msg at_ => ?_, fun alive => ?_⟩
  · rw [inbuf]
    exact stands.course.still later same silent unread
  · rw [inbuf]
    exact stands.waits msg
      (at_.of_same same.phase.symm same.msgbuf.symm same.msgOpcode.symm)
  · obtain ⟨alive', unrefused⟩ := candid alive
    exact (stands.candid alive').append unrefused

theorem Stands.later {calls calls' : Nat} (stands : Stands p calls log cl talk)
    (later : calls ≤ calls') : Stands p calls' log cl talk := by
  have still : Stands p calls' (log ++ []) cl talk :=
    stands.still later (.refl cl) rfl rfl rfl (candid_of_same id rfl)
  rwa [List.append_nil] at still

/-- What a stage that nothing is said in leaves. -/
theorem goesOn_still {stage : Stage F}
    (still : ∀ sh cl, sh.calls ≤ (stage sh cl).shared.calls ∧
      (stage sh cl).shared.sensitivity = sh.sensitivity ∧ SameTalk cl (stage sh cl).client ∧
      (stage sh cl).client.inbuf = cl.inbuf ∧ deeds (stage sh cl).events = [] ∧
        received (stage sh cl).events = [] ∧
          Candid cl (stage sh cl).client (stage sh cl).events) : GoesOn p stage := by
  intro sh cl log talk stands
  obtain ⟨later, kept, same, inbuf, silent, unread, candid⟩ := still sh cl
  rw [kept]
  exact ⟨talk, stands.still later same inbuf silent unread candid, .refl _ talk silent⟩

theorem goesOn_skip : GoesOn (F := F) p fun sh cl => ⟨sh, cl, []⟩ :=
  goesOn_still fun _ cl => ⟨le_rfl, rfl, .refl cl, rfl, rfl, rfl, candid_of_same id rfl⟩

theorem sameTalk_fail (cl : Client F) : SameTalk cl cl.fail := ⟨rfl, rfl, rfl, rfl⟩

theorem candid_fail (cl : Client F) (events : List (Event F)) : Candid cl cl.fail events :=
  fun alive => by cases alive

/-- `process_client_buffer` reads until nothing is left to read. -/
theorem Course.processClientBuffer (sh : Shared F) (cl : Client F)
    (course : Course p sh.calls log cl cl.inbuf talk)
    (candid : cl.out.failed = false → Unrefused log) :
    ∃ talk', Stands p (Stage.processClientBuffer p sh cl).shared.calls
        (log ++ (Stage.processClientBuffer p sh cl).events)
        (Stage.processClientBuffer p sh cl).client talk' ∧
      Goes sh.sensitivity talk (Stage.processClientBuffer p sh cl).events
        (Stage.processClientBuffer p sh cl).shared.sensitivity talk' := by
  have turns : ∀ past s buf s' rest events,
      Stage.processTurn p s buf = some (s', rest, events) →
      Candid cl s.2 past ∧
        (∃ talk', Course p s.1.calls (log ++ past) s.2 buf talk' ∧
          Goes sh.sensitivity talk past s.1.sensitivity talk') →
      Candid cl s'.2 (past ++ events) ∧
        ∃ talk', Course p s'.1.calls (log ++ (past ++ events)) s'.2 rest talk' ∧
          Goes sh.sensitivity talk (past ++ events) s'.1.sensitivity talk' := by
    rintro past ⟨sh, cl⟩ buf ⟨sh', cl'⟩ rest events turned ⟨candid, talk', course, goes⟩
    obtain ⟨talk'', course', goes'⟩ := course.turn turned
    exact ⟨candid.trans (candid_processTurn turned), talk'',
      by rw [← List.append_assoc]; exact course', goes.trans goes'⟩
  have start : Candid cl (sh, cl).2 [] ∧
      ∃ talk', Course p (sh, cl).1.calls (log ++ []) (sh, cl).2 cl.inbuf talk' ∧
        Goes sh.sensitivity talk [] (sh, cl).1.sensitivity talk' :=
    ⟨candid_of_same id rfl, talk, by rw [List.append_nil]; exact course, .refl _ talk rfl⟩
  obtain ⟨candid', talk', course', goes⟩ := drain_keeps
    (I := fun past (s : Place F) buf => Candid cl s.2 past ∧
      ∃ talk', Course p s.1.calls (log ++ past) s.2 buf talk' ∧
        Goes sh.sensitivity talk past s.1.sensitivity talk') turns [] start
  have stuck : Stage.processTurn p (drain (Stage.processTurn p) (sh, cl) cl.inbuf).state
      (drain (Stage.processTurn p) (sh, cl) cl.inbuf).rest = none :=
    drain_stuck (fun s buf s' rest events turned => processTurn_progress turned) (sh, cl) cl.inbuf
  rw [List.nil_append] at course' goes
  refine ⟨talk', ⟨?_, ?_, fun alive => ?_⟩, goes⟩
  · have same : SameTalk (drain (Stage.processTurn p) (sh, cl) cl.inbuf).state.2
        (Stage.processClientBuffer p sh cl).client := ⟨rfl, rfl, rfl, rfl⟩
    have course'' : Course p _ ((log ++ _) ++ []) (Stage.processClientBuffer p sh cl).client _ talk' :=
      course'.still le_rfl same rfl rfl
    rw [List.append_nil] at course''
    exact course''
  · intro msg at_
    have ws : (drain (Stage.processTurn p) (sh, cl) cl.inbuf).state.2.phase = .ws := at_.1
    exact readTurn_of_processTurn ws stuck msg
  · obtain ⟨alive', unrefused⟩ := candid' alive
    exact (candid alive').append unrefused

theorem goesOn_readLoop (reads : Nat) : GoesOn p (Stage.readLoop (F := F) p reads) := by
  induction reads with
  | zero => exact goesOn_skip
  | succ reads ih =>
      intro sh cl log talk stands
      have quiet : ∀ {d : Outcome F}, sh.calls ≤ d.shared.calls →
          d.shared.sensitivity = sh.sensitivity → SameTalk cl d.client →
          d.client.inbuf = cl.inbuf → deeds d.events = [] → received d.events = [] →
          Candid cl d.client d.events →
          ∃ talk', Stands p d.shared.calls (log ++ d.events) d.client talk' ∧
            Goes sh.sensitivity talk d.events d.shared.sensitivity talk' :=
        fun later kept same inbuf silent unread candid =>
          ⟨talk, stands.still later same inbuf silent unread candid, kept ▸ .refl _ talk silent⟩
      unfold Stage.readLoop
      dsimp only
      split
      · exact quiet le_rfl rfl (sameTalk_fail cl) rfl rfl rfl (candid_fail cl _)
      · cases result : p.sslRead sh.calls (inputBufSize - cl.inbuf.length) with
        | wantRead => exact quiet (Nat.le_succ _) rfl ⟨rfl, rfl, rfl, rfl⟩ rfl rfl rfl (candid_of_same id rfl)
        | wantWrite => exact quiet (Nat.le_succ _) rfl ⟨rfl, rfl, rfl, rfl⟩ rfl rfl rfl (candid_of_same id rfl)
        | failed => exact quiet (Nat.le_succ _) rfl (sameTalk_fail cl) rfl rfl rfl (candid_fail cl _)
        | got chunk some_ fits =>
            dsimp only
            have came : Course p (sh.calls + 1) ((log ++ [.sslRead (.got chunk)]) ++ [])
                { cl with readWait := 0, inbuf := cl.inbuf ++ chunk } (cl.inbuf ++ chunk) talk :=
              (stands.course.receive chunk).still (Nat.le_succ sh.calls) ⟨rfl, rfl, rfl, rfl⟩ rfl rfl
            rw [List.append_nil] at came
            obtain ⟨talk', stands', goes⟩ := Course.processClientBuffer
              { sh with calls := sh.calls + 1 } _ came
              fun alive => (stands.candid alive).append fun event inside => by
                rw [List.mem_singleton.mp inside]
                rfl
            have read : GoesOn p fun sh cl =>
                if cl.phase = .closing ∨ cl.out.failed ∨ !p.sslPending sh.calls then
                  ⟨{ sh with calls := sh.calls + 1 }, cl, []⟩
                else Stage.readLoop p reads { sh with calls := sh.calls + 1 } cl := by
              intro sh cl log talk stands
              dsimp only
              split
              · refine ⟨talk, ?_, .refl _ talk rfl⟩
                rw [List.append_nil]
                exact stands.later (Nat.le_succ _)
              · exact ih { sh with calls := sh.calls + 1 } cl log talk (stands.later (Nat.le_succ _))
            obtain ⟨talk'', stands'', goes'⟩ := read _ _ _ talk' stands'
            refine ⟨talk'', ?_, ?_⟩
            · show Stands p _ (log ++ (([.sslRead (.got chunk)] ++ _) ++ _)) _ talk''
              rw [← List.append_assoc, ← List.append_assoc]
              exact stands''
            · exact (Goes.trans (.refl _ talk rfl) goes).trans goes'

theorem goesOn_read (events : UInt16) : GoesOn (F := F) p (Stage.read p events) := by
  intro sh cl log talk stands
  have outside : Stands p (sh.calls + 1) log cl talk := stands.later (Nat.le_succ _)
  unfold Stage.read
  dsimp only
  split
  · exact goesOn_readLoop maxReads { sh with calls := sh.calls + 1 } cl log talk outside
  · exact goesOn_skip { sh with calls := sh.calls + 1 } cl log talk outside

theorem goesOn_write (events : UInt16) : GoesOn (F := F) p (Stage.write p events) := by
  refine goesOn_still fun sh cl => ?_
  unfold Stage.write
  split
  · -- an attempt says nothing, and fails the client or leaves it as it was
    have attempt : deeds (Stage.flush p sh cl).events = [] ∧
        received (Stage.flush p sh cl).events = [] ∧
        Candid cl (Stage.flush p sh cl).client (Stage.flush p sh cl).events := by
      unfold Stage.flush Queue.flushOutput
      dsimp only
      by_cases idle : cl.out.outbuf = [] ∨ cl.out.failed = true
      · rw [if_pos idle]
        exact ⟨rfl, rfl, candid_of_same id rfl⟩
      · rw [if_neg idle]
        have alive : cl.out.failed = false := by simpa using (not_or.mp idle).2
        exact ⟨rfl, rfl, candid_of_same (fun _ => alive) rfl⟩
    exact ⟨Nat.le_add_right _ 2, rfl, ⟨rfl, rfl, rfl, rfl⟩, rfl, attempt⟩
  · exact ⟨le_rfl, rfl, .refl cl, rfl, rfl, rfl, candid_of_same id rfl⟩

theorem goesOn_transfer (events : UInt16) : GoesOn (F := F) p (Stage.transfer p events) := by
  intro sh cl log talk stands
  unfold Stage.transfer
  split
  · exact (goesOn_write events).andThen (goesOn_read events) sh cl log talk stands
  · exact goesOn_skip sh cl log talk stands

/-- The handshake that is done opens `PHASE_HTTP`. -/
theorem goesOn_handshake (events : UInt16) : GoesOn (F := F) p (Stage.handshake p events) := by
  intro sh cl log talk stands
  unfold Stage.handshake
  split
  · rename_i goes
    have quiet : ∀ {d : Outcome F}, sh.calls ≤ d.shared.calls →
        d.shared.sensitivity = sh.sensitivity → SameTalk cl d.client →
        d.client.inbuf = cl.inbuf → deeds d.events = [] → received d.events = [] →
        Candid cl d.client d.events →
        ∃ talk', Stands p d.shared.calls (log ++ d.events) d.client talk' ∧
          Goes sh.sensitivity talk d.events d.shared.sensitivity talk' :=
      fun later kept same inbuf silent unread candid =>
        ⟨talk, stands.still later same inbuf silent unread candid, kept ▸ .refl _ talk silent⟩
    unfold Stage.accept
    dsimp only
    cases p.sslAccept sh.calls with
    | wantRead => exact quiet (Nat.le_succ _) rfl ⟨rfl, rfl, rfl, rfl⟩ rfl rfl rfl (candid_of_same id rfl)
    | wantWrite => exact quiet (Nat.le_succ _) rfl ⟨rfl, rfl, rfl, rfl⟩ rfl rfl rfl (candid_of_same id rfl)
    | failed => exact quiet (Nat.le_succ _) rfl (sameTalk_fail cl) rfl rfl rfl (candid_fail cl _)
    | done =>
        cases stands.course with
        | hangsUp ctrl closing silent => exact absurd (goes.2.1.symm.trans closing) nofun
        | replied ctrl closing req body w said answered =>
            exact absurd (goes.2.1.symm.trans closing) nofun
        | talks t follows =>
            rcases follows.open_ with ws | closing
            · exact absurd (goes.2.1.symm.trans ws) nofun
            · exact absurd (goes.2.1.symm.trans closing) nofun
        | listens ctrl phase idle silent waits =>
            refine ⟨none, ⟨.listens ctrl (Or.inr rfl) idle ?_ ?_, ?_, fun alive => ?_⟩, rfl, trivial⟩
            · rw [deeds_append, silent]
              rfl
            · rw [received_append, waits]
              exact List.append_nil _
            · intro msg at_
              exact absurd at_.1 nofun
            · exact (stands.candid alive).append fun event inside => by
                rcases List.mem_cons.mp inside with rfl | inside
                · rfl
                · rw [List.mem_singleton.mp inside]
                  rfl
  · exact goesOn_skip sh cl log talk stands

theorem goesOn_checkDeadlines (events : UInt16) :
    GoesOn (F := F) p (Stage.checkDeadlines p events) := by
  refine goesOn_still fun sh cl => ?_
  unfold Stage.checkDeadlines
  dsimp only
  split
  · exact ⟨Nat.le_succ _, rfl, sameTalk_fail cl, rfl, rfl, rfl, candid_fail cl _⟩
  · exact ⟨Nat.le_succ _, rfl, .refl cl, rfl, rfl, rfl, candid_of_same id rfl⟩

/-- **Attending to a client** goes on with its talk. -/
theorem goesOn_attend (events : UInt16) : GoesOn (F := F) p (Stage.attend p events) :=
  ((goesOn_checkDeadlines events).andThen (goesOn_handshake events)).andThen
    (goesOn_transfer events)

/-! ## The device and the other clients -/

/-- A talk with a turn that the client has no part in. -/
theorem Follows.turnsAside {calls : Nat} {d : Outcome F} {turn : Turn F}
    (follows : Follows p calls log cl buf t)
    (tells : Tells p calls (t.controller p.toOutside) (some turn) d) (silent : turn.item? = none)
    (phase : d.client.phase = cl.phase) (msgbuf : d.client.msgbuf = cl.msgbuf)
    (msgOpcode : d.client.msgOpcode = cl.msgOpcode) :
    Follows p d.shared.calls (log ++ d.events) d.client buf (t.on [turn]) := by
  have items : (t.on [turn]).items = t.items := by simp [silent]
  refine follows.tells tells ?_ (by rw [phase]; exact follows.open_) fun ws => ?_
  · show (t.on [turn]).items <+: _
    rw [items]
    exact follows.said
  · obtain ⟨reader, at_, reads⟩ := follows.reads (phase.symm.trans ws)
    refine ⟨reader, at_.of_same phase msgbuf msgOpcode, ?_⟩
    show Reads _ _ _ (t.on [turn]).items
    rw [items]
    exact reads

/-- A device event is a turn of every talk. -/
theorem Stands.spnavEvent (stands : Stands p sh.calls log cl talk) (used : cl.used = true)
    (ev : SbEvent) :
    let d := Stage.spnavEvent p ev sh cl
    Stands p d.shared.calls (log ++ d.events) d.client
      (talk.map fun t => t.on [.call sh.calls (.spnav ev)]) := by
  intro d
  have unheld : cl.ctrl = none → talk = none →
      Stands p d.shared.calls (log ++ d.events) d.client
        (talk.map fun t => t.on [.call sh.calls (.spnav ev)]) := by
    intro unheld untold
    have is : d = ⟨sh, cl, []⟩ := by
      show Stage.spnavEvent p ev sh cl = _
      simp only [Stage.spnavEvent, unheld]
    subst untold
    rw [is]
    exact stands.still le_rfl (.refl cl) rfl rfl rfl (candid_of_same id rfl)
  obtain ⟨course, waits, candid⟩ := stands
  cases course with
  | listens ctrl phase idle silent waits => exact unheld ctrl rfl
  | hangsUp ctrl closing silent => exact unheld ctrl rfl
  | replied ctrl closing req body w said answered => exact unheld ctrl rfl
  | talks t follows =>
      have performs := performAll_performs (p := p) { sh with calls := sh.calls + 1 }
        { cl with ctrl := some (controllerOnSpnavEvent (D := D) (p.envs sh.calls)
          (t.controller p.toOutside) ev).1 } (Or.inl (isOutput_clientSends p.toOutside (controllerOnSpnavEvent (D := D)
          (p.envs sh.calls) (t.controller p.toOutside) ev).2))
      have is : d = Stage.performAll p ((controllerOnSpnavEvent (D := D) (p.envs sh.calls)
          (t.controller p.toOutside) ev).2.map (clientSend p.toOutside))
          { sh with calls := sh.calls + 1 } { cl with ctrl := some (controllerOnSpnavEvent (D := D)
            (p.envs sh.calls) (t.controller p.toOutside) ev).1 } := by
        show Stage.spnavEvent p ev sh cl = _
        simp only [Stage.spnavEvent, follows.ctrl, used, if_true]
      rw [← is] at performs
      have tells : Tells p sh.calls (t.controller p.toOutside)
          (some (.call sh.calls (.spnav ev))) d := by
        refine ⟨performs.same.ctrl, performs.deeds, performs.unread,
          (Nat.le_succ _).trans performs.later, fun number inside => ?_⟩
        obtain rfl : number = sh.calls := by simpa [Turn.number?] using inside
        exact ⟨le_rfl, performs.later⟩
      refine ⟨?_, ?_, fun alive => ?_⟩
      · rw [performs.inbuf]
        exact .talks _ (follows.turnsAside tells rfl performs.same.phase performs.same.msgbuf
          performs.same.msgOpcode)
      · intro msg at_
        rw [performs.inbuf]
        exact waits msg (at_.of_same performs.same.phase.symm performs.same.msgbuf.symm
          performs.same.msgOpcode.symm)
      · rw [is] at alive ⊢
        obtain ⟨alive', unrefused⟩ := candid_performAll _ _ _ alive
        exact (candid alive').append unrefused

/-- So is a change of the sensitivity that another client asks for. -/
theorem Stands.assign {calls : Nat} (stands : Stands p calls log cl talk) (used : cl.used = true)
    (value : F) :
    Stands p calls log (cl.assign value) (talk.map fun t => t.on [.call 0 (.setSensitivity value)]) := by
  have is : cl.assign value =
      { cl with ctrl := cl.ctrl.map fun c => (controllerSetSensitivity c value).1 } := if_pos used
  have unheld : cl.ctrl = none → cl.assign value = cl := by
    intro unheld
    rw [is, unheld]
    show { cl with ctrl := none } = cl
    rw [← unheld]
  obtain ⟨course, waits, candid⟩ := stands
  refine ⟨?_, ?_, fun alive => ?_⟩
  · cases course with
    | listens ctrl phase idle silent waits =>
        rw [unheld ctrl]
        exact .listens ctrl phase idle silent waits
    | hangsUp ctrl closing silent =>
        rw [unheld ctrl]
        exact .hangsUp ctrl closing silent
    | replied ctrl closing req body w said answered =>
        rw [unheld ctrl]
        exact .replied ctrl closing req body w said answered
    | talks t follows =>
        have tells : Tells p calls (t.controller p.toOutside)
            (some (.call 0 (.setSensitivity value)))
            ⟨⟨value, none, calls⟩, cl.assign value, []⟩ := by
          refine ⟨?_, rfl, rfl, le_rfl, by simp [Turn.number?]⟩
          show (cl.assign value).ctrl = _
          rw [is, follows.ctrl]
          rfl
        have follows' := follows.turnsAside tells rfl (assign_phase value cl)
          (by rw [is]) (by rw [is])
        rw [List.append_nil] at follows'
        rw [(sameIo_assign value cl).inbuf]
        exact .talks _ follows'
  · intro msg at_
    rw [is] at at_ ⊢
    exact waits msg at_
  · rw [is] at alive
    exact candid alive

end Turns

end SpnavBridge.Daemon
