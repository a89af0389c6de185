/-
# Daemon.Sensitivity -- the clients agree on the sensitivity, and it is in range

The bounds are tested in four places: on a `double` where a POST asks for a value, on a
`float` on the command line, in the saved file and in `controller_set_sensitivity`, whose
answer nobody looks at.  `Bounds` is what makes the four agree, and IEEE arithmetic has it:
a conversion keeps the order, and takes the bounds of one test to those of the other.

* `Move.agrees`: no move of the process splits the clients.
* `sensitivity_agreement`: so every reachable state is one where they agree.
-/
import SpnavBridge.Daemon.Reachable
import SpnavBridge.Daemon.StartUp
import SpnavBridge.Theory.Ieee

namespace SpnavBridge.Daemon

open SpnavBridge.Theory SpnavBridge.Wire SpnavBridge.Kernel

set_option autoImplicit false
set_option linter.unusedSectionVars false

/-! ## The tests of the bounds -/

/-- The default passes, and so does every `float` that was a `double` within the bounds. -/
structure Bounds (D F : Type) [CFloat F] [CDouble D F] : Prop where
  initial : InRange (defaultSensitivity : F)
  narrows : ∀ d : D, CFloat.isfinite (CDouble.narrow d : F) = true →
    CDouble.lt d (CDouble.lit (1 / 100)) = false → CDouble.lt (CDouble.lit 10) d = false →
    InRange (CDouble.narrow d : F)

section Ieee

/-- The bounds, as values of a format. -/
def least (fmt : Format) : Value fmt := .ofRat (1 / 100)
def most (fmt : Format) : Value fmt := .ofRat 10

theorem key_convert_least : ((least binary64).convert binary32).key = (least binary32).key := by
  decide +kernel

theorem key_convert_most : ((most binary64).convert binary32).key = (most binary32).key := by
  decide +kernel

theorem within_iff {fmt : Format} {x : Value fmt} (finite : ∃ a, x.key = some a) :
    (x.lt (least fmt) = false ∧ (most fmt).lt x = false) ↔
      (least fmt).le x = true ∧ x.le (most fmt) = true := by
  obtain ⟨a, place⟩ := finite
  obtain ⟨low, bottom⟩ : ∃ k, (least fmt).key = some k := Value.key_ofRat _
  obtain ⟨high, top⟩ : ∃ k, (most fmt).key = some k := Value.key_ofRat _
  rw [Value.lt_eq_false place bottom, Value.lt_eq_false top place]

variable (a : Arithmetic)

/-- From 0.01f to 10.0f, in the order of the `float`s. -/
def Within (value : Single a) : Prop :=
  (least binary32).le (value : Value binary32) = true ∧
    (show Value binary32 from value).le (most binary32) = true

variable {a}

theorem within_of_inRange {value : Single a} (range : InRange value) : Within a value :=
  (within_iff (Value.key_of_isFinite range.finite)).mp ⟨range.least, range.most⟩

variable (a)

/-- **The tests agree in IEEE arithmetic.** -/
theorem bounds_ieee : Bounds (Double a) (Single a) where
  initial := by
    have passes : (Value.ofRat (35 / 100) : Value binary32).isFinite = true ∧
        (Value.ofRat (35 / 100) : Value binary32).lt (least binary32) = false ∧
        (most binary32).lt (Value.ofRat (35 / 100) : Value binary32) = false := by decide +kernel
    exact ⟨passes.1, passes.2.1, passes.2.2⟩
  narrows d finite low high := by
    change Value binary64 at d
    have place : ∃ k, d.key = some k := by
      cases d with
      | nan => cases finite
      | inf negative => cases finite
      | finite negative magnitude held => exact ⟨_, rfl⟩
    obtain ⟨above, below⟩ := (within_iff place).mp ⟨low, high⟩
    have above' := Value.convert_mono binary32 above
    have below' := Value.convert_mono binary32 below
    rw [Value.le_congr key_convert_least rfl] at above'
    rw [Value.le_congr rfl key_convert_most] at below'
    obtain ⟨low', high'⟩ := (within_iff (Value.key_of_isFinite finite)).mpr ⟨above', below'⟩
    exact ⟨finite, low', high'⟩

end Ieee

variable {D F : Type} [CFloat F] [CDouble D F]

/-! ## What a POST, the command line and the saved file may set -/

theorem requestedSensitivity_inRange (bounds : Bounds D F) {o : Outside D} {body : List UInt8}
    {value : F} (asked : requestedSensitivity o body = some value) : InRange value := by
  unfold requestedSensitivity at asked
  split at asked
  · split at asked
    · rename_i d found
      split_ifs at asked with refused
      injection asked with same
      simp only [Bool.or_eq_true, not_or, Bool.not_eq_true, Bool.not_eq_false'] at refused
      rw [← same]
      exact bounds.narrows d refused.1.1 refused.1.2 refused.2
    · cases asked
  · cases asked

/-- A value that one of the three takes. -/
inductive Accepted (o : Outside D) (sys : System F) (value : F) : Prop
  | requested (body : List UInt8) (asked : requestedSensitivity o body = some value)
  | option (text : CStr) (taken : sensitivityOption sys text = some value)
  | loaded (gStateDir : CBuf 511) (read : loadPersistedSensitivity sys gStateDir = some value)

theorem Accepted.inRange (bounds : Bounds D F) {o : Outside D} {sys : System F} {value : F}
    (accepted : Accepted o sys value) : InRange value := by
  cases accepted with
  | requested body asked => exact requestedSensitivity_inRange bounds asked
  | option text taken => exact sensitivityOption_inRange taken
  | loaded gStateDir read => exact loadPersistedSensitivity_inRange read

/-! ## Agreement -/

/-- A slot agrees with what is shared.  A slot that is free has no controller. -/
structure Agree (s : Place F) : Prop where
  range : InRange s.1.sensitivity
  told : ∀ ctrl, s.2.ctrl = some ctrl → s.2.used = true ∧ ctrl.sensitivity = s.1.sensitivity

/-- Every slot does. -/
def Agrees (b : Bridge F) : Prop := ∀ i, Agree (b.shared, b.clients i)

/-- What agreement looks at. -/
theorem Agree.of_same {s s' : Place F} (agree : Agree s)
    (sensitivity : s'.1.sensitivity = s.1.sensitivity) (ctrl : s'.2.ctrl = s.2.ctrl)
    (used : s'.2.used = s.2.used) : Agree s' where
  range := sensitivity ▸ agree.range
  told c held := by
    rw [used, sensitivity]
    exact agree.told c (ctrl ▸ held)

theorem Agree.closed {sh : Shared F} (range : InRange sh.sensitivity) :
    Agree (sh, Client.closed) where
  range := range
  told c held := by cases held

/-- A client whose controller has just been told. -/
theorem Agree.assign {sh : Shared F} {cl : Client F} {value : F} (agree : Agree (sh, cl))
    (range : InRange value) : Agree ({ sh with sensitivity := value }, cl.assign value) := by
  refine ⟨range, fun ctrl held => ?_⟩
  rw [show (cl.assign value).used = cl.used from (sameIo_assign value cl).used]
  dsimp only at held ⊢
  unfold Client.assign at held
  split at held
  · rename_i used
    obtain ⟨c, -, rfl⟩ := Option.map_eq_some_iff.mp held
    rw [controllerSetSensitivity_accepts range]
    exact ⟨used, rfl⟩
  · rename_i unused
    exact absurd (agree.told ctrl held).1 unused

/-- A client whose controller is another one. -/
theorem Agree.replace {sh : Shared F} {cl cl' : Client F} {ctrl : Controller F}
    (agree : Agree (sh, cl)) (used : cl'.used = true) (held : cl'.ctrl = some ctrl)
    (same : ctrl.sensitivity = sh.sensitivity) : Agree (sh, cl') := by
  refine ⟨agree.range, fun c held' => ⟨used, ?_⟩⟩
  dsimp only at held'
  rw [held] at held'
  injection held' with held'
  rw [← held']
  exact same

variable {p : Platform D}

theorem Work.agree (bounds : Bounds D F) {s s' : Place F} {events : List (Event F)}
    (work : Work p s events s') (used : s.2.used = true) (agree : Agree s) : Agree s' := by
  cases work with
  | assigns value asked =>
      obtain ⟨body, asked⟩ := asked
      exact agree.assign (requestedSensitivity_inRange bounds asked)
  | upgrades created http =>
      refine agree.replace used rfl ?_
      rw [controllerSetSensitivity_accepts agree.range]
  | delivers ctrl e ws held =>
      refine agree.replace used rfl ?_
      rw [controllerOnMessage_sensitivity]
      exact (agree.told ctrl held).2
  | moves ctrl e ev held =>
      refine agree.replace used rfl ?_
      rw [(controllerOnSpnavEvent_settings e _ ev).sensitivity]
      exact (agree.told ctrl held).2
  | _ => exact agree.of_same rfl rfl rfl

theorem Step.agree (bounds : Bounds D F) {s s' : Place F} {events : List (Event F)}
    (step : Step p s events s') (used : s.2.used = true) (agree : Agree s) : Agree s' := by
  cases step with
  | works work => exact work.agree bounds used agree
  | _ => exact agree.of_same rfl rfl rfl

theorem OwnStep.agree (bounds : Bounds D F) {s s' : Place F} {events : List (Event F)}
    (step : OwnStep p s events s') (agree : Agree s) : Agree s' := by
  cases step with
  | serves used step => exact step.agree bounds used agree
  | outside calls => exact agree.of_same rfl rfl rfl
  | opens fd free =>
      refine ⟨agree.range, fun ctrl held => ⟨rfl, (agree.told ctrl held).2⟩⟩
  | refuses => exact .closed agree.range
  | closes used => exact .closed agree.range

/-! ## The other clients -/

/-- What the others hear of a step: a value that was asked for, or nothing. -/
def Heeds (p : Platform D) (s : Place F) (events : List (Event F)) (s' : Place F) : Prop :=
  (∃ value, Asked p value ∧ events.filterMap Event.assigned? = [value] ∧
    s'.1 = { s.1 with sensitivity := value }) ∨
  (events.filterMap Event.assigned? = [] ∧ s'.1.sensitivity = s.1.sensitivity)

theorem Work.heeds {s s' : Place F} {events : List (Event F)} (work : Work p s events s') :
    Heeds p s events s' := by
  cases work with
  | assigns value asked => exact Or.inl ⟨value, asked, rfl, rfl⟩
  | notes act plain =>
      refine Or.inr ⟨?_, rfl⟩
      cases act with
      | assign value => cases plain
      | _ => rfl
  | _ => exact Or.inr ⟨rfl, rfl⟩

theorem OwnStep.heeds {s s' : Place F} {events : List (Event F)} (step : OwnStep p s events s') :
    Heeds p s events s' := by
  cases step with
  | serves used step =>
      cases step with
      | works work => exact work.heeds
      | flushes ssl open_ readFree =>
          rename_i sh cl
          refine Or.inr ⟨?_, rfl⟩
          cases (cl.out.flushOutput (p.clock sh.calls) ssl).2 with
          | none => rfl
          | some event => rfl
      | _ => exact Or.inr ⟨rfl, rfl⟩
  | _ => exact Or.inr ⟨rfl, rfl⟩

/-- A client that hears of the step agrees as it did. -/
theorem Agree.hear (bounds : Bounds D F) {s s' : Place F} {events : List (Event F)}
    {cl : Client F} (heeds : Heeds p s events s') (agree : Agree (s.1, cl)) :
    Agree (s'.1, cl.hear events) := by
  unfold Client.hear
  rcases heeds with ⟨value, ⟨body, asked⟩, heard, shared⟩ | ⟨silent, same⟩
  · rw [heard, shared]
    exact agree.assign (requestedSensitivity_inRange bounds asked)
  · rw [silent]
    exact agree.of_same same rfl rfl

/-- **No move splits the clients.** -/
theorem Move.agrees (bounds : Bounds D F) {b b' : Bridge F} (move : Bridge.Move p b b')
    (agrees : Agrees b) : Agrees b' := by
  cases move with
  | stops => exact agrees
  | @slot i events s step =>
      intro j
      by_cases same : j = i
      · subst same
        rw [Bridge.moved_self]
        exact step.agree bounds (agrees j)
      · show Agree (s.1, if j = i then _ else _)
        rw [if_neg same]
        exact (agrees j).hear bounds step.heeds

theorem agrees_start {sensitivity : F} (range : InRange sensitivity) (saved : Option CStr) :
    Agrees (.start sensitivity saved) :=
  fun _ => .closed range

/-! ## Refused requests -/

def statusLine (status : Nat) : List UInt8 := ascii "HTTP/1.1 " ++ decimal status ++ ascii " "

def Act.queued? : Act F → Option (List UInt8)
  | .queue data => some data
  | _ => none

/-- The first thing that is queued starts as a response with this status does. -/
def Answered (status : Nat) (acts : List (Act F)) : Prop :=
  ∃ data, acts.findSome? Act.queued? = some data ∧ statusLine status <+: data

/-- The statuses of a refusal. -/
def refusals : List Nat := [400, 403, 405]

/-- The response with another status is no refusal. -/
theorem not_refusal {status other : Nat} (refusal : status ∈ refusals)
    (answer : other ∈ [101, 200, 204, 404]) {data : List UInt8} (start : statusLine other <+: data) :
    ¬ statusLine status <+: data := by
  intro start'
  have apart : ∀ status ∈ refusals, ∀ other ∈ [101, 200, 204, 404],
      (statusLine status).length ≤ (statusLine other).length ∧
        ¬ statusLine status <+: statusLine other := by decide +kernel
  obtain ⟨shorter, apart⟩ := apart status refusal other answer
  exact apart (List.prefix_of_prefix_length_le start' start shorter)

theorem statusLine_responseHeader (status : Nat) (statusText extraHeaders body : CStr) :
    statusLine status <+: responseHeader status statusText extraHeaders body := by
  unfold statusLine responseHeader
  simp only [List.append_assoc, List.prefix_append_right_inj]
  exact List.prefix_append _ _

theorem not_answered_sendHttpResponse {status other : Nat} (refusal : status ∈ refusals)
    (answer : other ∈ [101, 200, 204, 404]) (statusText extraHeaders body : CStr) :
    ¬ Answered status (sendHttpResponse other statusText extraHeaders body : List (Act F)) := by
  rintro ⟨data, first, start⟩
  injection first with first
  rw [← first] at start
  exact not_refusal refusal answer (statusLine_responseHeader ..) start

/-- What a refused request leaves: the world, and output alone. -/
structure Refuses (w : World F) (handled : World F × Option (Controller F) × List (Act F)) :
    Prop where
  world : handled.1 = w
  plain : handled.2.1 = none
  output : ∀ act ∈ handled.2.2, act.isOutput = true

theorem refuses_sendHttpResponse (w : World F) (status : Nat) (statusText extraHeaders body : CStr) :
    Refuses w (w, none, sendHttpResponse status statusText extraHeaders body) :=
  ⟨rfl, rfl, isOutput_sendHttpResponse _ _ _ _⟩

theorem handleSensitivityRequest_refuses {o : Outside D} {w : World F} {req : HttpRequest}
    {body : List UInt8} {status : Nat} (refusal : status ∈ refusals)
    (answered : Answered status (handleSensitivityRequest o w req body).2) :
    Refuses w ((handleSensitivityRequest o w req body).1, none,
      (handleSensitivityRequest o w req body).2) := by
  -- a 200 comes behind a note that the value was read
  have reports (w : World F) (hdr : CBuf 511) (front : List (Act F))
      (silent : front.findSome? Act.queued? = none) :
      ¬ Answered status (front ++ reportSensitivity o w hdr) := by
    rintro ⟨data, first, start⟩
    rw [List.findSome?_append, silent] at first
    injection first with first
    rw [← first] at start
    exact not_refusal refusal (show 200 ∈ [101, 200, 204, 404] by decide)
      (statusLine_responseHeader ..) start
  unfold handleSensitivityRequest at answered ⊢
  split
  · exact refuses_sendHttpResponse ..
  · rename_i allowed
    rw [if_neg allowed] at answered
    dsimp only at answered ⊢
    split
    · rename_i post
      rw [if_pos post] at answered
      cases asked : requestedSensitivity (F := F) o body with
      | none => exact refuses_sendHttpResponse ..
      | some value =>
          rw [asked] at answered
          exact absurd answered (reports _ _ [.assign value] rfl)
    · rename_i notPost
      rw [if_neg notPost] at answered
      split
      · exact refuses_sendHttpResponse ..
      · rename_i get
        rw [if_neg get] at answered
        exact absurd answered (reports _ _ [] rfl)

theorem handleHttpRequest_refuses {o : Outside D} {w : World F} {req : HttpRequest}
    {body : List UInt8} {status : Nat} (refusal : status ∈ refusals)
    (answered : Answered status (handleHttpRequest o w req body).2.2) :
    Refuses w (handleHttpRequest o w req body) := by
  unfold handleHttpRequest at answered ⊢
  split
  · rename_i upgrade
    rw [if_pos upgrade] at answered
    unfold handleWsUpgrade at answered ⊢
    split
    · exact refuses_sendHttpResponse ..
    · rename_i allowed
      rw [if_neg allowed] at answered
      dsimp only at answered ⊢
      split
      · exact refuses_sendHttpResponse ..
      · rename_i accept found
        rw [found] at answered
        obtain ⟨data, first, start⟩ := answered
        injection first with first
        refine absurd start (not_refusal refusal (by decide : 101 ∈ [101, 200, 204, 404]) ?_)
        rw [← first]
        unfold switchingProtocols
        simp only [List.append_assoc]
        refine List.IsPrefix.trans ?_ (List.prefix_append _ _)
        decide +kernel
  · rename_i plain
    rw [if_neg plain] at answered
    unfold handlePlainRequest at answered ⊢
    dsimp only at answered ⊢
    split_ifs at answered ⊢ with options nlproxy sensitivity
    · exact absurd answered (not_answered_sendHttpResponse refusal (by decide) _ _ _)
    · exact absurd answered (not_answered_sendHttpResponse refusal (by decide) _ _ _)
    · exact handleSensitivityRequest_refuses refusal answered
    · exact absurd answered (not_answered_sendHttpResponse refusal (by decide) _ _ _)

/-- Output alone leaves the shared settings and the controller, and the others hear nothing. -/
theorem performAll_output {acts : List (Act F)} (output : ∀ act ∈ acts, act.isOutput = true)
    (sh : Shared F) (cl : Client F) :
    let d := Stage.performAll p acts sh cl
    d.shared.sensitivity = sh.sensitivity ∧ d.shared.saved = sh.saved ∧
      d.client.ctrl = cl.ctrl ∧ d.events.filterMap Event.assigned? = [] := by
  induction acts generalizing sh cl with
  | nil => exact ⟨rfl, rfl, rfl, rfl⟩
  | cons act acts ih =>
      have first := output act List.mem_cons_self
      have rest := fun act inside => output act (List.mem_cons_of_mem _ inside)
      cases act with
      | queue data => exact ih rest _ _
      | reject => exact ih rest _ _
      | _ => cases first

/-- **A refused request changes nothing.** -/
theorem handleRequest_refused (b : Bridge F) (i : Fin maxClients) (req : HttpRequest)
    (body : List UInt8) {status : Nat} (refusal : status ∈ refusals)
    (answered : Answered status (handleHttpRequest p.toOutside
      ⟨b.shared.sensitivity, [], b.shared.saved, b.shared.calls⟩ req body).2.2) :
    let b' := (b.at_ i (Stage.handleRequest p req body)).1
    b'.shared.sensitivity = b.shared.sensitivity ∧ b'.shared.saved = b.shared.saved ∧
      ∀ j, (b'.clients j).ctrl = (b.clients j).ctrl := by
  obtain ⟨world, plain, output⟩ := handleHttpRequest_refuses refusal answered
  unfold Bridge.at_ Stage.handleRequest
  dsimp only
  rw [plain, world]
  dsimp only
  obtain ⟨sensitivity, saved, ctrl, silent⟩ := performAll_output (p := p) output
    ⟨b.shared.sensitivity, b.shared.saved, b.shared.calls + 1⟩ (b.clients i)
  refine ⟨sensitivity, saved, fun j => ?_⟩
  split
  · rename_i same
    rw [same]
    exact ctrl
  · -- the events are the request, the output and the phase
    unfold Client.hear Outcome.andThen Stage.note
    dsimp only
    rw [List.filterMap_append, List.filterMap_append, silent]
    rfl

/-! ## Every run -/

/-- A state that a start-up and any moves behind it may lead to.  Nothing is known of the
text that is saved at first: only `loadPersistedSensitivity` has looked at it. -/
def Reachable (p : Platform D) (sys : System F) (argv : List CStr) (b : Bridge F) : Prop :=
  ∃ opts saved, startUp sys argv = some opts ∧ Bridge.Moves p (.start opts.sensitivity saved) b

theorem Reachable.agrees (bounds : Bounds D F) {sys : System F} {argv : List CStr} {b : Bridge F}
    (reachable : Reachable p sys argv b) : Agrees b := by
  obtain ⟨opts, saved, started, moves⟩ := reachable
  refine moves.keeps (fun b b' move => Move.agrees bounds move) ?_
  exact agrees_start (startUp_inRange bounds.initial started) saved

/-- **The clients agree.**  The states are those of every interleaving of moves, which has
the states of the main loop among them. -/
theorem sensitivity_agreement (a : Arithmetic) (p : Platform (Double a)) (sys : System (Single a))
    (argv : List CStr) :
    (∀ opts saved polls, startUp sys argv = some opts →
      Reachable p sys argv ((mainLoop p opts.sensitivity saved).after polls)) ∧
    (∀ b, Reachable p sys argv b →
      Within a b.shared.sensitivity ∧ ∀ i ctrl, (b.clients i).used = true →
        (b.clients i).ctrl = some ctrl → ctrl.sensitivity = b.shared.sensitivity) ∧
    (∀ c value, Accepted p.toOutside sys value →
      controllerSetSensitivity c value = ({ c with sensitivity := value }, 0)) ∧
    (∀ (b : Bridge (Single a)) i req body status, status ∈ [400, 403, 405] →
      Answered status (handleHttpRequest p.toOutside
        ⟨b.shared.sensitivity, [], b.shared.saved, b.shared.calls⟩ req body).2.2 →
      let b' := (b.at_ i (Stage.handleRequest p req body)).1
      b'.shared.sensitivity = b.shared.sensitivity ∧ b'.shared.saved = b.shared.saved ∧
        ∀ j, (b'.clients j).ctrl = (b.clients j).ctrl) := by
  refine ⟨fun opts saved polls started => ?_, fun b reachable => ?_, fun c value accepted => ?_,
    fun b i req body status refusal answered => handleRequest_refused b i req body refusal answered⟩
  · exact ⟨opts, saved, started, run_moves p opts.sensitivity saved polls⟩
  · have agrees := reachable.agrees (bounds_ieee a)
    refine ⟨within_of_inRange (agrees ⟨0, by decide⟩).range, fun i ctrl used held => ?_⟩
    exact ((agrees i).told ctrl held).2
  · exact controllerSetSensitivity_accepts (accepted.inRange (bounds_ieee a)) c

end SpnavBridge.Daemon
