/-
# Kernel.Script -- a chain is a straight-line program

`motionScript` and `buttonScript` say what a chain is for: read the camera, compute,
write it back, and give up at an error or at numbers that are not there.  The controller
runs them as callbacks over fields that outlive the chain (`view_extents` is read into
and scaled in place, a failed `json_to_floats` leaves half an array behind, the event
being served sits beside the one queued next).

`programAt` reads a state back as the rest of its program, from the RPC it waits on.
`receive_goes` shows that a reply moves the state as it moves the program, whatever else
the fields hold, and the playing rule turns that into `chain_follows_script`.
-/
import SpnavBridge.Kernel.Focus
import SpnavBridge.Kernel.Outstanding
import SpnavBridge.Theory.Dialogue

namespace SpnavBridge.Kernel

open SpnavBridge.Theory SpnavBridge.Wire SpnavBridge.Camera

set_option autoImplicit false
set_option linter.unusedSectionVars false

variable {D F : Type} [CFloat F] [CDouble D F]

/-! ## The programs -/

/-- What an RPC asks of the client. -/
structure Request (D : Type) where
  kind : CStr
  prop : CStr
  value : Option (Json D)

def requestOf (r : Rpc D) : Request D := ⟨r.kind, r.prop, r.value⟩

/-- The request a chain is started with. -/
def Request.opens (q : Request D) : Bool := q.kind = selfRead ∧ q.prop = .lit "model.extents"

abbrev Script (D : Type) := Dialogue (Request D) (Reply D)

/-- Goes on with a result; an error ends the program. -/
def onResult (next : Option (Json D) → Script D) : Reply D → Script D
  | .error => .done
  | .result value => next value

/-- The first `n` items of an array that has as many, if they are numbers. -/
def numbers (n : Nat) (value : Option (Json D)) : Option (Fin n → F) :=
  match value with
  | some (.array items) =>
      if n ≤ items.length ∧ (items.take n).all Json.isNumber then
        some fun i => match items[i.val]? with
          | some (.number d) => CDouble.narrow d
          | _ => CFloat.lit 0
      else none
  | _ => none

def readProp (prop : CStr) (next : Option (Json D) → Script D) : Script D :=
  .ask ⟨selfRead, prop, none⟩ (onResult next)

def readNumbers (n : Nat) (prop : CStr) (next : (Fin n → F) → Script D) : Script D :=
  readProp prop fun value => match numbers n value with
    | some held => next held
    | none => .done

def updateProp (prop : CStr) (value : Option (Json D)) (next : Script D) : Script D :=
  .ask ⟨selfUpdate, prop, value⟩ (onResult fun _ => next)

/-- True, or a number other than zero. -/
def truth (value : Option (Json D)) : Bool :=
  Json.isTrue value || match value with
    | some (.number d) => CDouble.nonzero d
    | _ => false

/-- The view box scaled by the event's zoom. -/
def zoomed (sensitivity : F) (ev : SbEvent) (box : Fin 6 → F) : Fin 6 → F :=
  fun i => box i * (CFloat.lit 1 + CFloat.ofInt ev.z * CFloat.lit (2 / 10000) * sensitivity)

def motionScript (sensitivity : F) (ev : SbEvent) : Script D :=
  readNumbers 6 (.lit "model.extents") fun extents =>
  readProp (.lit "view.perspective") fun perspective =>
  readNumbers 16 (.lit "view.affine") fun affine =>
  let camera := computeNewAffine sensitivity extents affine ev
  if truth perspective then
    updateProp (.lit "motion") (some (.bool true)) <|
    updateProp (.lit "view.affine") (some (floatsToJson camera)) .done
  else
    readNumbers 6 (.lit "view.extents") fun box =>
    updateProp (.lit "motion") (some (.bool true)) <|
    updateProp (.lit "view.extents") (some (floatsToJson (zoomed sensitivity ev box))) <|
    updateProp (.lit "view.affine") (some (floatsToJson camera)) .done

def buttonScript : Script D :=
  readNumbers 6 (.lit "model.extents") fun extents =>
  readProp (.lit "views.front") fun front =>
  updateProp (.lit "view.affine") front <|
  updateProp (.lit "view.extents")
    (some (floatsToJson fun i => extents i * CFloat.lit (12 / 10))) .done

/-- The program an event starts. -/
def script (sensitivity : F) (ev : SbEvent) : Script D :=
  if ev.type = .motion then motionScript sensitivity ev else buttonScript

/-! ## A state as the rest of its program -/

/-- The end of a motion: the camera. -/
def writeAffine (camera : Mat4 F) : Script D :=
  updateProp (.lit "view.affine") (some (floatsToJson camera)) .done

/-- The writes of a motion, after its reads. -/
def writes (perspective : Bool) (box : Fin 6 → F) (camera : Mat4 F) : Script D :=
  updateProp (.lit "motion") (some (.bool true)) <|
    if perspective then writeAffine camera
    else updateProp (.lit "view.extents") (some (floatsToJson box)) (writeAffine camera)

def fromViewextents (sensitivity : F) (ev : SbEvent) (perspective : Bool) (camera : Mat4 F) :
    Script D :=
  readNumbers 6 (.lit "view.extents") fun box =>
    writes perspective (zoomed sensitivity ev box) camera

def fromAffine (sensitivity : F) (ev : SbEvent) (extents : Fin 6 → F) (perspective : Bool) :
    Script D :=
  readNumbers 16 (.lit "view.affine") fun affine =>
    let camera := computeNewAffine sensitivity extents affine ev
    if perspective then
      updateProp (.lit "motion") (some (.bool true)) (writeAffine camera)
    else fromViewextents sensitivity ev false camera

def fromPerspective (sensitivity : F) (ev : SbEvent) (extents : Fin 6 → F) : Script D :=
  readProp (.lit "view.perspective") fun perspective =>
    fromAffine sensitivity ev extents (truth perspective)

def writeBox (extents : Fin 6 → F) : Script D :=
  updateProp (.lit "view.extents")
    (some (floatsToJson fun i => extents i * CFloat.lit (12 / 10))) .done

def fromFront (extents : Fin 6 → F) : Script D :=
  readProp (.lit "views.front") fun front =>
    updateProp (.lit "view.affine") front (writeBox extents)

/-- The program a running chain is in, from the RPC it waits on.  Where the RPC was a
forwarded front view, its value is no longer known. -/
def programAt (front : Option (Json D)) (c : Controller F) : Script D :=
  match c.step with
  | .mstepReadExtents => motionScript c.sensitivity c.activeEv
  | .mstepReadPerspective => fromPerspective c.sensitivity c.activeEv c.modelExtents
  | .mstepReadAffine => fromAffine c.sensitivity c.activeEv c.modelExtents c.perspective
  | .mstepReadViewextents =>
      fromViewextents c.sensitivity c.activeEv c.perspective c.newAffine
  | .mstepWriteMotion => writes c.perspective c.viewExtents c.newAffine
  | .mstepWriteViewextents =>
      updateProp (.lit "view.extents") (some (floatsToJson c.viewExtents))
        (writeAffine c.newAffine)
  | .mstepWriteAffine => writeAffine c.newAffine
  | .bstepReadExtents => buttonScript
  | .bstepReadFront => fromFront c.modelExtents
  | .bstepWriteAffine => updateProp (.lit "view.affine") front (writeBox c.modelExtents)
  | .bstepWriteExtents => writeBox c.modelExtents

/-! ## Numbers -/

/-- The items from `i` on are stored from index `i` on. -/
theorem storeFloats_of_numbers {n : Nat} (items : List (Json D)) :
    ∀ (i : Nat) (out : Fin n → F), items.all Json.isNumber = true → ∀ k : Fin n,
      (storeFloats i items out).1 k =
        if i ≤ k.val then
          match items[k.val - i]? with
          | some (.number d) => CDouble.narrow d
          | _ => out k
        else out k := by
  induction items with
  | nil => intro i out _ k; simp [storeFloats]
  | cons item rest ih =>
      intro i out all k
      rw [List.all_cons, Bool.and_eq_true] at all
      cases item with
      | number d =>
          rw [storeFloats, ih (i + 1) _ all.2 k]
          by_cases here : k.val = i
          · simp [here]
          · by_cases later : i + 1 ≤ k.val
            · have shift : k.val - i = (k.val - (i + 1)) + 1 := by omega
              simp [later, shift, here, show i ≤ k.val by omega]
            · simp [later, here, show ¬ i ≤ k.val by omega]
      | _ => simp [Json.isNumber] at all

/-- Where `json_to_floats` succeeds it leaves nothing of what the array held before. -/
theorem jsonToFloats_of_numbers {n : Nat} {value : Option (Json D)} {held : Fin n → F}
    (is : numbers n value = some held) (out : Fin n → F) :
    (jsonToFloats value out).1 = held := by
  unfold numbers at is
  split at is
  · rename_i items
    split_ifs at is with all
    obtain rfl := Option.some.inj is
    have long : ¬ items.length < n := by omega
    funext k
    simp only [jsonToFloats, if_neg long]
    rw [storeFloats_of_numbers _ 0 out all.2 k]
    simp only [Nat.zero_le, if_true, Nat.sub_zero, List.getElem?_take, k.isLt]
    have inside : k.val < (items.take n).length := by
      rw [List.length_take]
      omega
    have number := List.all_eq_true.mp all.2 _ (List.getElem_mem inside)
    rw [List.getElem_take] at number
    rw [List.getElem?_eq_getElem (by omega)]
    generalize items[k.val] = item at number
    cases item with
    | number d => rfl
    | _ => simp [Json.isNumber] at number
  · cases is

theorem numbers_isSome {n : Nat} (value : Option (Json D)) :
    (numbers n value : Option (Fin n → F)).isSome = holdsNumbers n value := by
  cases value with
  | none => rfl
  | some item =>
      cases item with
      | array items =>
          simp only [numbers, holdsNumbers]
          split_ifs with all
          · simp [all]
          · simpa using all
      | _ => rfl

theorem numbers_of_holds {n : Nat} {value : Option (Json D)} (holds : holdsNumbers n value = true) :
    ∃ held : Fin n → F, numbers n value = some held :=
  Option.isSome_iff_exists.mp ((numbers_isSome value).trans holds)

theorem numbers_none {n : Nat} {value : Option (Json D)} (lacks : holdsNumbers n value = false) :
    (numbers n value : Option (Fin n → F)) = none := by
  rw [← Option.not_isSome_iff_eq_none, numbers_isSome, lacks]
  exact Bool.false_ne_true

/-! ## One reply -/

/-- A reply that ends the chain ends the program, whatever the sensitivity. -/
theorem done_of_ends {c : Controller F} {sensitivity : F} {reply : Reply D}
    {front : Option (Json D)} {q : Request D} {next : Reply D → Script D}
    (ends : reply.ends c.step = true)
    (at_ : programAt front { c with sensitivity } = .ask q next) : next reply = .done := by
  cases reply with
  | error =>
      -- no question of a program takes an error
      cases step : c.step <;>
        simp only [programAt, step, motionScript, fromPerspective, fromAffine, fromViewextents,
          writes, writeAffine, buttonScript, fromFront, writeBox, readNumbers, readProp,
          updateProp] at at_ <;>
        cases at_ <;> rfl
  | result value =>
      cases step : c.step with
      | mstepReadExtents | mstepReadAffine | mstepReadViewextents | bstepReadExtents =>
          simp only [Reply.ends, step, Bool.not_eq_true'] at ends
          simp only [programAt, step, motionScript, fromAffine, fromViewextents, buttonScript,
            readNumbers, readProp] at at_
          cases at_
          simp only [onResult, numbers_none ends]
      | mstepWriteAffine | bstepWriteExtents =>
          simp only [programAt, step, writeAffine, writeBox, updateProp] at at_
          cases at_
          rfl
      | mstepReadPerspective | mstepWriteMotion | mstepWriteViewextents | bstepReadFront
      | bstepWriteAffine => simp [Reply.ends, step] at ends

/-- The steps whose replies a motion computes with the sensitivity. -/
def ChainStep.gained (step : ChainStep) : Prop :=
  step = .mstepReadAffine ∨ step = .mstepReadViewextents

instance (step : ChainStep) : Decidable step.gained := inferInstanceAs (Decidable (_ ∨ _))

/-- A reply that does not end it moves the state as it moves the program, which may be one of
another sensitivity where none is used. -/
theorem receive_goes {e : Env} {c : Controller F} {sensitivity : F} {reply : Reply D}
    {front : Option (Json D)} {q : Request D} {next : Reply D → Script D}
    (typed : c.step.kind = c.chain) (goes : reply.ends c.step = false)
    (gain : c.step.gained → c.sensitivity = sensitivity)
    (at_ : programAt front { c with sensitivity } = .ask q next) :
    ∃ front' r next', (receive e c reply).2 = [.rpcCall r] ∧
      next reply = .ask (requestOf r) next' ∧
      programAt front' { (receive e c reply).1 with sensitivity } =
        .ask (requestOf r) next' := by
  cases reply with
  | error => simp [Reply.ends] at goes
  | result value =>
      cases step : c.step with
      | mstepReadExtents =>
          simp only [Reply.ends, step, Bool.not_eq_false'] at goes
          obtain ⟨held, is⟩ := numbers_of_holds (F := F) goes
          simp only [programAt, step, motionScript, readNumbers, readProp] at at_
          cases at_
          simp only [onResult, is, receive_motion typed step rfl, advanceMotionChain, step,
            jsonToFloats_ok, goes, if_true, jsonToFloats_of_numbers is]
          exact ⟨none, _, _, rfl, rfl, rfl⟩
      | mstepReadPerspective =>
          simp only [programAt, step, fromPerspective, readProp] at at_
          cases at_
          simp only [onResult, receive_motion typed step rfl, advanceMotionChain, step]
          exact ⟨none, _, _, rfl, rfl, rfl⟩
      | mstepReadAffine =>
          obtain rfl := gain (Or.inl step)
          simp only [Reply.ends, step, Bool.not_eq_false'] at goes
          obtain ⟨held, is⟩ := numbers_of_holds (F := F) goes
          simp only [programAt, step, fromAffine, readNumbers, readProp] at at_
          cases at_
          simp only [onResult, is, receive_motion typed step rfl, advanceMotionChain, step,
            jsonToFloats_ok, goes, if_true, jsonToFloats_of_numbers is]
          cases perspective : c.perspective with
          | true => exact ⟨none, _, _, rfl, rfl, rfl⟩
          | false => exact ⟨none, _, _, rfl, rfl, rfl⟩
      | mstepReadViewextents =>
          obtain rfl := gain (Or.inr step)
          simp only [Reply.ends, step, Bool.not_eq_false'] at goes
          obtain ⟨held, is⟩ := numbers_of_holds (F := F) goes
          simp only [programAt, step, fromViewextents, readNumbers, readProp] at at_
          cases at_
          simp only [onResult, is, receive_motion typed step rfl, advanceMotionChain, step,
            jsonToFloats_ok, goes, if_true, jsonToFloats_of_numbers is]
          exact ⟨none, _, _, rfl, rfl, rfl⟩
      | mstepWriteMotion =>
          simp only [programAt, step, writes, updateProp] at at_
          cases at_
          simp only [onResult, receive_motion typed step rfl, advanceMotionChain, step]
          cases perspective : c.perspective with
          | true => exact ⟨none, _, _, rfl, rfl, rfl⟩
          | false => exact ⟨none, _, _, rfl, rfl, rfl⟩
      | mstepWriteViewextents =>
          simp only [programAt, step, updateProp] at at_
          cases at_
          simp only [onResult, receive_motion typed step rfl, advanceMotionChain, step]
          exact ⟨none, _, _, rfl, rfl, rfl⟩
      | bstepReadExtents =>
          simp only [Reply.ends, step, Bool.not_eq_false'] at goes
          obtain ⟨held, is⟩ := numbers_of_holds (F := F) goes
          simp only [programAt, step, buttonScript, readNumbers, readProp] at at_
          cases at_
          simp only [onResult, is, receive_button typed step rfl, advanceButtonChain, step,
            jsonToFloats_ok, goes, jsonToFloats_of_numbers is, if_true]
          exact ⟨none, _, _, rfl, rfl, rfl⟩
      | bstepReadFront =>
          simp only [programAt, step, fromFront, readProp] at at_
          cases at_
          simp only [onResult, receive_button typed step rfl, advanceButtonChain, step]
          exact ⟨value, _, _, rfl, rfl, rfl⟩
      | bstepWriteAffine =>
          simp only [programAt, step, updateProp] at at_
          cases at_
          simp only [onResult, receive_button typed step rfl, advanceButtonChain, step]
          exact ⟨none, _, _, rfl, rfl, rfl⟩
      | mstepWriteAffine | bstepWriteExtents => simp [Reply.ends, step] at goes

/-! ## The chain among everything else -/

section Run

variable (lib : CJson D)

/-- One call, seen from the client: the requests it sends. -/
def requestStep (c : Controller F) (call : Call F) : Controller F × List (Request D) :=
  ((controllerStep lib c call).1, (rpcs (controllerStep lib c call).2.sent).map requestOf)

/-- The call neither finds the chain overdue nor changes the sensitivity. -/
def Undisturbed (c : Controller F) (call : Call F) : Prop :=
  ¬ Abandons c call ∧ (controllerStep lib c call).1.sensitivity = c.sensitivity

instance [DecidableEq F] (c : Controller F) (call : Call F) : Decidable (Undisturbed lib c call) :=
  inferInstanceAs (Decidable (_ ∧ _))

def Controller.Idle (c : Controller F) : Prop :=
  c.chain = .none ∧ c.havePendingMotion = false ∧ c.havePendingButton = false

instance (c : Controller F) : Decidable c.Idle := inferInstanceAs (Decidable (_ ∧ _ ∧ _))

/-- A running chain whose program takes the next reply with `next`. -/
def Playing (c : Controller F) (next : Reply D → Script D) : Prop :=
  c.Sound ∧ c.chain ≠ .none ∧ ∃ front q, programAt front c = .ask q next

/-- The requests of the chain that the first of `calls` starts: up to the opening request of
the next one. -/
def chainRequests (c : Controller F) (calls : List (Call F)) : List (Request D) :=
  match asked (requestStep lib) c calls with
  | [] => []
  | q :: rest => q :: rest.takeWhile fun q => !q.opens

variable {lib}

theorem Controller.Idle.sound {c : Controller F} (idle : c.Idle) : c.Sound :=
  ⟨fun running => absurd idle.1 running, fun _ => idle.2⟩

theorem Waits.opens_request {c : Controller F} {r : Rpc D} (waits : Waits c r) :
    (requestOf r).opens = true ↔ c.step.first := by
  rw [← waits.opens_iff]
  exact decide_eq_true_iff

theorem programAt_congr {c c' : Controller F} (front : Option (Json D))
    (sensitivity : c'.sensitivity = c.sensitivity) (run : SameRun c c') (stays : SameStep c c')
    (scratch : SameScratch c c') : programAt front c' = programAt front c := by
  unfold programAt
  rw [stays.step, sensitivity, run.activeEv, scratch.modelExtents, scratch.perspective,
    scratch.newAffine, scratch.viewExtents]

theorem idle_step {c : Controller F} {call : Call F} (sound : c.Sound) (idle : c.chain = .none) :
    ((requestStep lib c call).2 = [] ∧ (requestStep lib c call).1.Sound ∧
        (requestStep lib c call).1.chain = .none) ∨
      ∃ q rest, (requestStep lib c call).2 = q :: rest ∧ q.opens = true := by
  have move := controllerStep_move lib call sound
  have still := move.sound sound
  simp only [requestStep]
  generalize rpcs (controllerStep lib c call).2.sent = rs at move
  cases move with
  | quiet _ _ chain => exact Or.inl ⟨rfl, still, chain.chain.trans idle⟩
  | goesOn _ running => exact absurd idle running
  | ended _ running => exact absurd idle running
  | restarted _ running => exact absurd idle running
  | queued _ _ running => exact absurd idle running
  | started _ _ _ _ starts =>
      exact Or.inr ⟨_, [], rfl, starts.waits.opens_request.mpr starts.first⟩

/-- Soundness says nothing of the sensitivity. -/
theorem Controller.Sound.withGain {c : Controller F} (sound : c.Sound) (sensitivity : F) :
    Controller.Sound { c with sensitivity } :=
  ⟨sound.typed, sound.empty⟩

theorem Controller.Sound.ofGain {c : Controller F} {sensitivity : F}
    (sound : Controller.Sound { c with sensitivity }) : c.Sound :=
  ⟨sound.typed, sound.empty⟩

theorem waiting_step {c : Controller F} {call : Call F} {sensitivity : F}
    {next : Reply D → Script D} (playing : Playing { c with sensitivity } next)
    (kept : ¬ Abandons c call) (unanswered : replyOf lib c call = none) :
    (requestStep lib c call).2 = [] ∧
      Playing { (requestStep lib c call).1 with sensitivity } next := by
  obtain ⟨sound, running, front, q, at_⟩ := playing
  have move := controllerStep_move lib call sound.ofGain
  have still := (move.sound sound.ofGain).withGain sensitivity
  simp only [requestStep, Playing]
  generalize rpcs (controllerStep lib c call).2.sent = rs at move
  generalize (controllerStep lib c call).1 = c' at move still ⊢
  cases move with
  | quiet _ _ chain =>
      refine ⟨rfl, still, chain.chain ▸ running, front, q, ?_⟩
      rw [← at_]
      exact programAt_congr front rfl ⟨chain.chain, chain.chainStarted, chain.activeEv⟩
        ⟨chain.step, chain.pendingCallId⟩ ⟨chain.modelExtents, chain.perspective,
          chain.currAffine, chain.newAffine, chain.viewExtents⟩
  | goesOn answered => rw [unanswered] at answered; cases answered
  | ended answered => rw [unanswered] at answered; cases answered
  | restarted answered => rw [unanswered] at answered; cases answered
  | queued _ _ _ _ _ run stays scratch =>
      refine ⟨rfl, still, run.chain ▸ running, front, q, ?_⟩
      rw [← at_]
      exact programAt_congr front rfl ⟨run.chain, run.chainStarted, run.activeEv⟩
        ⟨stays.step, stays.pendingCallId⟩ ⟨scratch.modelExtents, scratch.perspective,
          scratch.currAffine, scratch.newAffine, scratch.viewExtents⟩
  | started event gate free =>
      rcases free with idle | overdue
      · exact absurd idle running
      · exact absurd ⟨_, event, gate, overdue⟩ kept

theorem hearing_step {c : Controller F} {call : Call F} {sensitivity : F}
    {next : Reply D → Script D} {reply : Reply D} (playing : Playing { c with sensitivity } next)
    (gain : c.step.gained → c.sensitivity = sensitivity)
    (answered : replyOf lib c call = some reply) :
    (next reply = .done ∧ (((requestStep lib c call).2 = [] ∧
          (requestStep lib c call).1.Sound ∧ (requestStep lib c call).1.chain = .none) ∨
        ∃ q rest, (requestStep lib c call).2 = q :: rest ∧ q.opens = true)) ∨
      ∃ q next', next reply = .ask q next' ∧ (requestStep lib c call).2 = [q] ∧
        q.opens = false ∧ Playing { (requestStep lib c call).1 with sensitivity } next' := by
  obtain ⟨gained, running, front, q, at_⟩ := playing
  have sound : c.Sound := gained.ofGain
  have move := controllerStep_move lib call sound
  have still := move.sound sound
  cases ends : reply.ends c.step with
  | true =>
      left
      refine ⟨done_of_ends ends at_, ?_⟩
      simp only [requestStep]
      generalize rpcs (controllerStep lib c call).2.sent = rs at move
      cases move with
      | quiet unanswered => rw [unanswered] at answered; cases answered
      | goesOn answered' _ goes =>
          obtain rfl := Option.some.inj (answered.symm.trans answered')
          rw [ends] at goes
          cases goes
      | ended _ _ _ _ _ _ _ idle => exact Or.inl ⟨rfl, still, idle⟩
      | restarted _ _ _ _ _ starts =>
          exact Or.inr ⟨_, [], rfl, starts.waits.opens_request.mpr starts.first⟩
      | queued event => simp [replyOf, event] at answered
      | started event => simp [replyOf, event] at answered
  | false =>
      right
      obtain ⟨front', r, next', sent, goes, rest⟩ :=
        receive_goes (e := call.env) (sound.typed running) ends gain at_
      rw [controllerStep_of_reply answered, sent, rpcs_rpcCall] at move
      rw [controllerStep_of_reply answered] at still
      refine ⟨requestOf r, next', goes, by simp [requestStep, controllerStep_of_reply answered, sent],
        ?_, ?_⟩
      · cases move with
        | goesOn _ _ _ _ _ _ waits later =>
            rw [← Bool.not_eq_true]
            intro opens
            exact later (waits.opens_request.mp opens)
        | restarted answered' _ ends' =>
            obtain rfl := Option.some.inj (answered.symm.trans answered')
            rw [ends] at ends'
            cases ends'
        | started event => simp [replyOf, event] at answered
      · simp only [requestStep, controllerStep_of_reply answered]
        refine ⟨still.withGain sensitivity, ?_, front', requestOf r, rest⟩
        cases move with
        | goesOn _ _ _ _ _ _ waits => exact waits.running
        | restarted _ _ _ _ _ starts => exact starts.waits.running
        | started _ _ _ _ starts => exact starts.waits.running

variable (lib) in
/-- No timeout abandons the chain, and where the sensitivity is used it is this one. -/
def Gained (sensitivity : F) (c : Controller F) (call : Call F) : Prop :=
  ¬ Abandons c call ∧ (replyOf lib c call ≠ none → c.step.gained → c.sensitivity = sensitivity)

/-- The controller plays programs, of any sensitivity it does not use otherwise. -/
theorem controller_plays (sensitivity : F) :
    Plays (requestStep lib) (replyOf lib) (Gained lib sensitivity) Request.opens
      (fun c : Controller F => c.Sound ∧ c.chain = .none)
      (fun c next => Playing { c with sensitivity } next) where
  idle _ _ idle _ := idle_step idle.1 idle.2
  waits _ _ _ playing gained unanswered := waiting_step playing gained.1 unanswered
  hears _ _ _ _ playing gained answered :=
    hearing_step playing (gained.2 (by simp [answered])) answered

/-- Calls that leave the sensitivity alone make every use of it one of the same. -/
theorem gained_of_undisturbed {c : Controller F} {calls : List (Call F)}
    (undisturbed : Allows (requestStep lib) (Undisturbed lib) c calls) :
    Allows (requestStep lib) (Gained lib c.sensitivity) c calls := by
  induction calls generalizing c with
  | nil => trivial
  | cons call rest ih =>
      obtain ⟨⟨kept, same⟩, later⟩ := undisturbed
      have after := ih later
      rw [show (requestStep lib c call).1.sensitivity = c.sensitivity from same] at after
      exact ⟨⟨kept, fun _ _ => rfl⟩, after⟩

variable (lib)

/-- **A chain is its script.**  Whatever the idle controller's fields hold, and whatever
else arrives meanwhile, the requests of the chain an event starts are those of the
program, on the replies the controller heard. -/
theorem chain_follows_script (c : Controller F) (idle : c.Idle) (gate : c.GateOpen)
    (call : Call F) (ev : SbEvent) (event : call.op = .spnav ev) (calls : List (Call F))
    (undisturbed : Allows (requestStep lib) (Undisturbed lib) (requestStep lib c call).1 calls) :
    chainRequests lib c (call :: calls) =
      (script c.sensitivity ev).trace
        (heard (requestStep lib) (replyOf lib) (requestStep lib c call).1 calls) := by
  have kept : afterTimeout call.env c = c := if_neg (fun overdue => overdue.1 idle.1)
  have step : controllerStep lib c call =
      (if ev.type = .motion then ((startMotionChain (D := D) call.env c ev).1,
          ⟨0, (startMotionChain call.env c ev).2⟩)
        else ((startButtonChain (D := D) call.env c).1, ⟨0, (startButtonChain call.env c).2⟩)) := by
    simp only [controllerStep, event]
    rw [controllerOnSpnavEvent_open gate, kept, if_neg (not_not.mpr idle.1)]
    split <;> rfl
  have still := (controllerStep_move lib call idle.sound).sound idle.sound
  have opening : ∃ q next, script c.sensitivity ev = .ask q next ∧
      (requestStep lib c call).2 = [q] ∧ Playing (requestStep lib c call).1 next := by
    simp only [requestStep, Playing]
    rw [step] at still ⊢
    by_cases motion : ev.type = .motion
    · simp only [if_pos motion, script] at still ⊢
      exact ⟨_, _, rfl, rfl, still, by simp [startMotionChain, rpcRead, rpc], none, _, rfl⟩
    · simp only [if_neg motion, script] at still ⊢
      exact ⟨_, _, rfl, rfl, still, by simp [startButtonChain, rpcRead, rpc], none, _, rfl⟩
  obtain ⟨q, next, begins, sent, playing⟩ := opening
  rw [chainRequests, asked, sent, begins, Dialogue.trace_ask]
  exact congrArg (q :: ·) ((controller_plays _).asked_eq calls _ next playing
    (gained_of_undisturbed undisturbed))

end Run

/-- The texts of a session, with replies to the first two requests of a motion. -/
def replyTexts : List (List UInt8 × Json ℚ) :=
  focusTexts ++
    [(ascii "[3, \"AAAAAAAAAAAAAAAAAA\", [-1, -1, -1, 1, 1, 1]]",
        .array [.number 3, .string (.lit "AAAAAAAAAAAAAAAAAA"),
          .array [.number (-1), .number (-1), .number (-1), .number 1, .number 1, .number 1]]),
      (ascii "[3, \"AAAAAAAAAAAAAAAAAA\", true]",
        .array [.number 3, .string (.lit "AAAAAAAAAAAAAAAAAA"), .bool true])]

/-- Two replies to a push, a second push between them, and an error. -/
def answeredPush : List (Call ℚ) :=
  [⟨.message (ascii "[3, \"AAAAAAAAAAAAAAAAAA\", [-1, -1, -1, 1, 1, 1]]"), .at 0⟩,
    ⟨.spnav pushed, .at 1⟩,
    ⟨.message (ascii "[3, \"AAAAAAAAAAAAAAAAAA\", true]"), .at 2⟩,
    ⟨.message (ascii "[4, \"AAAAAAAAAAAAAAAAAA\", \"error\", \"\", null]"), .at 3⟩]

theorem chain_follows_script_session :
    chainRequests (.ofTexts replyTexts)
        ((controllerMachine (.ofTexts replyTexts) (.at 0)).after handshake)
        (⟨.spnav pushed, .at 0⟩ :: answeredPush) =
      (script ((controllerMachine (.ofTexts replyTexts) (.at 0)).after handshake).sensitivity
          pushed).trace
        (heard (requestStep (.ofTexts replyTexts)) (replyOf (.ofTexts replyTexts))
          (requestStep (.ofTexts replyTexts)
            ((controllerMachine (.ofTexts replyTexts) (.at 0)).after handshake)
            ⟨.spnav pushed, .at 0⟩).1 answeredPush) :=
  chain_follows_script (.ofTexts replyTexts) _ (by decide +kernel) (by decide +kernel)
    ⟨.spnav pushed, .at 0⟩ pushed rfl answeredPush (by decide +kernel)

end SpnavBridge.Kernel
