/-
# Kernel.OneGain -- which sensitivity a motion chain is computed with

A motion chain reads the sensitivity twice: where it has the camera, and where it has the
view box.  Between the two the controller waits for `view.extents`, and nothing keeps a
setting of another connection from arriving there.  In a run in which none does, the
requests of a chain are those of its script with one sensitivity, which was in effect at
some moment of the chain (`one_gain`); `mixed_gains` is a run in which one does.

* `ChainStep.next`: where a result can take a chain (`receive_next`).
* `within_step`: what one call does to a chain while no other is started.
* `gainAt`: the sensitivity a chain will have computed its camera with.
-/
import Mathlib.Data.List.OfFn
import SpnavBridge.Kernel.Gain
import SpnavBridge.Kernel.Script

namespace SpnavBridge.Kernel

open SpnavBridge.Theory SpnavBridge.Wire SpnavBridge.Camera

set_option autoImplicit false
set_option linter.unusedSectionVars false

variable {D F : Type} [CFloat F] [CDouble D F]

/-! ## The order of the steps -/

/-- The steps a result can lead to. -/
def ChainStep.next : ChainStep → List ChainStep
  | .mstepReadExtents => [.mstepReadPerspective]
  | .mstepReadPerspective => [.mstepReadAffine]
  | .mstepReadAffine => [.mstepReadViewextents, .mstepWriteMotion]
  | .mstepReadViewextents => [.mstepWriteMotion]
  | .mstepWriteMotion => [.mstepWriteViewextents, .mstepWriteAffine]
  | .mstepWriteViewextents => [.mstepWriteAffine]
  | .mstepWriteAffine => []
  | .bstepReadExtents => [.bstepReadFront]
  | .bstepReadFront => [.bstepWriteAffine]
  | .bstepWriteAffine => [.bstepWriteExtents]
  | .bstepWriteExtents => []

/-- Before the camera is computed. -/
def ChainStep.early (step : ChainStep) : Prop :=
  step = .mstepReadExtents ∨ step = .mstepReadPerspective ∨ step = .mstepReadAffine

/-- After the view box is computed, where there is one. -/
def ChainStep.late (step : ChainStep) : Prop :=
  step = .mstepWriteMotion ∨ step = .mstepWriteViewextents ∨ step = .mstepWriteAffine

theorem ChainStep.late.next {step step' : ChainStep} (late : step.late)
    (follows : step' ∈ step.next) : step'.late := by
  rcases late with rfl | rfl | rfl
  · simp only [ChainStep.next, List.mem_cons, List.not_mem_nil, or_false] at follows
    exact Or.inr follows
  · simp only [ChainStep.next, List.mem_cons, List.not_mem_nil, or_false] at follows
    exact Or.inr (Or.inr follows)
  · simp [ChainStep.next] at follows

theorem ChainStep.late.not_gained {step : ChainStep} (late : step.late) : ¬ step.gained := by
  rcases late with rfl | rfl | rfl <;> simp [ChainStep.gained]

theorem receive_next {e : Env} {c : Controller F} {reply : Reply D} (typed : c.step.kind = c.chain)
    (goes : reply.ends c.step = false) : (receive e c reply).1.step ∈ c.step.next := by
  cases reply with
  | error => simp [Reply.ends] at goes
  | result value =>
      cases step : c.step with
      | mstepReadExtents | mstepReadViewextents =>
          simp only [Reply.ends, step, Bool.not_eq_false'] at goes
          simp [receive_motion typed step rfl, advanceMotionChain, step, jsonToFloats_ok, goes,
            rpcRead, rpcWrite, rpc, ChainStep.next]
      | mstepReadAffine =>
          simp only [Reply.ends, step, Bool.not_eq_false'] at goes
          cases perspective : c.perspective <;>
            simp [receive_motion typed step rfl, advanceMotionChain, step, jsonToFloats_ok, goes,
              perspective, rpcRead, rpcWrite, rpc, ChainStep.next]
      | mstepReadPerspective | mstepWriteViewextents =>
          simp [receive_motion typed step rfl, advanceMotionChain, step, rpcRead, rpcWrite, rpc,
            ChainStep.next]
      | mstepWriteMotion =>
          cases perspective : c.perspective <;>
            simp [receive_motion typed step rfl, advanceMotionChain, step, perspective, rpcWrite,
              rpc, ChainStep.next]
      | bstepReadExtents =>
          simp only [Reply.ends, step, Bool.not_eq_false'] at goes
          simp [receive_button typed step rfl, advanceButtonChain, step, jsonToFloats_ok, goes,
            rpcRead, rpc, ChainStep.next]
      | bstepReadFront | bstepWriteAffine =>
          simp [receive_button typed step rfl, advanceButtonChain, step, rpcWrite, rpc,
            ChainStep.next]
      | mstepWriteAffine | bstepWriteExtents => simp [Reply.ends, step] at goes

/-! ## A chain and no other -/

section Run

variable (lib : CJson D)

/-- The call starts no chain. -/
def StartsNone (c : Controller F) (call : Call F) : Prop :=
  ∀ q ∈ (requestStep lib c call).2, q.opens = false

instance (c : Controller F) (call : Call F) : Decidable (StartsNone lib c call) :=
  inferInstanceAs (Decidable (∀ q ∈ _, _))

/-- The call is no setting of another sensitivity while the controller waits for the view box
of a motion. -/
def GainKept (c : Controller F) (call : Call F) : Prop :=
  match call.op with
  | .setSensitivity sensitivity =>
      c.chain = .motion → c.step = .mstepReadViewextents → InRange sensitivity →
        sensitivity = c.sensitivity
  | _ => True

instance [DecidableEq F] (c : Controller F) : ∀ call, Decidable (GainKept c call)
  | ⟨.message _, _⟩ => inferInstanceAs (Decidable True)
  | ⟨.spnav _, _⟩ => inferInstanceAs (Decidable True)
  | ⟨.setSensitivity _, _⟩ => inferInstanceAs (Decidable (_ → _ → _ → _))

/-- A motion chain that has asked its first question. -/
structure OpensMotion (c : Controller F) : Prop where
  sound : c.Sound
  motion : c.chain = .motion
  first : c.step = .mstepReadExtents

/-- The sensitivities in effect before, between and after the calls. -/
def gains (c : Controller F) : List (Call F) → List F
  | [] => [c.sensitivity]
  | call :: rest => c.sensitivity :: gains (requestStep lib c call).1 rest

/-- What the chain asks after its first question is its script's, with a sensitivity that was
in effect. -/
def OneGain (c : Controller F) (calls : List (Call F)) : Prop :=
  ∃ sensitivity ∈ gains lib c calls,
    asked (requestStep lib) c calls =
      ((motionScript sensitivity c.activeEv).trace
        (heard (requestStep lib) (replyOf lib) c calls)).tail

/-- The sensitivity the chain computes its camera with, or the last one if it never does. -/
def gainAt (c : Controller F) : List (Call F) → F
  | [] => c.sensitivity
  | call :: rest =>
      if c.step = .mstepReadAffine ∧ (replyOf lib c call).isSome then c.sensitivity
      else gainAt (requestStep lib c call).1 rest

variable {lib}

theorem gainAt_mem (c : Controller F) (calls : List (Call F)) :
    gainAt lib c calls ∈ gains lib c calls := by
  induction calls generalizing c with
  | nil => exact List.mem_singleton.mpr rfl
  | cons call rest ih =>
      rw [gainAt, gains]
      split
      · exact List.mem_cons_self
      · exact List.mem_cons_of_mem _ (ih _)

/-- The sensitivity stays while the view box is waited for. -/
theorem GainKept.same {c : Controller F} {call : Call F} (kept : GainKept c call)
    (motion : c.chain = .motion) (box : c.step = .mstepReadViewextents) :
    (requestStep lib c call).1.sensitivity = c.sensitivity := by
  cases op : call.op with
  | message json =>
      simp only [requestStep, controllerStep, op]
      exact controllerOnMessage_sensitivity lib call.env c json
  | spnav ev =>
      simp only [requestStep, controllerStep, op]
      exact (controllerOnSpnavEvent_settings call.env c ev).sensitivity
  | setSensitivity value =>
      simp only [GainKept, op] at kept
      simp only [requestStep, controllerStep, op]
      by_cases range : InRange value
      · rw [controllerSetSensitivity_accepts range]
        exact kept motion box range
      · simp only [controllerSetSensitivity]
        rw [if_pos]
        rw [inRange_iff, Bool.not_eq_false] at range
        exact range

/-- A call that starts no chain ends it, leaves it where it is, or takes it a step on. -/
theorem within_step {c : Controller F} {call : Call F} (sound : c.Sound)
    (none_ : StartsNone lib c call) :
    (requestStep lib c call).1.chain = .none ∨
      ((requestStep lib c call).1.chain = c.chain ∧ c.chain ≠ .none ∧
        ((replyOf lib c call = none ∧ (requestStep lib c call).1.step = c.step) ∨
          (replyOf lib c call ≠ none ∧ (requestStep lib c call).1.step ∈ c.step.next ∧
            (requestStep lib c call).1.sensitivity = c.sensitivity))) := by
  have move := controllerStep_move lib call sound
  simp only [StartsNone, requestStep] at none_ ⊢
  cases reply : replyOf lib c call with
  | none =>
      generalize (controllerStep lib c call).1 = c', rpcs (controllerStep lib c call).2.sent = rs
        at move none_ ⊢
      cases move with
      | quiet _ _ chain =>
          by_cases idle : c.chain = .none
          · exact Or.inl (chain.chain.trans idle)
          · exact Or.inr ⟨chain.chain, idle, Or.inl ⟨rfl, chain.step⟩⟩
      | queued _ _ running _ _ run stays =>
          exact Or.inr ⟨run.chain, running, Or.inl ⟨rfl, stays.step⟩⟩
      | goesOn answered => simp [reply] at answered
      | ended answered => simp [reply] at answered
      | restarted answered => simp [reply] at answered
      | started _ _ _ _ starts =>
          have opens := none_ _ (List.mem_singleton.mpr rfl)
          rw [starts.waits.opens_request.mpr starts.first] at opens
          cases opens
  | some reply' =>
      have next : reply'.ends c.step = false → c.chain ≠ .none →
          (controllerStep lib c call).1.step ∈ c.step.next := by
        intro goes running
        rw [controllerStep_of_reply reply]
        exact receive_next (sound.typed running) goes
      generalize (controllerStep lib c call).1 = c', rpcs (controllerStep lib c call).2.sent = rs
        at move none_ next ⊢
      cases move with
      | quiet answered => simp [reply] at answered
      | goesOn answered running goes gate run =>
          obtain rfl := Option.some.inj (reply.symm.trans answered)
          exact Or.inr ⟨run.chain, running, Or.inr ⟨by simp, next goes running, gate.sensitivity⟩⟩
      | ended _ _ _ _ _ _ _ idle => exact Or.inl idle
      | restarted _ _ _ _ _ starts =>
          have opens := none_ _ (List.mem_singleton.mpr rfl)
          rw [starts.waits.opens_request.mpr starts.first] at opens
          cases opens
      | queued event => simp [replyOf, event] at reply
      | started event => simp [replyOf, event] at reply

/-- Abandoning a chain starts another. -/
theorem StartsNone.not_abandons {c : Controller F} {call : Call F} (none_ : StartsNone lib c call)
    (sound : c.Sound) : ¬ Abandons c call := by
  rintro ⟨ev, event, gate, overdue⟩
  have move := controllerStep_move lib call sound
  simp only [StartsNone, requestStep] at none_
  generalize rpcs (controllerStep lib c call).2.sent = rs at move none_
  cases move with
  | quiet _ shut => exact shut ev event gate
  | goesOn answered => simp [replyOf, event] at answered
  | ended answered => simp [replyOf, event] at answered
  | restarted answered => simp [replyOf, event] at answered
  | queued _ _ _ inTime => exact inTime overdue
  | started _ _ _ _ starts =>
      have opens := none_ _ (List.mem_singleton.mpr rfl)
      rw [starts.waits.opens_request.mpr starts.first] at opens
      cases opens

/-- Then no question opens a chain. -/
theorem asked_closed {c : Controller F} {calls : List (Call F)}
    (none_ : Allows (requestStep lib) (StartsNone lib) c calls) :
    ∀ q ∈ asked (requestStep lib) c calls, q.opens = false := by
  induction calls generalizing c with
  | nil => simp [asked]
  | cons call rest ih =>
      obtain ⟨here, later⟩ := none_
      intro q mem
      rw [asked, List.mem_append] at mem
      rcases mem with now | then_
      · exact here q now
      · exact ih later q then_

theorem sound_step {c : Controller F} (call : Call F) (sound : c.Sound) :
    (requestStep lib c call).1.Sound :=
  (controllerStep_move lib call sound).sound sound

/-! ## The uses of the sensitivity -/

/-- The new camera is computed where the reply with the old one comes in. -/
theorem camera_computed {c : Controller F} {call : Call F} {value : Option (Json D)}
    {held : Mat4 F} (answered : replyOf lib c call = some (.result value))
    (motion : c.chain = .motion) (affine : c.step = .mstepReadAffine)
    (is : numbers 16 value = some held) :
    (requestStep lib c call).1.newAffine =
      computeNewAffine c.sensitivity c.modelExtents held c.activeEv := by
  have ok : holdsNumbers 16 value = true := by
    rw [← numbers_isSome (F := F), is]
    rfl
  simp only [requestStep, controllerStep_of_reply answered, receive, motion, if_true,
    advanceMotionChain, affine, jsonToFloats_ok, ok, jsonToFloats_of_numbers is]
  cases c.perspective <;> rfl

/-- A setting leaves it as it is. -/
theorem camera_kept {c : Controller F} {call : Call F} {sensitivity : F}
    (setting : call.op = .setSensitivity sensitivity) :
    (requestStep lib c call).1.newAffine = c.newAffine := by
  simp only [requestStep, controllerStep, setting, controllerSetSensitivity]
  split <;> rfl

/-- Without a chain, or late in it, the sensitivity is not used any more. -/
theorem gained_late (sensitivity : F) {c : Controller F} {calls : List (Call F)} (sound : c.Sound)
    (past : c.chain = .none ∨ c.step.late)
    (none_ : Allows (requestStep lib) (StartsNone lib) c calls) :
    Allows (requestStep lib) (Gained lib sensitivity) c calls := by
  induction calls generalizing c with
  | nil => trivial
  | cons call rest ih =>
      obtain ⟨here, later⟩ := none_
      refine ⟨⟨here.not_abandons sound, fun answered gained => ?_⟩,
        ih (sound_step call sound) ?_ later⟩
      · rcases past with idle | late
        · exact absurd idle ((replyOf_isSome_iff lib c call).mp answered).1
        · exact absurd gained late.not_gained
      · rcases within_step sound here with idle | ⟨chain, running, ⟨-, stays⟩ | ⟨-, next, -⟩⟩
        · exact Or.inl idle
        · rcases past with idle | late
          · exact absurd idle running
          · exact Or.inr (stays ▸ late)
        · rcases past with idle | late
          · exact absurd idle running
          · exact Or.inr (late.next next)

/-- While the view box is waited for, the sensitivity stays what it was. -/
theorem gained_waiting {c : Controller F} {calls : List (Call F)} (sound : c.Sound)
    (motion : c.chain = .motion) (box : c.step = .mstepReadViewextents)
    (none_ : Allows (requestStep lib) (StartsNone lib) c calls)
    (kept : Allows (requestStep lib) GainKept c calls) :
    Allows (requestStep lib) (Gained lib c.sensitivity) c calls := by
  induction calls generalizing c with
  | nil => trivial
  | cons call rest ih =>
      obtain ⟨here, later⟩ := none_
      obtain ⟨same, still⟩ := kept
      refine ⟨⟨here.not_abandons sound, fun _ _ => rfl⟩, ?_⟩
      rcases within_step sound here with idle | ⟨chain, -, ⟨-, stays⟩ | ⟨-, next, -⟩⟩
      · exact gained_late _ (sound_step call sound) (Or.inl idle) later
      · have so_far := ih (sound_step call sound) (chain.trans motion) (stays.trans box) later still
        rw [same.same motion box] at so_far
        exact so_far
      · rw [box, ChainStep.next, List.mem_singleton] at next
        exact gained_late _ (sound_step call sound) (Or.inr (Or.inl next)) later

/-- Before that, the sensitivity to come is the one the camera is computed with. -/
theorem gained_early {c : Controller F} {calls : List (Call F)} (sound : c.Sound)
    (motion : c.chain = .motion) (early : c.step.early)
    (none_ : Allows (requestStep lib) (StartsNone lib) c calls)
    (kept : Allows (requestStep lib) GainKept c calls) :
    Allows (requestStep lib) (Gained lib (gainAt lib c calls)) c calls := by
  induction calls generalizing c with
  | nil => trivial
  | cons call rest ih =>
      obtain ⟨here, later⟩ := none_
      obtain ⟨-, still⟩ := kept
      by_cases camera : c.step = .mstepReadAffine ∧ (replyOf lib c call).isSome
      · -- here the camera is computed
        rw [gainAt, if_pos camera]
        refine ⟨⟨here.not_abandons sound, fun _ _ => rfl⟩, ?_⟩
        rcases within_step sound here with idle | ⟨chain, -, ⟨silent, -⟩ | ⟨-, next, same⟩⟩
        · exact gained_late _ (sound_step call sound) (Or.inl idle) later
        · simp [silent] at camera
        · rw [camera.1, ChainStep.next, List.mem_pair] at next
          rcases next with box | flag
          · have so_far := gained_waiting (sound_step call sound) (chain.trans motion) box later still
            rw [same] at so_far
            exact so_far
          · exact gained_late _ (sound_step call sound) (Or.inr (Or.inl flag)) later
      · rw [gainAt, if_neg camera]
        refine ⟨⟨here.not_abandons sound, fun answered gained => ?_⟩, ?_⟩
        · rcases gained with affine | box
          · exact absurd ⟨affine, Option.isSome_iff_ne_none.mpr answered⟩ camera
          · rcases early with first | second | third <;> simp_all
        · rcases within_step sound here with idle | ⟨chain, -, ⟨-, stays⟩ | ⟨answered, next, -⟩⟩
          · exact gained_late _ (sound_step call sound) (Or.inl idle) later
          · exact ih (sound_step call sound) (chain.trans motion) (stays ▸ early) later still
          · refine ih (sound_step call sound) (chain.trans motion) ?_ later still
            rcases early with first | second | third
            · rw [first, ChainStep.next, List.mem_singleton] at next
              exact Or.inr (Or.inl next)
            · rw [second, ChainStep.next, List.mem_singleton] at next
              exact Or.inr (Or.inr next)
            · exact absurd ⟨third, Option.isSome_iff_ne_none.mpr answered⟩ camera

/-- **One sensitivity for a motion chain**, in every run that leaves it alone while the view
box is waited for. -/
theorem one_gain (lib : CJson D) {c : Controller F} (opens : OpensMotion c) (calls : List (Call F))
    (none_ : Allows (requestStep lib) (StartsNone lib) c calls)
    (kept : Allows (requestStep lib) GainKept c calls) : OneGain lib c calls := by
  refine ⟨gainAt lib c calls, gainAt_mem c calls, ?_⟩
  have gained := gained_early opens.sound opens.motion (Or.inl opens.first) none_ kept
  have silent : (asked (requestStep lib) c calls).takeWhile (fun q => !q.opens) =
      asked (requestStep lib) c calls := by
    rw [List.takeWhile_eq_self_iff]
    intro q mem
    rw [asked_closed none_ q mem, Bool.not_false]
  have playing : ∃ q next, motionScript (D := D) (gainAt lib c calls) c.activeEv = .ask q next ∧
      Playing { c with sensitivity := gainAt lib c calls } next := by
    have at_ : programAt none { c with sensitivity := gainAt lib c calls } =
        motionScript (D := D) (gainAt lib c calls) c.activeEv := by
      simp only [programAt, opens.first]
    exact ⟨_, _, rfl, opens.sound.withGain _, by simp [opens.motion], none, _, at_⟩
  obtain ⟨q, next, begins, playing⟩ := playing
  rw [← silent, begins, Dialogue.trace_ask, List.tail_cons]
  exact (controller_plays _).asked_eq calls c next playing gained

end Run

/-! ## A setting in between -/

/-- The box from -1 to 1. -/
def unitBox : Fin 6 → ℚ := ![-1, -1, -1, 1, 1, 1]

/-- The box, and a camera that is not turned, as a client writes them. -/
def boxValue : Json ℚ :=
  .array [.number (-1), .number (-1), .number (-1), .number 1, .number 1, .number 1]

def cameraValue : Json ℚ :=
  .array [.number 1, .number 0, .number 0, .number 0, .number 0, .number 1, .number 0, .number 0,
    .number 0, .number 0, .number 1, .number 0, .number 0, .number 0, .number 0, .number 1]

/-- The payloads with these results, and with a false. -/
def boxText : List UInt8 := ascii "[3, \"AAAAAAAAAAAAAAAAAA\", [-1, -1, -1, 1, 1, 1]]"

def cameraText : List UInt8 :=
  ascii "[3, \"AAAAAAAAAAAAAAAAAA\", [1,0,0,0,0,1,0,0,0,0,1,0,0,0,0,1]]"

def falseText : List UInt8 := ascii "[3, \"AAAAAAAAAAAAAAAAAA\", false]"

/-- The payloads of an orthographic client. -/
def orthographicTexts : List (List UInt8 × Json ℚ) :=
  replyTexts ++
    [(falseText, .array [.number 3, .string (.lit "AAAAAAAAAAAAAAAAAA"), .bool false]),
      (cameraText, .array [.number 3, .string (.lit "AAAAAAAAAAAAAAAAAA"), cameraValue])]

/-- Its library. -/
def orthographicLib : CJson ℚ := .ofTexts orthographicTexts

/-- To the left, and in. -/
def pushedIn : SbEvent := ⟨.motion, -40, 0, 100, 0, 0, 0⟩

/-- The model extents and no perspective. -/
def firstReplies : List (Call ℚ) := [⟨.message boxText, .at 0⟩, ⟨.message falseText, .at 0⟩]

/-- The view box, and the writes of the flag and of the box. -/
def boxReplies : List (Call ℚ) :=
  [⟨.message boxText, .at 0⟩, ⟨.message falseText, .at 0⟩, ⟨.message falseText, .at 0⟩]

/-- The chain of `pushedIn` has begun. -/
def pushedState : Controller ℚ :=
  (controllerMachine orthographicLib (.at 0)).after
    (handshake ++ [⟨.setSensitivity 1, .at 0⟩, ⟨.spnav pushedIn, .at 0⟩])

/-- It waits for the camera. -/
def affineState : Controller ℚ :=
  firstReplies.foldl (fun c call => (requestStep orthographicLib c call).1) pushedState

/-- The camera has come, and another connection has doubled the sensitivity. -/
def boxState : Controller ℚ :=
  (requestStep orthographicLib
    (requestStep orthographicLib affineState ⟨.message cameraText, .at 0⟩).1
      ⟨.setSensitivity 2, .at 0⟩).1

/-- The rest of the chain, with that setting between the camera and the view box. -/
def doubledBetween : List (Call ℚ) :=
  firstReplies ++ ⟨.message cameraText, .at 0⟩ :: ⟨.setSensitivity 2, .at 0⟩ :: boxReplies

theorem numbers_boxValue : numbers 6 (some boxValue) = some unitBox := by
  rw [boxValue, numbers, if_pos (by decide)]
  exact congrArg some (funext (by decide))

theorem numbers_cameraValue : numbers 16 (some cameraValue) = some (mat4Identity (F := ℚ)) := by
  rw [cameraValue, numbers, if_pos (by decide)]
  exact congrArg some (funext (by decide))

/-- Without rotation nothing is turned. -/
theorem still_world :
    mat3Mul (mat3Mul (mat4ExtractOrthonormalRotation (mat4Identity (F := ℚ)))
        (mat3FromEulerXyzDeg 0 0 0))
      (mat3Transpose (mat4ExtractOrthonormalRotation mat4Identity)) =
        ![1, 0, 0, 0, 1, 0, 0, 0, 1] :=
  funext (by decide +kernel)

/-- The two sensitivities move the camera by different amounts. -/
theorem pushed_apart : computeNewAffine 1 unitBox mat4Identity pushedIn 12 ≠
    computeNewAffine 2 unitBox mat4Identity pushedIn 12 := by
  have still : ∀ n s : ℚ, (CFloat.ofInt 0 : ℚ) * n * s = 0 := by
    intro n s
    change ((0 : Int) : ℚ) * n * s = 0
    simp
  simp only [computeNewAffine, pushedIn, still, neg_zero, still_world]
  decide +kernel

/-- The same chain, with the setting before the camera has come. -/
theorem one_gain_doubled : OneGain orthographicLib pushedState
    (⟨.setSensitivity 2, .at 0⟩ :: firstReplies ++ ⟨.message cameraText, .at 0⟩ :: boxReplies) :=
  have begun : pushedState.chain = .motion ∧ pushedState.step = .mstepReadExtents := by
    decide +kernel
  one_gain orthographicLib ⟨sound_after _ _ _, begun.1, begun.2⟩ _ (by decide +kernel)
    (by decide +kernel)

theorem affineState_holds : affineState.chain = .motion ∧ affineState.step = .mstepReadAffine ∧
    affineState.sensitivity = 1 ∧ affineState.activeEv = pushedIn ∧
    ∀ i, affineState.modelExtents i = unitBox i := by
  decide +kernel

theorem boxState_holds : boxState.chain = .motion ∧ boxState.step = .mstepReadViewextents ∧
    boxState.sensitivity = 2 ∧ boxState.activeEv = pushedIn ∧ boxState.perspective = false := by
  decide +kernel

theorem boxState_sound : boxState.Sound :=
  sound_step _ (sound_step _ (sound_step _ (sound_step _ (sound_after _ _ _))))

/-- The camera was computed with the sensitivity before the setting. -/
theorem boxState_camera :
    boxState.newAffine = computeNewAffine 1 unitBox mat4Identity pushedIn := by
  obtain ⟨motion, affine, gain, event, extents⟩ := affineState_holds
  have answered : replyOf orthographicLib affineState ⟨.message cameraText, .at 0⟩ =
      some (.result (some cameraValue)) := by decide +kernel
  rw [boxState, camera_kept rfl, camera_computed answered motion affine numbers_cameraValue,
    gain, event, funext extents]

/-- It is what the chain writes last. -/
theorem asked_camera :
    (asked (requestStep orthographicLib) boxState boxReplies).getLast?.map (·.value) =
      some (some (floatsToJson (computeNewAffine 1 unitBox mat4Identity pushedIn))) := by
  obtain ⟨motion, box, gain, event, flat⟩ := boxState_holds
  have at_ : programAt none { boxState with sensitivity := boxState.sensitivity } =
      fromViewextents (D := ℚ) 2 pushedIn false
        (computeNewAffine 1 unitBox mat4Identity pushedIn) := by
    simp only [programAt, box, gain, event, flat, boxState_camera]
  have rest : Allows (requestStep orthographicLib) (StartsNone orthographicLib) boxState
        boxReplies ∧
      Allows (requestStep orthographicLib) GainKept boxState boxReplies ∧
      heard (requestStep orthographicLib) (replyOf orthographicLib) boxState boxReplies =
        [.result (some boxValue), .result (some (.bool false)),
          .result (some (.bool false))] := by
    decide +kernel
  obtain ⟨none_, kept, replies⟩ := rest
  have playing : Playing { boxState with sensitivity := boxState.sensitivity } _ :=
    ⟨boxState_sound, by simp [motion], none, _, at_⟩
  have played := (controller_plays boxState.sensitivity).asked_eq
    boxReplies boxState _ playing (gained_waiting boxState_sound motion box none_ kept)
  rw [replies, List.takeWhile_eq_self_iff.mpr fun q mem => by
    rw [asked_closed none_ q mem, Bool.not_false]] at played
  rw [played]
  simp [Dialogue.resumed, Dialogue.trace, onResult, numbers_boxValue, writes, writeAffine,
    updateProp]

/-- A script writes the camera that it computes with its sensitivity. -/
theorem trace_camera (sensitivity : ℚ) :
    ((motionScript (D := ℚ) sensitivity pushedIn).trace
        [.result (some boxValue), .result (some (.bool false)), .result (some cameraValue),
          .result (some boxValue), .result (some (.bool false)),
          .result (some (.bool false))]).tail.getLast?.map (·.value) =
      some (some (floatsToJson
        (computeNewAffine sensitivity unitBox mat4Identity pushedIn))) := by
  simp [motionScript, readNumbers, readProp, updateProp, Dialogue.trace, onResult, truth,
    Json.isTrue, numbers_boxValue, numbers_cameraValue]

/-- The numbers that are written. -/
def numbersIn : Option (Json ℚ) → List ℚ
  | some (.array items) => items.filterMap fun item => match item with
      | .number d => some d
      | _ => none
  | _ => []

theorem mixed_gains : OpensMotion pushedState ∧
    Allows (requestStep orthographicLib) (StartsNone orthographicLib) pushedState doubledBetween ∧
    ¬ OneGain orthographicLib pushedState doubledBetween := by
  have begun : pushedState.chain = .motion ∧ pushedState.step = .mstepReadExtents ∧
      pushedState.activeEv = pushedIn := by decide +kernel
  have run : Allows (requestStep orthographicLib) (StartsNone orthographicLib) pushedState
        doubledBetween ∧
      gains orthographicLib pushedState doubledBetween = [1, 1, 1, 1, 2, 2, 2, 2] ∧
      heard (requestStep orthographicLib) (replyOf orthographicLib) pushedState doubledBetween =
        [.result (some boxValue), .result (some (.bool false)), .result (some cameraValue),
          .result (some boxValue), .result (some (.bool false)),
          .result (some (.bool false))] := by
    decide +kernel
  refine ⟨⟨sound_after _ _ _, begun.1, begun.2.1⟩, run.1, ?_⟩
  rintro ⟨sensitivity, inEffect, same⟩
  rw [run.2.2, begun.2.2] at same
  have cases_ : sensitivity = 1 ∨ sensitivity = 2 := by simpa [run.2.1] using inEffect
  rcases cases_ with rfl | rfl
  · -- the view box was computed with 2
    have boxes := congrArg (fun asked => (asked[4]?).map fun q => numbersIn q.value) same
    revert boxes
    decide +kernel
  · -- and the camera with 1
    have cameras := congrArg (fun asked => asked.getLast?.map (·.value)) same
    simp only [trace_camera] at cameras
    have split : asked (requestStep orthographicLib) pushedState doubledBetween =
        asked (requestStep orthographicLib) pushedState (doubledBetween.take 4) ++
          asked (requestStep orthographicLib) boxState boxReplies := by
      simp [doubledBetween, firstReplies, asked, boxState, affineState]
    obtain ⟨q, isLast, value⟩ := Option.map_eq_some_iff.mp asked_camera
    rw [split, List.getLast?_append, isLast, Option.some_or, Option.map_some, value,
      Option.some_inj, Option.some_inj] at cameras
    have entries := List.ofFn_injective (Json.array.inj cameras)
    exact pushed_apart (Json.number.inj (congrFun entries 12))

end SpnavBridge.Kernel
