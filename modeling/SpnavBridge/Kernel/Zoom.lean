/-
# Kernel.Zoom -- when the view box stays a box

A motion chain of an orthographic client scales the six numbers of `view.extents` by one
factor and writes them back, and the next chain reads what the last one wrote.  A box with
three proper edges keeps them exactly when the factor is positive, that is when the device
value times the sensitivity is above -5000 (`zoomed_open_iff`), so it keeps them along every
run in which each product is (`boxes_open`).  The device value is any `int` and the
sensitivity goes up to 10, so it need not be: in `inverted_box` the factor is below 0.

The arithmetic is the exact one of the rationals.

* `heldStep`: one call, with the box the client holds carried along.
* `viewBoxRead`: the box that a call brings where the chain waits for one.
* `Guarded`: the invariant.  The box held is open, and so is the one about to be written.
-/
import Mathlib.Tactic.Linarith
import SpnavBridge.Kernel.OneGain
import SpnavBridge.Kernel.Writes

namespace SpnavBridge.Kernel

open SpnavBridge.Theory SpnavBridge.Wire

set_option autoImplicit false

/-! ## Boxes -/

abbrev Box := Fin 6 → ℚ

/-- On each axis the first number is less than the second. -/
def BoxOpen (box : Box) : Prop := ∀ axis : Fin 3, box (axis.castAdd 3) < box (axis.natAdd 3)

instance (box : Box) : Decidable (BoxOpen box) := inferInstanceAs (Decidable (∀ _, _))

/-- The zoom of an event shrinks a box by less than all of it. -/
def ShortOfAll (sensitivity : ℚ) (ev : SbEvent) : Prop := -5000 < ev.z * sensitivity

instance (sensitivity : ℚ) (ev : SbEvent) : Decidable (ShortOfAll sensitivity ev) :=
  inferInstanceAs (Decidable (_ < _))

/-- What an event scales the view box by. -/
def zoomFactor (sensitivity : ℚ) (ev : SbEvent) : ℚ := 1 + ev.z * (2 / 10000) * sensitivity

theorem zoomFactor_pos_iff (sensitivity : ℚ) (ev : SbEvent) :
    0 < zoomFactor sensitivity ev ↔ ShortOfAll sensitivity ev := by
  rw [zoomFactor, ShortOfAll]
  constructor
  · intro positive
    linarith
  · intro less
    linarith

theorem zoomed_open_iff {box : Box} (opened : BoxOpen box) (sensitivity : ℚ) (ev : SbEvent) :
    BoxOpen (zoomed sensitivity ev box) ↔ ShortOfAll sensitivity ev := by
  have scaled : zoomed sensitivity ev box = fun i => box i * zoomFactor sensitivity ev := rfl
  rw [scaled, ← zoomFactor_pos_iff]
  constructor
  · intro still
    by_contra factor
    have turned := mul_le_mul_of_nonpos_right (opened 0).le (not_lt.mp factor)
    exact absurd (still 0) (not_lt.mpr turned)
  · intro positive axis
    exact mul_lt_mul_of_pos_right (opened axis) positive

/-- What is written is read back. -/
theorem numbers_floatsToJson (box : Box) :
    numbers 6 (some (floatsToJson (D := ℚ) box)) = some box := by
  have all : ((List.ofFn fun i => (.number (box i) : Json ℚ)).take 6).all Json.isNumber := by
    rw [List.all_eq_true]
    intro item mem
    obtain ⟨i, rfl⟩ := List.mem_ofFn.mp (List.mem_of_mem_take mem)
    rfl
  have long : 6 ≤ (List.ofFn fun i => (.number (box i) : Json ℚ)).length := by simp
  show numbers 6 (some (.array (List.ofFn fun i => (.number (box i) : Json ℚ)))) = some box
  rw [numbers, if_pos ⟨long, all⟩]
  refine congrArg some (funext fun i => ?_)
  rw [List.getElem?_ofFn, dif_pos i.isLt]
  rfl

/-! ## The box the client holds -/

/-- The value of a write to `view.extents`. -/
def boxIn (q : Request ℚ) : Option Box :=
  if q.kind = selfUpdate ∧ q.prop = .lit "view.extents" then numbers 6 q.value else none

/-- The box held after the requests `qs`. -/
def lastBox (box : Box) (qs : List (Request ℚ)) : Box :=
  qs.foldl (fun box q => (boxIn q).getD box) box

/-- The event of a call, if it has one, is a motion. -/
def Call.moves (call : Call ℚ) : Bool :=
  match call.op with
  | .spnav ev => ev.type = .motion
  | _ => true

section Run

variable (lib : CJson ℚ)

/-- One call, with the box that the client holds. -/
def heldStep (s : Controller ℚ × Box) (call : Call ℚ) : (Controller ℚ × Box) × List (Request ℚ) :=
  (((requestStep lib s.1 call).1, lastBox s.2 (requestStep lib s.1 call).2),
    (requestStep lib s.1 call).2)

/-- The box that the call brings where a chain waits for one. -/
def viewBoxRead (c : Controller ℚ) (call : Call ℚ) : Option Box :=
  if c.step = .mstepReadViewextents then
    match replyOf lib c call with
    | some (.result value) => numbers 6 value
    | _ => none
  else none

/-- The client reports the box it holds. -/
def Echoes (s : Controller ℚ × Box) (call : Call ℚ) : Prop :=
  ∀ box ∈ viewBoxRead lib s.1 call, ∀ i, box i = s.2 i

instance (s : Controller ℚ × Box) (call : Call ℚ) : Decidable (Echoes lib s call) :=
  inferInstanceAs (Decidable (∀ box ∈ viewBoxRead lib s.1 call, ∀ i, box i = s.2 i))

/-- The event that is carried out zooms by less than all, where a box comes in. -/
def ZoomsShort (s : Controller ℚ × Box) (call : Call ℚ) : Prop :=
  (viewBoxRead lib s.1 call).isSome → ShortOfAll s.1.sensitivity s.1.activeEv

instance (s : Controller ℚ × Box) (call : Call ℚ) : Decidable (ZoomsShort lib s call) :=
  inferInstanceAs (Decidable (_ → _))

/-- The value is a box with three proper edges. -/
def OpenValue (value : Option (Json ℚ)) : Prop := ∃ box ∈ numbers 6 value, BoxOpen box

instance (value : Option (Json ℚ)) : Decidable (OpenValue value) :=
  inferInstanceAs (Decidable (∃ box ∈ numbers 6 value, BoxOpen box))

/-- Every box that the call writes is open. -/
def WritesOpen (s : Controller ℚ × Box) (call : Call ℚ) : Prop :=
  ∀ q ∈ (heldStep lib s call).2, q.kind = selfUpdate → q.prop = .lit "view.extents" →
    OpenValue q.value

instance (s : Controller ℚ × Box) (call : Call ℚ) : Decidable (WritesOpen lib s call) :=
  inferInstanceAs (Decidable (∀ q ∈ (heldStep lib s call).2, _ → _ → _))

/-- Nothing but motions, the box held is open, and so is one that is about to be written. -/
structure Guarded (s : Controller ℚ × Box) : Prop where
  sound : s.1.Sound
  noChain : s.1.chain ≠ .button
  noButton : s.1.havePendingButton = false
  held : BoxOpen s.2
  next : s.1.chain = .motion → s.1.step = .mstepWriteMotion → s.1.perspective = false →
    BoxOpen s.1.viewExtents

variable {lib}

theorem boxIn_read {q : Request ℚ} (read : q.kind = selfRead) : boxIn q = none := by
  refine if_neg fun written => ?_
  rw [read] at written
  exact selfRead_ne_selfUpdate written.1

theorem motion_ne_extents : CStr.lit "motion" ≠ .lit "view.extents" := by decide

theorem affine_ne_extents : CStr.lit "view.affine" ≠ .lit "view.extents" := by decide

/-- Requests that write no box leave the one held. -/
theorem lastBox_silent (box : Box) {qs : List (Request ℚ)}
    (silent : ∀ q ∈ qs, q.kind = selfRead ∨ q.prop ≠ .lit "view.extents") :
    lastBox box qs = box := by
  induction qs with
  | nil => rfl
  | cons q qs ih =>
      have none_ : boxIn q = none := by
        rcases silent q List.mem_cons_self with read | other
        · exact boxIn_read read
        · exact if_neg fun written => other written.2
      rw [lastBox, List.foldl_cons, none_, Option.getD_none]
      exact ih fun q mem => silent q (List.mem_cons_of_mem _ mem)

/-- So does a call that sends no other. -/
theorem silent_guarded {s : Controller ℚ × Box} {call : Call ℚ}
    (silent : ∀ r ∈ rpcs (controllerStep lib s.1 call).2.sent,
      r.kind = selfRead ∨ r.prop ≠ .lit "view.extents")
    (next : Guarded ((controllerStep lib s.1 call).1, s.2)) :
    Guarded (heldStep lib s call).1 ∧ WritesOpen lib s call := by
  have requests : ∀ q ∈ (requestStep lib s.1 call).2,
      q.kind = selfRead ∨ q.prop ≠ .lit "view.extents" := by
    intro q mem
    obtain ⟨r, sent, rfl⟩ := List.mem_map.mp mem
    exact silent r sent
  constructor
  · rw [heldStep, lastBox_silent s.2 requests]
    exact next
  · intro q mem update extents
    rcases requests q mem with read | other
    · exact absurd (read.symm.trans update) selfRead_ne_selfUpdate
    · exact absurd extents other

/-- A chain that is started is no reset, and waits for nothing that is written. -/
theorem Starts.guarded {e : Env} {c' : Controller ℚ} {r : Rpc ℚ} {box : Box}
    (starts : Starts e c' r) (sound : c'.Sound) (motion : c'.chain = .motion)
    (held : BoxOpen box) : Guarded (c', box) where
  sound := sound
  noChain := by simp [motion]
  noButton := starts.noButton
  held := held
  next := by
    intro _ write
    rcases starts.first with first | first <;> simp [first] at write

/-- A call that brings no reply. -/
theorem unanswered_step {s : Controller ℚ × Box} {call : Call ℚ} (guarded : Guarded s)
    (moves : call.moves = true) (unanswered : replyOf lib s.1 call = none) :
    Guarded (heldStep lib s call).1 ∧ WritesOpen lib s call := by
  have move := controllerStep_move lib call guarded.sound
  have sound := move.sound guarded.sound
  have motionOnly : ∀ ev, call.op = .spnav ev → ev.type = .motion := by
    intro ev event
    simpa [Call.moves, event] using moves
  suffices reads : (∀ r ∈ rpcs (controllerStep lib s.1 call).2.sent, r.kind = selfRead) ∧
      Guarded ((controllerStep lib s.1 call).1, s.2) from
    silent_guarded (fun r sent => Or.inl (reads.1 r sent)) reads.2
  generalize (controllerStep lib s.1 call).1 = c', rpcs (controllerStep lib s.1 call).2.sent = rs
    at move sound
  cases move with
  | quiet _ _ chain =>
      refine ⟨by simp, sound, ?_, ?_, guarded.held, ?_⟩
      · rw [chain.chain]
        exact guarded.noChain
      · rw [chain.havePendingButton]
        exact guarded.noButton
      · rw [chain.chain, chain.step, chain.perspective, chain.viewExtents]
        exact guarded.next
  | queued event _ _ _ _ run stays scratch motion =>
      refine ⟨by simp, sound, ?_, ?_, guarded.held, ?_⟩
      · rw [run.chain]
        exact guarded.noChain
      · rw [(motion (motionOnly _ event)).2.2]
        exact guarded.noButton
      · rw [run.chain, stays.step, scratch.perspective, scratch.viewExtents]
        exact guarded.next
  | started event _ _ _ starts chain =>
      rw [if_pos (motionOnly _ event)] at chain
      exact ⟨by simp [starts.reads], starts.guarded sound chain guarded.held⟩
  | goesOn answered => simp [unanswered] at answered
  | ended answered => simp [unanswered] at answered
  | restarted answered => simp [unanswered] at answered

/-- A reply that ends the chain. -/
theorem ended_step {s : Controller ℚ × Box} {call : Call ℚ} {reply : Reply ℚ} (guarded : Guarded s)
    (answered : replyOf lib s.1 call = some reply) (ends : reply.ends s.1.step = true) :
    Guarded (heldStep lib s call).1 ∧ WritesOpen lib s call := by
  have move := controllerStep_move lib call guarded.sound
  have sound := move.sound guarded.sound
  suffices reads : (∀ r ∈ rpcs (controllerStep lib s.1 call).2.sent, r.kind = selfRead) ∧
      Guarded ((controllerStep lib s.1 call).1, s.2) from
    silent_guarded (fun r sent => Or.inl (reads.1 r sent)) reads.2
  generalize (controllerStep lib s.1 call).1 = c', rpcs (controllerStep lib s.1 call).2.sent = rs
    at move sound
  cases move with
  | quiet unanswered => simp [answered] at unanswered
  | goesOn answered' _ goes =>
      rw [Option.some.inj (answered.symm.trans answered'), goes] at ends
      cases ends
  | ended _ _ _ _ queue _ _ idle =>
      refine ⟨by simp, sound, by simp [idle], ?_, guarded.held, by simp [idle]⟩
      rw [queue.havePendingButton]
      exact guarded.noButton
  | restarted _ _ _ _ _ starts chain =>
      rw [if_neg (by simp [guarded.noButton])] at chain
      exact ⟨by simp [starts.reads], starts.guarded sound chain guarded.held⟩
  | queued event => simp [replyOf, event] at answered
  | started event => simp [replyOf, event] at answered

/-- A result that takes the chain on keeps the rest of the invariant. -/
theorem goes_guarded {s : Controller ℚ × Box} {call : Call ℚ} {reply : Reply ℚ} {box : Box}
    (guarded : Guarded s) (answered : replyOf lib s.1 call = some reply)
    (goes : reply.ends s.1.step = false) (held : BoxOpen box)
    (next : (receive call.env s.1 reply).1.step = .mstepWriteMotion →
      (receive call.env s.1 reply).1.perspective = false →
        BoxOpen (receive call.env s.1 reply).1.viewExtents) :
    Guarded ((controllerStep lib s.1 call).1, box) := by
  have move := controllerStep_move lib call guarded.sound
  have sound := move.sound guarded.sound
  rw [controllerStep_of_reply answered] at move sound ⊢
  generalize (receive call.env s.1 reply).1 = c', rpcs (receive call.env s.1 reply).2 = rs
    at move sound next
  cases move with
  | goesOn _ _ _ _ run queue =>
      refine ⟨sound, ?_, ?_, held, fun _ => next⟩
      · rw [run.chain]
        exact guarded.noChain
      · rw [queue.havePendingButton]
        exact guarded.noButton
  | quiet unanswered => simp [answered] at unanswered
  | ended answered' _ ends =>
      rw [← Option.some.inj (answered.symm.trans answered'), goes] at ends
      cases ends
  | restarted answered' _ ends =>
      rw [← Option.some.inj (answered.symm.trans answered'), goes] at ends
      cases ends
  | queued event => simp [replyOf, event] at answered
  | started event => simp [replyOf, event] at answered

/-- A result that takes the chain on.  The box is computed at one step and written at another. -/
theorem goes_step {s : Controller ℚ × Box} {call : Call ℚ} {value : Option (Json ℚ)}
    (guarded : Guarded s) (answered : replyOf lib s.1 call = some (.result value))
    (goes : (Reply.result value).ends s.1.step = false) (echoes : Echoes lib s call)
    (short : ZoomsShort lib s call) :
    Guarded (heldStep lib s call).1 ∧ WritesOpen lib s call := by
  have running := ((replyOf_isSome_iff lib s.1 call).mp (by simp [answered])).1
  have motion : s.1.chain = .motion := by
    cases chain : s.1.chain with
    | none => exact absurd chain running
    | motion => rfl
    | button => exact absurd chain guarded.noChain
  have typed := guarded.sound.typed running
  have step_eq := controllerStep_of_reply answered
  have guard := goes_guarded guarded answered goes guarded.held
  cases step : s.1.step with
  | mstepReadExtents =>
      simp only [Reply.ends, step, Bool.not_eq_false'] at goes
      refine silent_guarded ?_ (guard ?_) <;>
        simp [step_eq, receive, motion, advanceMotionChain, step, jsonToFloats_ok, goes, rpcRead, rpc]
  | mstepReadPerspective =>
      refine silent_guarded ?_ (guard ?_) <;>
        simp [step_eq, receive, motion, advanceMotionChain, step, rpcRead, rpc]
  | mstepReadAffine =>
      simp only [Reply.ends, step, Bool.not_eq_false'] at goes
      cases perspective : s.1.perspective <;>
        refine silent_guarded ?_ (guard ?_) <;>
          simp [step_eq, receive, motion, advanceMotionChain, step, jsonToFloats_ok, goes,
            perspective, rpcRead, rpcWrite, rpc, motion_ne_extents]
  | mstepReadViewextents =>
      simp only [Reply.ends, step, Bool.not_eq_false'] at goes
      obtain ⟨box, is⟩ := numbers_of_holds (F := ℚ) goes
      have read : viewBoxRead lib s.1 call = some box := by
        simp [viewBoxRead, step, answered, is]
      obtain rfl := funext (echoes box read)
      have less := short (by simp [read])
      refine silent_guarded ?_ (guard ?_)
      · simp [step_eq, receive, motion, advanceMotionChain, step, jsonToFloats_ok, goes, rpcWrite,
          rpc, motion_ne_extents]
      · intro _ _
        simp only [receive, motion, if_true, advanceMotionChain, step, jsonToFloats_ok, goes,
          jsonToFloats_of_numbers is, rpcWrite, rpc]
        exact (zoomed_open_iff guarded.held _ _).mpr less
  | mstepWriteMotion =>
      cases perspective : s.1.perspective with
      | true =>
          refine silent_guarded ?_ (guard ?_) <;>
            simp [step_eq, receive, motion, advanceMotionChain, step, perspective, rpcWrite, rpc,
              affine_ne_extents]
      | false =>
          have opened := guarded.next motion step perspective
          have sent : (requestStep lib s.1 call).2 =
              [⟨selfUpdate, .lit "view.extents", some (floatsToJson s.1.viewExtents)⟩] := by
            simp [requestStep, step_eq, receive, motion, advanceMotionChain, step, perspective,
              rpcWrite, rpc, requestOf]
          constructor
          · have box : lastBox s.2 (requestStep lib s.1 call).2 = s.1.viewExtents := by
              simp [sent, lastBox, boxIn, numbers_floatsToJson]
            rw [heldStep, box]
            refine goes_guarded guarded answered goes opened ?_
            simp [receive, motion, advanceMotionChain, step, perspective, rpcWrite, rpc]
          · intro q mem _ _
            rw [heldStep, sent] at mem
            rw [List.mem_singleton.mp mem]
            exact ⟨s.1.viewExtents, numbers_floatsToJson _, opened⟩
  | mstepWriteViewextents =>
      refine silent_guarded ?_ (guard ?_) <;>
        simp [step_eq, receive, motion, advanceMotionChain, step, rpcWrite, rpc, affine_ne_extents]
  | mstepWriteAffine => simp [Reply.ends, step] at goes
  | bstepReadExtents | bstepReadFront | bstepWriteAffine | bstepWriteExtents =>
      rw [motion, step] at typed
      cases typed

/-- **The view box stays open** while no event zooms by all of it. -/
theorem boxes_open (lib : CJson ℚ) {c : Controller ℚ} (idle : c.Idle) {first : Box}
    (opened : BoxOpen first) (calls : List (Call ℚ)) (motions : ∀ call ∈ calls, call.moves = true)
    (echoes : Allows (heldStep lib) (Echoes lib) (c, first) calls)
    (short : Allows (heldStep lib) (ZoomsShort lib) (c, first) calls) :
    Allows (heldStep lib) (WritesOpen lib) (c, first) calls := by
  have start : Guarded (c, first) :=
    ⟨idle.sound, by simp [idle.1], idle.2.2, opened, fun running => by simp [idle.1] at running⟩
  clear idle opened
  generalize (c, first) = s at start echoes short ⊢
  induction calls generalizing s with
  | nil => trivial
  | cons call rest ih =>
      obtain ⟨echo, echoes⟩ := echoes
      obtain ⟨less, short⟩ := short
      have step : Guarded (heldStep lib s call).1 ∧ WritesOpen lib s call := by
        have moves := motions call List.mem_cons_self
        cases answered : replyOf lib s.1 call with
        | none => exact unanswered_step start moves answered
        | some reply =>
            cases ends : reply.ends s.1.step with
            | true => exact ended_step start answered ends
            | false =>
                cases reply with
                | error => simp [Reply.ends] at ends
                | result value => exact goes_step start answered ends echo less
      exact ⟨step.2, ih (fun call mem => motions call (List.mem_cons_of_mem _ mem)) _ step.1
        echoes short⟩

end Run

/-! ## A factor below zero -/

/-- The handshake, and a sensitivity. -/
def readyState (sensitivity : ℚ) : Controller ℚ :=
  (controllerMachine orthographicLib (.at 0)).after
    (handshake ++ [⟨.setSensitivity sensitivity, .at 0⟩])

/-- A chain that zooms by `z`, up to the write of the box. -/
def zooming (z : Int) : List (Call ℚ) :=
  ⟨.spnav ⟨.motion, 0, 0, z, 0, 0, 0⟩, .at 0⟩ ::
    firstReplies ++ [⟨.message cameraText, .at 0⟩, ⟨.message boxText, .at 0⟩,
      ⟨.message falseText, .at 0⟩]

theorem boxes_open_zooming :
    Allows (heldStep orthographicLib) (WritesOpen orthographicLib) (readyState 10, unitBox)
      (zooming (-499)) :=
  boxes_open orthographicLib (by decide +kernel) (by decide +kernel) _ (by decide +kernel)
    (by decide +kernel) (by decide +kernel)

/-- At the largest sensitivity this one turns the box inside out. -/
theorem inverted_box : (readyState 10).Idle ∧ BoxOpen unitBox ∧
    (∀ call ∈ zooming (-501), call.moves = true) ∧
    Allows (heldStep orthographicLib) (Echoes orthographicLib) (readyState 10, unitBox)
      (zooming (-501)) ∧
    ¬ Allows (heldStep orthographicLib) (WritesOpen orthographicLib) (readyState 10, unitBox)
      (zooming (-501)) := by
  decide +kernel

end SpnavBridge.Kernel
