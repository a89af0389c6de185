/-
# Kernel.Writes -- what a chain writes to the camera has the shape of the property

The values a chain writes come from three places: arrays it computed, arrays it scaled
in place, and the front view a button chain forwards as the client sent it.  The first
two have a length of their own, but a product that leaves the range of a `float` is no number
any more, and cJSON writes `null` for it.  The third is whatever JSON the client answered.  So
the writes of a run are well formed exactly on the runs whose front views are and whose
products are finite where they are written (`writesWell_iff`); `forwarded_flag` is a run where
a front view is no array.

* `WellFormedWrite`: the value of a write fits its property.
* `Reply.lacks`: the reply does not hold the numbers its step asked for.
* `GivesUp`: the chain ended, and nothing was written.
* `NoOverflow`: what is computed from a reply is finite.
-/
import SpnavBridge.Kernel.Outstanding
import SpnavBridge.Kernel.Readable
import SpnavBridge.Kernel.Script
import SpnavBridge.Kernel.Sends

namespace SpnavBridge.Kernel

open SpnavBridge.Theory SpnavBridge.Wire SpnavBridge.Camera

set_option autoImplicit false
set_option linter.unusedSectionVars false

variable {D F : Type} [CFloat F] [CDouble D F] {a : Arithmetic}

/-! ## Shapes -/

/-- The item is printed as a number: where a `double` is not finite, `print_number` writes
`null`. -/
def printsNumber : Json (Double a) → Bool
  | .number d => (show Value binary64 from d).isFinite
  | _ => false

theorem reread_isNumber (d : Value binary64) : (reread d).isNumber = d.isFinite := by
  cases d with
  | nan => rfl
  | inf negative => rfl
  | finite negative m held =>
      obtain ⟨q, reads, -⟩ := printNumber_reads negative held
      have read := reads.parseNumber (Value.ofSigned : Bool → ℚ → Value binary64) not_goesOn_nil
      rw [List.append_nil] at read
      rw [reread_finite rfl read]
      rfl

/-- Such an item is a number in the tree the client reads. -/
theorem printsNumber_eq (item : Json (Double a)) :
    printsNumber item = (item.rereads (rereadDouble a)).isNumber := by
  cases item with
  | number d => exact (reread_isNumber d).symm
  | null | bool | string | array | object => rfl

/-- The value is an array of `n` numbers and nothing else. -/
def exactNumbers (n : Nat) : Option (Json (Double a)) → Bool
  | some (.array items) => items.length = n && items.all printsNumber
  | _ => false

theorem isNumber_of_prints {item : Json (Double a)} (prints : printsNumber item = true) :
    item.isNumber = true := by
  cases item with
  | number d => rfl
  | _ => cases prints

theorem holdsNumbers_of_exact {n : Nat} {value : Option (Json (Double a))}
    (exact_ : exactNumbers n value = true) : holdsNumbers n value = true := by
  unfold exactNumbers at exact_
  split at exact_
  · rename_i items
    simp only [Bool.and_eq_true, decide_eq_true_eq, List.all_eq_true] at exact_
    obtain ⟨rfl, all⟩ := exact_
    simp only [holdsNumbers, le_refl, decide_true, List.take_length, Bool.true_and,
      List.all_eq_true]
    exact fun item mem => isNumber_of_prints (all item mem)
  · cases exact_

theorem isFinite_widen (x : Value binary32) :
    (x.convert binary64 : Value binary64).isFinite = x.isFinite := by
  cases x with
  | nan => rfl
  | inf negative => rfl
  | finite negative m held =>
      obtain ⟨held', wide⟩ := widen_finite negative held
      have kept : (Value.finite negative m held : Value binary32).isFinite = true := rfl
      rw [wide, kept]
      rfl

/-- An array of floats has its length, and its items are numbers where the floats are. -/
theorem exactNumbers_floatsToJson {n : Nat} (values : Fin n → Single a) :
    exactNumbers n (some (floatsToJson (D := Double a) values)) = true ↔
      ∀ i, CFloat.isfinite (values i) = true := by
  simp only [exactNumbers, floatsToJson, List.length_ofFn, decide_true, Bool.true_and,
    List.all_eq_true, List.forall_mem_ofFn_iff]
  exact forall_congr' fun i => by
    rw [show printsNumber (.number (CDouble.widen (values i)) : Json (Double a)) =
      CFloat.isfinite (values i) from isFinite_widen (values i)]

/-- The value of a write fits the property it is written to. -/
def WellFormedWrite (r : Rpc (Double a)) : Prop :=
  (r.prop = .lit "motion" ∧ Json.isTrue r.value = true) ∨
    (r.prop = .lit "view.extents" ∧ exactNumbers 6 r.value = true) ∨
    (r.prop = .lit "view.affine" ∧ exactNumbers 16 r.value = true)

instance (r : Rpc (Double a)) : Decidable (WellFormedWrite r) :=
  inferInstanceAs (Decidable (_ ∨ _))

/-- The reply does not hold the numbers that were asked for at `step`. -/
def Reply.lacks (step : ChainStep) : Reply D → Bool
  | .error => true
  | .result value =>
      match step with
      | .mstepReadExtents | .mstepReadViewextents | .bstepReadExtents => !holdsNumbers 6 value
      | .mstepReadAffine | .bstepReadFront => !holdsNumbers 16 value
      | _ => false

/-- Such a reply ends the chain, but for the front view, which is not looked at. -/
theorem Reply.ends_of_lacks {step : ChainStep} {reply : Reply D} (lacks : reply.lacks step = true)
    (front : ∀ value, reply = .result value → step ≠ .bstepReadFront) :
    reply.ends step = true := by
  cases reply with
  | error => rfl
  | result value =>
      have notFront := front value rfl
      cases step <;> simp_all [Reply.lacks, Reply.ends]

/-! ## The numbers of the controller -/

/-- The numbers a chain writes when its step is answered. -/
def Controller.writing (c : Controller F) : List F :=
  match c.step with
  | .mstepWriteMotion => if c.perspective then List.ofFn c.newAffine else List.ofFn c.viewExtents
  | .mstepWriteViewextents => List.ofFn c.newAffine
  | .bstepWriteAffine => List.ofFn fun i => c.modelExtents i * CFloat.lit (12 / 10)
  | _ => []

/-- The numbers a chain writes from its step on, as far as they are there. -/
def Controller.kept (c : Controller F) : List F :=
  match c.step with
  | .mstepReadViewextents | .mstepWriteViewextents => List.ofFn c.newAffine
  | .mstepWriteMotion =>
      if c.perspective then List.ofFn c.newAffine
      else List.ofFn c.viewExtents ++ List.ofFn c.newAffine
  | .bstepReadFront | .bstepWriteAffine =>
      List.ofFn fun i => c.modelExtents i * CFloat.lit (12 / 10)
  | _ => []

/-- The numbers a chain computes from a result. -/
def Controller.computed (c : Controller F) (value : Option (Json D)) : List F :=
  match c.step with
  | .mstepReadAffine => match numbers 16 value with
      | some affine =>
          List.ofFn (computeNewAffine c.sensitivity c.modelExtents affine c.activeEv)
      | none => []
  | .mstepReadViewextents => match numbers 6 value with
      | some box => List.ofFn (zoomed c.sensitivity c.activeEv box)
      | none => []
  | .bstepReadExtents => match numbers 6 value with
      | some extents => List.ofFn fun i : Fin 6 => extents i * CFloat.lit (12 / 10)
      | none => []
  | _ => []

def AllFinite (values : List F) : Prop := ∀ x ∈ values, CFloat.isfinite x = true

theorem allFinite_nil : AllFinite ([] : List F) := by simp [AllFinite]

theorem allFinite_append {front back : List F} :
    AllFinite (front ++ back) ↔ AllFinite front ∧ AllFinite back :=
  List.forall_mem_append

theorem allFinite_ofFn {n : Nat} {values : Fin n → F} :
    AllFinite (List.ofFn values) ↔ ∀ i, CFloat.isfinite (values i) = true :=
  List.forall_mem_ofFn_iff

/-! ## The writes of one call -/

/-- A chain that is started only reads. -/
theorem Starts.reads {e : Env} {c' : Controller F} {r : Rpc D} (starts : Starts e c' r) :
    r.kind = selfRead := by
  have request := starts.waits.request
  rcases starts.first with first | first <;> rw [first] at request <;>
    exact (Prod.mk.inj request).1

/-- Only a result that keeps the chain going makes it write. -/
theorem Move.goes_of_update {lib : CJson D} {call : Call F} {c c' : Controller F}
    {sent : List (Rpc D)} (move : Move lib call c c' sent) {r : Rpc D} (written : r ∈ sent)
    (update : r.kind = selfUpdate) :
    ∃ value, replyOf lib c call = some (.result value) ∧
      (Reply.result value).ends c.step = false := by
  have startsNone : ∀ {r' : Rpc D}, Starts call.env c' r' → r = r' → False := by
    intro r' starts same
    rw [same, starts.reads] at update
    exact selfRead_ne_selfUpdate update
  cases move with
  | quiet => simp at written
  | @goesOn reply _ answered _ goes =>
      cases reply with
      | error => simp [Reply.ends] at goes
      | result value => exact ⟨value, answered, goes⟩
  | ended => simp at written
  | restarted _ _ _ _ _ starts => exact (startsNone starts (List.mem_singleton.mp written)).elim
  | queued => simp at written
  | started _ _ _ _ starts => exact (startsNone starts (List.mem_singleton.mp written)).elim

/-- The updates among the RPCs fit their properties. -/
def Fitting (sent : List (Message (Double a))) : Prop :=
  ∀ r ∈ rpcs sent, r.kind = selfUpdate → WellFormedWrite r

section Fitting

variable (e : Env) (c : Controller (Single a))

theorem fitting_nil : Fitting ([] : List (Message (Double a))) := by simp [Fitting]

theorem fitting_rpcRead (prop : CStr) : Fitting (rpcRead (D := Double a) e c prop).2 := by
  intro r mem update
  rw [List.mem_singleton.mp mem] at update
  exact absurd update selfRead_ne_selfUpdate

theorem fitting_chainFinished : Fitting (chainFinished (D := Double a) e c).2 := by
  unfold chainFinished
  dsimp only
  split_ifs
  · exact fitting_rpcRead e _ _
  · exact fitting_rpcRead e _ _
  · exact fitting_nil

theorem fitting_rpcWrite {prop : CStr} {value : Option (Json (Double a))} :
    Fitting (rpcWrite e c prop value).2 ↔
      WellFormedWrite ⟨controllerUri, selfUpdate, prop, value, wampGenId e.rnd 18⟩ :=
  ⟨fun fits => fits _ (List.mem_singleton.mpr rfl) rfl,
    fun fits _ mem _ => List.mem_singleton.mp mem ▸ fits⟩

theorem fitting_motion :
    Fitting (rpcWrite (D := Double a) e c (.lit "motion") (some (.bool true))).2 :=
  (fitting_rpcWrite e c).mpr (Or.inl ⟨rfl, rfl⟩)

theorem fitting_extents {value : Option (Json (Double a))} :
    Fitting (rpcWrite e c (.lit "view.extents") value).2 ↔ exactNumbers 6 value = true := by
  rw [fitting_rpcWrite]
  have motion : CStr.lit "view.extents" ≠ .lit "motion" := by decide +kernel
  have affine : CStr.lit "view.extents" ≠ .lit "view.affine" := by decide +kernel
  simp [WellFormedWrite, motion, affine]

theorem fitting_affine {value : Option (Json (Double a))} :
    Fitting (rpcWrite e c (.lit "view.affine") value).2 ↔ exactNumbers 16 value = true := by
  rw [fitting_rpcWrite]
  have motion : CStr.lit "view.affine" ≠ .lit "motion" := by decide +kernel
  have extents : CStr.lit "view.affine" ≠ .lit "view.extents" := by decide +kernel
  simp [WellFormedWrite, motion, extents]

theorem fitting_advanceMotionChain (value : Option (Json (Double a)))
    (typed : c.step.kind = .motion) :
    Fitting (advanceMotionChain e c value).2 ↔ AllFinite c.writing := by
  unfold advanceMotionChain Controller.writing
  cases step : c.step with
  | mstepReadExtents =>
      simp only [allFinite_nil, iff_true]
      split_ifs
      · exact fitting_rpcRead e _ _
      · exact fitting_chainFinished e _
  | mstepReadPerspective =>
      simp only [allFinite_nil, iff_true]
      exact fitting_rpcRead e _ _
  | mstepReadAffine =>
      simp only [allFinite_nil, iff_true]
      split_ifs
      · exact fitting_rpcRead e _ _
      · exact fitting_motion e _
      · exact fitting_chainFinished e _
  | mstepReadViewextents =>
      simp only [allFinite_nil, iff_true]
      split_ifs
      · exact fitting_motion e _
      · exact fitting_chainFinished e _
  | mstepWriteMotion =>
      cases c.perspective with
      | true =>
          simp only [Bool.not_true, Bool.false_eq_true, if_false, if_true]
          rw [fitting_affine, exactNumbers_floatsToJson, allFinite_ofFn]
      | false =>
          simp only [Bool.not_false, Bool.false_eq_true, if_false, if_true]
          rw [fitting_extents, exactNumbers_floatsToJson, allFinite_ofFn]
  | mstepWriteViewextents =>
      dsimp only
      rw [fitting_affine, exactNumbers_floatsToJson, allFinite_ofFn]
  | mstepWriteAffine =>
      simp only [allFinite_nil, iff_true]
      exact fitting_chainFinished e _
  | bstepReadExtents | bstepReadFront | bstepWriteAffine | bstepWriteExtents =>
      rw [step] at typed
      cases typed

theorem fitting_advanceButtonChain (value : Option (Json (Double a)))
    (typed : c.step.kind = .button) :
    Fitting (advanceButtonChain e c value).2 ↔
      (c.step = .bstepReadFront → exactNumbers 16 value = true) ∧ AllFinite c.writing := by
  unfold advanceButtonChain Controller.writing
  cases step : c.step with
  | bstepReadExtents =>
      simp only [allFinite_nil, reduceCtorEq, false_implies, and_self, iff_true]
      split_ifs
      · exact fitting_rpcRead e _ _
      · exact fitting_chainFinished e _
  | bstepReadFront =>
      simp only [allFinite_nil, true_implies, and_true]
      exact fitting_affine e _
  | bstepWriteAffine =>
      simp only [reduceCtorEq, false_implies, true_and]
      rw [fitting_extents, exactNumbers_floatsToJson, allFinite_ofFn]
  | bstepWriteExtents =>
      simp only [allFinite_nil, reduceCtorEq, false_implies, and_self, iff_true]
      exact fitting_chainFinished e _
  | mstepReadExtents | mstepReadPerspective | mstepReadAffine | mstepReadViewextents
  | mstepWriteMotion | mstepWriteViewextents | mstepWriteAffine =>
      rw [step] at typed
      cases typed

/-- **What a result makes the controller write** fits but for two reasons: a front view that
does not, and a number of its own that is not finite. -/
theorem fitting_receive {c : Controller (Single a)} (value : Option (Json (Double a)))
    (running : c.chain ≠ .none) (typed : c.step.kind = c.chain) :
    Fitting (receive e c (.result value)).2 ↔
      (c.step = .bstepReadFront → exactNumbers 16 value = true) ∧ AllFinite c.writing := by
  cases chain : c.chain with
  | none => exact absurd chain running
  | motion =>
      rw [chain] at typed
      have notFront : c.step ≠ .bstepReadFront := by
        intro front
        rw [front] at typed
        cases typed
      simp only [receive, chain, if_true, notFront, false_implies, true_and]
      exact fitting_advanceMotionChain e c value typed
  | button =>
      rw [chain] at typed
      simp only [receive, chain, reduceCtorEq, if_false]
      exact fitting_advanceButtonChain e c value typed

end Fitting

/-! ## What is kept for later writes -/

theorem writing_of_kept {c : Controller F} (kept : AllFinite c.kept) : AllFinite c.writing := by
  unfold Controller.kept at kept
  unfold Controller.writing
  cases step : c.step with
  | mstepWriteMotion =>
      simp only [step] at kept ⊢
      cases perspective : c.perspective with
      | true => simpa only [perspective, if_true] using kept
      | false =>
          simp only [perspective, Bool.false_eq_true, if_false, allFinite_append] at kept ⊢
          exact kept.1
  | mstepWriteViewextents | bstepWriteAffine => simpa only [step] using kept
  | mstepReadExtents | mstepReadPerspective | mstepReadAffine | mstepReadViewextents
  | mstepWriteAffine | bstepReadExtents | bstepReadFront | bstepWriteExtents =>
      exact allFinite_nil

/-- A chain that goes on keeps finite numbers, if what it computed is finite. -/
theorem kept_receive {e : Env} {c : Controller F} {value : Option (Json D)}
    (typed : c.step.kind = c.chain) (goes : (Reply.result value).ends c.step = false)
    (kept : AllFinite c.kept) (computed : AllFinite (c.computed value)) :
    AllFinite (receive e c (.result value)).1.kept := by
  cases step : c.step with
  | mstepReadExtents =>
      simp only [Reply.ends, step, Bool.not_eq_false'] at goes
      simp only [receive_motion typed step rfl, advanceMotionChain, step, jsonToFloats_ok, goes,
        if_true]
      exact allFinite_nil
  | mstepReadPerspective =>
      simp only [receive_motion typed step rfl, advanceMotionChain, step]
      exact allFinite_nil
  | mstepReadAffine =>
      simp only [Reply.ends, step, Bool.not_eq_false'] at goes
      obtain ⟨held, is⟩ := numbers_of_holds (F := F) goes
      simp only [Controller.computed, step, is] at computed
      simp only [receive_motion typed step rfl, advanceMotionChain, step, jsonToFloats_ok, goes,
        if_true, jsonToFloats_of_numbers is]
      cases perspective : c.perspective with
      | true => simpa [rpcWrite, rpc, Controller.kept, perspective] using computed
      | false => simpa [rpcRead, rpc, Controller.kept] using computed
  | mstepReadViewextents =>
      simp only [Reply.ends, step, Bool.not_eq_false'] at goes
      obtain ⟨held, is⟩ := numbers_of_holds (F := F) goes
      simp only [Controller.computed, step, is] at computed
      simp only [Controller.kept, step] at kept
      simp only [receive_motion typed step rfl, advanceMotionChain, step, jsonToFloats_ok, goes,
        if_true, jsonToFloats_of_numbers is, rpcWrite, rpc, Controller.kept]
      split_ifs
      · exact kept
      · exact allFinite_append.mpr ⟨computed, kept⟩
  | mstepWriteMotion =>
      simp only [Controller.kept, step] at kept
      simp only [receive_motion typed step rfl, advanceMotionChain, step]
      cases perspective : c.perspective with
      | true => exact allFinite_nil
      | false =>
          simp only [perspective, Bool.false_eq_true, if_false, allFinite_append] at kept
          exact kept.2
  | mstepWriteViewextents =>
      simp only [receive_motion typed step rfl, advanceMotionChain, step]
      exact allFinite_nil
  | bstepReadExtents =>
      simp only [Reply.ends, step, Bool.not_eq_false'] at goes
      obtain ⟨held, is⟩ := numbers_of_holds (F := F) goes
      simp only [Controller.computed, step, is] at computed
      simp only [receive_button typed step rfl, advanceButtonChain, step,
        jsonToFloats_ok, goes, jsonToFloats_of_numbers is, if_true]
      exact computed
  | bstepReadFront =>
      simp only [Controller.kept, step] at kept
      simp only [receive_button typed step rfl, advanceButtonChain, step]
      exact kept
  | bstepWriteAffine =>
      simp only [receive_button typed step rfl, advanceButtonChain, step]
      exact allFinite_nil
  | mstepWriteAffine | bstepWriteExtents => simp [Reply.ends, step] at goes

theorem kept_of_first {c : Controller F} (first : c.step.first) : AllFinite c.kept := by
  rcases first with step | step <;> simp only [Controller.kept, step] <;> exact allFinite_nil

theorem kept_congr {c c' : Controller F} (stays : SameStep c c') (scratch : SameScratch c c') :
    c'.kept = c.kept := by
  unfold Controller.kept
  rw [stays.step, scratch.modelExtents, scratch.perspective, scratch.newAffine,
    scratch.viewExtents]

/-- The invariant: a running chain keeps finite numbers. -/
def Controller.Keeps (c : Controller F) : Prop := c.chain ≠ .none → AllFinite c.kept

theorem Move.keeps {lib : CJson D} {call : Call F} {c : Controller F} {sent : List (Rpc D)}
    (move : Move lib call c (controllerStep lib c call).1 sent) (sound : c.Sound) (keeps : c.Keeps)
    (computed : ∀ value, replyOf lib c call = some (.result value) →
      AllFinite (c.computed value)) :
    (controllerStep lib c call).1.Keeps := by
  generalize after : (controllerStep lib c call).1 = c' at move ⊢
  intro running
  cases move with
  | quiet _ _ chain =>
      rw [chain.chain] at running
      rw [kept_congr chain.toSameStep chain.toSameScratch]
      exact keeps running
  | @goesOn reply _ answered running' goes =>
      rw [controllerStep_of_reply answered] at after
      cases reply with
      | error => simp [Reply.ends] at goes
      | result value =>
          rw [← after]
          exact kept_receive (sound.typed running') goes (keeps running') (computed value answered)
  | ended _ _ _ _ _ _ _ idle => exact absurd idle running
  | restarted _ _ _ _ _ starts => exact kept_of_first starts.first
  | queued _ _ running' _ _ _ stays scratch =>
      rw [kept_congr stays scratch]
      exact keeps running'
  | started _ _ _ _ starts => exact kept_of_first starts.first

/-! ## Runs -/

section Ends

variable (lib : CJson D) (e : Env)

/-- The chain ended in this call, and nothing was written. -/
def GivesUp (past : List (Call F)) (call : Call F) : Prop :=
  (((controllerMachine lib e).after (past ++ [call])).chain = .none ∨
      ((controllerMachine lib e).after (past ++ [call])).step.first) ∧
    ∀ r ∈ rpcsSent lib e past call, r.kind ≠ selfUpdate

variable {lib} {e}

theorem running_of_answered {c : Controller F} {call : Call F} {reply : Reply D}
    (answered : replyOf lib c call = some reply) : c.chain ≠ .none :=
  ((replyOf_isSome_iff lib c call).mp (by simp [answered])).1

theorem rpcsSent_of_reply {past : List (Call F)} {call : Call F} {reply : Reply D}
    (answered : replyOf lib ((controllerMachine lib e).after past) call = some reply) :
    rpcsSent lib e past call =
      rpcs (receive call.env ((controllerMachine lib e).after past) reply).2 := by
  show rpcs (controllerStep lib _ call).2.sent = _
  rw [controllerStep_of_reply answered]

/-- A reply that ends the chain gives up. -/
theorem givesUp_of_ends {past : List (Call F)} {call : Call F} {reply : Reply D}
    (answered : replyOf lib ((controllerMachine lib e).after past) call = some reply)
    (ends : reply.ends ((controllerMachine lib e).after past).step = true) :
    GivesUp lib e past call := by
  refine ⟨?_, fun r written update => ?_⟩
  · generalize rpcsSent lib e past call = sent, run_move lib e past call = move
    cases move with
    | quiet unanswered => simp [answered] at unanswered
    | goesOn answered' _ goes =>
        rw [answered] at answered'
        rw [Option.some.inj answered', goes] at ends
        cases ends
    | ended _ _ _ _ _ _ _ idle => exact Or.inl idle
    | restarted _ _ _ _ _ starts => exact Or.inr starts.first
    | queued event => simp [replyOf, event] at answered
    | started event => simp [replyOf, event] at answered
  · obtain ⟨value, answered', goes⟩ := (run_move lib e past call).goes_of_update written update
    rw [answered] at answered'
    rw [Option.some.inj answered', goes] at ends
    cases ends

end Ends

section Run

variable (lib : CJson (Double a)) (e : Env)

/-- What a call writes fits its property, and a reply that lacks the numbers asked for
ends the chain without a write. -/
structure WritesWell (past : List (Call (Single a))) (call : Call (Single a)) : Prop where
  wellFormed : ∀ r ∈ rpcsSent lib e past call, r.kind = selfUpdate → WellFormedWrite r
  givesUp : ∀ reply, replyOf lib ((controllerMachine lib e).after past) call = some reply →
    reply.lacks ((controllerMachine lib e).after past).step = true → GivesUp lib e past call

/-- A result that the call brings for `views.front` is an array of 16 numbers. -/
def FrontWellFormed (past : List (Call (Single a))) (call : Call (Single a)) : Prop :=
  ∀ value, replyOf lib ((controllerMachine lib e).after past) call = some (.result value) →
    ((controllerMachine lib e).after past).step = .bstepReadFront → exactNumbers 16 value = true

/-- Where a result makes the chain write numbers of its own, they are finite. -/
def WritesFinite (past : List (Call (Single a))) (call : Call (Single a)) : Prop :=
  ∀ value, replyOf lib ((controllerMachine lib e).after past) call = some (.result value) →
    AllFinite ((controllerMachine lib e).after past).writing

/-- Nothing that the chain computes from a result leaves the range of a `float`. -/
def NoOverflow (past : List (Call (Single a))) (call : Call (Single a)) : Prop :=
  ∀ value, replyOf lib ((controllerMachine lib e).after past) call = some (.result value) →
    AllFinite (((controllerMachine lib e).after past).computed value)

variable {lib} {e}

theorem writesWell_step_iff (past : List (Call (Single a))) (call : Call (Single a)) :
    WritesWell lib e past call ↔ FrontWellFormed lib e past call ∧ WritesFinite lib e past call := by
  have fits : ∀ value, replyOf lib ((controllerMachine lib e).after past) call =
      some (.result value) → ((∀ r ∈ rpcsSent lib e past call, r.kind = selfUpdate →
        WellFormedWrite r) ↔ (((controllerMachine lib e).after past).step = .bstepReadFront →
          exactNumbers 16 value = true) ∧ AllFinite ((controllerMachine lib e).after past).writing) := by
    intro value answered
    have running := running_of_answered answered
    rw [rpcsSent_of_reply answered]
    exact fitting_receive call.env value running ((sound_after lib e past).typed running)
  constructor
  · intro well
    exact ⟨fun value answered => ((fits value answered).mp well.wellFormed).1,
      fun value answered => ((fits value answered).mp well.wellFormed).2⟩
  · rintro ⟨fronts, finite⟩
    refine ⟨fun r written update => ?_, fun reply answered lacks => ?_⟩
    · obtain ⟨value, answered, -⟩ := (run_move lib e past call).goes_of_update written update
      exact (fits value answered).mpr ⟨fronts value answered, finite value answered⟩ r written update
    · refine givesUp_of_ends answered (Reply.ends_of_lacks lacks ?_)
      rintro value rfl front
      have held := holdsNumbers_of_exact (fronts value answered front)
      simp [Reply.lacks, front, held] at lacks

/-- In a run without an overflow a running chain keeps finite numbers. -/
theorem keeps_after (calls : List (Call (Single a))) (inRange : Along (NoOverflow lib e) calls) :
    ((controllerMachine lib e).after calls).Keeps := by
  induction calls using List.reverseRecOn with
  | nil => exact fun running => absurd rfl running
  | append_singleton past call ih =>
      obtain ⟨before, here⟩ := (along_snoc past call).mp inRange
      rw [Machine.after_snoc]
      exact (controllerStep_move lib call (sound_after lib e past)).keeps (sound_after lib e past)
        (ih before) here

variable (lib) (e)

/-- **Every write of a run is well formed exactly when every front view in it is** and the
controller writes finite numbers of its own, which it does if no product overflows. -/
theorem writesWell_iff (calls : List (Call (Single a))) :
    (Along (WritesWell lib e) calls ↔
      Along (FrontWellFormed lib e) calls ∧ Along (WritesFinite lib e) calls) ∧
    (Along (NoOverflow lib e) calls → Along (WritesFinite lib e) calls) := by
  refine ⟨⟨fun well => ⟨?_, ?_⟩, ?_⟩, ?_⟩
  · intro past call rest split
    exact ((writesWell_step_iff past call).mp (well past call rest split)).1
  · intro past call rest split
    exact ((writesWell_step_iff past call).mp (well past call rest split)).2
  · rintro ⟨fronts, finite⟩ past call rest split
    exact (writesWell_step_iff past call).mpr
      ⟨fronts past call rest split, finite past call rest split⟩
  · intro inRange past call rest split value answered
    refine writing_of_kept (keeps_after past ?_ (running_of_answered answered))
    rw [split] at inRange
    exact inRange.front

end Run

/-! ## A flag for a front view -/

/-- A button press, the model extents, and `true` where the front view was asked for. -/
def flagForFront : List (Call (Single casting)) :=
  handshakeTexts.map (fun text => ⟨.message text.1, .at 0⟩) ++
    [⟨.spnav ⟨.button, 0, 0, 0, 0, 0, 0⟩, .at 0⟩,
      ⟨.message (ascii "[3, \"AAAAAAAAAAAAAAAAAA\", [-1, -1, -1, 1, 1, 1]]"), .at 0⟩,
      ⟨.message (ascii "[3, \"AAAAAAAAAAAAAAAAAA\", true]"), .at 0⟩]

/-- The flag is written to `view.affine`. -/
theorem forwarded_flag : ¬ Along (WritesWell (bridgeJson casting) (.at 0)) flagForFront := by
  intro well
  have front := ((along_snoc (flagForFront.take 6)
    ⟨.message (ascii "[3, \"AAAAAAAAAAAAAAAAAA\", true]"), .at 0⟩).mp well).2.wellFormed
  revert front
  decide +kernel

end SpnavBridge.Kernel
