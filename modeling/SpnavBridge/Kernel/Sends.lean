/-
# Kernel.Sends -- the RPCs that a reply can make the controller send

A reply makes the controller send one RPC or none.  All but one kind are the controller's
own (`OwnRpc`): a read of a known property, the motion flag, or an array of numbers it
has computed.  The front view is the exception, since it is forwarded as the client
answered it (`Forwards`).  This holds of every state, reached or not.
-/
import SpnavBridge.Kernel.Moves

namespace SpnavBridge.Kernel

open SpnavBridge.Theory SpnavBridge.Wire SpnavBridge.Camera

set_option autoImplicit false
set_option linter.unusedSectionVars false

variable {D F : Type} [CFloat F] [CDouble D F]

/-- The properties that chains read. -/
def readProps : List CStr :=
  [.lit "model.extents", .lit "view.perspective", .lit "view.affine", .lit "view.extents",
    .lit "views.front"]

/-- An RPC whose value does not come from the client. -/
inductive OwnRpc (callId : CStr) : Rpc D → Prop
  | read (prop : CStr) (known : prop ∈ readProps) :
      OwnRpc callId ⟨controllerUri, selfRead, prop, none, callId⟩
  | motion : OwnRpc callId ⟨controllerUri, selfUpdate, .lit "motion", some (.bool true), callId⟩
  | extents (values : Fin 6 → F) :
      OwnRpc callId
        ⟨controllerUri, selfUpdate, .lit "view.extents", some (floatsToJson values), callId⟩
  | affine (values : Mat4 F) :
      OwnRpc callId
        ⟨controllerUri, selfUpdate, .lit "view.affine", some (floatsToJson values), callId⟩

/-- The RPC that forwards a front view. -/
def forwardRpc (callId : CStr) (value : Option (Json D)) : Rpc D :=
  ⟨controllerUri, selfUpdate, .lit "view.affine", value, callId⟩

/-- The reply is the front view of a chain that is no motion. -/
def Forwards (c : Controller F) (reply : Reply D) (value : Option (Json D)) : Prop :=
  c.chain ≠ .motion ∧ c.step = .bstepReadFront ∧ reply = .result value

/-- One RPC at most, of a kind, and nothing else. -/
inductive AtMostRpc (P : Rpc D → Prop) : List (Message D) → Prop
  | silent : AtMostRpc P []
  | asks (r : Rpc D) (kind : P r) : AtMostRpc P [.rpcCall r]

theorem AtMostRpc.cases {P : Rpc D → Prop} {sent : List (Message D)} (some_ : AtMostRpc P sent) :
    sent = [] ∨ ∃ r, sent = [.rpcCall r] ∧ P r := by
  cases some_ with
  | silent => exact Or.inl rfl
  | asks r kind => exact Or.inr ⟨r, rfl, kind⟩

/-! ## The chains -/

variable (e : Env) (c : Controller F)

theorem rpcRead_sends {prop : CStr} (known : prop ∈ readProps) :
    AtMostRpc (OwnRpc (F := F) (wampGenId e.rnd 18)) (rpcRead (D := D) e c prop).2 :=
  .asks _ (.read prop known)

theorem chainFinished_sends :
    AtMostRpc (OwnRpc (F := F) (wampGenId e.rnd 18)) (chainFinished (D := D) e c).2 := by
  unfold chainFinished
  dsimp only
  split
  · exact rpcRead_sends e _ (by decide +kernel)
  · split
    · exact rpcRead_sends e _ (by decide +kernel)
    · exact .silent

theorem advanceMotionChain_sends (value : Option (Json D)) :
    AtMostRpc (OwnRpc (F := F) (wampGenId e.rnd 18)) (advanceMotionChain e c value).2 := by
  unfold advanceMotionChain
  cases c.step with
  | mstepReadExtents =>
      dsimp only
      split
      · exact rpcRead_sends e _ (by decide +kernel)
      · exact chainFinished_sends e _
  | mstepReadPerspective => exact rpcRead_sends e _ (by decide +kernel)
  | mstepReadAffine =>
      dsimp only
      split
      · split
        · exact rpcRead_sends e _ (by decide +kernel)
        · exact .asks _ .motion
      · exact chainFinished_sends e _
  | mstepReadViewextents =>
      dsimp only
      split
      · exact .asks _ .motion
      · exact chainFinished_sends e _
  | mstepWriteMotion =>
      dsimp only
      split
      · exact .asks _ (.extents _)
      · exact .asks _ (.affine _)
  | mstepWriteViewextents => exact .asks _ (.affine _)
  | mstepWriteAffine | bstepReadExtents | bstepReadFront | bstepWriteAffine
  | bstepWriteExtents => exact chainFinished_sends e _

theorem advanceButtonChain_sends (value : Option (Json D)) (notFront : c.step ≠ .bstepReadFront) :
    AtMostRpc (OwnRpc (F := F) (wampGenId e.rnd 18)) (advanceButtonChain e c value).2 := by
  unfold advanceButtonChain
  cases step : c.step with
  | bstepReadExtents =>
      dsimp only
      split
      · exact rpcRead_sends e _ (by decide +kernel)
      · exact chainFinished_sends e _
  | bstepReadFront => exact absurd step notFront
  | bstepWriteAffine => exact .asks _ (.extents _)
  | bstepWriteExtents | mstepReadExtents | mstepReadPerspective | mstepReadAffine
  | mstepReadViewextents | mstepWriteMotion | mstepWriteViewextents | mstepWriteAffine =>
      exact chainFinished_sends e _

/-! ## Replies -/

/-- The front view is forwarded as it came. -/
theorem receive_forwards {e : Env} {c : Controller F} {reply : Reply D} {value : Option (Json D)}
    (forwards : Forwards c reply value) :
    (receive e c reply).2 = [.rpcCall (forwardRpc (wampGenId e.rnd 18) value)] := by
  obtain ⟨notMotion, front, rfl⟩ := forwards
  simp only [receive, if_neg notMotion, advanceButtonChain, front]
  rfl

/-- **Every other reply** makes the controller send an RPC of its own, or nothing. -/
theorem receive_sends {e : Env} {c : Controller F} {reply : Reply D}
    (other : ∀ value, ¬ Forwards c reply value) :
    AtMostRpc (OwnRpc (F := F) (wampGenId e.rnd 18)) (receive e c reply).2 := by
  cases reply with
  | error => exact chainFinished_sends e c
  | result value =>
      by_cases motion : c.chain = .motion
      · simp only [receive, if_pos motion]
        exact advanceMotionChain_sends e c value
      · simp only [receive, if_neg motion]
        exact advanceButtonChain_sends e c value fun front => other value ⟨motion, front, rfl⟩

/-- The reply that a CALLRESULT or CALLERROR is. -/
def replyIn (type : Int) (items : List (Json D)) : Reply D :=
  if type = wampCallerror then .error else .result items[2]?

theorem onReply_eq (type : Int) (items : List (Json D)) :
    onReply e c type items =
      if c.chain ≠ .none ∧ jsonStr items 1 = some c.pendingCallId.str then
        receive e c (replyIn type items)
      else (c, []) := by
  unfold onReply replyIn
  split_ifs with matched error motion
  · rfl
  · exact (if_pos motion).symm
  · exact (if_neg motion).symm
  · rfl

/-- One RPC at most, whatever the reply. -/
theorem onReply_silent_or_asks (type : Int) (items : List (Json D)) :
    (onReply e c type items).2 = [] ∨ ∃ r, (onReply e c type items).2 = [.rpcCall r] := by
  rw [onReply_eq]
  split
  · by_cases forwards : ∃ value, Forwards c (replyIn type items) value
    · obtain ⟨value, forwards⟩ := forwards
      exact Or.inr ⟨_, receive_forwards forwards⟩
    · refine (receive_sends (e := e) fun value is => forwards ⟨value, is⟩).cases.imp_right ?_
      rintro ⟨r, sent, -⟩
      exact ⟨r, sent⟩
  · exact Or.inl rfl

end SpnavBridge.Kernel
