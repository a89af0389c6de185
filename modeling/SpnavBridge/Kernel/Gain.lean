/-
# Kernel.Gain -- what a controller's sensitivity can be

`controller_set_sensitivity` is the only function that writes it, and it takes exactly the
values `InRange`.  The bounds are decimal constants of the source, so what they are is up to
the arithmetic.  The table of prefixes has one writer too, the PREFIX message, and every
other function leaves both (`SameSettings`).
-/
import SpnavBridge.Kernel.Controller

namespace SpnavBridge.Kernel

open SpnavBridge.Theory SpnavBridge.Wire

set_option autoImplicit false
set_option linter.unusedSectionVars false

variable {D F : Type} [CFloat F]

/-! ## The range -/

/-- A `float` from 0.01f to 10.0f, as C tests it. -/
structure InRange (value : F) : Prop where
  finite : CFloat.isfinite value = true
  least : CFloat.lt value (CFloat.lit (1 / 100)) = false
  most : CFloat.lt (CFloat.lit 10) value = false

theorem inRange_iff (value : F) :
    InRange value ↔ (!CFloat.isfinite value || CFloat.lt value (CFloat.lit (1 / 100))
      || CFloat.lt (CFloat.lit 10) value) = false := by
  rw [Bool.or_eq_false_iff, Bool.or_eq_false_iff, Bool.not_eq_false']
  exact ⟨fun range => ⟨⟨range.finite, range.least⟩, range.most⟩,
    fun ⟨⟨finite, least⟩, most⟩ => ⟨finite, least, most⟩⟩

instance (value : F) : Decidable (InRange value) := decidable_of_iff _ (inRange_iff value).symm

theorem controllerSetSensitivity_accepts {value : F} (range : InRange value) (c : Controller F) :
    controllerSetSensitivity c value = ({ c with sensitivity := value }, 0) := by
  unfold controllerSetSensitivity
  rw [(inRange_iff value).mp range]
  rfl

/-! ## Everything else leaves it alone -/

variable [CDouble D F]

/-- What one function writes, and no other: the sensitivity, and the table of prefixes. -/
structure SameSettings (c c' : Controller F) : Prop where
  sensitivity : c'.sensitivity = c.sensitivity
  prefixes : c'.prefixes = c.prefixes

theorem SameSettings.trans {a b c : Controller F} (ab : SameSettings a b) (bc : SameSettings b c) :
    SameSettings a c :=
  ⟨bc.sensitivity.trans ab.sensitivity, bc.prefixes.trans ab.prefixes⟩

theorem chainFinished_settings (e : Env) (c : Controller F) :
    SameSettings c (chainFinished (D := D) e c).1 := by
  unfold chainFinished
  dsimp only
  split
  · exact ⟨rfl, rfl⟩
  · split <;> exact ⟨rfl, rfl⟩

theorem advanceMotionChain_settings (e : Env) (c : Controller F) (result : Option (Json D)) :
    SameSettings c (advanceMotionChain e c result).1 := by
  have ends (c' : Controller F) (same : SameSettings c c') :
      SameSettings c (chainFinished (D := D) e c').1 := same.trans (chainFinished_settings e c')
  unfold advanceMotionChain
  cases c.step with
  | mstepReadExtents =>
      dsimp only
      split
      · exact ⟨rfl, rfl⟩
      · exact ends _ ⟨rfl, rfl⟩
  | mstepReadAffine =>
      dsimp only
      split
      · split <;> exact ⟨rfl, rfl⟩
      · exact ends _ ⟨rfl, rfl⟩
  | mstepReadViewextents =>
      dsimp only
      split
      · exact ⟨rfl, rfl⟩
      · exact ends _ ⟨rfl, rfl⟩
  | mstepWriteMotion =>
      dsimp only
      split <;> exact ⟨rfl, rfl⟩
  | mstepReadPerspective => exact ⟨rfl, rfl⟩
  | mstepWriteViewextents => exact ⟨rfl, rfl⟩
  | _ => exact ends _ ⟨rfl, rfl⟩

theorem advanceButtonChain_settings (e : Env) (c : Controller F) (result : Option (Json D)) :
    SameSettings c (advanceButtonChain e c result).1 := by
  have ends (c' : Controller F) (same : SameSettings c c') :
      SameSettings c (chainFinished (D := D) e c').1 := same.trans (chainFinished_settings e c')
  unfold advanceButtonChain
  cases c.step with
  | bstepReadExtents =>
      dsimp only
      split
      · exact ⟨rfl, rfl⟩
      · exact ends _ ⟨rfl, rfl⟩
  | bstepReadFront => exact ⟨rfl, rfl⟩
  | bstepWriteAffine => exact ⟨rfl, rfl⟩
  | _ => exact ends _ ⟨rfl, rfl⟩

theorem onReply_settings (e : Env) (c : Controller F) (type : Int) (items : List (Json D)) :
    SameSettings c (onReply e c type items).1 := by
  unfold onReply
  split
  · split
    · exact chainFinished_settings e c
    · split
      · exact advanceMotionChain_settings e c _
      · exact advanceButtonChain_settings e c _
  · exact ⟨rfl, rfl⟩

theorem onCall_settings (c : Controller F) (items : List (Json D)) :
    SameSettings c (onCall c items).1 := by
  unfold onCall
  split
  · split
    · unfold onCreateMouse
      split <;> exact ⟨rfl, rfl⟩
    · unfold onCreateController
      split <;> exact ⟨rfl, rfl⟩
    · unfold onReadyCall
      split <;> exact ⟨rfl, rfl⟩
  · exact ⟨rfl, rfl⟩

theorem onSubscribe_settings (c : Controller F) (items : List (Json D)) :
    SameSettings c (onSubscribe c items) := by
  unfold onSubscribe
  split
  · split <;> exact ⟨rfl, rfl⟩
  · exact ⟨rfl, rfl⟩

/-- A message registers a prefix, or leaves both. -/
theorem dispatch_settings (e : Env) (c : Controller F) {type : Int} (items : List (Json D))
    (other : type ≠ wampPrefix) : SameSettings c (dispatch e c type items).1 := by
  unfold dispatch
  rw [if_neg other]
  split
  · exact onCall_settings c items
  · split
    · exact onSubscribe_settings c items
    · split
      · exact onReply_settings e c _ _
      · exact ⟨rfl, rfl⟩

theorem controllerOnMessage_sensitivity (lib : CJson D) (e : Env) (c : Controller F)
    (json : List UInt8) : (controllerOnMessage lib e c json).1.sensitivity = c.sensitivity := by
  unfold controllerOnMessage
  split
  · rename_i type items _
    by_cases register : type = wampPrefix
    · rw [dispatch, if_pos register, onPrefix]
      split
      · split <;> rfl
      · rfl
    · exact (dispatch_settings e c items register).sensitivity
  · rfl

theorem controllerOnSpnavEvent_settings (e : Env) (c : Controller F) (ev : SbEvent) :
    SameSettings c (controllerOnSpnavEvent (D := D) e c ev).1 := by
  unfold controllerOnSpnavEvent
  split
  · exact ⟨rfl, rfl⟩
  · dsimp only
    -- the chain may be abandoned first
    split
    · split
      · split <;> exact ⟨rfl, rfl⟩
      · split <;> exact ⟨rfl, rfl⟩
    · split
      · split <;> exact ⟨rfl, rfl⟩
      · split <;> exact ⟨rfl, rfl⟩

end SpnavBridge.Kernel
