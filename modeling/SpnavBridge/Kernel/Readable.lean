/-
# Kernel.Readable -- what a controller says can be read

A controller sends JSON, whatever it was told before (`everSent_read`).  Its messages nest three
deep at most, but for the front view, which is sent on as deep as it came: where it nests 999
deep, the message around it is too deep for cJSON itself.

The numbers of a camera go through a decimal text and are the same floats behind it
(`floats_read`), while one that is not finite is no number any more and makes a reader refuse
the array.
-/
import SpnavBridge.Kernel.Script
import SpnavBridge.Kernel.Text
import SpnavBridge.Wire.RoundTrip

namespace SpnavBridge.Kernel

open SpnavBridge.Theory SpnavBridge.Wire

set_option autoImplicit false
set_option linter.unusedSectionVars false

variable {D F : Type} [CFloat F] [CDouble D F]

/-! ## How deep a message nests -/

theorem depth_floatsToJson {n : Nat} (values : Fin n → F) :
    (floatsToJson (D := D) values).depth = 1 := by
  have flat : ∀ items : List (Json D), (∀ item ∈ items, item.depth = 0) → itemsDepth items = 0 := by
    intro items
    induction items with
    | nil => intro _; rfl
    | cons item items ih =>
        intro all
        rw [itemsDepth, all item List.mem_cons_self, ih fun i mem => all i (List.mem_cons_of_mem _ mem)]
        rfl
  rw [floatsToJson, Json.depth, flat]
  intro item mem
  obtain ⟨i, rfl⟩ := List.mem_ofFn.mp mem
  rfl

theorem depth_rpcCall (r : Rpc D) : (Message.tree (F := F) (.rpcCall r)).depth =
    2 + (r.value.map Json.depth).getD 0 := by
  simp only [Message.tree, wampBuildRpcCall, createNumber]
  cases r.value with
  | none => rfl
  | some v => simp [Json.depth, itemsDepth]; omega

theorem depth_callresult (callId : CStr) (result : Option (Json D)) :
    (Message.tree (F := F) (.callresult callId result)).depth =
      1 + (result.map Json.depth).getD 0 := by
  simp only [Message.tree, wampBuildCallresult, createNumber]
  cases result with
  | none => rfl
  | some v => simp [Json.depth, itemsDepth]; omega

/-- A front view that is sent on, so deep that it just fitted the message it came in. -/
inductive DeepForward : Message D → Prop
  | mk (callId : CStr) (value : Json D) (deep : value.depth + 1 = nestingLimit) :
      DeepForward (.rpcCall (forwardRpc callId (some value)))

variable (F) in
/-- cJSON reads a message of this depth, or it is such a front view. -/
def Fits (m : Message D) : Prop := (m.tree (F := F)).depth ≤ nestingLimit ∨ DeepForward m

theorem OwnRpc.fits {callId : CStr} {r : Rpc D} (own : OwnRpc (F := F) callId r) :
    Fits F (.rpcCall r) := by
  refine Or.inl ?_
  rw [depth_rpcCall]
  cases own with
  | read prop known => exact Nat.le_of_ble_eq_true rfl
  | motion => exact Nat.le_of_ble_eq_true rfl
  | extents values | affine values =>
      simp only [Option.map_some, Option.getD_some, depth_floatsToJson]
      exact Nat.le_of_ble_eq_true rfl

theorem AtMostRpc.fits {callId : CStr} {sent : List (Message D)}
    (own : AtMostRpc (OwnRpc (F := F) callId) sent) : ∀ m ∈ sent, Fits F m := by
  rcases own.cases with rfl | ⟨r, rfl, kind⟩
  · exact fun m mem => nomatch mem
  · intro m mem
    rw [List.mem_singleton.mp mem]
    exact kind.fits

/-- A front view fits the message it came in. -/
theorem forwardRpc_fits (callId : CStr) {value : Option (Json D)}
    (shallow : ∀ v, value = some v → v.depth + 1 ≤ nestingLimit) :
    Fits F (.rpcCall (forwardRpc callId value)) := by
  cases value with
  | none => exact Or.inl (Nat.le_of_ble_eq_true rfl)
  | some v =>
      have bounded := shallow v rfl
      by_cases deep : v.depth + 1 = nestingLimit
      · exact Or.inr (.mk callId v deep)
      · refine Or.inl ?_
        rw [depth_rpcCall]
        show 2 + v.depth ≤ nestingLimit
        omega

/-! ## One call -/

section Call

variable {lib : CJson D}
  (shallow : ∀ text v, lib.parseWithLength text = some v → v.depth ≤ nestingLimit)

theorem onReply_fits (e : Env) (c : Controller F) {type : Int} {items : List (Json D)}
    (bounded : itemsDepth items + 1 ≤ nestingLimit) :
    ∀ m ∈ (onReply e c type items).2, Fits F m := by
  rw [onReply_eq]
  split
  · by_cases forwards : ∃ value, Forwards c (replyIn type items) value
    · obtain ⟨value, forwards⟩ := forwards
      rw [receive_forwards forwards]
      intro m mem
      rw [List.mem_singleton.mp mem]
      refine forwardRpc_fits _ fun v is => ?_
      have reply := forwards.2.2
      unfold replyIn at reply
      split at reply
      · cases reply
      · injection reply with same
        have inside := depth_le_itemsDepth (List.mem_of_getElem? (same.trans is))
        omega
    · push Not at forwards
      exact (receive_sends forwards).fits
  · exact fun m mem => nomatch mem

/-- The answer to a CALL is one of the bridge's own. -/
theorem onCall_fits (c : Controller F) (items : List (Json D)) :
    ∀ m ∈ (onCall c items).2.1, Fits F m := by
  have answer : ∀ callId (value : Option (Json D)), (value.map Json.depth).getD 0 ≤ 1 →
      Fits F (.callresult callId value) := by
    intro callId value bounded
    refine Or.inl ?_
    rw [depth_callresult]
    exact (Nat.add_le_add_left bounded 1).trans (Nat.le_of_ble_eq_true rfl)
  have created : ∀ callId s t : CStr, ∀ m ∈ [Message.callresult (D := D) callId
      (some (.object [(s, .string t)]))], Fits F m := by
    intro callId s t m mem
    rw [List.mem_singleton.mp mem]
    exact answer callId _ le_rfl
  unfold onCall
  split
  · rename_i callId procUri id proc
    cases c.hs with
    | waitMouse =>
        dsimp only [onCreateMouse]
        split_ifs
        · exact created callId _ _
        · exact fun m mem => nomatch mem
    | waitController =>
        dsimp only [onCreateController]
        split_ifs
        · exact created callId _ _
        · exact fun m mem => nomatch mem
    | ready =>
        dsimp only [onReadyCall]
        split_ifs
        · intro m mem
          rw [List.mem_singleton.mp mem]
          exact answer callId none (Nat.zero_le _)
        · intro m mem
          rw [List.mem_singleton.mp mem]
          exact Or.inl (Nat.le_of_ble_eq_true rfl)
  · exact fun m mem => nomatch mem

theorem controllerOnSpnavEvent_fits (e : Env) (c : Controller F) (ev : SbEvent) :
    ∀ m ∈ (controllerOnSpnavEvent (D := D) e c ev).2, Fits F m := by
  by_cases gate : c.GateOpen
  · rw [controllerOnSpnavEvent_open gate]
    split_ifs
    · exact fun m mem => nomatch mem
    · exact fun m mem => nomatch mem
    · exact (rpcRead_sends e _ (by decide +kernel)).fits
    · exact (rpcRead_sends e _ (by decide +kernel)).fits
  · rw [controllerOnSpnavEvent_shut gate]
    exact fun m mem => nomatch mem

include shallow

theorem controllerStep_fits (c : Controller F) (call : Call F) :
    ∀ m ∈ (controllerStep lib c call).2.sent, Fits F m := by
  cases op : call.op with
  | message json =>
      simp only [controllerStep, op]
      cases message : messageOf (lib.parseWithLength json) with
      | none => simp [controllerOnMessage, message]
      | some typed =>
          obtain ⟨type, items⟩ := typed
          obtain ⟨t, carried, rfl⟩ := messageOf_eq_some_iff.mp message
          have bounded := shallow _ _ carried.1
          rw [Json.depth] at bounded
          rw [controllerOnMessage_of_message carried]
          intro m mem
          rw [dispatch] at mem
          split_ifs at mem
          · cases mem
          · exact onCall_fits c items m mem
          · cases mem
          · exact onReply_fits call.env c bounded m mem
          · cases mem
  | spnav ev =>
      simp only [controllerStep, op]
      exact controllerOnSpnavEvent_fits call.env c ev
  | setSensitivity sensitivity => simp [controllerStep, op]

/-! ## A run -/

theorem everSent_fits (e : Env) (calls : List (Call F)) :
    ∀ m ∈ everSent lib e calls, Fits F m := by
  induction calls using List.reverseRecOn with
  | nil =>
      intro m mem
      rw [List.mem_singleton.mp mem]
      exact Or.inl (Nat.le_of_ble_eq_true rfl)
  | append_singleton past call ih =>
      rw [everSent_snoc, List.forall_mem_append]
      exact ⟨ih, controllerStep_fits shallow _ call⟩

end Call

/-! ## IEEE -/

/-- cJSON, with the `double` of an arithmetic. -/
def bridgeJson (a : Arithmetic) : CJson (Double a) := ieeeJson

def rereadDouble (a : Arithmetic) : Double a → Json (Double a) := reread

theorem bridgeJson_reads (a : Arithmetic) (v : Json (Double a)) :
    (bridgeJson a).parseWithLength ((bridgeJson a).printUnformatted v) =
      if v.depth ≤ nestingLimit then some (v.rereads (rereadDouble a)) else none :=
  parseWithLength_printed v

theorem parseWithLength_shallow (a : Arithmetic) (text : List UInt8) (v : Json (Double a))
    (read : (bridgeJson a).parseWithLength text = some v) : v.depth ≤ nestingLimit := by
  obtain ⟨⟨item, rest⟩, parsed, rfl⟩ := Option.map_eq_some_iff.mp read
  unfold parseWithLengthOpts at parsed
  split_ifs at parsed
  exact parseValue_depth parsed

theorem DeepForward.depth {m : Message D} (deep : DeepForward m) :
    nestingLimit < (m.tree (F := F)).depth := by
  obtain ⟨callId, value, deep⟩ := deep
  rw [depth_rpcCall]
  show nestingLimit < 2 + value.depth
  omega

/-- **Whatever a controller was told, what it says is JSON** of the grammar, and cJSON reads it
back, but for a front view that is as deep as cJSON reads and sent on in a deeper message. -/
theorem everSent_read (a : Arithmetic) (e : Env) (calls : List (Call (Single a))) :
    ∀ m ∈ everSent (bridgeJson a) e calls,
      let tree : Json (Double a) := m.tree
      let text := (bridgeJson a).printUnformatted tree
      JsonValue text [] ∧
        (¬ DeepForward m → (bridgeJson a).parseWithLength text = some (tree.rereads (rereadDouble a))) ∧
        (DeepForward m → (bridgeJson a).parseWithLength text = none) := by
  intro m mem tree text
  have grammar := printValue_grammar rereads_printNumber.grammar tree []
  rw [List.append_nil] at grammar
  have read := bridgeJson_reads a tree
  refine ⟨grammar, fun shallow => ?_, fun deep => ?_⟩
  · have fits : tree.depth ≤ nestingLimit :=
      (everSent_fits (parseWithLength_shallow a) e calls m mem).resolve_right shallow
    rw [if_pos fits] at read
    exact read
  · have beyond : nestingLimit < tree.depth := deep.depth (F := Single a)
    rw [if_neg (Nat.not_le_of_lt beyond)] at read
    exact read

/-- Of the operations only the cast to `int` takes part. -/
def casting : Arithmetic :=
  ⟨fun x _ => x, fun x _ => x, fun x _ => x, fun x _ => x, id, fun _ => .nan, .nan, id, id, id,
    truncated⟩

/-- A button press of a client that answers with its extents and its front view. -/
def frontAnswered : List (Call (Single casting)) :=
  handshakeTexts.map (fun text => ⟨.message text.1, .at 0⟩) ++
    [⟨.spnav ⟨.button, 0, 0, 0, 0, 0, 0⟩, .at 0⟩,
      ⟨.message (ascii "[3, \"AAAAAAAAAAAAAAAAAA\", [-1, -1, -1, 1, 1, 1]]"), .at 0⟩,
      ⟨.message (ascii "[3, \"AAAAAAAAAAAAAAAAAA\", [1,0,0,0,0,0,-1,0,0,1,0,0,0.5,-2,1e1,1]]"), .at 0⟩]

/-- Two reads and the front view are among what is sent, and can be read. -/
theorem front_answered_read :
    (rpcs (everSent (bridgeJson casting) (.at 0) frontAnswered)).map (·.prop) =
        [.lit "model.extents", .lit "views.front", .lit "view.affine"] ∧
      ∀ m ∈ everSent (bridgeJson casting) (.at 0) frontAnswered,
        let tree : Json (Double casting) := m.tree
        let text := (bridgeJson casting).printUnformatted tree
        JsonValue text [] ∧
          (bridgeJson casting).parseWithLength text = some (tree.rereads (rereadDouble casting)) := by
  refine ⟨by decide +kernel, fun m mem => ?_⟩
  obtain ⟨grammar, read, -⟩ := everSent_read casting (.at 0) frontAnswered m mem
  refine ⟨grammar, read fun deep => ?_⟩
  have shallow : ∀ m ∈ everSent (bridgeJson casting) (.at 0) frontAnswered,
      (Message.tree (F := Single casting) m).depth ≤ nestingLimit := by decide +kernel
  exact absurd (shallow m mem) (not_le.mpr deep.depth)

/-! ### Numbers -/

variable {a : Arithmetic}

/-- A float that is written is read as itself, without the sign of a zero. -/
theorem reread_widen {x : Value binary32} (finite : x.isFinite = true) :
    ∃ d : Value binary64, reread (x.convert binary64) = .number d ∧
      d.convert binary32 = plainZero x := by
  obtain ⟨d, read, back⟩ := narrow_printNumber finite not_goesOn_nil
  rw [List.append_nil] at read
  refine ⟨d, reread_finite ?_ read, back⟩
  cases x with
  | nan => cases finite
  | inf negative => cases finite
  | finite negative m held =>
      obtain ⟨held', wide⟩ := widen_finite negative held
      rw [wide]
      rfl

theorem reread_widen_none {x : Value binary32} (infinite : x.isFinite = false) :
    reread (x.convert binary64) = .null := by
  cases x with
  | nan => rfl
  | inf negative => rfl
  | finite negative m held => cases infinite

theorem itemsReread_eq {D : Type} (reread : D → Json D) (items : List (Json D)) :
    itemsReread reread items = items.map (·.rereads reread) := by
  induction items with
  | nil => rfl
  | cons item items ih => rw [itemsReread, ih, List.map_cons]

/-- What is read of an array of floats. -/
theorem rereads_floatsToJson {n : Nat} (values : Fin n → Single a) :
    (floatsToJson (D := Double a) values).rereads (rereadDouble a) =
      .array (List.ofFn fun i => rereadDouble a (CDouble.widen (values i))) := by
  rw [floatsToJson, Json.rereads, itemsReread_eq, List.map_ofFn]
  refine congrArg (Json.array ∘ List.ofFn) (funext fun i => ?_)
  rw [Function.comp_apply, Json.rereads]

/-- **A camera goes through its text unharmed.**  Every number is the same float behind it, but
for the sign of a zero; and if one is not finite, the array is not taken for a camera at all. -/
theorem floats_read {n : Nat} (values out : Fin n → Single a) :
    let text := (bridgeJson a).printUnformatted (floatsToJson values)
    ∃ tree, (bridgeJson a).parseWithLength text = some tree ∧
      (jsonToFloats (some tree) out).2 = decide (∀ i, CFloat.isfinite (values i) = true) ∧
      ((∀ i, CFloat.isfinite (values i) = true) →
        (jsonToFloats (some tree) out).1 = fun i => plainZero (values i : Value binary32)) := by
  intro text
  have read := bridgeJson_reads a (floatsToJson values)
  have shallow : (floatsToJson (D := Double a) values).depth ≤ nestingLimit := by
    rw [depth_floatsToJson]
    exact Nat.le_of_ble_eq_true rfl
  rw [if_pos shallow, rereads_floatsToJson] at read
  have each : ∀ i, (rereadDouble a (CDouble.widen (values i))).isNumber =
      CFloat.isfinite (values i) := by
    intro i
    cases finite : CFloat.isfinite (values i) with
    | true =>
        obtain ⟨d, number, -⟩ := reread_widen (x := values i) finite
        exact congrArg Json.isNumber number
    | false => exact congrArg Json.isNumber (reread_widen_none (x := values i) finite)
  have whole := List.length_ofFn (f := fun i => rereadDouble a (CDouble.widen (values i)))
  have all : ((List.ofFn fun i => rereadDouble a (CDouble.widen (values i))).take n).all
      Json.isNumber = decide (∀ i, CFloat.isfinite (values i) = true) := by
    rw [List.take_of_length_le whole.le, Bool.eq_iff_iff, List.all_eq_true, decide_eq_true_eq,
      List.forall_mem_ofFn_iff]
    exact forall_congr' fun i => by rw [each]
  refine ⟨_, read, ?_, fun finite => ?_⟩
  · rw [jsonToFloats_ok, holdsNumbers, whole, all, decide_eq_true le_rfl, Bool.true_and]
  · refine jsonToFloats_of_numbers ?_ out
    rw [numbers, if_pos ⟨whole.ge, all.trans (decide_eq_true finite)⟩]
    refine congrArg some (funext fun i => ?_)
    obtain ⟨d, number, back⟩ := reread_widen (x := values i) (finite i)
    have here : rereadDouble a (CDouble.widen (values i)) = .number d := number
    rw [List.getElem?_ofFn, dif_pos i.isLt, here]
    exact back

end SpnavBridge.Kernel
