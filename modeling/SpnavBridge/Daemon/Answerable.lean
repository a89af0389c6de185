/-
# Daemon.Answerable -- the messages the bridge can answer

A message within the limit of 1 MiB is handled with one message to the client at most, and
`client_send` has room for 65532 bytes of it.  Two answers echo the client: the answer to
a CALL carries its identifier, and a front view is forwarded as it came.  `LeavesRoom`
says that the echo leaves room for the rest, and `answerable_iff` that nothing else can
keep the bridge from answering.
-/
import SpnavBridge.Daemon.Delivery
import SpnavBridge.Kernel.Verdict
import SpnavBridge.Wire.Sizes
import Mathlib.Tactic.IntervalCases

namespace SpnavBridge.Daemon

open SpnavBridge.Theory SpnavBridge.Wire SpnavBridge.Kernel

set_option autoImplicit false
set_option linter.unusedSectionVars false

variable {D F : Type} [CFloat F] [CDouble D F]

/-! ## Answerability -/

/-- The messages have frames, and a queue that is empty takes them all. -/
structure Answerable (o : Outside D) (sent : List (Message D)) : Prop where
  framed : ∀ m ∈ sent, Framed o m
  queued : ∀ out : Output, out.outbuf = [] → out.failed = false →
    ((sent.map (clientSend o) : List (Act F)).foldl Output.emit out).failed = false ∧
      ((sent.map (clientSend o) : List (Act F)).foldl Output.emit out).outbuf =
        (queuedData (sent.map (clientSend o) : List (Act F))).flatten

/-- A message that is framed takes less than half of the queue. -/
theorem clientSend_fits {o : Outside D} {m : Message D} (framed : Framed o m) :
    ∃ frame, (clientSend o m : Act F) = .queue frame ∧ frame.length ≤ bufSize := by
  unfold Framed bufSize at framed
  have header := wsLength_length (o.lib.printUnformatted m.tree).length
  have short : wsHeaderLength (o.lib.printUnformatted m.tree).length ≤ 4 := by
    unfold wsHeaderLength
    split_ifs <;> omega
  unfold clientSend wsEncodeFrame
  rw [if_neg (by unfold intMax bufSize; omega)]
  refine ⟨_, rfl, ?_⟩
  simp only [List.length_cons, List.length_append, bufSize]
  omega

/-- One message at most is answerable if it is framed. -/
theorem answerable_iff_framed {o : Outside D} {sent : List (Message D)}
    (one : sent = [] ∨ ∃ m, sent = [m]) :
    Answerable (F := F) o sent ↔ ∀ m ∈ sent, Framed o m := by
  constructor
  · exact Answerable.framed
  · intro framed
    refine ⟨framed, fun out empty alive => ?_⟩
    rcases one with rfl | ⟨m, rfl⟩
    · exact ⟨alive, empty⟩
    · obtain ⟨frame, sends, short⟩ :=
        clientSend_fits (F := F) (framed m (List.mem_singleton.mpr rfl))
      have room : frame.length ≤ bufSize * 2 - out.outbuf.length := by
        rw [empty, List.length_nil]
        omega
      have taken : (out.queueOutput frame).failed = false ∧
          (out.queueOutput frame).outbuf = out.outbuf ++ frame := by
        simp [Output.queueOutput, alive, room]
      rw [List.map_singleton, sends]
      refine ⟨taken.1, taken.2.trans ?_⟩
      rw [empty]
      exact (List.append_nil frame).symm

/-! ## Answers to a CALL -/

/-- The description in the answer to a procedure that is not registered. -/
def notRegistered (procUri : CStr) : CBuf 255 :=
  .printf 255 ((CStr.lit "RPC '").append (procUri.append (.lit "' not registered")))

/-- The text of the answer to a CALL, apart from its identifier. -/
def answerRoom (c : Controller F) (procUri : CStr) : Nat :=
  match c.hs with
  | .waitMouse => 27
  | .waitController => 31
  | .ready =>
      if (resolveUri c procUri).str = updateUri then 9
      else 33 + (printString (notRegistered procUri).str).length

theorem onCall_size {lib : CJson D} (prints : PrintsNumbers lib) {c : Controller F}
    {items : List (Json D)} {callId procUri : CStr} (id : jsonStr items 1 = some callId)
    (proc : jsonStr items 2 = some procUri) (taken : (onCall c items).2.2 = 0) :
    ∃ m, (onCall c items).2.1 = [m] ∧
      (lib.printUnformatted m.tree).length =
        (printString callId).length + answerRoom c procUri := by
  unfold onCall at taken ⊢
  unfold answerRoom
  simp only [id, proc] at taken ⊢
  cases hs : c.hs with
  | waitMouse =>
      simp only [hs, onCreateMouse] at taken ⊢
      split_ifs at taken ⊢ with expected
      · refine ⟨_, rfl, ?_⟩
        have size : (lib.printUnformatted (.object
            [(.lit "connexion", .string (.lit "mouse0"))])).length = 22 := by
          rfl
        rw [printed_callresult prints, Option.getD_some, size]
        omega
      · exact absurd (show (-1 : Int) = 0 from taken) (by decide)
  | waitController =>
      simp only [hs, onCreateController] at taken ⊢
      split_ifs at taken ⊢ with expected
      · refine ⟨_, rfl, ?_⟩
        have size : (lib.printUnformatted (.object
            [(.lit "instance", .string (.lit "controller0"))])).length = 26 := by
          rfl
        rw [printed_callresult prints, Option.getD_some, size]
        omega
      · exact absurd (show (-1 : Int) = 0 from taken) (by decide)
  | ready =>
      simp only [hs, onReadyCall] at taken ⊢
      split_ifs at taken ⊢ with update
      · refine ⟨_, rfl, ?_⟩
        have size : (lib.printUnformatted (.null : Json D)).length = 4 := by rfl
        rw [printed_callresult prints, Option.getD_none, size]
        omega
      · refine ⟨_, rfl, ?_⟩
        have size : (printString (.lit "wamp.error.not_found")).length = 22 := by decide +kernel
        rw [printed_callerror prints, size]
        show _ = _ + (33 + (printString (notRegistered procUri).str).length)
        simp only [notRegistered]
        omega

/-! ## RPCs -/

theorem printed_floats_le {lib : CJson D} (prints : PrintsNumbers lib) {n : Nat}
    (values : Fin n → F) : (lib.printUnformatted (floatsToJson values)).length ≤ 26 * n + 2 := by
  have items := printArray_length_le prints (List.ofFn fun i => CDouble.widen (values i))
  rw [List.length_ofFn, List.map_ofFn] at items
  show (91 :: printArray lib.printNumber (List.ofFn _) ++ [93]).length ≤ _
  rw [List.length_append, List.length_cons, List.length_singleton]
  exact Nat.add_le_add_right (Nat.add_le_add_right items 1) 1

/-- An RPC of the controller's own always has a frame. -/
theorem framed_of_own {o : Outside D} (prints : PrintsNumbers o.lib) {rnd : Nat → UInt8}
    {r : Rpc D} (own : OwnRpc (F := F) (wampGenId rnd 18) r) : Framed o (.rpcCall r) := by
  have callId := printString_wampGenId rnd (show 18 ≤ 32 by decide)
  have uri : (printString controllerUri).length = 57 := by decide +kernel
  have read : (printString selfRead).length = 11 := by decide +kernel
  have update : (printString selfUpdate).length = 13 := by decide +kernel
  unfold Framed bufSize
  rw [printed_rpc prints]
  cases own with
  | read prop known =>
      have all : ∀ prop ∈ readProps, (printString prop).length ≤ 18 := by decide +kernel
      have size := all prop known
      simp only [rpcRoom, uri, callId, read]
      omega
  | motion =>
      have size : (printString (.lit "motion")).length = 8 := by decide +kernel
      have flag : (o.lib.printUnformatted (.bool true)).length = 4 := by rfl
      simp only [rpcRoom, uri, callId, update, size, flag]
      omega
  | extents values =>
      have size : (printString (.lit "view.extents")).length = 14 := by decide +kernel
      have numbers := printed_floats_le prints values
      simp only [rpcRoom, uri, callId, update, size]
      omega
  | affine values =>
      have size : (printString (.lit "view.affine")).length = 13 := by decide +kernel
      have numbers := printed_floats_le prints values
      simp only [rpcRoom, uri, callId, update, size]
      omega

/-- The text of an RPC that forwards a front view, apart from the view. -/
def forwardRoom : Nat := 118

theorem framed_forward_iff {o : Outside D} (prints : PrintsNumbers o.lib) (rnd : Nat → UInt8)
    (value : Option (Json D)) :
    Framed o (.rpcCall (forwardRpc (wampGenId rnd 18) value)) ↔
      ∀ view, value = some view →
        (o.lib.printUnformatted view).length + forwardRoom ≤ bufSize - 4 := by
  have callId := printString_wampGenId rnd (show 18 ≤ 32 by decide)
  have uri : (printString controllerUri).length = 57 := by decide +kernel
  have update : (printString selfUpdate).length = 13 := by decide +kernel
  have size : (printString (.lit "view.affine")).length = 13 := by decide +kernel
  unfold Framed
  rw [printed_rpc prints]
  simp only [forwardRpc, rpcRoom, uri, callId, update, size, forwardRoom, bufSize]
  cases value with
  | none => simp
  | some view =>
      simp only [Option.some.injEq, forall_eq']
      omega

/-! ## Room -/

/-- What the client makes the bridge echo leaves room for the rest of the frame. -/
structure LeavesRoom (o : Outside D) (c : Controller F) (json : List UInt8) : Prop where
  call : ∀ t items callId procUri, IsMessage o.lib json t items → CDouble.toInt t = wampCall →
    jsonStr items 1 = some callId → jsonStr items 2 = some procUri →
      (printString callId).length + answerRoom c procUri ≤ bufSize - 4
  front : ∀ t items view, IsMessage o.lib json t items → CDouble.toInt t = wampCallresult →
    c.chain = .button → c.step = .bstepReadFront →
    jsonStr items 1 = some c.pendingCallId.str → items[2]? = some view →
      (o.lib.printUnformatted view).length + forwardRoom ≤ bufSize - 4

theorem framed_onReply_iff {o : Outside D} (prints : PrintsNumbers o.lib) (e : Env)
    (c : Controller F) (type : Int) (items : List (Json D)) :
    (∀ m ∈ (onReply e c type items).2, Framed o m) ↔
      ∀ view, type ≠ wampCallerror → c.chain = .button → c.step = .bstepReadFront →
        jsonStr items 1 = some c.pendingCallId.str → items[2]? = some view →
          (o.lib.printUnformatted view).length + forwardRoom ≤ bufSize - 4 := by
  rw [onReply_eq]
  by_cases matched : c.chain ≠ .none ∧ jsonStr items 1 = some c.pendingCallId.str
  · rw [if_pos matched]
    by_cases forwards : ∃ value, Forwards c (replyIn type items) value
    · obtain ⟨value, forwards⟩ := forwards
      have result : type ≠ wampCallerror := by
        rintro rfl
        have reply := forwards.2.2
        rw [replyIn, if_pos rfl] at reply
        cases reply
      have same : items[2]? = value := by
        have reply := forwards.2.2
        rw [replyIn, if_neg result] at reply
        injection reply
      have button : c.chain = .button := by
        cases chain : c.chain with
        | none => exact absurd chain matched.1
        | motion => exact absurd chain forwards.1
        | button => rfl
      rw [receive_forwards forwards, List.forall_mem_singleton, framed_forward_iff prints, same]
      simp only [result, button, forwards.2.1, matched.2, ne_eq, not_false_eq_true, forall_const]
    · have own := (receive_sends (e := e) fun value is => forwards ⟨value, is⟩).cases
      apply iff_of_true
      · intro m inside
        rcases own with silent | ⟨r, sent, own⟩
        · rw [silent] at inside
          cases inside
        · rw [sent] at inside
          rw [List.mem_singleton.mp inside]
          exact framed_of_own prints own
      · intro view result button front _ value
        refine absurd ⟨items[2]?, ?_, front, if_neg result⟩ forwards
        rw [button]
        decide
  · rw [if_neg matched]
    apply iff_of_true
    · intro m inside
      cases inside
    · intro view _ button _ id _
      refine absurd ⟨?_, id⟩ matched
      rw [button]
      decide

/-- What is taken is a message. -/
theorem isMessage_of_taken {lib : CJson D} {e : Env} {c : Controller F} {json : List UInt8}
    (taken : (controllerOnMessage lib e c json).2.2 = 0) :
    ∃ t items, IsMessage lib json t items := by
  by_contra none_
  have refused := (controllerOnMessage_judged lib e c json).refused.mpr
    (.noMessage fun t items carried => none_ ⟨t, items, carried⟩)
  rw [taken] at refused
  exact absurd refused (by decide)

/-- Whatever is taken makes the controller send one message at most. -/
theorem sends_one {lib : CJson D} {e : Env} {c : Controller F} {json : List UInt8}
    (taken : (controllerOnMessage lib e c json).2.2 = 0) :
    (controllerOnMessage lib e c json).2.1 = [] ∨
      ∃ m, (controllerOnMessage lib e c json).2.1 = [m] := by
  have judged := controllerOnMessage_judged lib e c json
  obtain ⟨t, items, carried⟩ := isMessage_of_taken taken
  by_cases call : CDouble.toInt t = wampCall
  · obtain ⟨-, _, m, -, sent, -⟩ := judged.call t items carried call taken
    exact Or.inr ⟨m, sent⟩
  · by_cases reply : CDouble.toInt t = wampCallresult ∨ CDouble.toInt t = wampCallerror
    · exact (judged.reply t items carried reply).imp_right fun ⟨r, sent⟩ => ⟨_, sent⟩
    · rw [not_or] at reply
      exact Or.inl (judged.silent t items carried call reply.1 reply.2)

/-- Room, for a payload that is this message. -/
theorem leavesRoom_iff {o : Outside D} {c : Controller F} {json : List UInt8} {t : D}
    {items : List (Json D)} (carried : IsMessage o.lib json t items) :
    LeavesRoom o c json ↔
      (CDouble.toInt t = wampCall → ∀ callId procUri, jsonStr items 1 = some callId →
        jsonStr items 2 = some procUri →
          (printString callId).length + answerRoom c procUri ≤ bufSize - 4) ∧
      (CDouble.toInt t = wampCallresult → ∀ view, c.chain = .button → c.step = .bstepReadFront →
        jsonStr items 1 = some c.pendingCallId.str → items[2]? = some view →
          (o.lib.printUnformatted view).length + forwardRoom ≤ bufSize - 4) := by
  constructor
  · intro room
    exact ⟨fun call callId procUri => room.call t items callId procUri carried call,
      fun result view => room.front t items view carried result⟩
  · rintro ⟨call, front⟩
    refine ⟨fun t' items' callId procUri carried' => ?_, fun t' items' view carried' => ?_⟩
    · obtain ⟨rfl, rfl⟩ := carried.unique carried'
      exact fun isCall => call isCall callId procUri
    · obtain ⟨rfl, rfl⟩ := carried.unique carried'
      exact fun isResult => front isResult view

/-- A CALL that is taken has an identifier and a procedure. -/
theorem call_named {c : Controller F} {items : List (Json D)} (taken : (onCall c items).2.2 = 0) :
    ∃ callId procUri, jsonStr items 1 = some callId ∧ jsonStr items 2 = some procUri := by
  have given : ¬ (jsonStr items 1 = none ∨ jsonStr items 2 = none) := by
    intro missing
    have refused := (onCall_judged c items).refused.mpr (Or.inl missing)
    rw [taken] at refused
    exact absurd refused (by decide)
  rw [not_or, ← ne_eq, ← ne_eq, Option.ne_none_iff_exists', Option.ne_none_iff_exists'] at given
  obtain ⟨⟨callId, id⟩, procUri, proc⟩ := given
  exact ⟨callId, procUri, id, proc⟩

theorem framed_onCall_iff {o : Outside D} (prints : PrintsNumbers o.lib) {c : Controller F}
    {items : List (Json D)} (taken : (onCall c items).2.2 = 0) :
    (∀ m ∈ (onCall c items).2.1, Framed o m) ↔
      ∀ callId procUri, jsonStr items 1 = some callId → jsonStr items 2 = some procUri →
        (printString callId).length + answerRoom c procUri ≤ bufSize - 4 := by
  constructor
  · intro framed callId procUri id proc
    obtain ⟨m, sent, size⟩ := onCall_size prints id proc taken
    rw [← size]
    exact framed m (by rw [sent]; exact List.mem_singleton.mpr rfl)
  · intro room m inside
    obtain ⟨callId, procUri, id, proc⟩ := call_named taken
    obtain ⟨m', sent, size⟩ := onCall_size prints id proc taken
    rw [sent] at inside
    rw [List.mem_singleton.mp inside]
    unfold Framed
    rw [size]
    exact room callId procUri id proc

/-- **A message that is taken is answered exactly when its echo leaves room.** -/
theorem answerable_iff {o : Outside D} (prints : PrintsNumbers o.lib) {e : Env}
    {c : Controller F} {json : List UInt8}
    (taken : (controllerOnMessage o.lib e c json).2.2 = 0) :
    Answerable (F := F) o (controllerOnMessage o.lib e c json).2.1 ↔ LeavesRoom o c json := by
  rw [answerable_iff_framed (sends_one taken)]
  obtain ⟨t, items, carried⟩ := isMessage_of_taken taken
  rw [leavesRoom_iff carried]
  have done := controllerOnMessage_of_message (e := e) (c := c) carried
  by_cases call : CDouble.toInt t = wampCall
  · have notResult : CDouble.toInt t ≠ wampCallresult := by
      rw [call]
      decide
    rw [call, dispatch_call] at done
    rw [done] at taken ⊢
    rw [framed_onCall_iff prints taken, and_iff_left fun result => absurd result notResult]
    exact ⟨fun room _ => room, fun room => room call⟩
  rw [and_iff_right fun isCall => absurd isCall call]
  by_cases reply : CDouble.toInt t = wampCallresult ∨ CDouble.toInt t = wampCallerror
  · have replied : (controllerOnMessage o.lib e c json).2.1 =
        (onReply e c (CDouble.toInt t) items).2 := by
      rw [done]
      rcases reply with type | type <;>
        simp [dispatch, type, wampPrefix, wampCall, wampSubscribe, wampCallresult, wampCallerror]
    rw [replied, framed_onReply_iff prints]
    constructor
    · intro fits result view
      refine fits view ?_
      rw [result]
      decide
    · intro room view notError
      exact room (reply.resolve_right notError) view
  · rw [not_or] at reply
    have silent := (controllerOnMessage_judged o.lib e c json).silent t items carried call
      reply.1 reply.2
    rw [silent]
    apply iff_of_true
    · intro m inside
      cases inside
    · exact fun result => absurd result reply.1

/-! ## An identifier of 66000 bytes -/

section LongCall

variable (callId : CStr)

/-- The library that parses the CALL that creates the mouse, and writes integers from a
buffer. -/
def mouseOutside : Outside ℚ :=
  { Outside.ofTexts (mouseTexts callId) with
    lib :=
      { CJson.ofTexts (mouseTexts callId) with
        printNumber := fun q => (ascii (toString q.num)).take 25 } }

theorem mouseOutside_prints : PrintsNumbers (mouseOutside callId).lib where
  buffered := fun q => List.length_take_le 25 (ascii (toString q.num))
  digit := by
    intro type nonneg small
    interval_cases type <;> rfl

theorem mouseOutside_answer :
    controllerOnMessage (mouseOutside callId).lib (.at 0) newcomer (mouseCall callId) =
      ({ newcomer with hs := .waitController }, [mouseResult callId], 0) := by
  have parsed : (mouseOutside callId).lib.parseWithLength (mouseCall callId) =
      some (.array [.number 2, .string callId, .string (.lit "3dx_rpc:create"),
        .string (.lit "3dconnexion:3dmouse")]) := by
    simp [mouseOutside, CJson.ofTexts, mouseTexts]
  rw [controllerOnMessage, parsed]
  rfl

end LongCall

/-- A short identifier leaves room. -/
theorem answerable_iff_short :
    Answerable (F := ℚ) (mouseOutside (.lit "C1"))
      (controllerOnMessage (mouseOutside (.lit "C1")).lib (.at 0) newcomer
        (mouseCall (.lit "C1"))).2.1 := by
  have answer := mouseOutside_answer (.lit "C1")
  refine (answerable_iff (mouseOutside_prints _) (by rw [answer])).mpr ⟨?_, ?_⟩
  · intro t items callId procUri carried _ id _
    have parsed : (mouseOutside (.lit "C1")).lib.parseWithLength (mouseCall (.lit "C1")) =
        some (.array [.number 2, .string (.lit "C1"), .string (.lit "3dx_rpc:create"),
          .string (.lit "3dconnexion:3dmouse")]) := by
      simp [mouseOutside, CJson.ofTexts, mouseTexts]
    have items_ := parsed.symm.trans carried.1
    injection items_ with items_
    injection items_ with items_
    subst items_
    obtain rfl : CStr.lit "C1" = callId := Option.some.inj id
    show (printString (.lit "C1")).length + 27 ≤ bufSize - 4
    decide +kernel
  · intro t items view carried _ button
    cases button

/-- The answer to an identifier of 66000 bytes has no frame. -/
theorem longCall_not_answerable :
    ¬ ∀ (o : Outside ℚ) (e : Env) (c : Controller ℚ) (json : List UInt8),
      PrintsNumbers o.lib → json.length ≤ msgBufSize →
        (controllerOnMessage o.lib e c json).2.2 = 0 →
          Answerable (F := ℚ) o (controllerOnMessage o.lib e c json).2.1 := by
  intro always
  let longId : CStr := ⟨List.replicate 66000 65, fun inside =>
    absurd (List.eq_of_mem_replicate inside) (by decide)⟩
  have size : longId.length = 66000 := List.length_replicate
  have fits : (mouseCall longId).length ≤ msgBufSize := by
    rw [mouseCall_length, size]
    decide
  have answer := mouseOutside_answer longId
  have framed := (always (mouseOutside longId) (.at 0) newcomer (mouseCall longId)
    (mouseOutside_prints longId) fits (by rw [answer])).framed
  rw [answer] at framed
  have short := framed (mouseResult longId) (List.mem_singleton.mpr rfl)
  have long := printString_length longId
  unfold Framed mouseResult at short
  rw [printed_callresult (mouseOutside_prints longId)] at short
  rw [size] at long
  unfold bufSize at short
  omega

end SpnavBridge.Daemon
