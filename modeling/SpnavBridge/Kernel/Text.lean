/-
# Kernel.Text -- whether the messages of a controller are UTF-8

The strings of a message are literals, identifiers, or what the client has sent in a payload.
One of them is put together in an array: where a CALL names an unknown procedure, the
description has room for 250 bytes of the name.

* `controllerStep_valid_iff`: a call that is given UTF-8 makes the controller send UTF-8 unless it
  splits a character there (`SplitsCharacter`).
* `text_frames_iff`: so does a run.
-/
import SpnavBridge.Kernel.Gate
import SpnavBridge.Kernel.Heeded
import SpnavBridge.Wire.Encoding

namespace SpnavBridge.Kernel

open SpnavBridge.Theory SpnavBridge.Wire

set_option autoImplicit false
set_option linter.unusedSectionVars false

variable {D F : Type} [CFloat F] [CDouble D F]

/-! ## The strings of a message -/

section Strings

variable {S : CStr → Prop}

theorem allItems_iff {items : List (Json D)} :
    AllItems S items ↔ ∀ item ∈ items, item.All S := by
  induction items with
  | nil => simp [AllItems]
  | cons item items ih => simp [AllItems, ih]

theorem allItems_append {items more : List (Json D)} :
    AllItems S (items ++ more) ↔ AllItems S items ∧ AllItems S more := by
  simp [allItems_iff, or_imp, forall_and]

theorem of_jsonStr {items : List (Json D)} (all : AllItems S items) {i : Nat} {s : CStr}
    (string : jsonStr items i = some s) : S s := by
  unfold jsonStr Json.stringValue at string
  split at string
  · rename_i t at_
    obtain rfl := Option.some.inj string
    exact allItems_iff.mp all _ (List.mem_of_getElem? at_)
  · cases string

theorem of_getElem? {items : List (Json D)} (all : AllItems S items) {i : Nat} {item : Json D}
    (at_ : items[i]? = some item) : item.All S :=
  allItems_iff.mp all _ (List.mem_of_getElem? at_)

theorem floatsToJson_all {n : Nat} (values : Fin n → F) : (floatsToJson (D := D) values).All S := by
  refine allItems_iff.mpr fun item mem => ?_
  obtain ⟨i, rfl⟩ := (List.mem_ofFn' _ _).mp mem
  trivial

end Strings

variable (F) in
/-- All strings of a message are UTF-8. -/
def Texts (m : Message D) : Prop := (m.tree (F := F)).All IsText

/-- A message of UTF-8, with all its strings. -/
structure ValidText (F : Type) [CDouble D F] (lib : CJson D) (m : Message D) : Prop where
  text : Utf8 (lib.printUnformatted (m.tree (F := F)))
  strings : (m.tree (F := F)).All IsText

section Messages

theorem callresult_texts {callId : CStr} (id : IsText callId) {value : Option (Json D)}
    (texts : ∀ v, value = some v → v.All IsText) : Texts F (.callresult callId value) := by
  refine ⟨trivial, id, ?_, trivial⟩
  cases value with
  | none => trivial
  | some v => exact texts v rfl

theorem rpcCall_texts {r : Rpc D} (uri : IsText r.controllerUri) (id : IsText r.callId)
    (kind : IsText r.kind) (prop : IsText r.prop)
    (texts : ∀ v, r.value = some v → v.All IsText) : Texts F (.rpcCall r) := by
  have fixed : AllItems IsText (D := D) [createNumber (F := F) wampCall, .string r.callId,
      .string r.kind, .string .empty, .string r.prop] := ⟨trivial, id, kind, .nil, prop, trivial⟩
  refine ⟨trivial, uri, allItems_append.mpr ⟨fixed, ?_⟩, trivial⟩
  cases value : r.value with
  | none => trivial
  | some v => exact ⟨texts v value, trivial⟩

theorem wampGenId_text (rnd : Nat → UInt8) (len : Nat) : IsText (wampGenId rnd len) := by
  refine .of_ascii fun b mem => ?_
  obtain ⟨i, -, rfl⟩ := List.mem_map.mp mem
  have all : ∀ i < 36, alphabet.getD i 65 < 128 := by decide
  exact all _ (Nat.mod_lt _ (by decide))

theorem OwnRpc.texts {callId : CStr} (id : IsText callId) {r : Rpc D}
    (own : OwnRpc (F := F) callId r) : Texts F (.rpcCall r) := by
  cases own with
  | read prop known =>
      refine rpcCall_texts (.lit _) id (.lit _) ?_ fun v is => by cases is
      simp only [readProps, List.mem_cons, List.not_mem_nil, or_false] at known
      rcases known with rfl | rfl | rfl | rfl | rfl <;> exact .lit _
  | motion =>
      refine rpcCall_texts (.lit _) id (.lit _) (.lit _) fun v is => ?_
      obtain rfl := Option.some.inj is
      trivial
  | extents values | affine values =>
      refine rpcCall_texts (.lit _) id (.lit _) (.lit _) fun v is => ?_
      obtain rfl := Option.some.inj is
      exact floatsToJson_all values

theorem AtMostRpc.texts {callId : CStr} (id : IsText callId) {sent : List (Message D)}
    (own : AtMostRpc (OwnRpc (F := F) callId) sent) : ∀ m ∈ sent, Texts F m := by
  rcases own.cases with rfl | ⟨r, rfl, kind⟩
  · simp
  · intro m mem
    rw [List.mem_singleton.mp mem]
    exact kind.texts id

end Messages

/-! ## Replies and events -/

section Sent

variable (e : Env) (c : Controller F)

theorem receive_texts {reply : Reply D}
    (texts : ∀ v, reply = .result (some v) → v.All IsText) :
    ∀ m ∈ (receive e c reply).2, Texts F m := by
  have id : IsText (wampGenId e.rnd 18) := wampGenId_text e.rnd 18
  by_cases forwards : ∃ value, Forwards c reply value
  · obtain ⟨value, forwards⟩ := forwards
    rw [receive_forwards forwards]
    intro m mem
    rw [List.mem_singleton.mp mem]
    refine rpcCall_texts (.lit _) id (.lit _) (.lit _) fun v is => texts v ?_
    rw [forwards.2.2]
    exact congrArg Reply.result is
  · push Not at forwards
    exact (receive_sends forwards).texts id

theorem onReply_texts {type : Int} {items : List (Json D)} (texts : AllItems IsText items) :
    ∀ m ∈ (onReply e c type items).2, Texts F m := by
  rw [onReply_eq]
  split
  · refine receive_texts e c fun v is => ?_
    unfold replyIn at is
    split at is
    · cases is
    · injection is with at_
      exact of_getElem? texts at_
  · simp

theorem controllerOnSpnavEvent_texts (ev : SbEvent) :
    ∀ m ∈ (controllerOnSpnavEvent (D := D) e c ev).2, Texts F m := by
  have id : IsText (wampGenId e.rnd 18) := wampGenId_text e.rnd 18
  by_cases gate : c.GateOpen
  · rw [controllerOnSpnavEvent_open gate]
    split_ifs
    · simp
    · simp
    · exact (rpcRead_sends e _ (by decide +kernel)).texts id
    · exact (rpcRead_sends e _ (by decide +kernel)).texts id
  · rw [controllerOnSpnavEvent_shut gate]
    simp

end Sent

/-! ## Where a character can be split -/

/-- A CALL of an unknown procedure with a byte 250 that does not begin a character. -/
inductive SplitsName (c : Controller F) (items : List (Json D)) : Prop
  | intro (callId procUri : CStr) (b : UInt8) (ready : c.hs = .ready)
      (id : jsonStr items 1 = some callId) (proc : jsonStr items 2 = some procUri)
      (unknown : (resolveUri c procUri).str ≠ updateUri)
      (byte : procUri.bytes[250]? = some b) (inside : ¬ b.IsUTF8FirstByte)

/-- The call brings such a CALL. -/
inductive SplitsCharacter (lib : CJson D) (c : Controller F) (call : Call F) : Prop
  | intro (json : List UInt8) (t : D) (items : List (Json D)) (message : call.op = .message json)
      (carried : IsMessage lib json t items) (type : CDouble.toInt t = wampCall)
      (splits : SplitsName c items)

/-- The payload of a call is UTF-8. -/
def Call.PayloadValid (call : Call F) : Prop := ∀ json, call.op = .message json → Utf8 json

/-! ## The description -/

/-- What `desc` is printed from. -/
def description (procUri : CStr) : CStr :=
  (CStr.lit "RPC '").append (procUri.append (.lit "' not registered"))

theorem description_text {procUri : CStr} (proc : IsText procUri) : IsText (description procUri) :=
  (Utf8.lit _).append (Utf8.append proc (Utf8.lit _))

/-- The byte behind the end of `desc` is byte 250 of the name, or one of the bridge's own. -/
theorem description_first (procUri : CStr) :
    (∀ b, (description procUri).bytes[255]? = some b → b.IsUTF8FirstByte) ↔
      ∀ b, procUri.bytes[250]? = some b → b.IsUTF8FirstByte := by
  have front : (CStr.lit "RPC '").bytes.length = 5 := by decide
  have plain : ∀ b ∈ (CStr.lit "' not registered").bytes, b < 128 := by decide +kernel
  have behind : (description procUri).bytes[255]? =
      (procUri.bytes ++ (CStr.lit "' not registered").bytes)[250]? := by
    show ((CStr.lit "RPC '").bytes ++ _)[255]? = _
    rw [List.getElem?_append_right (by omega), front]
    rfl
  rw [behind]
  by_cases long : 250 < procUri.bytes.length
  · rw [List.getElem?_append_left long]
  · rw [List.getElem?_append_right (Nat.le_of_not_lt long),
      List.getElem?_eq_none (Nat.le_of_not_lt long)]
    refine iff_of_true (fun b at_ => ?_) fun b at_ => by cases at_
    exact first_of_ascii (plain b (List.mem_of_getElem? at_))

section Valid

variable {lib : CJson D} (faithful : Faithful lib)
include faithful

theorem ValidText.of_texts {m : Message D} (texts : Texts F m) : ValidText F lib m :=
  ⟨faithful.print texts, texts⟩

/-- The answer about an unknown procedure is UTF-8 only if its name may be cut. -/
theorem first_of_callerror {callId procUri : CStr} (id : IsText callId) (proc : IsText procUri)
    (text : Utf8 (lib.printUnformatted (Message.tree (F := F)
      (.callerror callId (.lit "wamp.error.not_found")
        (CBuf.printf 255 (description procUri)).str)))) :
    ∀ b, procUri.bytes[250]? = some b → b.IsUTF8FirstByte := by
  have whole := description_text proc
  rw [← description_first, ← Utf8.take_iff whole]
  exact (escaped_take_iff whole 255).mp (desc_of_callerror faithful.number id (.lit _) text)

theorem callerror_valid {callId procUri : CStr} (id : IsText callId) (proc : IsText procUri)
    (first : ∀ b, procUri.bytes[250]? = some b → b.IsUTF8FirstByte) :
    ValidText F lib (.callerror callId (.lit "wamp.error.not_found")
      (CBuf.printf 255 (description procUri)).str) := by
  have whole := description_text proc
  rw [← description_first, ← Utf8.take_iff whole] at first
  exact .of_texts faithful ⟨trivial, id, .lit _, first, trivial, trivial⟩

/-! ## One call -/

theorem SplitsName.invalid {c : Controller F} {items : List (Json D)}
    (texts : AllItems IsText items) (splits : SplitsName c items) :
    ∃ m ∈ (onCall c items).2.1, ¬ Utf8 (lib.printUnformatted (m.tree (F := F))) := by
  obtain ⟨callId, procUri, b, ready, id, proc, unknown, byte, inside⟩ := splits
  simp only [onCall, id, proc, ready, onReadyCall, if_neg unknown]
  exact ⟨_, List.mem_cons_self, fun text => inside
    (first_of_callerror faithful (of_jsonStr texts id) (of_jsonStr texts proc) text b byte)⟩

theorem onCall_valid {c : Controller F} {items : List (Json D)} (texts : AllItems IsText items)
    (whole : ¬ SplitsName c items) : ∀ m ∈ (onCall c items).2.1, ValidText F lib m := by
  unfold onCall
  split
  · rename_i callId procUri id proc
    have answer : ∀ value : Option (Json D), (∀ v, value = some v → v.All IsText) →
        ValidText F lib (.callresult callId value) := fun value result =>
      .of_texts faithful (callresult_texts (of_jsonStr texts id) result)
    have created : ∀ s t : String, ValidText F lib
        (.callresult callId (some (.object [(.lit s, .string (.lit t))]))) := by
      intro s t
      refine answer _ fun v is => ?_
      obtain rfl := Option.some.inj is
      exact ⟨.lit s, .lit t, trivial⟩
    cases hs : c.hs with
    | waitMouse =>
        dsimp only [onCreateMouse]
        split_ifs <;> simp [created]
    | waitController =>
        dsimp only [onCreateController]
        split_ifs <;> simp [created]
    | ready =>
        dsimp only [onReadyCall]
        split_ifs with known
        · simpa using answer none fun v is => by cases is
        · intro m mem
          rw [List.mem_singleton.mp mem]
          refine callerror_valid faithful (of_jsonStr texts id) (of_jsonStr texts proc) ?_
          intro b byte
          by_contra inside
          exact whole ⟨callId, procUri, b, hs, id, proc, known, byte, inside⟩
  · simp

/-- The messages of another type. -/
theorem dispatch_valid (e : Env) (c : Controller F) {type : Int} {items : List (Json D)}
    (texts : AllItems IsText items) (other : type ≠ wampCall) :
    ∀ m ∈ (dispatch e c type items).2.1, ValidText F lib m := by
  intro m mem
  rw [dispatch, if_neg other] at mem
  split_ifs at mem
  · cases mem
  · cases mem
  · exact .of_texts faithful (onReply_texts e c texts m mem)
  · cases mem

theorem SplitsCharacter.invalid {c : Controller F} {call : Call F} (valid : call.PayloadValid)
    (splits : SplitsCharacter lib c call) :
    ∃ m ∈ (controllerStep lib c call).2.sent, ¬ Utf8 (lib.printUnformatted (m.tree (F := F))) := by
  obtain ⟨json, t, items, message, carried, type, splits⟩ := splits
  have texts : AllItems IsText items := faithful.parse _ _ (valid json message) carried.1
  simp only [controllerStep, message, controllerOnMessage_of_message carried, type, dispatch_call]
  exact splits.invalid faithful texts

theorem controllerStep_valid {c : Controller F} {call : Call F} (valid : call.PayloadValid)
    (whole : ¬ SplitsCharacter lib c call) :
    ∀ m ∈ (controllerStep lib c call).2.sent, ValidText F lib m := by
  cases op : call.op with
  | message json =>
      simp only [controllerStep, op]
      cases message : messageOf (lib.parseWithLength json) with
      | none => simp [controllerOnMessage, message]
      | some typed =>
          obtain ⟨type, items⟩ := typed
          obtain ⟨t, carried, rfl⟩ := messageOf_eq_some_iff.mp message
          have texts : AllItems IsText items := faithful.parse _ _ (valid json op) carried.1
          rw [controllerOnMessage_of_message carried]
          by_cases isCall : CDouble.toInt t = wampCall
          · rw [isCall, dispatch_call]
            exact onCall_valid faithful texts fun splits =>
              whole ⟨json, t, items, op, carried, isCall, splits⟩
          · exact dispatch_valid faithful call.env c texts isCall
  | spnav ev =>
      simp only [controllerStep, op]
      exact fun m mem => .of_texts faithful (controllerOnSpnavEvent_texts call.env c ev m mem)
  | setSensitivity sensitivity => simp [controllerStep, op]

/-- **What one call makes the controller send.** -/
theorem controllerStep_valid_iff (c : Controller F) {call : Call F} (valid : call.PayloadValid) :
    (∀ m ∈ (controllerStep lib c call).2.sent, ValidText F lib m) ↔
      ¬ SplitsCharacter lib c call := by
  refine ⟨fun all splits => ?_, controllerStep_valid faithful valid⟩
  obtain ⟨m, mem, invalid⟩ := splits.invalid faithful valid
  exact invalid (all m mem).text

end Valid

/-! ## Runs -/

/-- Everything a controller has handed to `send`, the WELCOME first. -/
def everSent (lib : CJson D) (e : Env) (calls : List (Call F)) : List (Message D) :=
  (controllerCreate (F := F) e).2 ++ ((controllerMachine lib e).answers calls).flatMap Answer.sent

theorem everSent_snoc (lib : CJson D) (e : Env) (past : List (Call F)) (call : Call F) :
    everSent lib e (past ++ [call]) = everSent lib e past ++
      (controllerStep lib ((controllerMachine lib e).after past) call).2.sent := by
  simp [everSent, Machine.answer, controllerMachine]

/-- Every split is seen, and nothing else is. -/
theorem everSent_valid_iff {lib : CJson D} (faithful : Faithful lib) (e : Env)
    {calls : List (Call F)} (valid : ∀ call ∈ calls, call.PayloadValid) :
    (∀ m ∈ everSent lib e calls, ValidText F lib m) ↔
      Along (fun past call => ¬ SplitsCharacter lib ((controllerMachine lib e).after past) call)
        calls := by
  induction calls using List.reverseRecOn with
  | nil =>
      refine iff_of_true (fun m mem => ?_) along_nil
      rw [List.mem_singleton.mp mem]
      exact .of_texts faithful ⟨trivial, wampGenId_text e.rnd 16, trivial, .lit _, trivial⟩
  | append_singleton past call ih =>
      have before := ih fun call mem => valid call (List.mem_append_left _ mem)
      have last := controllerStep_valid_iff faithful ((controllerMachine lib e).after past)
        (valid call (List.mem_append_right _ List.mem_cons_self))
      rw [everSent_snoc, along_snoc, List.forall_mem_append, before, last]

/-- **When everything that is sent is UTF-8.** -/
theorem text_frames_iff (number : Bool → ℚ → D) {printNumber : D → List UInt8}
    (plain : ∀ d, ∀ b ∈ printNumber d, b < 128) (e : Env) {calls : List (Call F)}
    (valid : ∀ call ∈ calls, call.PayloadValid) :
    (∀ m ∈ everSent (cJson number printNumber) e calls,
        ValidText F (cJson number printNumber) m) ↔
      Along (fun past call => ¬ SplitsCharacter (cJson number printNumber)
        ((controllerMachine (cJson number printNumber) e).after past) call) calls :=
  everSent_valid_iff (cJson_faithful number plain) e valid

/-! ## A procedure with a long name -/

/-- A name of 249 letters of one byte and one of two. -/
def longName : List UInt8 := List.replicate 249 97 ++ ascii "é"

def longCall : Call ℚ := ⟨.message (ascii "[2,\"x\",\"" ++ longName ++ ascii "\"]"), .at 0⟩

theorem longSession_valid : ∀ call ∈ handshake ++ [longCall], call.PayloadValid := by
  intro call mem json message
  rcases List.mem_append.mp mem with opens | long
  · obtain ⟨text, known, rfl⟩ := List.mem_map.mp opens
    obtain rfl := Op.message.inj message
    simp only [handshakeTexts, List.mem_cons, List.not_mem_nil, or_false] at known
    rcases known with rfl | rfl | rfl | rfl <;> exact .ascii _
  · rw [List.mem_singleton.mp long] at message
    obtain rfl := Op.message.inj message
    have letters : Utf8 (List.replicate 249 97) := .of_ascii fun b mem => by
      rw [List.eq_of_mem_replicate mem]
      decide
    exact ((Utf8.ascii _).append (letters.append (.ascii _))).append (.ascii _)

theorem text_frames_long_name :
    (∀ m ∈ everSent ratJson (.at 0) (handshake ++ [longCall]), ValidText ℚ ratJson m) ↔
      Along (fun past call => ¬ SplitsCharacter ratJson
        ((controllerMachine ratJson (.at 0)).after past) call) (handshake ++ [longCall]) :=
  text_frames_iff signedRat (fun q => ascii_toString q.num) (.at 0) longSession_valid

theorem longSession_splits :
    SplitsCharacter ratJson ((controllerMachine ratJson (.at 0)).after handshake) longCall := by
  have parsed : parseWithLengthOpts signedRat (ascii "[2,\"x\",\"" ++ longName ++ ascii "\"]") =
      some (.array [.number 2, .string (.lit "x"), .string (.ofBytes longName)], []) := by
    decide +kernel
  refine ⟨_, 2, _, rfl, .of_parsed parsed rfl, by decide +kernel, ?_⟩
  exact ⟨.lit "x", .ofBytes longName, 0xA9, by decide +kernel, rfl, rfl, by decide +kernel,
    by decide +kernel, by decide⟩

/-- The description ends between the two bytes. -/
theorem split_character :
    (∀ call ∈ handshake ++ [longCall], call.PayloadValid) ∧
      ∃ m ∈ everSent ratJson (.at 0) (handshake ++ [longCall]),
        ¬ Utf8 (ratJson.printUnformatted (m.tree (F := ℚ))) := by
  refine ⟨longSession_valid, ?_⟩
  have faithful : Faithful ratJson := cJson_faithful _ fun q => ascii_toString q.num
  obtain ⟨m, mem, invalid⟩ := longSession_splits.invalid faithful
    (longSession_valid _ (List.mem_append_right _ List.mem_cons_self))
  refine ⟨m, ?_, invalid⟩
  rw [everSent_snoc]
  exact List.mem_append_right _ mem

end SpnavBridge.Kernel
