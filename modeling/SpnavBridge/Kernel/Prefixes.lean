/-
# Kernel.Prefixes -- the prefix table against a dictionary

The source compares `resolve_uri` with `prefixes.get(prefix, "") + res`: a dictionary in
which the last registration of a prefix counts and an unknown one is empty.  The table has
eight entries of bounded length and is searched from the front.  It holds the first eight
registrations of a run (`table_after`), and what is resolved is what the dictionary of
these gives, for every prefix that was `Registered.plainly` (`resolveUri_eq_iff`).  That an
entry may cut a URI, or the result be cut, cannot make it one of the two names that it is
compared with.

* `dictionary`: the last registration of each name.
* `prefixes_as_dictionary`: what SUBSCRIBE and CALL do, by the dictionary.
* `ninth_prefix`: a registration the table has no room for.
-/
import Mathlib.Data.List.Induction
import Mathlib.Logic.Function.Basic
import SpnavBridge.Kernel.Gain
import SpnavBridge.Kernel.Gate

namespace SpnavBridge.Kernel

open SpnavBridge.Theory SpnavBridge.Wire

set_option autoImplicit false
set_option linter.unusedSectionVars false

/-! ## The dictionary -/

/-- A name, and the URI it is registered for. -/
abbrev Registration := CStr × CStr

/-- `prefixes.get`, after these registrations. -/
def dictionary (registered : List Registration) : CStr → CStr :=
  registered.foldl (fun known r => Function.update known r.1 r.2) fun _ => .empty

/-- `prefixes.get(prefix, "") + res`, for a string with a colon. -/
def reference (registered : List Registration) (uri : CStr) : CStr :=
  match uri.cut 58 with
  | none => uri
  | some (front, rest) => (dictionary registered front).append rest

/-- The last registration of a name counts. -/
theorem dictionary_cases (registered : List Registration) (name : CStr) :
    ((∀ r ∈ registered, r.1 ≠ name) ∧ dictionary registered name = .empty) ∨
      ∃ r ∈ registered, r.1 = name ∧ dictionary registered name = r.2 := by
  induction registered using List.reverseRecOn with
  | nil => exact Or.inl ⟨by simp, rfl⟩
  | append_singleton registered r ih =>
      have last : dictionary (registered ++ [r]) =
          Function.update (dictionary registered) r.1 r.2 := by
        rw [dictionary, List.foldl_append]
        rfl
      rw [last]
      by_cases same : r.1 = name
      · refine Or.inr ⟨r, by simp, same, ?_⟩
        rw [← same, Function.update_self]
      · rw [Function.update_of_ne (Ne.symm same)]
        rcases ih with ⟨absent, empty⟩ | ⟨r', mem, name_, value⟩
        · refine Or.inl ⟨fun r' mem => ?_, empty⟩
          rcases List.mem_append.mp mem with before | now
          · exact absent r' before
          · rw [List.mem_singleton.mp now]
            exact same
        · exact Or.inr ⟨r', List.mem_append_left _ mem, name_, value⟩

/-- A name that is registered for one URI only, has room in an entry, and is not what an entry
has left of a longer one. -/
structure Plainly (registered : List Registration) (name : CStr) : Prop where
  once : ∀ a ∈ registered, ∀ b ∈ registered, a.1 = name → b.1 = name → a.2 = b.2
  room : ∀ a ∈ registered, a.1 = name → a.1.length ≤ 63
  whole : ∀ a ∈ registered, a.1.take 63 = name → a.1 = name

/-- The entry a registration becomes. -/
def stored (r : Registration) : PrefixEntry := ⟨.printf 63 r.1, .printf 255 r.2⟩

theorem stored_name {registered : List Registration} {name : CStr} (plainly : Plainly registered name)
    {r : Registration} (mem : r ∈ registered) : (stored r).name.str = name ↔ r.1 = name := by
  constructor
  · intro cut
    exact plainly.whole r mem cut
  · intro same
    exact (CBuf.printf_of_fits (plainly.room r mem same)).trans same

/-- The first entry of a name holds what the dictionary says. -/
theorem find_stored {registered : List Registration} {name : CStr}
    (plainly : Plainly registered name) :
    (∃ r, (registered.map stored).find? (fun entry => entry.name.str = name) = some (stored r) ∧
        dictionary registered name = r.2) ∨
      ((registered.map stored).find? (fun entry => entry.name.str = name) = none ∧
        dictionary registered name = .empty) := by
  cases found : (registered.map stored).find? (fun entry => entry.name.str = name) with
  | none =>
      refine Or.inr ⟨rfl, ?_⟩
      rcases dictionary_cases registered name with ⟨-, empty⟩ | ⟨r, mem, same, -⟩
      · exact empty
      · have other := List.find?_eq_none.mp found (stored r) (List.mem_map_of_mem mem)
        simp [(stored_name plainly mem).mpr same] at other
  | some entry =>
      obtain ⟨r, mem, rfl⟩ := List.mem_map.mp (List.mem_of_find?_eq_some found)
      have named : r.1 = name := by
        have here := List.find?_some found
        exact (stored_name plainly mem).mp (by simpa using here)
      refine Or.inl ⟨r, rfl, ?_⟩
      rcases dictionary_cases registered name with ⟨absent, -⟩ | ⟨r', mem', same, value⟩
      · exact absurd named (absent r mem)
      · rw [value]
        exact plainly.once r' mem' r mem same named

/-! ## Cuts -/

theorem take_eq_iff {n : Nat} {s t : CStr} (short : t.length < n) : s.take n = t ↔ s = t := by
  constructor
  · intro cut
    have fits : s.length ≤ n := by
      by_contra long
      have size := congrArg CStr.length cut
      simp only [CStr.length, CStr.bytes_take, List.length_take] at size short long
      omega
    rwa [CStr.take_of_length_le fits] at cut
  · rintro rfl
    exact CStr.take_of_length_le short.le

/-- A resolved name is not made, or spoiled, by a cut of its parts. -/
theorem cut_append_eq_iff {uri rest name : CStr} (short : name.length < 255) :
    ((uri.take 255).append rest).take 319 = name ↔ uri.append rest = name := by
  rw [take_eq_iff (by omega)]
  by_cases fits : uri.length ≤ 255
  · rw [CStr.take_of_length_le fits]
  · -- both are longer than the name
    have far : ∀ {s : CStr}, 255 ≤ s.length → s.append rest ≠ name := by
      intro s long same
      rw [← same] at short
      simp only [CStr.length, CStr.append, List.length_append] at short long
      omega
    have cut : 255 ≤ (uri.take 255).length := by
      simp only [CStr.length, CStr.bytes_take, List.length_take] at fits ⊢
      omega
    exact iff_of_false (far cut) (far (by omega))

variable {D F : Type} [CFloat F] [CDouble D F]

/-- The front part of the string, if it has one, was registered plainly. -/
def ResolvesPlainly (registered : List Registration) (uri : CStr) : Prop :=
  ∀ front rest, uri.cut 58 = some (front, rest) → Plainly registered front

theorem resolveUri_eq_iff {c : Controller F} {registered : List Registration}
    (table : c.prefixes.entries = registered.map stored) {uri : CStr}
    (plainly : ResolvesPlainly registered uri) {name : CStr} (short : name.length < 255) :
    (resolveUri c uri).str = name ↔ reference registered uri = name := by
  unfold resolveUri reference
  cases parts : uri.cut 58 with
  | none => exact take_eq_iff (by omega)
  | some parts_ =>
      obtain ⟨front, rest⟩ := parts_
      simp only [table]
      rcases find_stored (plainly front rest parts) with ⟨r, found, value⟩ | ⟨found, value⟩
      · rw [found, value]
        exact cut_append_eq_iff short
      · rw [found, value]
        exact take_eq_iff (by omega)

/-! ## Runs -/

section Run

variable (lib : CJson D) (e : Env)

/-- What a call registers, if it is a PREFIX message with two strings. -/
def registered (call : Call F) : Option Registration :=
  match messageIn lib call with
  | some (type, items) =>
      if type = wampPrefix then
        match jsonStr items 1, jsonStr items 2 with
        | some name, some uri => some (name, uri)
        | _, _ => none
      else none
  | none => none

def registrations (calls : List (Call F)) : List Registration := calls.filterMap (registered lib)

/-- The registrations the table has room for. -/
def kept (calls : List (Call F)) : List Registration := (registrations lib calls).take maxPrefixes

/-- One call registers one prefix, or leaves the table. -/
theorem entries_step (c : Controller F) (call : Call F) :
    (controllerStep lib c call).1.prefixes.entries =
      match registered lib call with
      | some r =>
          if c.prefixes.entries.length < maxPrefixes then c.prefixes.entries ++ [stored r]
          else c.prefixes.entries
      | none => c.prefixes.entries := by
  cases op : call.op with
  | message json =>
      simp only [controllerStep, op, controllerOnMessage, registered, messageIn]
      cases message : messageOf (lib.parseWithLength json) with
      | none => rfl
      | some typed =>
          obtain ⟨type, items⟩ := typed
          by_cases register : type = wampPrefix
          · simp only [dispatch, register, if_true, onPrefix]
            cases jsonStr items 1 with
            | none => rfl
            | some name =>
                cases jsonStr items 2 with
                | none => rfl
                | some uri =>
                    dsimp only
                    split <;> rfl
          · simp only [register, if_false]
            rw [(dispatch_settings call.env c items register).prefixes]
  | spnav ev =>
      simp only [controllerStep, op, registered, messageIn]
      rw [(controllerOnSpnavEvent_settings call.env c ev).prefixes]
  | setSensitivity value =>
      simp only [controllerStep, op, registered, messageIn, controllerSetSensitivity]
      split <;> rfl

theorem kept_snoc (past : List (Call F)) (call : Call F) :
    kept lib (past ++ [call]) =
      match registered lib call with
      | some r =>
          if (kept lib past).length < maxPrefixes then kept lib past ++ [r] else kept lib past
      | none => kept lib past := by
  rw [kept, registrations, List.filterMap_append, ← registrations]
  cases registers : registered lib call with
  | none => simp [registers, kept]
  | some r =>
      rw [List.filterMap_cons_some registers, List.filterMap_nil, kept, List.length_take]
      dsimp only
      split
      · rw [List.take_of_length_le (by simp; omega), List.take_of_length_le (by omega)]
      · rw [List.take_append_of_le_length (by omega)]

/-- **The table holds the first registrations.** -/
theorem table_after (calls : List (Call F)) :
    ((controllerMachine lib e).after calls).prefixes.entries = (kept lib calls).map stored := by
  refine (controllerMachine lib e).invariant
    (I := fun past c => c.prefixes.entries = (kept lib past).map stored) rfl ?_ calls
  intro past call so_far
  show (controllerStep lib _ call).1.prefixes.entries = _
  rw [entries_step, kept_snoc, so_far, List.length_map]
  cases registered lib call with
  | none => rfl
  | some r =>
      dsimp only
      split
      · rw [List.map_append, List.map_singleton]
      · rfl

variable {lib} {e}

theorem step_of_message {c : Controller F} {call : Call F} {type : Int} {items : List (Json D)}
    (message : messageIn lib call = some (type, items)) :
    controllerStep lib c call =
      ((dispatch call.env c type items).1,
        ⟨(dispatch call.env c type items).2.2, (dispatch call.env c type items).2.1⟩) := by
  cases op : call.op with
  | message json =>
      simp only [messageIn, op] at message
      simp only [controllerStep, op, controllerOnMessage, message]
  | spnav ev => simp [messageIn, op] at message
  | setSensitivity value => simp [messageIn, op] at message

/-- A SUBSCRIBE, by what its topic resolves to. -/
theorem subscribe_step {c : Controller F} {call : Call F} {items : List (Json D)} {topic : CStr}
    (message : messageIn lib call = some (wampSubscribe, items))
    (string : jsonStr items 1 = some topic) :
    controllerStep lib c call =
      (if (resolveUri c topic).str = controllerUri then { c with subscribed := true, focus := true }
        else c, ⟨0, []⟩) := by
  rw [step_of_message message]
  simp [dispatch, wampSubscribe, wampPrefix, wampCall, onSubscribe, string]

/-- A CALL to a controller that is ready, by what its procedure resolves to. -/
theorem call_step {c : Controller F} {call : Call F} {items : List (Json D)} {callId proc : CStr}
    (message : messageIn lib call = some (wampCall, items)) (id : jsonStr items 1 = some callId)
    (string : jsonStr items 2 = some proc) (ready : c.hs = .ready) :
    controllerStep lib c call =
      ((onReadyCall c items callId proc).1,
        ⟨(onReadyCall c items callId proc).2.2, (onReadyCall c items callId proc).2.1⟩) := by
  rw [step_of_message message]
  simp [dispatch, wampPrefix, wampCall, onCall, id, string, ready]

/-- A call of the update RPC is answered with a result, any other with an error. -/
structure HandledAsUpdate (c : Controller F) (items : List (Json D)) (callId : CStr)
    (done : Controller F × Answer D) : Prop where
  focus : done.1 = { c with focus := reportedFocus c items[3]? }
  answer : done.2 = ⟨0, [.callresult callId none]⟩

structure RefusedAsUnknown (c : Controller F) (callId : CStr) (done : Controller F × Answer D) :
    Prop where
  same : done.1 = c
  answer : ∃ desc, done.2 = ⟨0, [.callerror callId (.lit "wamp.error.not_found") desc]⟩

variable (lib) (e)

/-- **SUBSCRIBE and CALL go by the dictionary** of the prefixes the table has room for. -/
theorem prefixes_as_dictionary (past : List (Call F)) (call : Call F) {items : List (Json D)}
    {uri : CStr} (plainly : ResolvesPlainly (kept lib past) uri) :
    (messageIn lib call = some (wampSubscribe, items) → jsonStr items 1 = some uri →
      controllerStep lib ((controllerMachine lib e).after past) call =
        (if reference (kept lib past) uri = controllerUri then
          { (controllerMachine lib e).after past with subscribed := true, focus := true }
        else (controllerMachine lib e).after past, ⟨0, []⟩)) ∧
    ∀ callId, messageIn lib call = some (wampCall, items) → jsonStr items 1 = some callId →
      jsonStr items 2 = some uri → ((controllerMachine lib e).after past).hs = .ready →
      if reference (kept lib past) uri = updateUri then
        HandledAsUpdate ((controllerMachine lib e).after past) items callId
          (controllerStep lib ((controllerMachine lib e).after past) call)
      else
        RefusedAsUnknown ((controllerMachine lib e).after past) callId
          (controllerStep lib ((controllerMachine lib e).after past) call) := by
  have table := table_after lib e past
  generalize (controllerMachine lib e).after past = c at table ⊢
  constructor
  · intro message string
    have same := resolveUri_eq_iff table plainly (show controllerUri.length < 255 by decide)
    rw [subscribe_step message string]
    simp only [same]
  · intro callId message id string ready
    have same := resolveUri_eq_iff table plainly (show updateUri.length < 255 by decide)
    rw [call_step message id string ready, onReadyCall]
    by_cases update : reference (kept lib past) uri = updateUri
    · rw [if_pos update, if_pos (same.mpr update)]
      exact ⟨rfl, rfl⟩
    · rw [if_neg update, if_neg (mt same.mp update)]
      exact ⟨rfl, _, rfl⟩

end Run

/-! ## A ninth prefix -/

/-- As many prefixes of other libraries as the table has room for. -/
def otherNames : List (List UInt8) :=
  [ascii "a", ascii "b", ascii "c", ascii "d", ascii "e", ascii "f", ascii "g", ascii "h"]

def declaring (name : List UInt8) : List UInt8 := ascii "[1, \"" ++ name ++ ascii "\", \"wss://\"]"

/-- The payloads of the handshake, and those of the other prefixes. -/
def prefixTexts : List (List UInt8 × Json ℚ) :=
  handshakeTexts ++ otherNames.map fun name =>
    (declaring name, .array [.number 1, .string (.ofBytes name), .string (.lit "wss://")])

/-- SUBSCRIBE to the controller, by its prefix. -/
def subscription : Call ℚ := ⟨.message (ascii "[5, \"ctrl:controller0\"]"), .at 0⟩

theorem prefixes_as_dictionary_subscription :
    (controllerStep (.ofTexts prefixTexts)
      ((controllerMachine (.ofTexts prefixTexts) (.at 0)).after (handshake.take 3))
        subscription).1.subscribed = true := by
  have plainly : ResolvesPlainly (kept (.ofTexts prefixTexts) (handshake.take 3))
      (.lit "ctrl:controller0") := by
    intro front rest parts
    have front_ : front = .lit "ctrl" := by
      have known : (CStr.lit "ctrl:controller0").cut 58 =
          some (.lit "ctrl", .lit "controller0") := by decide +kernel
      rw [known] at parts
      exact (Prod.mk.inj (Option.some.inj parts)).1.symm
    subst front_
    exact ⟨by decide +kernel, by decide +kernel, by decide +kernel⟩
  rw [(prefixes_as_dictionary (.ofTexts prefixTexts) (.at 0) (handshake.take 3) subscription
    plainly).1 (by decide +kernel : messageIn (.ofTexts prefixTexts) subscription =
      some (wampSubscribe, [.number 5, .string (.lit "ctrl:controller0")])) (by decide),
    if_pos (by decide +kernel)]

/-- The other prefixes, and then that of the controller. -/
def crowded : List (Call ℚ) :=
  otherNames.map (fun name => ⟨.message (declaring name), .at 0⟩) ++ handshake.take 1

/-- The dictionary of all nine resolves the topic to the controller, and it is not recognised. -/
theorem ninth_prefix :
    reference (registrations (.ofTexts prefixTexts) crowded) (.lit "ctrl:controller0") =
        controllerUri ∧
      messageIn (.ofTexts prefixTexts) subscription =
        some (wampSubscribe, [.number 5, .string (.lit "ctrl:controller0")]) ∧
      ((controllerMachine (.ofTexts prefixTexts) (.at 0)).after
        (crowded ++ [subscription])).subscribed = false := by
  decide +kernel

end SpnavBridge.Kernel
