/-
# Kernel.Gate -- no RPC before the recognised handshake

The gate is read in one place, at a device event; the eleven steps of the chains, the
restart in `chain_finished` and the reset after a timeout send without looking at it.
What protects them is an invariant over the history of the connection: a chain runs only
where the whole handshake was accepted before, and nothing takes an accepted handshake
back.

* `GateMove`: the five ways in which one call can touch `hs`, the client flags and the
  focus (`controllerStep_gate`).
* `Handshaken`: what the flags of a state say about its history (`handshaken_after`).
* `rpc_behind_handshake`: the result, with the order in which `hs` moves.
-/
import SpnavBridge.Kernel.Moves

namespace SpnavBridge.Kernel

open SpnavBridge.Theory SpnavBridge.Wire

set_option autoImplicit false
set_option linter.unusedSectionVars false

variable {D F : Type} [CFloat F] [CDouble D F]

/-! ## The acts of a client -/

/-- An accepted create-mouse CALL. -/
def CreatesMouse (lib : CJson D) (c : Controller F) (call : Call F) : Prop :=
  ∃ items, messageIn lib call = some (wampCall, items) ∧ c.hs = .waitMouse ∧
    (controllerStep lib c call).2.rc = 0 ∧ jsonStr items 2 = some (.lit "3dx_rpc:create") ∧
    jsonStr items 3 = some (.lit "3dconnexion:3dmouse")

/-- An accepted create-controller CALL, with the given metadata. -/
def CreatesController (lib : CJson D) (metadata : Option (Json D)) (c : Controller F)
    (call : Call F) : Prop :=
  ∃ items, messageIn lib call = some (wampCall, items) ∧ c.hs = .waitController ∧
    (controllerStep lib c call).2.rc = 0 ∧ jsonStr items 2 = some (.lit "3dx_rpc:create") ∧
    jsonStr items 3 = some (.lit "3dconnexion:3dcontroller") ∧
    jsonStr items 4 = some (.lit "mouse0") ∧ items[5]? = metadata

/-- The metadata is an object that names one of the two clients the bridge knows. -/
def NamesKnownClient (metadata : Option (Json D)) : Prop :=
  ∃ members name, metadata = some (.object members) ∧
    Json.getObjectItem members (.lit "name") = some (.string name) ∧
    (name = .lit "Onshape" ∨ name = .lit "WebThreeJS Sample")

/-- A SUBSCRIBE to the controller, by the prefixes registered at that moment. -/
def Subscribes (lib : CJson D) (c : Controller F) (call : Call F) : Prop :=
  ∃ items topic, messageIn lib call = some (wampSubscribe, items) ∧
    jsonStr items 1 = some topic ∧ (resolveUri c topic).str = controllerUri

/-- A call of the update RPC, with the given argument. -/
def Updates (lib : CJson D) (arg : Option (Json D)) (c : Controller F) (call : Call F) : Prop :=
  ∃ items callId procUri, messageIn lib call = some (wampCall, items) ∧ c.hs = .ready ∧
    jsonStr items 1 = some callId ∧ jsonStr items 2 = some procUri ∧
    (resolveUri c procUri).str = updateUri ∧ items[3]? = arg

/-! ## What a call does to the gate -/

structure SameFlags (c c' : Controller F) : Prop where
  hs : c'.hs = c.hs
  knownClient : c'.knownClient = c.knownClient
  subscribed : c'.subscribed = c.subscribed
  focus : c'.focus = c.focus

theorem SameGate.flags {c c' : Controller F} (gate : SameGate c c') : SameFlags c c' :=
  ⟨gate.hs, gate.knownClient, gate.subscribed, gate.focus⟩

inductive GateMove (lib : CJson D) (call : Call F) (c : Controller F) : Controller F → Prop
  | same {c' : Controller F} (flags : SameFlags c c') : GateMove lib call c c'
  | mouse {c' : Controller F} (accepted : CreatesMouse lib c call) (hs : c'.hs = .waitController)
      (knownClient : c'.knownClient = c.knownClient) (subscribed : c'.subscribed = c.subscribed)
      (focus : c'.focus = c.focus) : GateMove lib call c c'
  | controller {c' : Controller F} (metadata : Option (Json D))
      (accepted : CreatesController lib metadata c call) (hs : c'.hs = .ready)
      (knownClient : c'.knownClient = recognise c metadata)
      (subscribed : c'.subscribed = c.subscribed) (focus : c'.focus = c.focus) :
      GateMove lib call c c'
  | update {c' : Controller F} (arg : Option (Json D)) (updates : Updates lib arg c call)
      (hs : c'.hs = c.hs) (knownClient : c'.knownClient = c.knownClient)
      (subscribed : c'.subscribed = c.subscribed) (focus : c'.focus = reportedFocus c arg) :
      GateMove lib call c c'
  | subscribe {c' : Controller F} (subscribes : Subscribes lib c call) (hs : c'.hs = c.hs)
      (knownClient : c'.knownClient = c.knownClient) (subscribed : c'.subscribed = true)
      (focus : c'.focus = true) : GateMove lib call c c'

theorem onCall_gate {lib : CJson D} {call : Call F} {c : Controller F} {json : List UInt8}
    {items : List (Json D)} (op : call.op = .message json)
    (message : messageOf (lib.parseWithLength json) = some (wampCall, items)) :
    GateMove lib call c (onCall c items).1 := by
  have carried : messageIn lib call = some (wampCall, items) := by simp [messageIn, op, message]
  have rc : (controllerStep lib c call).2.rc = (onCall c items).2.2 := by
    simp [controllerStep, op, controllerOnMessage, message, dispatch, wampCall, wampPrefix]
  cases callId : jsonStr items 1 with
  | none => simp only [onCall, callId]; exact .same ⟨rfl, rfl, rfl, rfl⟩
  | some callId' =>
      cases procUri : jsonStr items 2 with
      | none => simp only [onCall, callId, procUri]; exact .same ⟨rfl, rfl, rfl, rfl⟩
      | some procUri' =>
          cases hs : c.hs with
          | waitMouse =>
              simp only [onCall, callId, procUri, hs, onCreateMouse] at rc ⊢
              split
              · rename_i asked
                rw [if_pos asked] at rc
                exact .mouse ⟨items, carried, hs, rc, by rw [procUri, asked.1], asked.2⟩
                  rfl rfl rfl rfl
              · exact .same ⟨rfl, rfl, rfl, rfl⟩
          | waitController =>
              simp only [onCall, callId, procUri, hs, onCreateController] at rc ⊢
              split
              · rename_i asked
                rw [if_pos asked] at rc
                exact .controller items[5]? ⟨items, carried, hs, rc, by rw [procUri, asked.1],
                  asked.2.1, asked.2.2, rfl⟩ rfl rfl rfl rfl
              · exact .same ⟨rfl, rfl, rfl, rfl⟩
          | ready =>
              simp only [onCall, callId, procUri, hs, onReadyCall]
              split
              · rename_i update
                exact .update items[3]? ⟨items, callId', procUri', carried, hs, callId, procUri,
                  update, rfl⟩ hs.symm rfl rfl rfl
              · exact .same ⟨rfl, rfl, rfl, rfl⟩

theorem onSubscribe_gate {lib : CJson D} {call : Call F} {c : Controller F} {json : List UInt8}
    {items : List (Json D)} (op : call.op = .message json)
    (message : messageOf (lib.parseWithLength json) = some (wampSubscribe, items)) :
    GateMove lib call c (onSubscribe c items) := by
  unfold onSubscribe
  split
  · rename_i topic named
    split
    · rename_i resolved
      exact .subscribe ⟨items, topic, by simp [messageIn, op, message], named, resolved⟩
        rfl rfl rfl rfl
    · exact .same ⟨rfl, rfl, rfl, rfl⟩
  · exact .same ⟨rfl, rfl, rfl, rfl⟩

theorem onPrefix_flags (c : Controller F) (items : List (Json D)) :
    SameFlags c (onPrefix c items) := by
  unfold onPrefix
  split
  · split <;> exact ⟨rfl, rfl, rfl, rfl⟩
  · exact ⟨rfl, rfl, rfl, rfl⟩

/-- The calls that leave the chain alone are the ones that move the gate. -/
theorem quiet_gate {lib : CJson D} {call : Call F} {c : Controller F}
    (unanswered : replyOf lib c call = none) :
    GateMove lib call c (controllerStep lib c call).1 := by
  cases op : call.op with
  | message json =>
      simp only [controllerStep, op, controllerOnMessage]
      cases message : messageOf (lib.parseWithLength json) with
      | none => exact .same ⟨rfl, rfl, rfl, rfl⟩
      | some typed =>
          obtain ⟨type, items⟩ := typed
          simp only [dispatch]
          split_ifs with register isCall subscribe reply
          · exact .same (onPrefix_flags c items)
          · exact onCall_gate op (isCall ▸ message)
          · exact onSubscribe_gate op (subscribe ▸ message)
          · have other : ¬ (c.chain ≠ .none ∧ jsonStr items 1 = some c.pendingCallId.str) := by
              intro matched
              simp [replyOf, op, matchedReply, message, reply, matched] at unanswered
            simp only [onReply, if_neg other]
            exact .same ⟨rfl, rfl, rfl, rfl⟩
          · exact .same ⟨rfl, rfl, rfl, rfl⟩
  | spnav ev =>
      simp only [controllerStep, op, controllerOnSpnavEvent, startMotionChain, startButtonChain,
        rpcRead, rpc]
      split_ifs <;> exact .same ⟨rfl, rfl, rfl, rfl⟩
  | setSensitivity sensitivity =>
      simp only [controllerStep, op, controllerSetSensitivity]
      split_ifs <;> exact .same ⟨rfl, rfl, rfl, rfl⟩

/-- **Every call makes a gate move.** -/
theorem controllerStep_gate (lib : CJson D) (call : Call F) {c : Controller F} (sound : c.Sound) :
    GateMove lib call c (controllerStep lib c call).1 := by
  have move := controllerStep_move lib call sound
  generalize (rpcs _) = sent at move
  cases move with
  | quiet unanswered => exact quiet_gate unanswered
  | goesOn _ _ _ gate => exact .same gate.flags
  | ended _ _ _ gate => exact .same gate.flags
  | restarted _ _ _ gate => exact .same gate.flags
  | queued _ _ _ _ gate => exact .same gate.flags
  | started _ _ _ gate => exact .same gate.flags

/-! ## What a state says about its history -/

section Run

variable (lib : CJson D) (e : Env)

/-- A property of a call, of the state the run `past` leads to. -/
def At (P : Controller F → Call F → Prop) (past : List (Call F)) (call : Call F) : Prop :=
  P ((controllerMachine lib e).after past) call

/-- The recognised handshake so far: a create-mouse CALL was accepted, and later a
create-controller CALL that names a known client. -/
def Recognised : List (Call F) → Prop :=
  Past fun front call =>
    Past (At lib e (CreatesMouse lib)) front ∧
    ∃ metadata, At lib e (CreatesController lib metadata) front call ∧ NamesKnownClient metadata

structure Handshaken (past : List (Call F)) (c : Controller F) : Prop where
  mouse : c.hs ≠ .waitMouse → Past (At lib e (CreatesMouse lib)) past
  known : c.knownClient = true → Recognised lib e past
  subscribed : c.subscribed = true → Past (At lib e (Subscribes lib)) past
  behind : c.chain ≠ .none → c.hs = .ready ∧ c.knownClient = true ∧ c.subscribed = true

variable {lib} {e}

theorem namesKnownClient_of_recognise {c : Controller F} {metadata : Option (Json D)}
    (recognised : recognise c metadata = true) :
    c.knownClient = true ∨ NamesKnownClient metadata := by
  unfold recognise at recognised
  split at recognised
  · rename_i members
    right
    cases item : Json.getObjectItem members (.lit "name") with
    | none => simp [item, Json.stringValue, knownClientName] at recognised
    | some value =>
        cases value with
        | string name =>
            refine ⟨members, name, rfl, item, ?_⟩
            simpa [item, Json.stringValue, knownClientName] using recognised
        | _ => simp [item, Json.stringValue, knownClientName] at recognised
  · exact Or.inl recognised

/-- What a running chain says about the gate survives every call. -/
theorem behind_step {call : Call F} {c : Controller F} (sound : c.Sound)
    (behind : c.chain ≠ .none → c.hs = .ready ∧ c.knownClient = true ∧ c.subscribed = true)
    (running : (controllerStep lib c call).1.chain ≠ .none) :
    (controllerStep lib c call).1.hs = .ready ∧
      (controllerStep lib c call).1.knownClient = true ∧
      (controllerStep lib c call).1.subscribed = true := by
  have gateMove := controllerStep_gate lib call sound
  have move := controllerStep_move lib call sound
  generalize rpcs (controllerStep lib c call).2.sent = sent at move
  generalize (controllerStep lib c call).1 = c' at gateMove move running
  have same {c' : Controller F} (was : c.chain ≠ .none) (gate : SameGate c c') :
      c'.hs = .ready ∧ c'.knownClient = true ∧ c'.subscribed = true := by
    rw [gate.hs, gate.knownClient, gate.subscribed]
    exact behind was
  cases move with
  | quiet _ _ chain =>
      have was : c.chain ≠ .none := chain.chain ▸ running
      obtain ⟨ready, known, subscribed⟩ := behind was
      cases gateMove with
      | same flags => exact ⟨flags.hs.trans ready, flags.knownClient.trans known,
          flags.subscribed.trans subscribed⟩
      | mouse accepted =>
          obtain ⟨_, _, waiting, _⟩ := accepted
          simp [ready] at waiting
      | controller metadata accepted =>
          obtain ⟨_, _, waiting, _⟩ := accepted
          simp [ready] at waiting
      | update arg _ hs knownClient subscribed' _ =>
          exact ⟨hs.trans ready, knownClient.trans known, subscribed'.trans subscribed⟩
      | subscribe _ hs knownClient subscribed' _ =>
          exact ⟨hs.trans ready, knownClient.trans known, subscribed'⟩
  | goesOn _ was _ gate => exact same was gate
  | ended _ was _ gate => exact same was gate
  | restarted _ was _ gate => exact same was gate
  | queued _ _ was _ gate => exact same was gate
  | started _ gateOpen _ gate =>
      rw [gate.hs, gate.knownClient, gate.subscribed]
      exact ⟨gateOpen.1, gateOpen.2.1, gateOpen.2.2.1⟩

/-! ### What set a flag -/

theorem GateMove.mouse_before {call : Call F} {c c' : Controller F} (move : GateMove lib call c c')
    (later : c'.hs ≠ .waitMouse) : c.hs ≠ .waitMouse ∨ CreatesMouse lib c call := by
  cases move with
  | same flags => exact Or.inl (flags.hs ▸ later)
  | mouse accepted => exact Or.inr accepted
  | controller metadata accepted =>
      obtain ⟨_, _, waiting, _⟩ := accepted
      exact Or.inl (by simp [waiting])
  | update arg _ hs => exact Or.inl (hs ▸ later)
  | subscribe _ hs => exact Or.inl (hs ▸ later)

theorem GateMove.known_before {call : Call F} {c c' : Controller F} (move : GateMove lib call c c')
    (known : c'.knownClient = true) : c.knownClient = true ∨
      ∃ metadata, CreatesController lib metadata c call ∧ NamesKnownClient metadata := by
  cases move with
  | same flags => exact Or.inl (flags.knownClient ▸ known)
  | mouse _ _ knownClient => exact Or.inl (knownClient ▸ known)
  | controller metadata accepted _ knownClient =>
      rcases namesKnownClient_of_recognise (knownClient ▸ known) with before | names
      · exact Or.inl before
      · exact Or.inr ⟨metadata, accepted, names⟩
  | update arg _ _ knownClient => exact Or.inl (knownClient ▸ known)
  | subscribe _ _ knownClient => exact Or.inl (knownClient ▸ known)

theorem GateMove.subscribed_before {call : Call F} {c c' : Controller F}
    (move : GateMove lib call c c') (subscribed : c'.subscribed = true) :
    c.subscribed = true ∨ Subscribes lib c call := by
  cases move with
  | same flags => exact Or.inl (flags.subscribed ▸ subscribed)
  | mouse _ _ _ same => exact Or.inl (same ▸ subscribed)
  | controller metadata _ _ _ same => exact Or.inl (same ▸ subscribed)
  | update arg _ _ _ same => exact Or.inl (same ▸ subscribed)
  | subscribe subscribes => exact Or.inr subscribes

theorem handshaken_step {past : List (Call F)} {call : Call F}
    (so : Handshaken lib e past ((controllerMachine lib e).after past)) :
    Handshaken lib e (past ++ [call])
      (controllerStep lib ((controllerMachine lib e).after past) call).1 := by
  have sound := sound_after lib e past
  have gateMove := controllerStep_gate lib call sound
  refine ⟨?_, ?_, ?_, behind_step sound so.behind⟩
  · intro later
    rcases gateMove.mouse_before later with before | accepted
    · exact (so.mouse before).append [call]
    · exact (past_snoc past call).mpr (Or.inr accepted)
  · intro known
    rcases gateMove.known_before known with before | ⟨metadata, accepted, names⟩
    · exact (so.known before).append [call]
    · have waiting := accepted.choose_spec.2.1
      exact (past_snoc past call).mpr
        (Or.inr ⟨so.mouse (by simp [waiting]), metadata, accepted, names⟩)
  · intro subscribed
    rcases gateMove.subscribed_before subscribed with before | subscribes
    · exact (so.subscribed before).append [call]
    · exact (past_snoc past call).mpr (Or.inr subscribes)

/-- The flags of every state of a run are earned by its history. -/
theorem handshaken_after (lib : CJson D) (e : Env) (calls : List (Call F)) :
    Handshaken lib e calls ((controllerMachine lib e).after calls) := by
  refine (controllerMachine lib e).invariant ?_ (fun past call so => handshaken_step so) calls
  exact ⟨fun later => absurd rfl later, by simp [controllerMachine, controllerCreate],
    by simp [controllerMachine, controllerCreate], fun running => absurd rfl running⟩

/-- A call that sends an RPC finds the gate's one-way flags set. -/
theorem earned_of_sent {past : List (Call F)} {call : Call F}
    (sent : rpcsSent lib e past call ≠ []) :
    ((controllerMachine lib e).after past).knownClient = true ∧
      ((controllerMachine lib e).after past).subscribed = true := by
  have behind := (handshaken_after lib e past).behind
  have move := run_move lib e past call
  generalize rpcsSent lib e past call = rs at move sent
  cases move with
  | quiet => exact absurd rfl sent
  | goesOn _ running => exact (behind running).2
  | ended => exact absurd rfl sent
  | restarted _ running => exact (behind running).2
  | queued => exact absurd rfl sent
  | started _ gateOpen => exact ⟨gateOpen.2.1, gateOpen.2.2.1⟩

end Run

/-! ## The order of the handshake -/

/-- How far the handshake is. -/
def HsState.rank : HsState → Nat
  | .waitMouse => 0
  | .waitController => 1
  | .ready => 2

theorem HsState.rank_injective : Function.Injective HsState.rank := by
  intro s t same
  cases s <;> cases t <;> simp [HsState.rank] at same ⊢

/-- `hs` stays, or takes the next of its two steps. -/
def HsState.Next (s t : HsState) : Prop :=
  t = s ∨ (s = .waitMouse ∧ t = .waitController) ∨ (s = .waitController ∧ t = .ready)

theorem HsState.Next.rank_le {s t : HsState} (next : s.Next t) : s.rank ≤ t.rank := by
  rcases next with rfl | ⟨rfl, rfl⟩ | ⟨rfl, rfl⟩ <;> simp [HsState.rank]

theorem GateMove.next {lib : CJson D} {call : Call F} {c c' : Controller F}
    (move : GateMove lib call c c') : c.hs.Next c'.hs := by
  cases move with
  | same flags => exact Or.inl flags.hs
  | mouse accepted hs => exact Or.inr (Or.inl ⟨accepted.choose_spec.2.1, hs⟩)
  | controller metadata accepted hs => exact Or.inr (Or.inr ⟨accepted.choose_spec.2.1, hs⟩)
  | update _ _ hs => exact Or.inl hs
  | subscribe _ hs => exact Or.inl hs

section Run

variable (lib : CJson D) (e : Env)

/-- `hs` after a run. -/
def hsAfter (past : List (Call F)) : HsState := ((controllerMachine lib e).after past).hs

theorem hsAfter_next (past : List (Call F)) (call : Call F) :
    (hsAfter lib e past).Next (hsAfter lib e (past ++ [call])) := by
  simp only [hsAfter, Machine.after_snoc]
  exact (controllerStep_gate lib call (sound_after lib e past)).next

theorem hsAfter_mono (past rest : List (Call F)) :
    (hsAfter lib e past).rank ≤ (hsAfter lib e (past ++ rest)).rank := by
  apply (controllerMachine lib e).monotone (fun c => c.hs.rank)
  intro past call
  exact (hsAfter_next lib e past call).rank_le

/-- A state of the handshake that was left is not entered again. -/
theorem hsAfter_left (past : List (Call F)) (call : Call F) (rest : List (Call F))
    (left : hsAfter lib e (past ++ [call]) ≠ hsAfter lib e past) :
    hsAfter lib e (past ++ call :: rest) ≠ hsAfter lib e past := by
  intro back
  have up := (hsAfter_next lib e past call).rank_le
  have down := hsAfter_mono lib e (past ++ [call]) rest
  rw [List.append_assoc, List.singleton_append, back] at down
  exact left (HsState.rank_injective (le_antisymm down up))

/-- **The recognised-client gate.**  An RPC is sent only after the whole handshake of a
known client and a subscription to the controller, and `hs` takes its two steps in
order and once each. -/
theorem rpc_behind_handshake :
    (∀ past call, rpcsSent lib e past call ≠ [] →
      Recognised lib e past ∧ Past (At lib e (Subscribes lib)) past) ∧
    (∀ past call, (hsAfter lib e past).Next (hsAfter lib e (past ++ [call]))) ∧
    (∀ past call rest, hsAfter lib e (past ++ [call]) ≠ hsAfter lib e past →
      hsAfter lib e (past ++ call :: rest) ≠ hsAfter lib e past) := by
  refine ⟨fun past call sent => ?_, hsAfter_next lib e, hsAfter_left lib e⟩
  obtain ⟨known, subscribed⟩ := earned_of_sent sent
  exact ⟨(handshaken_after lib e past).known known,
    (handshaken_after lib e past).subscribed subscribed⟩

end Run

/-! ## A session -/

/-- The texts of a handshake, as the browser sends them. -/
def handshakeTexts : List (List UInt8 × Json ℚ) :=
  [(ascii "[1, \"ctrl\", \"wss://127.51.68.120/3dconnexion3dcontroller/\"]",
      .array [.number 1, .string (.lit "ctrl"),
        .string (.lit "wss://127.51.68.120/3dconnexion3dcontroller/")]),
    (ascii "[2, \"C1\", \"3dx_rpc:create\", \"3dconnexion:3dmouse\", \"1.7.14\"]",
      .array [.number 2, .string (.lit "C1"), .string (.lit "3dx_rpc:create"),
        .string (.lit "3dconnexion:3dmouse"), .string (.lit "1.7.14")]),
    (ascii "[2, \"C2\", \"3dx_rpc:create\", \"3dconnexion:3dcontroller\", \"mouse0\", \x7b\"name\": \"Onshape\"\x7d]",
      .array [.number 2, .string (.lit "C2"), .string (.lit "3dx_rpc:create"),
        .string (.lit "3dconnexion:3dcontroller"), .string (.lit "mouse0"),
        .object [(.lit "name", .string (.lit "Onshape"))]]),
    (ascii "[5, \"ctrl:controller0\"]",
      .array [.number 5, .string (.lit "ctrl:controller0")])]

/-- All bytes from the random source are zero, and the clock stands at `now`. -/
def Env.at (now : Int) : Env := ⟨fun _ => 0, now, now⟩

/-- The four messages that open the gate. -/
def handshake : List (Call ℚ) :=
  handshakeTexts.map fun text => ⟨.message text.1, .at 0⟩

def pushed : SbEvent := ⟨.motion, 40, 0, 0, 0, 0, 0⟩

theorem rpc_behind_handshake_session :
    Recognised (.ofTexts handshakeTexts) (.at 0) handshake ∧
      Past (At (.ofTexts handshakeTexts) (.at 0) (Subscribes (.ofTexts handshakeTexts)))
        handshake :=
  (rpc_behind_handshake (.ofTexts handshakeTexts) (.at 0)).1 handshake ⟨.spnav pushed, .at 0⟩
    (by decide +kernel)

end SpnavBridge.Kernel
