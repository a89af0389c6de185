/-
# Kernel.Focus -- a new chain and the client's focus

`controller_on_spnav_event` starts a chain only where the client has the focus.
`chain_finished` starts the queued one without asking, so an event that was queued
before the client reported `focus:false` is still served after it.  The gate therefore
holds on a run exactly when no reply ends a chain while the focus is away and an event
is queued (`focusGate_iff`); `unfocused_restart` is a run in which one does.
-/
import SpnavBridge.Kernel.Gate

namespace SpnavBridge.Kernel

open SpnavBridge.Theory SpnavBridge.Wire

set_option autoImplicit false
set_option linter.unusedSectionVars false

variable {D F : Type} [CFloat F] [CDouble D F]

/-! ## The gate -/

/-- The RPC a chain is started with. -/
def Rpc.opens (r : Rpc D) : Prop := r.kind = selfRead ∧ r.prop = .lit "model.extents"

instance (r : Rpc D) : Decidable (Rpc.opens r) := inferInstanceAs (Decidable (_ ∧ _))

/-- The client said through the update RPC whether it has the focus. -/
def ReportsFocus (lib : CJson D) (focused : Bool) (c : Controller F) (call : Call F) : Prop :=
  ∃ members value, Updates lib (some (.object members)) c call ∧
    Json.getObjectItem members (.lit "focus") = some value ∧ Json.isTrue (some value) = focused

section Run

variable (lib : CJson D) (e : Env)

/-- The call starts a chain. -/
def StartsChain (past : List (Call F)) (call : Call F) : Prop :=
  ∃ r ∈ rpcsSent lib e past call, Rpc.opens r

instance (past : List (Call F)) (call : Call F) : Decidable (StartsChain lib e past call) :=
  inferInstanceAs (Decidable (∃ r ∈ rpcsSent lib e past call, Rpc.opens r))

/-- The client subscribed, or reported that it has the focus. -/
def RegainsFocus (past : List (Call F)) (call : Call F) : Prop :=
  At lib e (Subscribes lib) past call ∨ At lib e (ReportsFocus lib true) past call

/-- Chains are started in focus only: the flag is set at every start, and no start lies
between a report that the focus is gone and the client's return. -/
structure FocusGate (calls : List (Call F)) : Prop where
  flag : Along (fun past call => StartsChain lib e past call →
    ((controllerMachine lib e).after (past ++ [call])).focus = true) calls
  silent : ∀ front x mid y rest, calls = front ++ x :: (mid ++ y :: rest) →
    At lib e (ReportsFocus lib false) front x →
    Along (fun since call => ¬ RegainsFocus lib e (front ++ x :: since) call) mid →
    ¬ StartsChain lib e (front ++ x :: mid) y

/-- The reply that ends the running chain arrives while the focus is away and an event
is queued. -/
def StaleRestart (past : List (Call F)) (call : Call F) : Prop :=
  let c := (controllerMachine lib e).after past
  c.focus = false ∧ (c.havePendingButton = true ∨ c.havePendingMotion = true) ∧
    ∃ reply, replyOf lib c call = some reply ∧ reply.ends c.step = true

variable {lib} {e}

/-! ## One step -/

theorem Waits.opens_iff {c : Controller F} {r : Rpc D} (waits : Waits c r) :
    Rpc.opens r ↔ c.step.first := by
  have prop : r.prop = c.step.request.2 := congrArg Prod.snd waits.request
  have kind : r.kind = c.step.request.1 := congrArg Prod.fst waits.request
  rw [Rpc.opens, prop, kind, ← ChainStep.request_modelExtents]
  constructor
  · exact And.right
  · intro extents
    refine ⟨?_, extents⟩
    rcases (ChainStep.request_modelExtents _).mp extents with first | first <;>
      simp [first, ChainStep.request]

/-- A call that sends the RPC a chain is started with has started that chain, in place of
one that its reply ended, or for its event. -/
theorem Move.of_opens {call : Call F} {c c' : Controller F} {rs : List (Rpc D)} {r : Rpc D}
    (move : Move lib call c c' rs) (sent : r ∈ rs) (opens : Rpc.opens r) :
    rs = [r] ∧ Starts call.env c' r ∧ SameGate c c' ∧
      ((∃ reply, replyOf lib c call = some reply ∧ reply.ends c.step = true) ∨
        ∃ ev, call.op = .spnav ev ∧ (c.chain = .none ∨ c.TimedOut call.env)) := by
  cases move with
  | quiet => simp at sent
  | goesOn _ _ _ _ _ _ waits later =>
      obtain rfl := List.mem_singleton.mp sent
      exact absurd (waits.opens_iff.mp opens) later
  | ended => simp at sent
  | restarted answered _ ends gate _ starts =>
      obtain rfl := List.mem_singleton.mp sent
      exact ⟨rfl, starts, gate, Or.inl ⟨_, answered, ends⟩⟩
  | queued => simp at sent
  | started event _ free gate starts =>
      obtain rfl := List.mem_singleton.mp sent
      exact ⟨rfl, starts, gate, Or.inr ⟨_, event, free⟩⟩

/-- A start finds the focus away exactly at a stale restart. -/
theorem start_focused_iff (past : List (Call F)) (call : Call F) :
    (StartsChain lib e past call →
      ((controllerMachine lib e).after (past ++ [call])).focus = true) ↔
    ¬ StaleRestart lib e past call := by
  have move := run_move lib e past call
  unfold StartsChain StaleRestart
  generalize rpcsSent lib e past call = rs at move
  generalize (controllerMachine lib e).after (past ++ [call]) = c' at move
  generalize (controllerMachine lib e).after past = c at move
  cases move with
  | quiet unanswered => simp [unanswered]
  | goesOn answered _ goes _ _ _ waits later =>
      simp [waits.opens_iff, later, answered, goes]
  | ended _ _ _ _ _ noMotion noButton => simp [noMotion, noButton]
  | restarted answered _ ends gate queued starts =>
      simp [starts.waits.opens_iff, starts.first, answered, ends, queued, gate.focus]
  | queued event => simp [replyOf, event]
  | started event gateOpen _ gate => simp [replyOf, event, gate.focus, gateOpen.2.2.2]

/-- Without the client's return the focus stays away. -/
theorem focus_stays {past : List (Call F)} {call : Call F}
    (away : ((controllerMachine lib e).after past).focus = false)
    (still : ¬ RegainsFocus lib e past call) :
    ((controllerMachine lib e).after (past ++ [call])).focus = false := by
  have gateMove := controllerStep_gate lib call (sound_after lib e past)
  rw [Machine.after_snoc]
  cases gateMove with
  | same flags => exact flags.focus.trans away
  | mouse _ _ _ _ focus => exact focus.trans away
  | controller _ _ _ _ _ focus => exact focus.trans away
  | update arg updates _ _ _ focus =>
      apply focus.trans
      unfold reportedFocus
      split
      · rename_i members
        cases item : Json.getObjectItem members (.lit "focus") with
        | none => exact away
        | some value =>
            by_contra back
            exact still (Or.inr ⟨members, value, updates, item, by simpa using back⟩)
      · exact away
  | subscribe subscribes => exact absurd (Or.inl subscribes) still

theorem focus_reported {past : List (Call F)} {call : Call F}
    (reports : At lib e (ReportsFocus lib false) past call) :
    ((controllerMachine lib e).after (past ++ [call])).focus = false := by
  obtain ⟨members, value, updates, item, isFalse⟩ := reports
  obtain ⟨items, callId, procUri, message, ready, called, proc, resolved, arg⟩ := updates
  rw [Machine.after_snoc]
  show (controllerStep lib ((controllerMachine lib e).after past) call).1.focus = false
  generalize (controllerMachine lib e).after past = c at ready resolved
  cases op : call.op with
  | message json =>
      simp only [messageIn, op] at message
      have isCall : ¬ wampCall = wampPrefix := by decide
      simp only [controllerStep, op, controllerOnMessage, message, dispatch, if_neg isCall, if_true,
        onCall, called, proc, ready, onReadyCall, if_pos resolved, arg]
      simp only [reportedFocus, item, isFalse]
  | spnav ev => simp [messageIn, op] at message
  | setSensitivity s => simp [messageIn, op] at message

/-! ## Runs -/

/-- The focus is away from the report on. -/
theorem focus_away {front : List (Call F)} {x : Call F} {mid : List (Call F)}
    (reports : At lib e (ReportsFocus lib false) front x)
    (still : Along (fun since call => ¬ RegainsFocus lib e (front ++ x :: since) call) mid) :
    ((controllerMachine lib e).after (front ++ x :: mid)).focus = false := by
  induction mid using List.reverseRecOn with
  | nil => exact focus_reported reports
  | append_singleton mid y ih =>
      obtain ⟨before, last⟩ := (along_snoc mid y).mp still
      have split : front ++ x :: (mid ++ [y]) = (front ++ x :: mid) ++ [y] := by simp
      rw [split]
      exact focus_stays (ih before) last

/-- A start leaves the focus as it found it. -/
theorem focus_of_starts {past : List (Call F)} {call : Call F}
    (starts : StartsChain lib e past call) :
    ((controllerMachine lib e).after (past ++ [call])).focus =
      ((controllerMachine lib e).after past).focus := by
  obtain ⟨r, sent, opens⟩ := starts
  obtain ⟨-, -, gate, -⟩ := (run_move lib e past call).of_opens sent opens
  exact gate.focus

variable (lib) (e)

/-- **The focus gate holds on exactly the runs without a stale restart.** -/
theorem focusGate_iff (calls : List (Call F)) :
    FocusGate lib e calls ↔ Along (fun past call => ¬ StaleRestart lib e past call) calls := by
  constructor
  · intro gate past call rest split
    exact (start_focused_iff past call).mp (gate.flag past call rest split)
  · intro clean
    have flag : Along (fun past call => StartsChain lib e past call →
        ((controllerMachine lib e).after (past ++ [call])).focus = true) calls :=
      fun past call rest split => (start_focused_iff past call).mpr (clean past call rest split)
    refine ⟨flag, fun front x mid y rest split reports still starts => ?_⟩
    have set := flag (front ++ x :: mid) y rest (by simp [split]) starts
    rw [focus_of_starts starts, focus_away reports still] at set
    exact Bool.false_ne_true set

end Run

/-! ## The restart out of focus -/

/-- The handshake, the update RPC that gives the focus away, and an error reply. -/
def focusTexts : List (List UInt8 × Json ℚ) :=
  handshakeTexts ++
    [(ascii "[1, \"3dx_rpc\", \"wss://127.51.68.120/3dconnexion#\"]",
        .array [.number 1, .string (.lit "3dx_rpc"),
          .string (.lit "wss://127.51.68.120/3dconnexion#")]),
      (ascii "[2, \"C3\", \"3dx_rpc:update\", \x7b\"focus\": false\x7d]",
        .array [.number 2, .string (.lit "C3"), .string (.lit "3dx_rpc:update"),
          .object [(.lit "focus", .bool false)]]),
      (ascii "[4, \"AAAAAAAAAAAAAAAAAA\", \"error\", \"\", null]",
        .array [.number 4, .string (.lit "AAAAAAAAAAAAAAAAAA"), .string (.lit "error"),
          .string (.lit ""), .null])]

/-- The client is pushed twice, gives the focus away, and then answers the first chain
with an error. -/
def unfocusedCalls : List (Call ℚ) :=
  handshake ++
    [⟨.message (ascii "[1, \"3dx_rpc\", \"wss://127.51.68.120/3dconnexion#\"]"), .at 0⟩,
      ⟨.spnav pushed, .at 0⟩, ⟨.spnav pushed, .at 0⟩,
      ⟨.message (ascii "[2, \"C3\", \"3dx_rpc:update\", \x7b\"focus\": false\x7d]"), .at 0⟩]

/-- The error reply starts the chain of the second push, without the focus. -/
theorem unfocused_restart :
    ¬ FocusGate (.ofTexts focusTexts) (.at 0) (unfocusedCalls ++
      [⟨.message (ascii "[4, \"AAAAAAAAAAAAAAAAAA\", \"error\", \"\", null]"), .at 0⟩]) := by
  intro gate
  have set := gate.flag unfocusedCalls _ [] rfl (by decide +kernel)
  revert set
  decide +kernel

end SpnavBridge.Kernel
