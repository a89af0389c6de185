/-
# Kernel.Outstanding -- one RPC is outstanding, and only its reply counts

`Outstanding` is the client's view: an RPC it was sent, did not answer, and whose chain
no timeout abandoned.  The controller keeps no such list, only the last identifier and
a step.  `Awaited` ties the two: an RPC is outstanding exactly when a chain runs
and it is the last one sent, and that one is what the current step asks for (`Waits`).
With identifiers that do not repeat every other reply -- late, duplicated, made up --
leaves state and output alone (`one_outstanding`).
-/
import SpnavBridge.Kernel.Gate
import Mathlib.Data.List.Nodup

namespace SpnavBridge.Kernel

open SpnavBridge.Theory SpnavBridge.Wire

set_option autoImplicit false
set_option linter.unusedSectionVars false

variable {D F : Type} [CFloat F] [CDouble D F]

/-- A CALLRESULT or CALLERROR that carries `callId`. -/
def Answers (lib : CJson D) (callId : CStr) (call : Call F) : Prop :=
  ∃ type items, messageIn lib call = some (type, items) ∧
    (type = wampCallresult ∨ type = wampCallerror) ∧ jsonStr items 1 = some callId

/-- A CALLRESULT or CALLERROR. -/
def IsReply (lib : CJson D) (call : Call F) : Prop :=
  ∃ type items, messageIn lib call = some (type, items) ∧
    (type = wampCallresult ∨ type = wampCallerror)

/-- A device event that finds the chain overdue. -/
def Abandons (c : Controller F) (call : Call F) : Prop :=
  ∃ ev, call.op = .spnav ev ∧ c.GateOpen ∧ c.TimedOut call.env

instance (c : Controller F) (call : Call F) : Decidable (Abandons c call) :=
  match op : call.op with
  | .spnav ev => decidable_of_iff (c.GateOpen ∧ c.TimedOut call.env)
      ⟨fun overdue => ⟨ev, op, overdue⟩, fun ⟨_, _, overdue⟩ => overdue⟩
  | .message _ => isFalse fun ⟨_, event, _⟩ => by simp [op] at event
  | .setSensitivity _ => isFalse fun ⟨_, event, _⟩ => by simp [op] at event

/-! ## Replies that match -/

theorem replyOf_isSome_iff (lib : CJson D) (c : Controller F) (call : Call F) :
    replyOf lib c call ≠ none ↔ c.chain ≠ .none ∧ Answers lib c.pendingCallId.str call := by
  cases op : call.op with
  | message json =>
      simp only [replyOf, op, matchedReply, Answers, messageIn]
      cases message : messageOf (lib.parseWithLength json) with
      | none => simp
      | some typed =>
          obtain ⟨type, items⟩ := typed
          simp only [ne_eq, ite_eq_right_iff, reduceCtorEq, imp_false, not_not, Option.some.injEq,
            Prod.mk.injEq]
          constructor
          · rintro ⟨isReply, running, same⟩
            exact ⟨running, type, items, ⟨rfl, rfl⟩, isReply, same⟩
          · rintro ⟨running, _, _, ⟨rfl, rfl⟩, isReply, same⟩
            exact ⟨isReply, running, same⟩
  | spnav ev => simp [replyOf, op, Answers, messageIn]
  | setSensitivity s => simp [replyOf, op, Answers, messageIn]

/-- A reply that answers no outstanding RPC changes nothing and sends nothing. -/
theorem unmatched_reply_unchanged {lib : CJson D} {c : Controller F} {call : Call F}
    (isReply : IsReply lib call) (unanswered : replyOf lib c call = none) :
    controllerStep lib c call = (c, ⟨0, []⟩) := by
  obtain ⟨type, items, message, typed⟩ := isReply
  cases op : call.op with
  | message json =>
      simp only [messageIn, op] at message
      have other : ¬ (c.chain ≠ .none ∧ jsonStr items 1 = some c.pendingCallId.str) := by
        intro matched
        simp [replyOf, op, matchedReply, message, typed, matched] at unanswered
      have quiet : dispatch call.env c type items = (c, [], 0) := by
        rcases typed with rfl | rfl <;>
          simp [dispatch, wampPrefix, wampCall, wampSubscribe, wampCallresult, wampCallerror,
            onReply, other]
      simp [controllerStep, op, controllerOnMessage, message, quiet]
  | spnav ev => simp [messageIn, op] at message
  | setSensitivity s => simp [messageIn, op] at message

/-! ## The RPCs of a run -/

section Run

variable (lib : CJson D) (e : Env)

/-- Every RPC the run sent, oldest first. -/
def sentRpcs (calls : List (Call F)) : List (Rpc D) :=
  rpcs (((controllerMachine lib e).answers calls).flatMap Answer.sent)

@[simp] theorem sentRpcs_snoc (past : List (Call F)) (call : Call F) :
    sentRpcs lib e (past ++ [call]) = sentRpcs lib e past ++ rpcsSent lib e past call := by
  simp [sentRpcs, rpcsSent, rpcs]

/-- Sent, unanswered since, and its chain not abandoned. -/
def Outstanding (calls : List (Call F)) (r : Rpc D) : Prop :=
  ∃ past call rest, calls = past ++ call :: rest ∧ r ∈ rpcsSent lib e past call ∧
    Along (fun since next => ¬ Answers lib r.callId next ∧
      ¬ Abandons ((controllerMachine lib e).after (past ++ call :: since)) next) rest

variable {lib} {e}

theorem not_outstanding_nil (r : Rpc D) : ¬ Outstanding lib e ([] : List (Call F)) r := by
  rintro ⟨past, call, rest, split, -⟩
  simp at split

theorem outstanding_snoc (calls : List (Call F)) (next : Call F) (r : Rpc D) :
    Outstanding lib e (calls ++ [next]) r ↔ r ∈ rpcsSent lib e calls next ∨
      (Outstanding lib e calls r ∧ ¬ Answers lib r.callId next ∧
        ¬ Abandons ((controllerMachine lib e).after calls) next) := by
  constructor
  · rintro ⟨past, call, rest, split, sent, open_⟩
    rcases List.eq_nil_or_concat rest with rfl | ⟨rest', last, rfl⟩
    · obtain ⟨rfl, same⟩ := List.append_inj' split rfl
      obtain rfl : next = call := by simpa using same
      exact Or.inl sent
    · have split' : calls ++ [next] = (past ++ call :: rest') ++ [last] := by simpa using split
      obtain ⟨rfl, same⟩ := List.append_inj' split' rfl
      obtain rfl : next = last := by simpa using same
      rw [List.concat_eq_append] at open_
      obtain ⟨before, now⟩ := (along_snoc rest' next).mp open_
      exact Or.inr ⟨⟨past, call, rest', rfl, sent, before⟩, now⟩
  · rintro (sent | ⟨⟨past, call, rest, rfl, sent, open_⟩, now⟩)
    · exact ⟨calls, next, [], rfl, sent, along_nil⟩
    · exact ⟨past, call, rest ++ [next], by simp, sent, (along_snoc rest next).mpr ⟨open_, now⟩⟩

/-- The last RPC sent is the one a running chain waits for, and it alone is outstanding. -/
structure Awaited (lib : CJson D) (e : Env) (calls : List (Call F)) (c : Controller F) : Prop where
  last : c.chain ≠ .none → ∃ r, (sentRpcs lib e calls).getLast? = some r ∧ Waits c r
  only : ∀ r, Outstanding lib e calls r ↔
    c.chain ≠ .none ∧ (sentRpcs lib e calls).getLast? = some r

/-- A step that sends one RPC makes it the outstanding one, where what was outstanding
before is answered or abandoned. -/
theorem awaited_of_sent {calls : List (Call F)} {next : Call F} {c' : Controller F} {r : Rpc D}
    (sent : rpcsSent lib e calls next = [r]) (waits : Waits c' r)
    (closed : ∀ old, Outstanding lib e calls old →
      Answers lib old.callId next ∨ Abandons ((controllerMachine lib e).after calls) next) :
    Awaited lib e (calls ++ [next]) c' := by
  constructor
  · intro _
    exact ⟨r, by simp [sent], waits⟩
  · intro r'
    simp only [outstanding_snoc, sentRpcs_snoc, sent, List.mem_singleton,
      List.getLast?_append, List.getLast?_singleton, Option.some_or, Option.some.injEq]
    constructor
    · rintro (rfl | ⟨was, unanswered, kept⟩)
      · exact ⟨waits.running, rfl⟩
      · rcases closed r' was with answered | abandoned
        · exact absurd answered unanswered
        · exact absurd abandoned kept
    · rintro ⟨-, rfl⟩
      exact Or.inl rfl

theorem Waits.of_same {c c' : Controller F} {r : Rpc D} (waits : Waits c r)
    (run : SameRun c c') (stays : SameStep c c') : Waits c' r where
  running := run.chain ▸ waits.running
  kind := by rw [stays.step, run.chain, waits.kind]
  callId := by rw [waits.callId, stays.pendingCallId]
  request := by rw [waits.request, stays.step]
  uri := waits.uri

/-- A step that sends nothing and leaves chain and step alone leaves the outstanding RPC. -/
theorem awaited_of_silent {calls : List (Call F)} {next : Call F} {c c' : Controller F}
    (awaited : Awaited lib e calls c) (at_ : (controllerMachine lib e).after calls = c)
    (silent : rpcsSent lib e calls next = []) (run : SameRun c c') (stays : SameStep c c')
    (unanswered : replyOf lib c next = none) (kept : ¬ Abandons c next) :
    Awaited lib e (calls ++ [next]) c' := by
  constructor
  · intro running
    obtain ⟨r, last, waits⟩ := awaited.last (run.chain ▸ running)
    exact ⟨r, by simp [silent, last], waits.of_same run stays⟩
  · intro r
    simp only [outstanding_snoc, sentRpcs_snoc, silent, List.not_mem_nil, false_or,
      List.append_nil, awaited.only, at_, run.chain]
    constructor
    · exact And.left
    · rintro ⟨running, last⟩
      refine ⟨⟨running, last⟩, fun answers => ?_, kept⟩
      obtain ⟨r', last', waits⟩ := awaited.last running
      obtain rfl : r = r' := Option.some.inj (last.symm.trans last')
      exact (replyOf_isSome_iff lib c next).mpr ⟨running, waits.callId ▸ answers⟩ unanswered

theorem awaited_step {calls : List (Call F)} {next : Call F}
    (awaited : Awaited lib e calls ((controllerMachine lib e).after calls)) :
    Awaited lib e (calls ++ [next]) ((controllerMachine lib e).after (calls ++ [next])) := by
  have move := run_move lib e calls next
  generalize sent : rpcsSent lib e calls next = rs at move
  generalize (controllerMachine lib e).after (calls ++ [next]) = c' at move ⊢
  generalize now : (controllerMachine lib e).after calls = c at move awaited
  -- a matched reply answers what was outstanding
  have answers : ∀ {reply : Reply D}, replyOf lib c next = some reply →
      ∀ old, Outstanding lib e calls old → Answers lib old.callId next := by
    intro reply answered old was
    obtain ⟨running, last⟩ := (awaited.only old).mp was
    obtain ⟨r, last', waits⟩ := awaited.last running
    obtain rfl : old = r := Option.some.inj (last.symm.trans last')
    rw [waits.callId]
    exact ((replyOf_isSome_iff lib c next).mp (by simp [answered])).2
  cases move with
  | quiet unanswered shut chain =>
      apply awaited_of_silent awaited now sent chain.toSameRun chain.toSameStep unanswered
      rintro ⟨ev, event, gate, -⟩
      exact shut ev event gate
  | goesOn answered _ _ _ _ _ waits =>
      exact awaited_of_sent sent waits fun old was => Or.inl (answers answered old was)
  | ended answered _ _ _ _ _ _ idle =>
      refine ⟨fun running => absurd idle running, fun r => ?_⟩
      simp only [outstanding_snoc, sent, List.not_mem_nil, false_or, idle, ne_eq, not_true,
        false_and, iff_false, not_and]
      intro was unanswered
      exact absurd (answers answered r was) unanswered
  | restarted answered _ _ _ _ starts =>
      exact awaited_of_sent sent starts.waits fun old was => Or.inl (answers answered old was)
  | queued event gate running inTime _ run stays =>
      apply awaited_of_silent awaited now sent run stays (by simp [replyOf, event])
      rintro ⟨ev, -, -, overdue⟩
      exact inTime overdue
  | started event gateOpen free _ starts =>
      refine awaited_of_sent sent starts.waits fun old was => Or.inr ?_
      rcases free with idle | overdue
      · exact absurd idle ((awaited.only old).mp was).1
      · rw [now]
        exact ⟨_, event, gateOpen, overdue⟩

theorem awaited_after (lib : CJson D) (e : Env) (calls : List (Call F)) :
    Awaited lib e calls ((controllerMachine lib e).after calls) := by
  induction calls using List.reverseRecOn with
  | nil =>
      refine ⟨fun running => absurd rfl running, fun r => ?_⟩
      exact iff_of_false (not_outstanding_nil r) (fun both => both.1 rfl)
  | append_singleton calls next ih => exact awaited_step ih

/-! ## The result -/

variable (lib) (e)

/-- What the state after a run says about the RPCs of that run. -/
structure OneOutstanding (calls : List (Call F)) (c : Controller F) : Prop where
  idle : c.chain = .none → c.havePendingMotion = false ∧ c.havePendingButton = false
  typed : c.chain ≠ .none → c.step.kind = c.chain
  last : c.chain ≠ .none → ∃ before r, sentRpcs lib e calls = before ++ [r] ∧
    r.callId = c.pendingCallId.str ∧ (r.kind, r.prop) = c.step.request
  only : ∀ r, Outstanding lib e calls r ↔
    c.chain ≠ .none ∧ (sentRpcs lib e calls).getLast? = some r
  counts : ∀ call, IsReply lib call → controllerStep lib c call ≠ (c, ⟨0, []⟩) →
    ∃ r, Outstanding lib e calls r ∧ Answers lib r.callId call
  late : ∀ call r, r ∈ sentRpcs lib e calls → ¬ Outstanding lib e calls r →
    Answers lib r.callId call → controllerStep lib c call = (c, ⟨0, []⟩)

theorem Answers.isReply {lib : CJson D} {callId : CStr} {call : Call F}
    (answers : Answers lib callId call) : IsReply lib call := by
  obtain ⟨type, items, message, typed, -⟩ := answers
  exact ⟨type, items, message, typed⟩

theorem Answers.callId_unique {lib : CJson D} {a b : CStr} {call : Call F}
    (first : Answers lib a call) (second : Answers lib b call) : a = b := by
  obtain ⟨type, items, message, -, named⟩ := first
  obtain ⟨type', items', message', -, named'⟩ := second
  rw [message, Option.some.injEq, Prod.mk.injEq] at message'
  obtain ⟨rfl, rfl⟩ := message'
  exact Option.some.inj (named.symm.trans named')

/-- A reply that does something answers the outstanding RPC. -/
theorem reply_counts {calls : List (Call F)} {call : Call F} (isReply : IsReply lib call)
    (acts : controllerStep lib ((controllerMachine lib e).after calls) call ≠
      ((controllerMachine lib e).after calls, ⟨0, []⟩)) :
    ∃ r, Outstanding lib e calls r ∧ Answers lib r.callId call := by
  have awaited := awaited_after lib e calls
  have answered : replyOf lib ((controllerMachine lib e).after calls) call ≠ none :=
    fun unanswered => acts (unmatched_reply_unchanged isReply unanswered)
  obtain ⟨running, answers⟩ := (replyOf_isSome_iff lib _ call).mp answered
  obtain ⟨r, last, waits⟩ := awaited.last running
  exact ⟨r, (awaited.only r).mpr ⟨running, last⟩, waits.callId ▸ answers⟩

/-- **One RPC is outstanding, and each reply counts once.** -/
theorem one_outstanding (calls : List (Call F))
    (distinct : ((sentRpcs lib e calls).map (·.callId)).Nodup) :
    OneOutstanding lib e calls ((controllerMachine lib e).after calls) := by
  have awaited := awaited_after lib e calls
  have sound := sound_after lib e calls
  refine ⟨sound.empty, sound.typed, ?_, awaited.only, fun call => reply_counts lib e, ?_⟩
  · intro running
    obtain ⟨r, last, waits⟩ := awaited.last running
    obtain ⟨before, split⟩ := List.getLast?_eq_some_iff.mp last
    exact ⟨before, r, split, waits.callId, waits.request⟩
  · intro call r sent closed answers
    by_contra acts
    obtain ⟨r', open_, answers'⟩ := reply_counts lib e answers.isReply acts
    have sent' : r' ∈ sentRpcs lib e calls :=
      List.mem_of_getLast? ((awaited.only r').mp open_).2
    have same := List.inj_on_of_nodup_map distinct sent sent' (answers.callId_unique answers')
    exact closed (same ▸ open_)

end Run

/-- The bytes from the random source are all `b`, so that another `b` draws another identifier. -/
def Env.drawing (b : UInt8) : Env := ⟨fun _ => b, 0, 0⟩

/-- The answer to the first RPC of a session. -/
def firstAnswer : List UInt8 := ascii "[3, \"AAAAAAAAAAAAAAAAAA\", [-1, -1, -1, 1, 1, 1]]"

def answerTexts : List (List UInt8 × Json ℚ) :=
  handshakeTexts ++
    [(firstAnswer, .array [.number 3, .string (.lit "AAAAAAAAAAAAAAAAAA"),
      .array [.number (-1), .number (-1), .number (-1), .number 1, .number 1, .number 1]])]

/-- A push and its answer, which makes the controller send a second RPC, and the answer again. -/
def answeredTwice : List (Call ℚ) :=
  handshake ++ [⟨.spnav pushed, .drawing 0⟩, ⟨.message firstAnswer, .drawing 1⟩,
    ⟨.message firstAnswer, .drawing 2⟩]

/-- The second RPC is outstanding, and a third copy of the answer to the first one is nothing. -/
theorem one_outstanding_session :
    let lib : CJson ℚ := .ofTexts answerTexts
    let c := (controllerMachine lib (.at 0)).after answeredTwice
    (sentRpcs lib (.at 0) answeredTwice).map (·.callId) =
        [.lit "AAAAAAAAAAAAAAAAAA", .lit "BBBBBBBBBBBBBBBBBB"] ∧
      OneOutstanding lib (.at 0) answeredTwice c ∧
      controllerStep lib c ⟨.message firstAnswer, .drawing 3⟩ = (c, ⟨0, []⟩) := by
  intro lib c
  have ids : (sentRpcs lib (.at 0) answeredTwice).map (·.callId) =
      [.lit "AAAAAAAAAAAAAAAAAA", .lit "BBBBBBBBBBBBBBBBBB"] := by decide +kernel
  have one : OneOutstanding lib (.at 0) answeredTwice c :=
    one_outstanding lib (.at 0) answeredTwice (by rw [ids]; decide +kernel)
  refine ⟨ids, one, ?_⟩
  obtain ⟨first, sent, named⟩ : ∃ r ∈ sentRpcs lib (.at 0) answeredTwice,
      r.callId = .lit "AAAAAAAAAAAAAAAAAA" := by
    rw [← List.mem_map, ids]
    exact List.mem_cons_self
  refine one.late _ first sent (fun open_ => ?_) ?_
  · have last := congrArg (Option.map (·.callId)) ((one.only first).mp open_).2
    rw [← List.getLast?_map, ids, Option.map_some, named] at last
    exact absurd last (by decide +kernel)
  · rw [named]
    exact ⟨_, _, rfl, Or.inl (by decide +kernel), rfl⟩

end SpnavBridge.Kernel
