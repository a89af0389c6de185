/-
# Theory.Dialogue -- sequential programs that ask and wait, and machines that play them

A `Dialogue Q R` asks a question, waits for the reply and goes on with what the reply
says, until it is done.  It is the straight-line reading of a callback machine whose
states say where in the program it stands.

A reactive machine (`step`, with `reply` telling which inputs carry a reply) plays such
programs one after the other; a question that `opens` begins a new one.  `Plays` lists
what one step has to do for that, and `Plays.asked_eq` is the rule: what the machine asks
until the next program begins is what the program asks on the replies the machine heard.
-/
import Mathlib.Data.List.TakeWhile

namespace SpnavBridge.Theory

set_option autoImplicit false

universe u v

inductive Dialogue (Q : Type u) (R : Type v) where
  | done
  | ask (question : Q) (next : R → Dialogue Q R)

namespace Dialogue

variable {Q : Type u} {R : Type v}

/-- The questions asked when `replies` come in; the last one may be left unanswered. -/
def trace : Dialogue Q R → List R → List Q
  | .done, _ => []
  | .ask question _, [] => [question]
  | .ask question next, reply :: replies => question :: (next reply).trace replies

@[simp] theorem trace_done (replies : List R) : (done : Dialogue Q R).trace replies = [] := by
  cases replies <;> rfl

/-- The questions after the one that waits for the first of `replies`. -/
def resumed (next : R → Dialogue Q R) : List R → List Q
  | [] => []
  | reply :: replies => (next reply).trace replies

theorem trace_ask (question : Q) (next : R → Dialogue Q R) (replies : List R) :
    (ask question next).trace replies = question :: resumed next replies := by
  cases replies <;> rfl

end Dialogue

/-! ## Machines that play programs -/

section Playing

variable {σ ι : Type*} {Q : Type u} {R : Type v}
variable (step : σ → ι → σ × List Q) (reply : σ → ι → Option R)

/-- The questions asked along the inputs. -/
def asked : σ → List ι → List Q
  | _, [] => []
  | s, x :: rest => (step s x).2 ++ asked (step s x).1 rest

/-- The replies heard along the inputs. -/
def heard : σ → List ι → List R
  | _, [] => []
  | s, x :: rest => (reply s x).toList ++ heard (step s x).1 rest

/-- Every input meets the condition in the state that receives it. -/
def Allows (ok : σ → ι → Prop) : σ → List ι → Prop
  | _, [] => True
  | s, x :: rest => ok s x ∧ Allows ok (step s x).1 rest

instance Allows.decidable {ok : σ → ι → Prop} [∀ s x, Decidable (ok s x)] :
    ∀ s inputs, Decidable (Allows step ok s inputs)
  | _, [] => inferInstanceAs (Decidable True)
  | s, x :: rest =>
      have : Decidable (Allows step ok (step s x).1 rest) := Allows.decidable _ rest
      inferInstanceAs (Decidable (ok s x ∧ Allows step ok (step s x).1 rest))

/-- What one step of a machine that plays programs does.  `Waits s next` says that the
machine waits for the reply that `next` takes. -/
structure Plays (ok : σ → ι → Prop) (opens : Q → Bool) (Idle : σ → Prop)
    (Waits : σ → (R → Dialogue Q R) → Prop) : Prop where
  idle : ∀ s x, Idle s → ok s x →
    ((step s x).2 = [] ∧ Idle (step s x).1) ∨
      ∃ q rest, (step s x).2 = q :: rest ∧ opens q = true
  waits : ∀ s next x, Waits s next → ok s x → reply s x = none →
    (step s x).2 = [] ∧ Waits (step s x).1 next
  hears : ∀ s next x r, Waits s next → ok s x → reply s x = some r →
    (next r = .done ∧ (((step s x).2 = [] ∧ Idle (step s x).1) ∨
      ∃ q rest, (step s x).2 = q :: rest ∧ opens q = true)) ∨
    ∃ q next', next r = .ask q next' ∧ (step s x).2 = [q] ∧ opens q = false ∧
      Waits (step s x).1 next'

variable {step} {reply} {ok : σ → ι → Prop} {opens : Q → Bool} {Idle : σ → Prop}
  {Waits : σ → (R → Dialogue Q R) → Prop}

/-- An idle machine asks nothing before it opens a program. -/
theorem Plays.asked_idle (plays : Plays step reply ok opens Idle Waits) (inputs : List ι) :
    ∀ s, Idle s → Allows step ok s inputs →
      (asked step s inputs).takeWhile (fun q => !opens q) = [] := by
  induction inputs with
  | nil => intro s _ _; rfl
  | cons x rest ih =>
      intro s idle allowed
      rcases plays.idle s x idle allowed.1 with ⟨silent, still⟩ | ⟨q, more, sent, first⟩
      · rw [asked, silent, List.nil_append]
        exact ih _ still allowed.2
      · simp [asked, sent, first]

/-- **The playing rule.**  Until the next program opens, the machine asks what its
program asks. -/
theorem Plays.asked_eq (plays : Plays step reply ok opens Idle Waits) (inputs : List ι) :
    ∀ s next, Waits s next → Allows step ok s inputs →
      (asked step s inputs).takeWhile (fun q => !opens q) =
        Dialogue.resumed next (heard step reply s inputs) := by
  induction inputs with
  | nil => intro s next _ _; rfl
  | cons x rest ih =>
      intro s next waits allowed
      cases answer : reply s x with
      | none =>
          obtain ⟨silent, still⟩ := plays.waits s next x waits allowed.1 answer
          simp only [asked, heard, silent, answer, List.nil_append, Option.toList_none]
          exact ih _ next still allowed.2
      | some r =>
          simp only [heard, answer, Option.toList_some, List.singleton_append, Dialogue.resumed]
          rcases plays.hears s next x r waits allowed.1 answer with
            ⟨done, ⟨silent, idle⟩ | ⟨q, more, sent, first⟩⟩ | ⟨q, next', goes, sent, later, still⟩
          · rw [done, Dialogue.trace_done, asked, silent, List.nil_append]
            exact plays.asked_idle rest _ idle allowed.2
          · simp [asked, sent, first, done]
          · rw [goes, Dialogue.trace_ask, asked, sent, List.singleton_append,
              List.takeWhile_cons_of_pos (by simp [later]), ih _ next' still allowed.2]

end Playing

end SpnavBridge.Theory
