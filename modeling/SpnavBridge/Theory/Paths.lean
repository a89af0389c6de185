/-
# Theory.Paths -- paths of a transition system that puts out events

A transition takes a state to the next and puts out a list of events, oldest first.  A
`Path` is any number of transitions, with all their events.

* `Path.trans`: paths are joined.
* `Path.invariant`: what every transition keeps, given the events so far, a path keeps.
* `Path.mono`: a path of some transitions is a path of others that allow them.
-/
import Mathlib.Tactic.Common

namespace SpnavBridge.Theory

set_option autoImplicit false

universe u v

variable {σ : Type u} {ε : Type v}

/-- The states that can be reached from `s`, with the events on the way. -/
inductive Path (R : σ → List ε → σ → Prop) (s : σ) : List ε → σ → Prop
  | nil : Path R s [] s
  | snoc {events more : List ε} {s' s'' : σ} (path : Path R s events s') (step : R s' more s'') :
      Path R s (events ++ more) s''

namespace Path

variable {R R' : σ → List ε → σ → Prop} {s s' s'' : σ} {events more : List ε}

theorem single (step : R s events s') : Path R s events s' := .snoc .nil step

theorem trans (first : Path R s events s') (second : Path R s' more s'') :
    Path R s (events ++ more) s'' := by
  induction second with
  | nil =>
      rw [List.append_nil]
      exact first
  | snoc path step ih =>
      rw [← List.append_assoc]
      exact .snoc ih step

/-- A transition that puts out nothing, in front. -/
theorem cons (step : R s [] s') (path : Path R s' events s'') : Path R s events s'' :=
  (single step).trans path

/-- A transition that puts out nothing, behind. -/
theorem then_ (path : Path R s events s') (step : R s' [] s'') : Path R s events s'' := by
  have whole := path.snoc step
  rw [List.append_nil] at whole
  exact whole

/-- **The invariant rule.**  `I` sees the events so far as well as the state. -/
theorem invariant {I : List ε → σ → Prop}
    (keep : ∀ past s events s', R s events s' → I past s → I (past ++ events) s')
    (path : Path R s events s') (past : List ε) (start : I past s) : I (past ++ events) s' := by
  induction path with
  | nil =>
      rw [List.append_nil]
      exact start
  | snoc path step ih =>
      rw [← List.append_assoc]
      exact keep _ _ _ _ step ih

/-- The rule for an invariant of the state alone. -/
theorem keeps {I : σ → Prop} (keep : ∀ s events s', R s events s' → I s → I s')
    (path : Path R s events s') (start : I s) : I s' :=
  path.invariant (I := fun _ s => I s) (fun _ s events s' => keep s events s') [] start

/-- A path of some transitions is a path of others that allow them wherever `I` holds. -/
theorem mono {I : σ → Prop} (keep : ∀ s events s', R s events s' → I s → I s')
    (weaker : ∀ s events s', I s → R s events s' → R' s events s')
    (path : Path R s events s') (start : I s) : Path R' s events s' := by
  induction path with
  | nil => exact .nil
  | snoc path step ih => exact .snoc ih (weaker _ _ _ (path.keeps keep start) step)

end Path

end SpnavBridge.Theory
