/-
# Theory.Machine -- machines that answer each input, and what holds along their runs

A `Machine` is a state, and a step that takes one input to the next state and an
answer.  A run is the list of inputs it was given, oldest first; everything a run
did is recovered from that list (`after`), so a statement about the history of a
state is a statement about a list and needs no ghost variables in the machine.

* `answers`: what the machine answered along a run (`answers_snoc`).
* `invariant`: what the start has and every step keeps, every run has.  The
  invariant may look at the whole history, not only at the state.
* `Past`: some earlier step of the run satisfied a predicate.  Read off the last
  step by `past_snoc`; a later step never undoes it (`Past.append`).
* `Along`: every step of the run satisfied a predicate (`along_snoc`).
* `Machine.monotone`: a rank no step of a run lowers never falls between two points of a run.
-/
import Mathlib.Data.List.Induction
import Mathlib.Order.Basic

namespace SpnavBridge.Theory

set_option autoImplicit false

universe u v w

/-- A deterministic machine that answers each input. -/
structure Machine (σ : Type u) (ι : Type v) (ο : Type w) where
  init : σ
  step : σ → ι → σ × ο

namespace Machine

variable {σ : Type u} {ι : Type v} {ο : Type w} (m : Machine σ ι ο)

/-- The state after the inputs `ins`, oldest first. -/
def after (ins : List ι) : σ := ins.foldl (fun s x => (m.step s x).1) m.init

/-- The answer to `x`, given after the inputs `past`. -/
def answer (past : List ι) (x : ι) : ο := (m.step (m.after past) x).2

@[simp] theorem after_snoc (past : List ι) (x : ι) :
    m.after (past ++ [x]) = (m.step (m.after past) x).1 := by
  simp [after]

/-- The answers to the inputs `ins`, oldest first. -/
def answers (ins : List ι) : List ο :=
  (ins.foldl (fun run x => ((m.step run.1 x).1, run.2 ++ [(m.step run.1 x).2]))
    (m.init, [])).2

theorem answers_state (ins : List ι) :
    (ins.foldl (fun run x => ((m.step run.1 x).1, run.2 ++ [(m.step run.1 x).2]))
      (m.init, ([] : List ο))).1 = m.after ins := by
  induction ins using List.reverseRecOn with
  | nil => rfl
  | append_singleton past x ih => simp [ih]

@[simp] theorem answers_snoc (past : List ι) (x : ι) :
    m.answers (past ++ [x]) = m.answers past ++ [m.answer past x] := by
  simp [answers, answer, answers_state]

theorem length_answers (ins : List ι) : (m.answers ins).length = ins.length := by
  induction ins using List.reverseRecOn with
  | nil => rfl
  | append_singleton past x ih =>
      rw [answers_snoc, List.length_append, List.length_append, ih]
      rfl

/-- **The invariant rule.**  `I` sees the history as well as the state. -/
theorem invariant {I : List ι → σ → Prop} (start : I [] m.init)
    (keep : ∀ past x, I past (m.after past) → I (past ++ [x]) (m.step (m.after past) x).1)
    (ins : List ι) : I ins (m.after ins) := by
  induction ins using List.reverseRecOn with
  | nil => exact start
  | append_singleton past x ih =>
      rw [after_snoc]
      exact keep past x ih

end Machine

section History

variable {ι : Type v}

/-- Some step of the run satisfied `P`; `P` is given the inputs before the step
and the step's own input. -/
def Past (P : List ι → ι → Prop) (ins : List ι) : Prop :=
  ∃ past x rest, ins = past ++ x :: rest ∧ P past x

/-- Every step of the run satisfied `P`. -/
def Along (P : List ι → ι → Prop) (ins : List ι) : Prop :=
  ∀ past x rest, ins = past ++ x :: rest → P past x

variable {P : List ι → ι → Prop}

/-- A split of `ins ++ [y]` is a split of `ins`, or the one at its end. -/
theorem snoc_split {ins past rest : List ι} {x y : ι} (split : ins ++ [y] = past ++ x :: rest) :
    (ins = past ∧ y = x) ∨ ∃ rest', ins = past ++ x :: rest' := by
  rcases List.eq_nil_or_concat rest with rfl | ⟨rest', z, rfl⟩
  · left
    simpa using split
  · right
    refine ⟨rest', ?_⟩
    have : ins ++ [y] = (past ++ x :: rest') ++ [z] := by simpa using split
    exact (List.append_inj' this rfl).1

theorem past_snoc (ins : List ι) (y : ι) : Past P (ins ++ [y]) ↔ Past P ins ∨ P ins y := by
  constructor
  · rintro ⟨past, x, rest, split, holds⟩
    rcases snoc_split split with ⟨rfl, rfl⟩ | ⟨rest', inside⟩
    · exact Or.inr holds
    · exact Or.inl ⟨past, x, rest', inside, holds⟩
  · rintro (⟨past, x, rest, rfl, holds⟩ | holds)
    · exact ⟨past, x, rest ++ [y], by simp, holds⟩
    · exact ⟨ins, y, [], rfl, holds⟩

theorem Past.append {ins : List ι} (h : Past P ins) (more : List ι) : Past P (ins ++ more) := by
  obtain ⟨past, x, rest, rfl, holds⟩ := h
  exact ⟨past, x, rest ++ more, by simp, holds⟩

@[simp] theorem along_nil : Along P [] := by
  intro past x rest split
  simp at split

theorem along_snoc (ins : List ι) (y : ι) : Along P (ins ++ [y]) ↔ Along P ins ∧ P ins y := by
  constructor
  · intro all
    refine ⟨fun past x rest split => all past x (rest ++ [y]) (by simp [split]), ?_⟩
    exact all ins y [] rfl
  · rintro ⟨all, last⟩ past x rest split
    rcases snoc_split split with ⟨rfl, rfl⟩ | ⟨rest', inside⟩
    · exact last
    · exact all past x rest' inside

/-- The run up to and including position `k`. -/
theorem take_succ_of_getElem? {ins : List ι} {k : Nat} {x : ι} (at_ : ins[k]? = some x) :
    ins.take (k + 1) = ins.take k ++ [x] := by
  rw [List.take_add_one, at_, Option.toList_some]

theorem Along.front {ins more : List ι} (h : Along P (ins ++ more)) : Along P ins := by
  intro past x rest split
  exact h past x (rest ++ more) (by simp [split])

end History

namespace Machine

variable {σ : Type u} {ι : Type v} {ο : Type w} (m : Machine σ ι ο)

/-- A rank that no step of a run lowers does not fall along it. -/
theorem monotone {κ : Type*} [Preorder κ] (rank : σ → κ)
    (keep : ∀ past x, rank (m.after past) ≤ rank (m.after (past ++ [x]))) (past rest : List ι) :
    rank (m.after past) ≤ rank (m.after (past ++ rest)) := by
  induction rest using List.reverseRecOn with
  | nil => simp
  | append_singleton rest x ih =>
      rw [← List.append_assoc]
      exact ih.trans (keep (past ++ rest) x)

end Machine

end SpnavBridge.Theory
