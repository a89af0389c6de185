/-
# Theory.Accounts -- what the steps of a run cost, paid out of a potential

A step of a machine may cost more than it was given credit for, if earlier steps have saved
up for it.  The savings are a potential of the state: when no step spends more than its credit
and what the potential falls by (`Pays`), no run spends more than all its credit
(`Machine.paid`), from whatever point on it is looked at.
-/
import SpnavBridge.Theory.Machine
import Mathlib.Algebra.Order.Group.Nat

namespace SpnavBridge.Theory

set_option autoImplicit false

universe u v w

section Total

variable {ι : Type v} (f : List ι → ι → Nat)

/-- What the steps of a run come to, each with the inputs before it. -/
def total (ins : List ι) : Nat :=
  (ins.foldl (fun run x => (run.1 ++ [x], run.2 + f run.1 x)) ([], 0)).2

@[simp] theorem total_nil : total f [] = 0 := rfl

@[simp] theorem total_snoc (ins : List ι) (x : ι) : total f (ins ++ [x]) = total f ins + f ins x := by
  have inputs : ∀ ins : List ι,
      (ins.foldl (fun run x => (run.1 ++ [x], run.2 + f run.1 x)) ([], 0)).1 = ins := by
    intro ins
    induction ins using List.reverseRecOn with
    | nil => rfl
    | append_singleton ins x ih => simp [ih]
  simp [total, inputs]

end Total

namespace Machine

variable {σ : Type u} {ι : Type v} {ο : Type w} (m : Machine σ ι ο)
  {cost credit : List ι → ι → Nat} {potential : σ → Nat}

/-- Every step is paid by its credit and by what the potential falls by. -/
def Pays (cost credit : List ι → ι → Nat) (potential : σ → Nat) : Prop :=
  ∀ past x, cost past x + potential (m.after (past ++ [x])) ≤
    potential (m.after past) + credit past x

variable {m}

/-- **A run is paid by its credit**, behind whatever came before it. -/
theorem paid (pays : m.Pays cost credit potential) (past rest : List ι) :
    total (fun ins x => cost (past ++ ins) x) rest + potential (m.after (past ++ rest)) ≤
      potential (m.after past) + total (fun ins x => credit (past ++ ins) x) rest := by
  induction rest using List.reverseRecOn with
  | nil => simp
  | append_singleton rest x ih =>
      have last := pays (past ++ rest) x
      rw [total_snoc, total_snoc, ← List.append_assoc]
      omega

end Machine

end SpnavBridge.Theory
