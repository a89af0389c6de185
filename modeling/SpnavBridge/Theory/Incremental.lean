/-
# Theory.Incremental -- parsing a stream that arrives in pieces

Two things a reader of a stream needs to be right at every cut: a parser must not change
its mind when more input arrives, and a loop that consumes what is complete must end up in
the same place however the input was cut.

* `Peek`: a parser that looks at the bytes buffered so far and waits, refuses or
  answers.  `Stable` parsers keep their verdict on a longer buffer; everything built from
  `need`, `at`, `slice` and `fail` by `bind` is stable.
* `drain`: the loop that consumes as long as one step can (`drain_eq` unfolds it, and
  `drain_keeps` is its invariant rule).
* `Incremental`: a step that is stable and makes progress.  Then draining a longer buffer is
  draining the front and going on with what is left (`drain_append`).
* `turn`: a step that asks a parser and consumes what it answers (`incremental_turn`).
* `Units`: a stream that is a concatenation of units, each consumed by one step.  What a
  drain leaves is shorter than the unit it waits for (`Units.drain_front`).
-/
import Mathlib.Data.List.Infix
import Mathlib.Data.List.TakeDrop
import Mathlib.Tactic.Common

namespace SpnavBridge.Theory

set_option autoImplicit false

universe u v w

/-! ## Parsers that wait -/

inductive Parsed (α : Type u) where
  | incomplete
  | malformed
  | done (value : α)
  deriving DecidableEq

/-- A parser over the elements buffered so far. -/
def Peek (β : Type u) (α : Type v) := List β → Parsed α

namespace Peek

variable {β : Type v} {α γ : Type u}

def pure (value : α) : Peek β α := fun _ => .done value

def bind (p : Peek β α) (next : α → Peek β γ) : Peek β γ := fun buf =>
  match p buf with
  | .incomplete => .incomplete
  | .malformed => .malformed
  | .done value => next value buf

instance : Monad (Peek β) where
  pure := pure
  bind := bind

/-- Refuses whatever is buffered. -/
def fail : Peek β α := fun _ => .malformed

/-- Waits, whatever is buffered. -/
def wait : Peek β α := fun _ => .incomplete

/-- Waits for `n` elements. -/
def need (n : Nat) : Peek β PUnit := fun buf =>
  if buf.length < n then .incomplete else .done ⟨⟩

/-- Element `i`. -/
def «at» (i : Nat) : Peek β β := fun buf =>
  match buf[i]? with
  | some b => .done b
  | none => .incomplete

/-- The `n` elements from `i` on. -/
def slice (i n : Nat) : Peek β (List β) := fun buf =>
  if buf.length < i + n then .incomplete else .done ((buf.drop i).take n)

theorem bind_of_done {p : Peek β α} {next : α → Peek β γ} {buf : List β} {value : α}
    (verdict : p buf = .done value) : (p >>= next) buf = next value buf := by
  show bind p next buf = next value buf
  rw [bind, verdict]

theorem bind_of_incomplete {p : Peek β α} {next : α → Peek β γ} {buf : List β}
    (verdict : p buf = .incomplete) : (p >>= next) buf = .incomplete := by
  show bind p next buf = .incomplete
  rw [bind, verdict]

theorem bind_eq_done {p : Peek β α} {next : α → Peek β γ} {buf : List β} {value : γ}
    (verdict : (p >>= next) buf = .done value) :
    ∃ first, p buf = .done first ∧ next first buf = .done value := by
  change bind p next buf = .done value at verdict
  unfold bind at verdict
  cases first : p buf with
  | incomplete => simp [first] at verdict
  | malformed => simp [first] at verdict
  | done a => exact ⟨a, rfl, by simpa [first] using verdict⟩

/-- An answer behind a test that refuses has passed the test. -/
theorem guard_eq_done {c : Prop} [Decidable c] {p : Peek β α} {buf : List β} {value : α}
    (verdict : (if c then fail else p) buf = .done value) : ¬ c ∧ p buf = .done value := by
  by_cases refused : c
  · rw [if_pos refused] at verdict
    cases verdict
  · rw [if_neg refused] at verdict
    exact ⟨refused, verdict⟩

theorem slice_eq_done {i n : Nat} {buf value : List β} (verdict : slice i n buf = .done value) :
    i + n ≤ buf.length ∧ value = (buf.drop i).take n := by
  unfold slice at verdict
  split_ifs at verdict with short
  exact ⟨not_lt.mp short, by injection verdict with same; exact same.symm⟩

theorem need_of_le {n : Nat} {buf : List β} (enough : n ≤ buf.length) :
    need n buf = .done ⟨⟩ := if_neg (not_lt.mpr enough)

theorem at_of_getElem? {i : Nat} {buf : List β} {b : β} (there : buf[i]? = some b) :
    «at» i buf = .done b := by
  rw [«at», there]

theorem slice_of_append {front middle back : List β} {i n : Nat} (start : front.length = i)
    (size : middle.length = n) : slice i n (front ++ (middle ++ back)) = .done middle := by
  subst start size
  rw [slice, if_neg (by simp only [List.length_append]; omega), List.drop_left, List.take_left]

/-- A verdict does not change when more arrives. -/
def Stable (p : Peek β α) : Prop := ∀ buf more, p buf ≠ .incomplete → p (buf ++ more) = p buf

theorem stable_pure (value : α) : Stable (Pure.pure value : Peek β α) := fun _ _ _ => rfl

theorem stable_fail : Stable (fail : Peek β α) := fun _ _ _ => rfl

theorem stable_wait : Stable (wait : Peek β α) := fun _ _ decided => absurd rfl decided

theorem stable_need (n : Nat) : Stable (need n : Peek β PUnit) := by
  intro buf more decided
  unfold need at decided ⊢
  by_cases short : buf.length < n
  · simp [short] at decided
  · have long : ¬ (buf ++ more).length < n := by
      rw [List.length_append]
      omega
    rw [if_neg short, if_neg long]

theorem stable_at (i : Nat) : Stable («at» i : Peek β β) := by
  intro buf more decided
  unfold «at» at decided ⊢
  by_cases inside : i < buf.length
  · rw [List.getElem?_append_left inside]
  · simp [List.getElem?_eq_none (not_lt.mp inside)] at decided

theorem stable_slice (i n : Nat) : Stable (slice i n : Peek β (List β)) := by
  intro buf more decided
  unfold slice at decided ⊢
  by_cases short : buf.length < i + n
  · simp [short] at decided
  · have long : ¬ (buf ++ more).length < i + n := by
      rw [List.length_append]
      omega
    rw [if_neg short, if_neg long, List.drop_append_of_le_length (by omega),
      List.take_append_of_le_length (by rw [List.length_drop]; omega)]

theorem stable_bind {p : Peek β α} {next : α → Peek β γ} (first : Stable p)
    (rest : ∀ value, Stable (next value)) : Stable (p >>= next) := by
  intro buf more decided
  change bind p next buf ≠ .incomplete at decided
  show bind p next (buf ++ more) = bind p next buf
  unfold bind at decided ⊢
  cases verdict : p buf with
  | incomplete => simp [verdict] at decided
  | malformed => rw [first buf more (by simp [verdict]), verdict]
  | done value =>
      rw [first buf more (by simp [verdict]), verdict]
      exact rest value buf more (by simpa [verdict] using decided)

theorem stable_ite {c : Prop} [Decidable c] {p q : Peek β α} (yes : Stable p) (no : Stable q) :
    Stable (if c then p else q) := by
  split
  · exact yes
  · exact no

end Peek

/-! ## Draining -/

section Drain

variable {σ : Type u} {α : Type v} {β : Type w}
variable (eat : σ → List α → Option (σ × List α × List β))

/-- What a drain ends with: the state, the elements left over, and the output. -/
structure Drained (σ : Type u) (α : Type v) (β : Type w) where
  state : σ
  rest : List α
  out : List β

/-- The loop, cut off after `fuel` steps. -/
def drainFuel : Nat → σ → List α → Drained σ α β
  | 0, s, buf => ⟨s, buf, []⟩
  | fuel + 1, s, buf =>
      match eat s buf with
      | none => ⟨s, buf, []⟩
      | some (s', rest, out) =>
          let later := drainFuel fuel s' rest
          ⟨later.state, later.rest, out ++ later.out⟩

/-- Consumes as long as one step can.  Two more steps than there are elements are enough. -/
def drain (s : σ) (buf : List α) : Drained σ α β := drainFuel eat (buf.length + 2) s buf

/-- A step that keeps its verdict on a longer buffer, and consumes something or stops. -/
structure Incremental : Prop where
  stable : ∀ s buf s' rest out, eat s buf = some (s', rest, out) →
    ∀ more, eat s (buf ++ more) = some (s', rest ++ more, out)
  progress : ∀ s buf s' rest out, eat s buf = some (s', rest, out) →
    rest.length < buf.length ∨ (rest.length ≤ buf.length ∧ ∀ later, eat s' later = none)

variable {eat}

theorem drainFuel_of_none {s : σ} {buf : List α} (stuck : eat s buf = none) (fuel : Nat) :
    drainFuel eat fuel s buf = ⟨s, buf, []⟩ := by
  cases fuel with
  | zero => rfl
  | succ fuel => simp [drainFuel, stuck]

/-- Fuel beyond the need changes nothing. -/
theorem drainFuel_enough (inc : Incremental eat) (fuel : Nat) :
    ∀ s buf, buf.length + 1 ≤ fuel → drainFuel eat (fuel + 1) s buf = drain eat s buf := by
  have step : ∀ fuel s buf, buf.length + 2 ≤ fuel →
      drainFuel eat fuel s buf = drainFuel eat (fuel + 1) s buf := by
    intro fuel
    induction fuel with
    | zero => intro s buf le; omega
    | succ fuel ih =>
        intro s buf le
        cases eaten : eat s buf with
        | none => rw [drainFuel_of_none eaten, drainFuel_of_none eaten]
        | some done =>
            obtain ⟨s', rest, out⟩ := done
            rw [drainFuel, drainFuel, eaten]
            rcases inc.progress s buf s' rest out eaten with less | ⟨-, stops⟩
            · simp only [ih s' rest (by omega)]
            · simp only [drainFuel_of_none (stops rest)]
  intro s buf le
  obtain ⟨extra, rfl⟩ := Nat.exists_eq_add_of_le le
  induction extra with
  | zero => rfl
  | succ extra ih =>
      rw [← ih (by omega), step (buf.length + 1 + extra + 1) s buf (by omega)]
      rfl

/-- What every step keeps, given what was put out so far, a drain keeps. -/
theorem drain_keeps {I : List β → σ → List α → Prop}
    (keep : ∀ past s buf s' rest out, eat s buf = some (s', rest, out) → I past s buf →
      I (past ++ out) s' rest) (past : List β) {s : σ} {buf : List α} (start : I past s buf) :
    I (past ++ (drain eat s buf).out) (drain eat s buf).state (drain eat s buf).rest := by
  have fueled : ∀ fuel past s buf, I past s buf →
      I (past ++ (drainFuel eat fuel s buf).out) (drainFuel eat fuel s buf).state
        (drainFuel eat fuel s buf).rest := by
    intro fuel
    induction fuel with
    | zero =>
        intro past s buf start
        simpa [drainFuel] using start
    | succ fuel ih =>
        intro past s buf start
        cases eaten : eat s buf with
        | none => simpa [drainFuel, eaten] using start
        | some done =>
            obtain ⟨s', rest, out⟩ := done
            have later := ih _ _ _ (keep past s buf s' rest out eaten start)
            simpa [drainFuel, eaten] using later
  exact fueled _ _ _ _ start

/-- A step that consumes something or stops is stuck at the end of its drain. -/
theorem drain_stuck
    (progress : ∀ s buf s' rest out, eat s buf = some (s', rest, out) →
      rest.length < buf.length ∨ ∀ later, eat s' later = none) (s : σ) (buf : List α) :
    eat (drain eat s buf).state (drain eat s buf).rest = none := by
  have fueled : ∀ fuel s buf, buf.length + 2 ≤ fuel →
      eat (drainFuel eat fuel s buf).state (drainFuel eat fuel s buf).rest = none := by
    intro fuel
    induction fuel with
    | zero => intro s buf le; omega
    | succ fuel ih =>
        intro s buf le
        cases eaten : eat s buf with
        | none => simp [drainFuel, eaten]
        | some done =>
            obtain ⟨s', rest, out⟩ := done
            simp only [drainFuel, eaten]
            rcases progress s buf s' rest out eaten with less | stops
            · exact ih s' rest (by omega)
            · rw [drainFuel_of_none (stops rest)]
              exact stops rest
  exact fueled _ s buf le_rfl

/-- One step of a drain. -/
theorem drain_eq (inc : Incremental eat) (s : σ) (buf : List α) :
    drain eat s buf =
      match eat s buf with
      | none => ⟨s, buf, []⟩
      | some (s', rest, out) =>
          ⟨(drain eat s' rest).state, (drain eat s' rest).rest, out ++ (drain eat s' rest).out⟩ := by
  cases eaten : eat s buf with
  | none => exact drainFuel_of_none eaten _
  | some done =>
      obtain ⟨s', rest, out⟩ := done
      rw [drain, drainFuel, eaten]
      rcases inc.progress s buf s' rest out eaten with less | ⟨-, stops⟩
      · simp only [← drainFuel_enough inc buf.length s' rest (by omega)]
      · simp only [drainFuel_of_none (stops rest), drain]

theorem drain_of_none {s : σ} {buf : List α} (stuck : eat s buf = none) :
    drain eat s buf = ⟨s, buf, []⟩ := drainFuel_of_none stuck _

theorem drain_of_some (inc : Incremental eat) {s s' : σ} {buf rest : List α} {out : List β}
    (eaten : eat s buf = some (s', rest, out)) :
    drain eat s buf =
      ⟨(drain eat s' rest).state, (drain eat s' rest).rest, out ++ (drain eat s' rest).out⟩ := by
  rw [drain_eq inc, eaten]

/-- The induction a drain goes by: the step is stuck, or takes the drain to a smaller one. -/
theorem drain_induction (inc : Incremental eat) {P : σ → List α → Prop}
    (stuck : ∀ s buf, eat s buf = none → P s buf)
    (step : ∀ s buf s' rest out, eat s buf = some (s', rest, out) → P s' rest → P s buf)
    (s : σ) (buf : List α) : P s buf := by
  induction size : buf.length using Nat.strong_induction_on generalizing s buf with
  | _ n ih =>
      subst size
      cases eaten : eat s buf with
      | none => exact stuck s buf eaten
      | some done =>
          obtain ⟨s', rest, out⟩ := done
          apply step s buf s' rest out eaten
          rcases inc.progress s buf s' rest out eaten with less | ⟨-, stops⟩
          · exact ih rest.length less s' rest rfl
          · exact stuck s' rest (stops rest)

/-- **Draining a longer buffer.**  It is draining the front, and going on from there. -/
theorem drain_append (inc : Incremental eat) (s : σ) (buf more : List α) :
    drain eat s (buf ++ more) =
      ⟨(drain eat (drain eat s buf).state ((drain eat s buf).rest ++ more)).state,
        (drain eat (drain eat s buf).state ((drain eat s buf).rest ++ more)).rest,
        (drain eat s buf).out ++
          (drain eat (drain eat s buf).state ((drain eat s buf).rest ++ more)).out⟩ := by
  induction s, buf using drain_induction inc with
  | stuck s buf none_ => rw [drain_of_none none_]; rfl
  | step s buf s' rest out eaten ih =>
      rw [drain_of_some inc (inc.stable s buf s' rest out eaten more), drain_of_some inc eaten, ih]
      simp only [List.append_assoc]

/-- A drain does not give elements back. -/
theorem drain_rest_le (inc : Incremental eat) (s : σ) (buf : List α) :
    (drain eat s buf).rest.length ≤ buf.length := by
  induction s, buf using drain_induction inc with
  | stuck s buf none_ => rw [drain_of_none none_]
  | step s buf s' rest out eaten ih =>
      rw [drain_of_some inc eaten]
      have less := inc.progress s buf s' rest out eaten
      exact ih.trans (by rcases less with less | ⟨le, -⟩ <;> omega)

/-- What a reader that has stopped for good did does not depend on what comes next. -/
theorem drain_append_of_halted (inc : Incremental eat) {s : σ} {buf : List α}
    (halted : ∀ later, eat (drain eat s buf).state later = none) (more : List α) :
    (drain eat s (buf ++ more)).state = (drain eat s buf).state ∧
      (drain eat s (buf ++ more)).out = (drain eat s buf).out := by
  rw [drain_append inc, drain_of_none (halted _)]
  exact ⟨rfl, List.append_nil _⟩

/-! ## Turns of a loop around a parser -/

variable (read : σ → Peek α (σ × Nat × List β)) (refuse : σ → σ)

/-- One turn: what the parser answers is consumed, what it refuses is left where it is. -/
def turn (s : σ) (buf : List α) : Option (σ × List α × List β) :=
  match read s buf with
  | .incomplete => none
  | .malformed => some (refuse s, buf, [])
  | .done (s', n, out) => some (s', buf.drop n, out)

variable {read} {refuse}

theorem turn_of_done {s s' : σ} {buf : List α} {n : Nat} {out : List β}
    (verdict : read s buf = .done (s', n, out)) :
    turn read refuse s buf = some (s', buf.drop n, out) := by
  rw [turn, verdict]

theorem turn_of_incomplete {s : σ} {buf : List α} (verdict : read s buf = .incomplete) :
    turn read refuse s buf = none := by
  rw [turn, verdict]

theorem turn_of_malformed {s : σ} {buf : List α} (verdict : read s buf = .malformed) :
    turn read refuse s buf = some (refuse s, buf, []) := by
  rw [turn, verdict]

theorem turn_eq_some {s s' : σ} {buf rest : List α} {out : List β}
    (eaten : turn read refuse s buf = some (s', rest, out)) :
    (∃ n, read s buf = .done (s', n, out) ∧ rest = buf.drop n) ∨
      (read s buf = .malformed ∧ s' = refuse s ∧ rest = buf ∧ out = []) := by
  cases verdict : read s buf with
  | incomplete =>
      rw [turn_of_incomplete verdict] at eaten
      cases eaten
  | malformed =>
      rw [turn_of_malformed verdict] at eaten
      cases eaten
      exact Or.inr ⟨rfl, rfl, rfl, rfl⟩
  | done value =>
      obtain ⟨t, n, out'⟩ := value
      rw [turn_of_done verdict] at eaten
      cases eaten
      exact Or.inl ⟨n, rfl, rfl⟩

/-- **A loop around a stable parser** that consumes what it answers and stops when it refuses. -/
theorem incremental_turn (stable : ∀ s, (read s).Stable)
    (consumes : ∀ s buf s' n out, read s buf = .done (s', n, out) → 0 < n ∧ n ≤ buf.length)
    (halts : ∀ s buf, read (refuse s) buf = .incomplete) : Incremental (turn read refuse) where
  stable := by
    intro s buf s' rest out eaten more
    cases verdict : read s buf with
    | incomplete =>
        rw [turn_of_incomplete verdict] at eaten
        cases eaten
    | malformed =>
        have later := stable s buf more (by simp [verdict])
        rw [turn_of_malformed verdict] at eaten
        cases eaten
        exact turn_of_malformed (later.trans verdict)
    | done value =>
        obtain ⟨t, n, out'⟩ := value
        have later := stable s buf more (by simp [verdict])
        rw [turn_of_done verdict] at eaten
        cases eaten
        rw [turn_of_done (later.trans verdict),
          List.drop_append_of_le_length (consumes s buf _ n _ verdict).2]
  progress := by
    intro s buf s' rest out eaten
    cases verdict : read s buf with
    | incomplete =>
        rw [turn_of_incomplete verdict] at eaten
        cases eaten
    | malformed =>
        rw [turn_of_malformed verdict] at eaten
        cases eaten
        exact Or.inr ⟨le_refl _, fun later => turn_of_incomplete (halts s later)⟩
    | done value =>
        obtain ⟨t, n, out'⟩ := value
        obtain ⟨pos, inside⟩ := consumes s buf t n out' verdict
        rw [turn_of_done verdict] at eaten
        cases eaten
        left
        rw [List.length_drop]
        omega

/-! ## Streams of units -/

variable (eat)

/-- Each unit is consumed by one step, in front of anything; `out` is what they put out. -/
inductive Units : σ → List (List α) → σ → List β → Prop
  | nil (s : σ) : Units s [] s []
  | cons {s s' s'' : σ} {unit : List α} {units : List (List α)} {out later : List β}
      (eats : ∀ rest, eat s (unit ++ rest) = some (s', rest, out))
      (goesOn : Units s' units s'' later) : Units s (unit :: units) s'' (out ++ later)

variable {eat}

theorem Units.append {s s' s'' : σ} {units more : List (List α)} {out later : List β}
    (first : Units eat s units s' out) (second : Units eat s' more s'' later) :
    Units eat s (units ++ more) s'' (out ++ later) := by
  induction first with
  | nil => exact second
  | cons eats _ ih =>
      rw [List.append_assoc]
      exact .cons eats (ih second)

/-- Draining units consumes them all. -/
theorem Units.drain_flatten (inc : Incremental eat) {s s' : σ} {units : List (List α)}
    {out : List β} (stream : Units eat s units s' out) (rest : List α) :
    drain eat s (units.flatten ++ rest) =
      ⟨(drain eat s' rest).state, (drain eat s' rest).rest, out ++ (drain eat s' rest).out⟩ := by
  induction stream with
  | nil s => rfl
  | cons eats later ih =>
      rw [List.flatten_cons, List.append_assoc, drain_of_some inc (eats _), ih]
      simp only [List.append_assoc]

/-- **A drain in the middle of a unit.**  What a front of the stream leaves is shorter than
the unit it waits for. -/
theorem Units.drain_front (inc : Incremental eat) {s s' : σ} {units : List (List α)}
    {out : List β} (stream : Units eat s units s' out)
    {front back : List α} (cut : front ++ back = units.flatten)
    (stuck : ∀ s, eat s [] = none) :
    (drain eat s front).rest = [] ∨
      ∃ unit ∈ units, (drain eat s front).rest.length < unit.length := by
  induction stream generalizing front with
  | nil s =>
      obtain ⟨rfl, -⟩ := List.append_eq_nil_iff.mp cut
      left
      rw [drain_of_none (stuck s)]
  | @cons s t t' unit units out later eats _ ih =>
      by_cases whole : unit.length ≤ front.length
      · obtain ⟨front', rfl⟩ : ∃ front', front = unit ++ front' := by
          refine List.prefix_iff_exists_append_eq.mp ?_ |>.imp fun _ => Eq.symm
          exact List.prefix_of_prefix_length_le (cut ▸ ⟨units.flatten, rfl⟩ : unit <+: front ++ back)
            ⟨back, rfl⟩ whole
        rw [drain_of_some inc (eats front')]
        have cut' : front' ++ back = units.flatten := by simpa using cut
        rcases ih cut' with nothing | ⟨next, mem, shorter⟩
        · exact Or.inl nothing
        · exact Or.inr ⟨next, List.mem_cons_of_mem _ mem, shorter⟩
      · right
        refine ⟨unit, List.mem_cons_self, ?_⟩
        have waits : eat s front = none := by
          by_contra moves
          obtain ⟨⟨t'', rest, out'⟩, eaten⟩ := Option.ne_none_iff_exists'.mp moves
          have stable := inc.stable s front t'' rest out' eaten back
          rw [cut, List.flatten_cons, eats] at stable
          have left_ := congrArg (fun r => r.map fun r => r.2.1.length) stable
          have bound := inc.progress s front t'' rest out' eaten
          have total := congrArg List.length cut
          simp only [Option.map_some, Option.some.injEq, List.length_append, List.flatten_cons]
            at left_ total
          rcases bound with less | ⟨le, -⟩ <;> omega
        rw [drain_of_none waits]
        exact not_le.mp whole

end Drain

end SpnavBridge.Theory
