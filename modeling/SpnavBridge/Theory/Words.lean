/-
# Theory.Words -- the words of a line, and what they become when more follows

`words p l` are the longest stretches of `l` without a separator, where `p` says what
separates.  A scanner that skips separators and then takes what is no separator finds the
first of them (`words_eq`), so what it finds is read off the words without following it.

* `words_append_sep`: at a separator the words part.
* `words_head_append`, `words_second_append`: when more follows, the first word can only grow,
  and does not when there is a second.
-/
import Mathlib.Data.List.DropRight
import Mathlib.Data.List.TakeWhile
import Mathlib.Tactic.Common

namespace SpnavBridge.Theory

set_option autoImplicit false

variable {α : Type*} (p : α → Bool)

def words (l : List α) : List (List α) := (l.splitOnP p).filter fun word => !word.isEmpty

/-- What a scanner finds: behind the separators in front, up to the next one. -/
def firstWord (l : List α) : List α := (l.dropWhile p).takeWhile fun a => !p a

/-- And what it leaves. -/
def behindWord (l : List α) : List α := (l.dropWhile p).dropWhile fun a => !p a

variable {p}

theorem ne_nil_of_mem_words {l word : List α} (mem : word ∈ words p l) : word ≠ [] := by
  have some_ := (List.mem_filter.mp mem).2
  simpa using some_

@[simp] theorem words_nil : words p ([] : List α) = [] := by simp [words]

theorem words_append_sep {a : α} (sep : p a = true) (l m : List α) :
    words p (l ++ a :: m) = words p l ++ words p m := by
  rw [words, List.splitOnP_append_cons l m sep, List.filter_append]
  rfl

@[simp] theorem words_cons_sep {a : α} (sep : p a = true) (l : List α) :
    words p (a :: l) = words p l := by
  simpa using words_append_sep sep [] l

theorem words_of_word {word : List α} (clean : ∀ a ∈ word, p a = false) (some_ : word ≠ []) :
    words p word = [word] := by
  rw [words, List.splitOnP_eq_singleton clean]
  simpa using some_

theorem words_dropWhile (l : List α) : words p (l.dropWhile p) = words p l := by
  induction l with
  | nil => rfl
  | cons a l ih =>
      by_cases sep : p a = true
      · rw [List.dropWhile_cons_of_pos sep, ih, words_cons_sep sep]
      · rw [List.dropWhile_cons_of_neg sep]

theorem words_append_seps (l : List α) {m : List α} (seps : ∀ a ∈ m, p a = true) :
    words p (l ++ m) = words p l := by
  induction m generalizing l with
  | nil => rw [List.append_nil]
  | cons a m ih =>
      have rest := ih [] fun b mem => seps b (List.mem_cons_of_mem _ mem)
      rw [words_append_sep (seps a List.mem_cons_self)]
      simpa using rest

/-- Separators at the end, whichever are taken off, make no word. -/
theorem words_rdropWhile {q : α → Bool} (seps : ∀ a, q a = true → p a = true) (l : List α) :
    words p (l.rdropWhile q) = words p l := by
  have tail : ∀ a ∈ l.rtakeWhile q, p a = true := by
    intro a mem
    exact seps a (List.mem_rtakeWhile_imp mem)
  conv_rhs => rw [← List.rdropWhile_append_rtakeWhile (p := q) (l := l), words_append_seps _ tail]

/-- A word with separators or nothing behind it. -/
theorem words_append {word rest : List α} (clean : ∀ a ∈ word, p a = false) (some_ : word ≠ [])
    (ends : ∀ a ∈ rest.head?, p a = true) : words p (word ++ rest) = word :: words p rest := by
  cases rest with
  | nil => rw [List.append_nil, words_of_word clean some_, words_nil]
  | cons a rest =>
      have sep := ends a rfl
      rw [words_append_sep sep, words_of_word clean some_, words_cons_sep sep]
      rfl

theorem firstWord_clean (l : List α) : ∀ a ∈ firstWord p l, p a = false := by
  intro a mem
  simpa using List.mem_takeWhile_imp mem

theorem firstWord_ne_nil {l : List α} (some_ : l.dropWhile p ≠ []) : firstWord p l ≠ [] := by
  have plain := List.head_dropWhile_not p some_
  rw [firstWord]
  cases start : l.dropWhile p with
  | nil => exact absurd start some_
  | cons a m =>
      simp only [start, List.head_cons] at plain
      simp [plain]

theorem behindWord_head (l : List α) : ∀ a ∈ (behindWord p l).head?, p a = true := by
  intro a mem
  have found := List.head?_dropWhile_not (fun a => !p a) (l.dropWhile p)
  rw [← behindWord, mem] at found
  simpa using found

/-- **The first word** is the one a scanner finds. -/
theorem words_eq (l : List α) :
    words p l = if l.dropWhile p = [] then [] else firstWord p l :: words p (behindWord p l) := by
  split
  · rename_i none_
    rw [← words_dropWhile l, none_, words_nil]
  · rename_i some_
    have parts : l.dropWhile p = firstWord p l ++ behindWord p l :=
      List.takeWhile_append_dropWhile.symm
    rw [← words_dropWhile l, parts]
    exact words_append (firstWord_clean l) (firstWord_ne_nil some_) (behindWord_head l)

/-! ## More behind -/

/-- When more follows, the first word can only grow. -/
theorem words_head_append {l : List α} {word : List α} {rest : List (List α)}
    (have_ : words p l = word :: rest) (more : List α) :
    ∃ word' rest', words p (l ++ more) = word' :: rest' ∧ word <+: word' := by
  rw [words_eq] at have_ ⊢
  split at have_
  · cases have_
  · rename_i some_
    obtain ⟨rfl, -⟩ := List.cons.inj have_
    have start : (l ++ more).dropWhile p = l.dropWhile p ++ more := by
      rw [List.dropWhile_append, if_neg (by simpa using some_)]
    rw [if_neg (by simp [start, some_])]
    refine ⟨_, _, rfl, ?_⟩
    rw [firstWord, firstWord, start, List.takeWhile_append]
    split
    · rename_i all
      rw [List.IsPrefix.eq_of_length (List.takeWhile_prefix _) all]
      exact List.prefix_append _ _
    · exact List.prefix_rfl

/-- With a second word behind it, it does not. -/
theorem words_second_append {l : List α} {word second : List α} {rest : List (List α)}
    (have_ : words p l = word :: second :: rest) (more : List α) :
    ∃ second' rest', words p (l ++ more) = word :: second' :: rest' ∧ second <+: second' := by
  have shape := words_eq (p := p) l
  rw [have_] at shape
  split at shape
  · cases shape
  · rename_i some_
    obtain ⟨rfl, behind⟩ := List.cons.inj shape
    obtain ⟨second', rest', later, grows⟩ := words_head_append behind.symm more
    have start : (l ++ more).dropWhile p = firstWord p l ++ (behindWord p l ++ more) := by
      rw [List.dropWhile_append, if_neg (by simpa using some_), ← List.append_assoc]
      congr 1
      exact List.takeWhile_append_dropWhile.symm
    refine ⟨second', rest', ?_, grows⟩
    have ends : ∀ a ∈ (behindWord p l ++ more).head?, p a = true := by
      cases back : behindWord p l with
      | nil => simp [back] at behind
      | cons a m =>
          have head := behindWord_head (p := p) l
          rw [back] at head
          exact head
    rw [← words_dropWhile, start,
      words_append (firstWord_clean l) (firstWord_ne_nil some_) ends, later]

end SpnavBridge.Theory
