/-
# Theory.Overwrite -- files that are written over by a process that may be killed

A file is absent, cut short, or holds the whole of what was written.  `fopen` for writing
empties it, the text stays in the stream for a while, and a failure to write it out may come
as late as `fclose`; the process may be killed before every call.

`Piece`s of a process run one behind the other as long as each returns 0.  Where the files of
a directory are written in turn, the last one is touched only behind all the others
(`writeInTurn_last`), so that it can tell whether the others are there -- but not what they,
or it, hold.
-/
import Mathlib.Data.List.Nodup
import Mathlib.Logic.Function.Basic

namespace SpnavBridge.Theory

set_option autoImplicit false

universe u v

/-! ## Pieces of a process -/

inductive Ending where
  | returned (code : Int)
  | killed
  deriving DecidableEq

/-- A piece of a process: what it makes of a state, and how it ends. -/
abbrev Piece (σ : Type u) := σ → σ × Ending

namespace Piece

variable {σ : Type u}

/-- The second piece, behind a first that returned 0. -/
def andThen (first second : Piece σ) : Piece σ := fun s =>
  let done := first s
  if done.2 = .returned 0 then second done.1 else done

theorem andThen_of_done {first second : Piece σ} {s : σ} (done : (first s).2 = .returned 0) :
    first.andThen second s = second (first s).1 := if_pos done

theorem andThen_of_stopped {first second : Piece σ} {s : σ} (stopped : (first s).2 ≠ .returned 0) :
    first.andThen second s = first s := if_neg stopped

theorem andThen_done_iff (first second : Piece σ) (s : σ) :
    (first.andThen second s).2 = .returned 0 ↔
      (first s).2 = .returned 0 ∧ (second (first s).1).2 = .returned 0 := by
  by_cases done : (first s).2 = .returned 0
  · rw [andThen_of_done done]
    simp [done]
  · rw [andThen_of_stopped done]
    simp [done]

end Piece

/-! ## One file -/

inductive FileState (α : Type u) where
  | absent
  | cut
  | whole (content : α)
  deriving DecidableEq

/-- What becomes of the calls that write a file over, `none` where the process is killed
before the call. -/
structure WriteCalls where
  fopen : Option Bool
  write : Option Bool
  /-- all of the text is in the file when the stream is closed, or is lost with the process -/
  reaches : Bool
  fclose : Option Unit
  chmod : Option Bool
  deriving DecidableEq

namespace WriteCalls

/-- Nothing goes wrong. -/
def undisturbed : WriteCalls := ⟨some true, some true, true, some (), some true⟩

/-- The file is written, as far as the process can tell. -/
def Reported (calls : WriteCalls) : Prop :=
  calls.fopen = some true ∧ calls.write = some true ∧ calls.fclose = some ()

/-- The text is written, and is in the file. -/
def Whole (calls : WriteCalls) : Prop := calls.write = some true ∧ calls.reaches = true

instance (calls : WriteCalls) : Decidable calls.Whole := inferInstanceAs (Decidable (_ ∧ _))

end WriteCalls

section File

variable {α : Type u}

/-- `fopen`, a write to the stream, and `fclose`, whose result is not looked at. -/
def overwrite (calls : WriteCalls) (content : α) : Piece (FileState α) := fun file =>
  match calls.fopen with
  | none => (file, .killed)
  | some false => (file, .returned (-1))
  | some true =>
      match calls.write with
      | none => (.cut, .killed)
      | some ok =>
          let file := if ok ∧ calls.reaches then .whole content else .cut
          match calls.fclose with
          | none => (file, .killed)
          | some _ => (file, .returned (if ok then 0 else -1))

/-- `chmod` changes no content. -/
def chmod (calls : WriteCalls) : Piece (FileState α) := fun file =>
  match calls.chmod with
  | none => (file, .killed)
  | some ok => (file, .returned (if ok then 0 else -1))

variable (calls : WriteCalls) (content : α) (file : FileState α)

@[simp] theorem chmod_file : (chmod calls file).1 = file := by
  simp only [chmod]
  split <;> rfl

@[simp] theorem chmod_done_iff : (chmod calls file).2 = .returned 0 ↔ calls.chmod = some true := by
  cases calls_ : calls.chmod with
  | none => simp [chmod, calls_]
  | some ok => cases ok <;> simp [chmod, calls_]

theorem overwrite_done_iff :
    (overwrite calls content file).2 = .returned 0 ↔ calls.Reported := by
  obtain ⟨fopen, write, reaches, fclose, chmod⟩ := calls
  rcases fopen with _ | _ | _ <;> rcases write with _ | _ | _ <;> rcases fclose with _ | _ <;>
    simp [overwrite, WriteCalls.Reported]

/-- What an opened file holds does not depend on what it held. -/
theorem overwrite_file :
    (overwrite calls content file).1 =
      if calls.fopen = some true then if calls.Whole then .whole content else .cut else file := by
  obtain ⟨fopen, write, reaches, fclose, chmod⟩ := calls
  rcases fopen with _ | _ | _ <;> rcases write with _ | _ | _ <;> rcases fclose with _ | _ <;>
    simp [overwrite, WriteCalls.Whole]

/-- A new file is there once it is opened. -/
theorem overwrite_absent_iff :
    (overwrite calls content .absent).1 ≠ .absent ↔ calls.fopen = some true := by
  rw [overwrite_file]
  split
  · rename_i opened
    split <;> simp [opened]
  · rename_i closed
    simp [closed]

end File

/-! ## The files of a directory -/

section Directory

variable {ν : Type u} [DecidableEq ν] {α : Type v}

/-- A piece that works on one file of a directory. -/
def Piece.on (name : ν) (piece : Piece (FileState α)) : Piece (ν → FileState α) := fun dir =>
  let done := piece (dir name)
  (Function.update dir name done.1, done.2)

/-- File after file. -/
def writeInTurn : List (ν × Piece (FileState α)) → Piece (ν → FileState α)
  | [] => fun dir => (dir, .returned 0)
  | job :: jobs => (Piece.on job.1 job.2).andThen (writeInTurn jobs)

theorem writeInTurn_snoc (jobs : List (ν × Piece (FileState α))) (last : ν × Piece (FileState α))
    (dir : ν → FileState α) :
    writeInTurn (jobs ++ [last]) dir =
      (writeInTurn jobs).andThen (Piece.on last.1 last.2) dir := by
  induction jobs generalizing dir with
  | nil =>
      have alone : writeInTurn [last] dir = Piece.on last.1 last.2 dir := by
        by_cases done : (Piece.on last.1 last.2 dir).2 = .returned 0
        · exact (Piece.andThen_of_done done).trans (Prod.ext rfl done.symm)
        · exact Piece.andThen_of_stopped done
      exact alone
  | cons job jobs ih =>
      by_cases done : (Piece.on job.1 job.2 dir).2 = .returned 0
      · have whole : writeInTurn (job :: jobs) dir = writeInTurn jobs (Piece.on job.1 job.2 dir).1 :=
          Piece.andThen_of_done done
        have longer : writeInTurn (job :: jobs ++ [last]) dir =
            writeInTurn (jobs ++ [last]) (Piece.on job.1 job.2 dir).1 := Piece.andThen_of_done done
        rw [longer, ih]
        simp only [Piece.andThen, whole]
      · have stops : ∀ jobs, writeInTurn (job :: jobs) dir = Piece.on job.1 job.2 dir :=
          fun jobs => Piece.andThen_of_stopped done
        rw [List.cons_append, stops, Piece.andThen_of_stopped (by rw [stops]; exact done), stops]

theorem writeInTurn_untouched {jobs : List (ν × Piece (FileState α))} {name : ν}
    (other : name ∉ jobs.map Prod.fst) (dir : ν → FileState α) :
    (writeInTurn jobs dir).1 name = dir name := by
  induction jobs generalizing dir with
  | nil => rfl
  | cons job jobs ih =>
      rw [List.map_cons, List.mem_cons, not_or] at other
      have own : (Piece.on job.1 job.2 dir).1 name = dir name := Function.update_of_ne other.1 _ _
      by_cases done : (Piece.on job.1 job.2 dir).2 = .returned 0
      · rw [writeInTurn, Piece.andThen_of_done done, ih other.2, own]
      · rw [writeInTurn, Piece.andThen_of_stopped done, own]

/-- All the files are written when each of the pieces returns 0. -/
theorem writeInTurn_done_iff {jobs : List (ν × Piece (FileState α))}
    (distinct : (jobs.map Prod.fst).Nodup) (dir : ν → FileState α) :
    (writeInTurn jobs dir).2 = .returned 0 ↔ ∀ job ∈ jobs, (job.2 (dir job.1)).2 = .returned 0 := by
  induction jobs generalizing dir with
  | nil => simp [writeInTurn]
  | cons job jobs ih =>
      obtain ⟨fresh, distinct⟩ := List.nodup_cons.mp distinct
      have rest : ∀ other ∈ jobs, (Piece.on job.1 job.2 dir).1 other.1 = dir other.1 := by
        intro other member
        refine Function.update_of_ne ?_ _ _
        rintro same
        exact fresh (same ▸ List.mem_map_of_mem member)
      rw [writeInTurn, Piece.andThen_done_iff, ih distinct, List.forall_mem_cons]
      refine and_congr Iff.rfl (forall₂_congr fun other member => ?_)
      rw [rest other member]

theorem writeInTurn_file {jobs : List (ν × Piece (FileState α))}
    (distinct : (jobs.map Prod.fst).Nodup) {dir : ν → FileState α}
    (done : (writeInTurn jobs dir).2 = .returned 0) {job : ν × Piece (FileState α)}
    (member : job ∈ jobs) : (writeInTurn jobs dir).1 job.1 = (job.2 (dir job.1)).1 := by
  induction jobs generalizing dir with
  | nil => cases member
  | cons first jobs ih =>
      obtain ⟨fresh, distinct⟩ := List.nodup_cons.mp distinct
      obtain ⟨own, rest⟩ := (Piece.andThen_done_iff _ _ dir).mp done
      rw [writeInTurn, Piece.andThen_of_done own]
      rcases List.mem_cons.mp member with rfl | member
      · rw [writeInTurn_untouched fresh]
        exact Function.update_self _ _ _
      · have other : job.1 ≠ first.1 := by
          rintro same
          exact fresh (same ▸ List.mem_map_of_mem member)
        have kept : (Piece.on first.1 first.2 dir).1 job.1 = dir job.1 :=
          Function.update_of_ne other _ _
        rw [ih distinct rest member, kept]

section Last

variable {jobs : List (ν × Piece (FileState α))} {last : ν × Piece (FileState α)}
  (distinct : ((jobs ++ [last]).map Prod.fst).Nodup)

include distinct

omit [DecidableEq ν] in
theorem distinct_last : (jobs.map Prod.fst).Nodup ∧ last.1 ∉ jobs.map Prod.fst := by
  rw [List.map_append, List.map_singleton] at distinct
  obtain ⟨front, -, apart⟩ := List.nodup_append.mp distinct
  exact ⟨front, fun inside => apart _ inside _ (List.mem_singleton.mpr rfl) rfl⟩

/-- Once the pieces before the last have returned 0, every file is what its piece made of it. -/
theorem writeInTurn_files {dir : ν → FileState α}
    (done : ∀ job ∈ jobs, (job.2 (dir job.1)).2 = .returned 0) {job : ν × Piece (FileState α)}
    (member : job ∈ jobs ++ [last]) :
    (writeInTurn (jobs ++ [last]) dir).1 job.1 = (job.2 (dir job.1)).1 := by
  obtain ⟨front, fresh⟩ := distinct_last distinct
  have written := (writeInTurn_done_iff front dir).mpr done
  rw [writeInTurn_snoc, Piece.andThen_of_done written]
  rcases List.mem_append.mp member with member | member
  · have other : job.1 ≠ last.1 := fun same => fresh (same ▸ List.mem_map_of_mem member)
    exact (Function.update_of_ne other _ _).trans (writeInTurn_file front written member)
  · rw [List.mem_singleton.mp member]
    refine (Function.update_self _ _ _).trans ?_
    rw [writeInTurn_untouched fresh]

/-- **The last file** of a directory that does not have it is there only behind all the
others. -/
theorem writeInTurn_last {dir : ν → FileState α} (absent : dir last.1 = .absent) :
    (writeInTurn (jobs ++ [last]) dir).1 last.1 ≠ .absent ↔
      (∀ job ∈ jobs, (job.2 (dir job.1)).2 = .returned 0) ∧ (last.2 .absent).1 ≠ .absent := by
  obtain ⟨front, fresh⟩ := distinct_last distinct
  by_cases done : ∀ job ∈ jobs, (job.2 (dir job.1)).2 = .returned 0
  · rw [writeInTurn_files distinct done (List.mem_append_right _ (List.mem_singleton.mpr rfl)),
      absent]
    exact (and_iff_right done).symm
  · have stopped := (writeInTurn_done_iff front dir).not.mpr done
    rw [writeInTurn_snoc, Piece.andThen_of_stopped stopped, writeInTurn_untouched fresh, absent]
    exact ⟨fun there => absurd rfl there, fun both => absurd both.1 done⟩

end Last

end Directory

end SpnavBridge.Theory
