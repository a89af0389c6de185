/-
# Daemon.Reachable -- the moves of the whole process

A `Move` is one small step on one slot: the shared data goes on with it, and the other
clients hear of a change of the sensitivity.  Moves come in any order, so an invariant of
them holds however the slots take turns.  The main loop makes moves only (`run_moves`), so
it holds within an iteration as well as after it.
-/
import SpnavBridge.Daemon.History
import Mathlib.Logic.Relation

namespace SpnavBridge.Daemon

open SpnavBridge.Theory SpnavBridge.Wire SpnavBridge.Kernel

set_option autoImplicit false
set_option linter.unusedSectionVars false

variable {D F : Type} [CFloat F] [CDouble D F]

namespace Client

@[simp] theorem hear_nil (cl : Client F) : cl.hear [] = cl := rfl

theorem hear_append (cl : Client F) (events more : List (Event F)) :
    cl.hear (events ++ more) = (cl.hear events).hear more := by
  unfold hear
  rw [List.filterMap_append, List.foldl_append]

end Client

namespace Bridge

/-! ## Moves -/

/-- What is left when slot `i` goes to `s` with some events. -/
def moved (b : Bridge F) (i : Fin maxClients) (events : List (Event F)) (s : Place F) :
    Bridge F :=
  { b with
    shared := s.1
    clients := fun j => if j = i then s.2 else (b.clients j).hear events }

theorem moved_self (b : Bridge F) (i : Fin maxClients) (events : List (Event F)) (s : Place F) :
    ((b.moved i events s).shared, (b.moved i events s).clients i) = s :=
  Prod.ext rfl (if_pos rfl)

theorem moved_nil (b : Bridge F) (i : Fin maxClients) :
    b.moved i [] (b.shared, b.clients i) = b := by
  have clients : (fun j => if j = i then b.clients i else (b.clients j).hear []) = b.clients := by
    funext j
    split
    · rename_i same
      rw [same]
    · rfl
  unfold moved
  rw [clients]

theorem moved_moved (b : Bridge F) (i : Fin maxClients) (events more : List (Event F))
    (s s' : Place F) : (b.moved i events s).moved i more s' = b.moved i (events ++ more) s' := by
  unfold moved
  dsimp only
  congr 1
  funext j
  split
  · rfl
  · exact (Client.hear_append ..).symm

/-- What happens to the process at once. -/
inductive Move (p : Platform D) : Bridge F → Bridge F → Prop
  | slot {b : Bridge F} (i : Fin maxClients) {events : List (Event F)} {s : Place F}
      (step : OwnStep p (b.shared, b.clients i) events s) : Move p b (b.moved i events s)
  | stops {b : Bridge F} : Move p b { b with running := false }

/-- Any number of moves. -/
abbrev Moves (p : Platform D) : Bridge F → Bridge F → Prop := Relation.ReflTransGen (Move p)

variable {p : Platform D}

/-- **The invariant rule for the process.** -/
theorem Moves.keeps {I : Bridge F → Prop} (keep : ∀ b b', Move p b b' → I b → I b')
    {b b' : Bridge F} (moves : Moves p b b') (start : I b) : I b' := by
  induction moves with
  | refl => exact start
  | tail moves move ih => exact keep _ _ move ih

/-! ## The main loop -/

theorem moves_of_path (b : Bridge F) (i : Fin maxClients) {events : List (Event F)} {s : Place F}
    (path : Path (OwnStep p) (b.shared, b.clients i) events s) :
    Moves p b (b.moved i events s) := by
  induction path with
  | nil => rw [moved_nil]
  | @snoc events more s s' path step ih =>
      refine ih.tail ?_
      rw [← moved_moved b i events more s s']
      refine .slot i ?_
      rw [moved_self]
      exact step

theorem at_moves (b : Bridge F) {i : Fin maxClients} {stage : Stage F}
    (walks : Walks (OwnStep p) stage (b.shared, b.clients i)) : Moves p b (b.at_ i stage).1 :=
  moves_of_path b i walks

theorem each_moves (b : Bridge F) {stage : Fin maxClients → Stage F}
    (walks : ∀ i, SlotStage p (stage i)) (slots : List (Fin maxClients)) :
    Moves p b (b.each stage slots).1 := by
  induction slots using List.reverseRecOn with
  | nil => exact .refl
  | append_singleton slots i ih =>
      rw [each_snoc]
      exact ih.trans (at_moves _ (walks i _))

theorem fanOut_moves (b : Bridge F) (device : List SbEvent) : Moves p b (b.fanOut p device).1 := by
  unfold fanOut
  induction device using List.reverseRecOn with
  | nil => exact .refl
  | append_singleton device ev ih =>
      rw [List.foldl_append]
      exact ih.trans (each_moves _ (fun _ => slotStage_spnavEvent ev) _)

theorem shutDown_moves (b : Bridge F) : Moves p b b.shutDown.1 :=
  (each_moves b (fun _ => slotStage_dropClient) _).tail .stops

theorem acceptClient_moves (b : Bridge F) (accepted : Option (Nat × Bool)) :
    Moves p b (b.acceptClient p accepted).1 := by
  unfold acceptClient
  split
  · rename_i fd ssl i found
    exact at_moves b (openClient_path fd ssl (findFreeSlot_free found))
  · exact .refl

theorem iterate_moves (b : Bridge F) (poll : PollResult) : Moves p b (b.iterate p poll).1 := by
  unfold iterate
  split
  · exact .refl
  · cases poll with
    | interrupted => exact .refl
    | broken => exact shutDown_moves b
    | ready reports =>
        dsimp only
        refine ((acceptClient_moves b reports.accepted).trans
          (fanOut_moves _ reports.device)).trans ?_
        split
        · exact shutDown_moves _
        · exact each_moves _ (fun _ => slotStage_servePolled _ _) _

end Bridge

/-- **Every run is made of moves.** -/
theorem run_moves (p : Platform D) (sensitivity : F) (saved : Option CStr)
    (polls : List PollResult) :
    Bridge.Moves p (.start sensitivity saved) ((mainLoop p sensitivity saved).after polls) := by
  induction polls using List.reverseRecOn with
  | nil => exact .refl
  | append_singleton polls poll ih =>
      rw [Machine.after_snoc]
      exact ih.trans (Bridge.iterate_moves _ poll)

end SpnavBridge.Daemon
