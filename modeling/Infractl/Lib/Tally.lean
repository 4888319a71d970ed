import Mathlib.Data.Set.Basic
import Mathlib.Logic.Function.Iterate
import Infractl.Lib.Run

/-!
# Counting by reading and writing back

A count is kept by tasks that read it when they start and, when they finish,
store the successor of what they read.  Between the two, others may have
stored theirs.

A `View` is the stored count, the counts held by tasks under way, and the
number of tasks finished.  The stored count is the start's `finished`-th
successor exactly as long as every task that finished stored the successor of
the count it found (`stored_iff_advances`): a count once missed is never made
up for, since no task holds a count that is further along.
-/

namespace Infractl.Lib.Tally

open Infractl.Lib.Run

universe u

variable {C : Type u}

/-- The count, the copies and the calls done. -/
structure View (C : Type u) where
  stored : C
  held : Set C
  finished : Nat

/--
What a step can do: tasks read the count or are of no concern, a task stores
the successor of the count it holds, or it finishes without storing.
-/
inductive Turn (successor : C → C) (before after : View C) : Prop where
  | read
      (stored : after.stored = before.stored)
      (held : ∀ count ∈ after.held, count ∈ before.held ∨ count = before.stored)
      (finished : after.finished = before.finished)
  | write {count : C}
      (holds : count ∈ before.held)
      (stored : after.stored = successor count)
      (held : after.held ⊆ before.held)
      (finished : after.finished = before.finished + 1)
  | drop
      (stored : after.stored = before.stored)
      (held : after.held ⊆ before.held)
      (finished : after.finished = before.finished + 1)

/-- A task that finishes stores the successor of the count it finds. -/
def Advances (successor : C → C) (before after : View C) : Prop :=
  after.finished = before.finished + 1 → after.stored = successor before.stored

/-- The count is exact, and no task holds one that is further along. -/
structure Exact (successor : C → C) (start : C) (view : View C) : Prop where
  stored : view.stored = successor^[view.finished] start
  held : ∀ count ∈ view.held, ∃ index ≤ view.finished,
    count = successor^[index] start

/-- The count is behind, and so is every count a task holds. -/
structure Behind (successor : C → C) (start : C) (view : View C) : Prop where
  stored : ∃ index < view.finished, view.stored = successor^[index] start
  held : ∀ count ∈ view.held, ∃ index < view.finished,
    count = successor^[index] start

section Turns

variable {successor : C → C} {start : C} {before after : View C}

theorem Exact.turn (exact : Exact successor start before)
    (turn : Turn successor before after)
    (advances : Advances successor before after) :
    Exact successor start after := by
  have finishes (finished : after.finished = before.finished + 1)
      (held : after.held ⊆ before.held) :
      Exact successor start after := by
    refine ⟨?_, ?_⟩
    · rw [advances finished, exact.stored, finished,
        Function.iterate_succ_apply']
    · intro count holds
      rcases exact.held count (held holds) with ⟨index, bound, reached⟩
      exact ⟨index, by omega, reached⟩
  cases turn with
  | read stored held finished =>
      refine ⟨by rw [stored, finished, exact.stored], ?_⟩
      intro count holds
      rw [finished]
      rcases held count holds with earlier | current
      · exact exact.held count earlier
      · exact ⟨before.finished, Nat.le_refl _, current.trans exact.stored⟩
  | write holds stored held finished => exact finishes finished held
  | drop stored held finished => exact finishes finished held

/-- The counts held when a task finishes are behind the tasks finished. -/
theorem held_behind
    (held : ∀ count ∈ before.held, ∃ index ≤ before.finished,
      count = successor^[index] start)
    (kept : after.held ⊆ before.held)
    (finished : after.finished = before.finished + 1) :
    ∀ count ∈ after.held, ∃ index < after.finished,
      count = successor^[index] start := by
  intro count holds
  rcases held count (kept holds) with ⟨index, bound, reached⟩
  exact ⟨index, by omega, reached⟩

theorem Exact.missed (exact : Exact successor start before)
    (turn : Turn successor before after)
    (misses : ¬ Advances successor before after) :
    Behind successor start after := by
  rcases Classical.not_imp.mp misses with ⟨_, different⟩
  cases turn with
  | read stored held finished => omega
  | @write count holds stored held finished =>
      refine ⟨?_, held_behind exact.held held finished⟩
      rcases exact.held count holds with ⟨index, bound, reached⟩
      -- The count held is an earlier one, or its successor would be the right one.
      have stale : index ≠ before.finished := by
        rintro rfl
        rw [stored, reached, ← exact.stored] at different
        exact different rfl
      refine ⟨index + 1, by omega, ?_⟩
      rw [stored, reached, Function.iterate_succ_apply']
  | drop stored held finished =>
      refine ⟨⟨before.finished, by omega, stored.trans exact.stored⟩, ?_⟩
      exact held_behind exact.held held finished

theorem Behind.turn (behind : Behind successor start before)
    (turn : Turn successor before after) :
    Behind successor start after := by
  have heldLe : ∀ count ∈ before.held, ∃ index ≤ before.finished,
      count = successor^[index] start := by
    intro count holds
    rcases behind.held count holds with ⟨index, bound, reached⟩
    exact ⟨index, Nat.le_of_lt bound, reached⟩
  rcases behind.stored with ⟨storedIndex, storedBound, storedReached⟩
  cases turn with
  | read stored held finished =>
      refine ⟨⟨storedIndex, by omega, stored.trans storedReached⟩, ?_⟩
      intro count holds
      rw [finished]
      rcases held count holds with earlier | current
      · exact behind.held count earlier
      · exact ⟨storedIndex, storedBound, current.trans storedReached⟩
  | @write count holds stored held finished =>
      refine ⟨?_, held_behind heldLe held finished⟩
      rcases behind.held count holds with ⟨index, bound, reached⟩
      refine ⟨index + 1, by omega, ?_⟩
      rw [stored, reached, Function.iterate_succ_apply']
  | drop stored held finished =>
      refine ⟨⟨storedIndex, by omega, stored.trans storedReached⟩, ?_⟩
      exact held_behind heldLe held finished

/--
Along a run of turns that starts with no task under way, the count is exact
when every turn advances it; and only then, when the successors up to the
number of finished tasks are distinct.
-/
theorem stored_iff_advances {State Label : Type}
    {step : State → Label → Option State} (view : State → View C)
    {first last : State} {labels : List Label}
    (turns :
      AllSteps step
        (fun before _ after => Turn successor (view before) (view after))
        first labels)
    (idle : (view first).held = ∅) (unfinished : (view first).finished = 0)
    (reached : run step first labels = some last) :
    (AllSteps step
        (fun before _ after => Advances successor (view before) (view after))
        first labels →
      (view last).stored = successor^[(view last).finished] (view first).stored) ∧
    ((∀ index < (view last).finished,
        successor^[index] (view first).stored ≠
          successor^[(view last).finished] (view first).stored) →
      (view last).stored = successor^[(view last).finished] (view first).stored →
      AllSteps step
        (fun before _ after => Advances successor (view before) (view after))
        first labels) := by
  have initial : Exact successor (view first).stored (view first) := by
    refine ⟨by rw [unfinished]; rfl, ?_⟩
    intro count holds
    rw [idle] at holds
    exact absurd holds (Set.notMem_empty count)
  have ends := allSteps_or_spoiled
    (fun before _ after => Advances successor (view before) (view after))
    (fun state => Exact successor (view first).stored (view state))
    (fun state => Behind successor (view first).stored (view state))
    (fun _ _ _ exact _ turn advances => exact.turn turn advances)
    (fun _ _ _ exact _ turn misses => exact.missed turn misses)
    (fun _ _ _ behind _ turn => behind.turn turn)
    initial turns reached
  rcases ends with ⟨advances, exact⟩ | ⟨misses, behind⟩
  · exact ⟨fun _ => exact.stored, fun _ _ => advances⟩
  · refine ⟨fun advances => absurd advances misses, ?_⟩
    intro distinct stored
    rcases behind.stored with ⟨index, bound, reachedIndex⟩
    exact absurd (reachedIndex.symm.trans stored) (distinct index bound)

end Turns

end Infractl.Lib.Tally
