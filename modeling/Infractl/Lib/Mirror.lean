import Mathlib.Logic.Function.Basic
import Infractl.Lib.Run

/-!
# A record and its asynchronous mirror

A record is created at most once and deleted at most once.  Each of the two
fires a reaction that another system sees later: one adds the record's image
there, the other removes it.  Reactions run on their own, in any order.

A `View` is what matters of a machine with such a record, and a `Turn` is what
one of its steps can do to it.  Once no reaction is pending, the image is there
for a live record only, exactly when no removal ran before the addition it is
to undo and no record was created deleted (`agrees_iff_orderly`).
-/

namespace Infractl.Lib.Mirror

open Infractl.Lib.Run

/-- The record of a key. -/
inductive Record where
  | absent
  | live
  | deleted
deriving DecidableEq

/-- What a client still has to do. -/
inductive Reaction where
  | add
  | remove
deriving DecidableEq

/-- A record, its image, and the reactions that have been fired but not run. -/
structure View (ι : Type) where
  record : Record
  mirrored : Bool
  pending : ι → Option Reaction

variable {ι : Type}

namespace View

/-- Some client is about to add. -/
def Adding (view : View ι) : Prop :=
  ∃ client, view.pending client = some .add

/-- Some client is about to remove. -/
def Removing (view : View ι) : Prop :=
  ∃ client, view.pending client = some .remove

/-- The image is there exactly for a live record. -/
def Agrees (view : View ι) : Prop :=
  view.mirrored = true ↔ view.record = .live

/-- No reaction is pending. -/
def Quiet (view : View ι) : Prop :=
  ∀ client, view.pending client = none

end View

/-- What a step can do to the record, its image and the reactions. -/
inductive Turn [DecidableEq ι] (view : View ι) : View ι → Prop where
  | rest : Turn view view
  | create {record : Record} (client : ι)
      (fresh : view.record = .absent)
      (stored : record ≠ .absent)
      (idle : view.pending client = none) :
      Turn view
        { view with
          record := record
          pending := Function.update view.pending client (some .add) }
  | delete (client : ι)
      (present : view.record = .live)
      (idle : view.pending client = none) :
      Turn view
        { view with
          record := .deleted
          pending := Function.update view.pending client (some .remove) }
  | add (client : ι)
      (fired : view.pending client = some .add) :
      Turn view
        { view with
          mirrored := true
          pending := Function.update view.pending client none }
  | remove (client : ι)
      (fired : view.pending client = some .remove) :
      Turn view
        { view with
          mirrored := false
          pending := Function.update view.pending client none }

/--
A removal runs when no addition is pending any more, and an addition is fired
for a live record.
-/
structure Orderly (before after : View ι) : Prop where
  ordered :
    ∀ client, before.pending client = some .remove →
      after.pending client = none → ¬ before.Adding
  visible :
    ∀ client, before.pending client = none →
      after.pending client = some .add → after.record = .live

/-- What holds as long as every turn was orderly. -/
structure Sound (view : View ι) : Prop where
  balance :
    view.mirrored = true ∨ view.Adding ↔ view.record = .live ∨ view.Removing
  deleted : view.Removing → view.record = .deleted
  single :
    ∀ first second, view.pending first = some .remove →
      view.pending second = some .remove → first = second

/-- The record is gone, and nothing will remove its image. -/
structure Leaked (view : View ι) : Prop where
  deleted : view.record = .deleted
  unattended : ¬ view.Removing
  kept : view.mirrored = true ∨ view.Adding

/-! ## The end of a run -/

section Quiet

variable {view : View ι}

theorem View.Quiet.not_adding (quiet : view.Quiet) : ¬ view.Adding := by
  rintro ⟨client, fired⟩
  cases (quiet client).symm.trans fired

theorem View.Quiet.not_removing (quiet : view.Quiet) : ¬ view.Removing := by
  rintro ⟨client, fired⟩
  cases (quiet client).symm.trans fired

theorem sound_of_quiet (quiet : view.Quiet) (agrees : view.Agrees) :
    Sound view where
  balance := by
    simp only [quiet.not_adding, quiet.not_removing, or_false]
    exact agrees
  deleted := fun removing => absurd removing quiet.not_removing
  single := fun first _ fired => absurd ⟨first, fired⟩ quiet.not_removing

theorem Sound.agrees (sound : Sound view) (quiet : view.Quiet) :
    view.Agrees := by
  have balance := sound.balance
  simp only [quiet.not_adding, quiet.not_removing, or_false] at balance
  exact balance

theorem Leaked.disagrees (leaked : Leaked view) (quiet : view.Quiet) :
    ¬ view.Agrees := by
  intro agrees
  have kept : view.mirrored = true := leaked.kept.resolve_right quiet.not_adding
  cases leaked.deleted.symm.trans (agrees.mp kept)

end Quiet

/-! ## One turn -/

theorem Sound.not_removing {view : View ι} (sound : Sound view)
    (undeleted : view.record ≠ .deleted) : ¬ view.Removing :=
  fun removing => undeleted (sound.deleted removing)

section Turns

variable [DecidableEq ι] {before after : View ι}

section Pending

variable {pending : ι → Option Reaction} {client other : ι}
variable {fired : Option Reaction} {reaction : Reaction}

theorem pending_of_update
    (holds : Function.update pending client fired other = some reaction)
    (unfired : fired ≠ some reaction) :
    pending other = some reaction := by
  by_cases same : other = client
  · subst same
    rw [Function.update_self] at holds
    exact absurd holds unfired
  · rwa [Function.update_of_ne same] at holds

theorem update_of_pending
    (holds : pending other = some reaction)
    (absent : pending client ≠ some reaction) :
    Function.update pending client fired other = some reaction := by
  have different : other ≠ client := by
    rintro rfl
    exact absent holds
  rwa [Function.update_of_ne different]

end Pending

/-- The removal that ran was the only one. -/
theorem Sound.not_removing_update (sound : Sound before) {client : ι}
    (fired : before.pending client = some .remove) :
    ¬ ∃ other, Function.update before.pending client none other =
      some Reaction.remove := by
  rintro ⟨other, holds⟩
  have another := pending_of_update holds (by simp)
  cases sound.single other client another fired
  rw [Function.update_self] at holds
  cases holds

/-- Firing an addition leaves an undeleted record without removals. -/
theorem Sound.not_removing_create (sound : Sound before)
    (undeleted : before.record ≠ .deleted) (client : ι) :
    ¬ ∃ other, Function.update before.pending client (some .add) other =
      some Reaction.remove := by
  rintro ⟨other, holds⟩
  exact sound.not_removing undeleted
    ⟨other, pending_of_update holds (by simp)⟩

theorem sound_of_turn (sound : Sound before) (turn : Turn before after)
    (orderly : Orderly before after) :
    Sound after := by
  cases turn with
  | rest => exact sound
  | create client fresh stored idle =>
      have live := orderly.visible client idle (Function.update_self ..)
      have unremoved := sound.not_removing_create (by simp [fresh]) client
      refine ⟨?_, fun removing => absurd removing unremoved,
        fun first _ fired => absurd ⟨first, fired⟩ unremoved⟩
      exact iff_of_true (Or.inr ⟨client, Function.update_self ..⟩) (Or.inl live)
  | delete client present idle =>
      refine ⟨iff_of_true ?_ (Or.inr ⟨client, Function.update_self ..⟩),
        fun _ => rfl, ?_⟩
      · refine (sound.balance.mpr (Or.inl present)).imp_right ?_
        rintro ⟨other, adding⟩
        exact ⟨other, update_of_pending adding (by simp [idle])⟩
      · -- The record was live, so no removal was pending before this one.
        have isClient : ∀ other,
            Function.update before.pending client (some .remove) other =
              some Reaction.remove → other = client := by
          intro other holds
          by_contra different
          rw [Function.update_of_ne different] at holds
          exact sound.not_removing (by simp [present]) ⟨other, holds⟩
        intro first second firstFired secondFired
        exact (isClient first firstFired).trans (isClient second secondFired).symm
  | add client fired =>
      refine ⟨iff_of_true (Or.inl rfl) ?_, ?_, ?_⟩
      · refine (sound.balance.mp (Or.inr ⟨client, fired⟩)).imp_right ?_
        rintro ⟨other, removing⟩
        exact ⟨other, update_of_pending removing (by simp [fired])⟩
      · rintro ⟨other, holds⟩
        exact sound.deleted ⟨other, pending_of_update holds (by simp)⟩
      · intro first second firstFired secondFired
        exact sound.single first second
          (pending_of_update firstFired (by simp))
          (pending_of_update secondFired (by simp))
  | remove client fired =>
      have unremoved := sound.not_removing_update fired
      have deleted := sound.deleted ⟨client, fired⟩
      have unadded := orderly.ordered client fired (Function.update_self ..)
      refine ⟨iff_of_false ?_ ?_, fun removing => absurd removing unremoved,
        fun first _ again => absurd ⟨first, again⟩ unremoved⟩
      · rintro (mirrored | ⟨other, adding⟩)
        · cases mirrored
        · exact unadded ⟨other, pending_of_update adding (by simp)⟩
      · rintro (live | removing)
        · cases deleted.symm.trans live
        · exact unremoved removing

/-- No addition appears where none is fired. -/
theorem not_added {client other : ι} {fired : Option Reaction}
    (unfired : fired ≠ some .add)
    (idle : before.pending other = none) :
    Function.update before.pending client fired other ≠ some .add := by
  intro holds
  cases idle.symm.trans (pending_of_update holds unfired)

theorem leaked_of_turn (sound : Sound before) (turn : Turn before after)
    (disorderly : ¬ Orderly before after) :
    Leaked after := by
  cases turn with
  | rest =>
      refine absurd ⟨?_, ?_⟩ disorderly
      · intro client fired done
        cases fired.symm.trans done
      · intro client idle fired
        cases idle.symm.trans fired
  | @create record client fresh stored idle =>
      refine ⟨?_, sound.not_removing_create (by simp [fresh]) client,
        Or.inr ⟨client, Function.update_self ..⟩⟩
      cases record with
      | absent => exact absurd rfl stored
      | deleted => rfl
      | live =>
          refine absurd ⟨?_, fun _ _ _ => rfl⟩ disorderly
          intro other fired
          exact absurd ⟨other, fired⟩ (sound.not_removing (by simp [fresh]))
  | delete client present idle =>
      refine absurd ⟨?_, ?_⟩ disorderly
      · intro other fired
        exact absurd ⟨other, fired⟩ (sound.not_removing (by simp [present]))
      · intro other idleOther fired
        exact absurd fired (not_added (by simp) idleOther)
  | add client fired =>
      refine absurd ⟨?_, ?_⟩ disorderly
      · intro other removing done
        have kept : Function.update before.pending client none other =
            some .remove :=
          update_of_pending removing (by simp [fired])
        cases kept.symm.trans done
      · intro other idleOther added
        exact absurd added (not_added (by simp) idleOther)
  | remove client fired =>
      -- With an addition pending, the image appears after its removal has run.
      by_cases adding : before.Adding
      · rcases adding with ⟨other, adding⟩
        refine ⟨sound.deleted ⟨client, fired⟩, sound.not_removing_update fired,
          Or.inr ⟨other, ?_⟩⟩
        exact update_of_pending adding (by simp [fired])
      · refine absurd ⟨fun _ _ _ => adding, ?_⟩ disorderly
        intro other idleOther added
        exact absurd added (not_added (by simp) idleOther)

theorem Leaked.turn (leaked : Leaked before) (turn : Turn before after) :
    Leaked after := by
  cases turn with
  | rest => exact leaked
  | create client fresh stored idle =>
      cases fresh.symm.trans leaked.deleted
  | delete client present idle =>
      cases present.symm.trans leaked.deleted
  | add client fired =>
      refine ⟨leaked.deleted, ?_, Or.inl rfl⟩
      rintro ⟨other, holds⟩
      exact leaked.unattended ⟨other, pending_of_update holds (by simp)⟩
  | remove client fired =>
      exact absurd ⟨client, fired⟩ leaked.unattended

/-! ## Runs -/

/--
Along a run of turns that starts and ends without pending reactions, and
starts with a record and an image that agree, they agree at the end exactly
when every turn was orderly.
-/
theorem agrees_iff_orderly {State Label : Type}
    {step : State → Label → Option State} (view : State → View ι)
    {start finish : State} {labels : List Label}
    (turns :
      AllSteps step (fun before _ after => Turn (view before) (view after))
        start labels)
    (quietStart : (view start).Quiet) (agreesStart : (view start).Agrees)
    (reached : run step start labels = some finish)
    (quiet : (view finish).Quiet) :
    (view finish).Agrees ↔
      AllSteps step (fun before _ after => Orderly (view before) (view after))
        start labels := by
  have ends := allSteps_or_spoiled
    (fun before _ after => Orderly (view before) (view after))
    (fun state => Sound (view state)) (fun state => Leaked (view state))
    (fun _ _ _ sound _ turn orderly => sound_of_turn sound turn orderly)
    (fun _ _ _ sound _ turn disorderly => leaked_of_turn sound turn disorderly)
    (fun _ _ _ leaked _ turn => leaked.turn turn)
    (sound_of_quiet quietStart agreesStart) turns reached
  rcases ends with ⟨orderly, sound⟩ | ⟨disorderly, leaked⟩
  · exact iff_of_true (sound.agrees quiet) orderly
  · exact iff_of_false (leaked.disagrees quiet) disorderly

end Turns

end Infractl.Lib.Mirror
