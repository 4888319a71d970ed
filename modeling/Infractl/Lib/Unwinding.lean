import Infractl.Lib.Run

/-!
# Removing what is not seen

An observer owns some of the labels of a system.  The labels of the others do
not matter to the observer when they can be left out of every run: what remains
is a run again, and it ends in a state that looks the same.

`Unwinds` asks this of single steps, for a relation between a state of the
whole system and a state of the observer alone.  A step of another leaves the
relation in place, and a step of the observer can be followed alone.
-/

namespace Infractl.Lib.Unwinding

open Infractl.Lib.Run

universe u v

variable {State : Type u} {Label : Type v}

/-- A relation under which the labels that are not owned can be left out. -/
structure Unwinds (step : State → Label → Option State) (own : Label → Bool)
    (looksLike : State → State → Prop) : Prop where
  unseen : ∀ {whole next alone : State} {label : Label},
    own label = false → looksLike whole alone →
      step whole label = some next → looksLike next alone
  followed : ∀ {whole next alone : State} {label : Label},
    own label = true → looksLike whole alone →
      step whole label = some next →
        ∃ nextAlone, step alone label = some nextAlone ∧ looksLike next nextAlone

/-- A run of the whole system, with the labels of the others left out. -/
theorem Unwinds.run {step : State → Label → Option State} {own : Label → Bool}
    {looksLike : State → State → Prop} (unwinds : Unwinds step own looksLike)
    {labels : List Label} {whole finish alone : State}
    (related : looksLike whole alone)
    (reached : Run.run step whole labels = some finish) :
    ∃ finishAlone, Run.run step alone (labels.filter own) = some finishAlone ∧
      looksLike finish finishAlone := by
  induction labels generalizing whole alone with
  | nil =>
      cases reached
      exact ⟨alone, rfl, related⟩
  | cons label rest ih =>
      rcases (run_cons_eq_some_iff step).mp reached with ⟨next, stepped, later⟩
      cases owned : own label with
      | false =>
          rw [List.filter_cons_of_neg (Bool.eq_false_iff.mp owned)]
          exact ih (unwinds.unseen owned related stepped) later
      | true =>
          rcases unwinds.followed owned related stepped with
            ⟨nextAlone, steppedAlone, relatedNext⟩
          rcases ih relatedNext later with ⟨finishAlone, laterAlone, relatedFinish⟩
          rw [List.filter_cons_of_pos owned]
          exact ⟨finishAlone, (run_cons_eq_some_iff step).mpr
            ⟨nextAlone, steppedAlone, laterAlone⟩, relatedFinish⟩

end Infractl.Lib.Unwinding
