import Mathlib.Data.List.Basic

/-!
# Trails of writes

A write replaces a value by another.  A trail is a list of writes that leads
from a first value to a last one, each write replacing what the one before it
left.

When only open values are replaced, a write that leaves a closed value is the
last of the trail.
-/

namespace Infractl.Lib

universe u

variable {α : Type u}

/-- Writes that lead from a value to another. -/
def Trail : α → List (α × α) → α → Prop
  | first, [], last => first = last
  | first, write :: rest, last => first = write.1 ∧ Trail write.2 rest last

namespace Trail

variable {first middle last : α} {writes front back : List (α × α)}

theorem refl (value : α) : Trail value [] value :=
  rfl

@[simp]
theorem append_iff :
    Trail first (front ++ back) last ↔
      ∃ middle, Trail first front middle ∧ Trail middle back last := by
  induction front generalizing first with
  | nil =>
      simp only [List.nil_append, Trail]
      exact ⟨fun trail => ⟨first, rfl, trail⟩, fun ⟨_, same, trail⟩ => same ▸ trail⟩
  | cons write rest ih =>
      simp only [List.cons_append, Trail, ih]
      constructor
      · rintro ⟨same, middle, before, after⟩
        exact ⟨middle, ⟨same, before⟩, after⟩
      · rintro ⟨middle, ⟨same, before⟩, after⟩
        exact ⟨same, middle, before, after⟩

theorem concat (trail : Trail first writes middle) (last : α) :
    Trail first (writes ++ [(middle, last)]) last :=
  append_iff.mpr ⟨middle, trail, rfl, rfl⟩

/-- A write that leaves a closed value is the last one. -/
theorem final (isOpen : α → Prop) {before after : α}
    (trail : Trail first (front ++ (before, after) :: back) last)
    (opens : ∀ write ∈ front ++ (before, after) :: back, isOpen write.1)
    (closed : ¬ isOpen after) :
    back = [] ∧ last = after := by
  rcases append_iff.mp trail with ⟨_, _, _, rest⟩
  cases back with
  | nil => exact ⟨rfl, rest.symm⟩
  | cons next later =>
      have opened : isOpen next.1 := opens next (by simp)
      rw [← rest.1] at opened
      exact absurd opened closed

end Trail

end Infractl.Lib
