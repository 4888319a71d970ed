import Mathlib.Data.List.Induction
import Mathlib.Logic.Relation
import Infractl.Lib.History

/-!
# Acyclic relations and dependency orders

A relation is acyclic when no element reaches itself along one or more edges.
Two ways of keeping that property are recorded here.

* Adding one edge `source → target` to an acyclic relation keeps it acyclic
  as long as `target` did not already reach `source`.
* A duplicate-free list in which every element comes after everything it
  points to certifies acyclicity, and grows by elements all of whose targets
  it already holds.
-/

namespace Infractl.Lib

open Relation

universe u

variable {α : Type u} {edge : α → α → Prop}

/-- No element reaches itself along one or more edges. -/
def Acyclic (edge : α → α → Prop) : Prop :=
  ∀ element, ¬ TransGen edge element element

namespace Acyclic

theorem mono {smaller : α → α → Prop}
    (acyclic : Acyclic edge)
    (subrelation : ∀ left right, smaller left right → edge left right) :
    Acyclic smaller := by
  intro element cycle
  exact acyclic element (TransGen.mono subrelation _ _ cycle)

/--
A path in a relation with at most one edge more either avoids that edge, or
reaches its source and leaves its target along old edges only.
-/
theorem path_of_added_edge {larger : α → α → Prop} {source target : α}
    (added :
      ∀ left right, larger left right →
        edge left right ∨ (left = source ∧ right = target))
    {start finish : α}
    (path : TransGen larger start finish) :
    TransGen edge start finish ∨
      (ReflTransGen edge start source ∧ ReflTransGen edge target finish) := by
  induction path with
  | single step =>
      rcases added _ _ step with old | ⟨rfl, rfl⟩
      · exact Or.inl (TransGen.single old)
      · exact Or.inr ⟨ReflTransGen.refl, ReflTransGen.refl⟩
  | tail _ step ih =>
      rcases added _ _ step with old | ⟨rfl, rfl⟩
      · rcases ih with avoiding | ⟨toSource, fromTarget⟩
        · exact Or.inl (avoiding.tail old)
        · exact Or.inr ⟨toSource, fromTarget.tail old⟩
      · rcases ih with avoiding | ⟨toSource, _⟩
        · exact Or.inr ⟨avoiding.to_reflTransGen, ReflTransGen.refl⟩
        · exact Or.inr ⟨toSource, ReflTransGen.refl⟩

theorem add_edge {larger : α → α → Prop} {source target : α}
    (acyclic : Acyclic edge)
    (added :
      ∀ left right, larger left right →
        edge left right ∨ (left = source ∧ right = target))
    (unreached : ¬ ReflTransGen edge target source) :
    Acyclic larger := by
  intro element cycle
  rcases path_of_added_edge added cycle with old | ⟨toSource, fromTarget⟩
  · exact acyclic element old
  · exact unreached (fromTarget.trans toSource)

end Acyclic

/-- Every element of the list comes after everything it points to. -/
def TargetsFirst (edge : α → α → Prop) (order : List α) : Prop :=
  Each (fun before element => ∀ target, edge element target → target ∈ before)
    order

namespace TargetsFirst

theorem concat {order : List α} {last : α}
    (ordered : TargetsFirst edge order)
    (targets : ∀ target, edge last target → target ∈ order) :
    TargetsFirst edge (order ++ [last]) :=
  Each.concat ordered targets

theorem of_append {first second : List α}
    (ordered : TargetsFirst edge (first ++ second)) :
    TargetsFirst edge first := by
  intro before element after split
  subst split
  exact ordered before element (after ++ second) (by simp)

theorem append {first second : List α}
    (firstOrdered : TargetsFirst edge first)
    (secondOrdered : TargetsFirst edge second) :
    TargetsFirst edge (first ++ second) := by
  induction second using List.reverseRecOn with
  | nil => simpa using firstOrdered
  | append_singleton second last ih =>
      rw [← List.append_assoc]
      apply (ih secondOrdered.of_append).concat
      intro target step
      exact List.mem_append_right first
        (secondOrdered second last [] rfl target step)

/-- Only the edges that leave an element of the list matter. -/
theorem of_edges {other : α → α → Prop} {order : List α}
    (ordered : TargetsFirst edge order)
    (edges : ∀ element ∈ order, ∀ target, other element target →
      edge element target) :
    TargetsFirst other order := by
  intro before element after split target step
  have member : element ∈ order := by
    rw [split]
    exact List.mem_append_right before (List.mem_cons_self ..)
  exact ordered before element after split target
    (edges element member target step)

/-- Along a path the elements of a dependency order move strictly forward. -/
theorem reached_before {order : List α}
    (ordered : TargetsFirst edge order)
    {start finish : α}
    (path : TransGen edge start finish)
    {before after : List α}
    (split : order = before ++ start :: after) :
    finish ∈ before := by
  induction path using TransGen.head_induction_on generalizing before after with
  | single step => exact ordered before _ after split _ step
  | @head first second step _ ih =>
      have member := ordered before first after split second step
      rcases List.append_of_mem member with ⟨front, back, rfl⟩
      have regrouped : order = front ++ second :: (back ++ first :: after) := by
        simpa using split
      exact List.mem_append_left _ (ih regrouped)

theorem acyclic {order : List α}
    (ordered : TargetsFirst edge order)
    (distinct : order.Nodup)
    (covers : ∀ left right, edge left right → left ∈ order) :
    Acyclic edge := by
  intro element cycle
  have member : element ∈ order := by
    cases cycle using TransGen.head_induction_on with
    | single step => exact covers _ _ step
    | head step _ => exact covers _ _ step
  rcases List.append_of_mem member with ⟨before, after, rfl⟩
  have repeated := ordered.reached_before cycle rfl
  rw [List.nodup_append] at distinct
  exact distinct.2.2 element repeated element (List.mem_cons_self ..) rfl

/-- Backwards, a dependency order puts every element before its targets. -/
theorem reverse {order : List α}
    (ordered : TargetsFirst edge order)
    (distinct : order.Nodup) :
    TargetsFirst (fun target element => edge element target ∧ element ∈ order)
      order.reverse := by
  intro before target after split element ⟨step, member⟩
  have forward : order = after.reverse ++ target :: before.reverse := by
    rw [← List.reverse_reverse order, split]
    simp
  have notEarlier : target ∉ after.reverse := by
    rw [forward, List.nodup_append] at distinct
    exact fun repeated =>
      distinct.2.2 target repeated target (List.mem_cons_self ..) rfl
  rw [forward, List.mem_append, List.mem_cons] at member
  rcases member with earlier | rfl | later
  · rcases List.append_of_mem earlier with ⟨front, back, equal⟩
    rw [equal] at forward notEarlier
    have regrouped :
        order = front ++ element :: (back ++ target :: before.reverse) := by
      simpa using forward
    exact absurd
      (List.mem_append_left _ (ordered front element _ regrouped target step))
      notEarlier
  · exact absurd (ordered _ element _ forward element step) notEarlier
  · exact List.mem_reverse.mp later

end TargetsFirst

end Infractl.Lib
