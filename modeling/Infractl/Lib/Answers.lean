import Mathlib.Data.List.Basic

/-!
# Machines that answer

A machine takes one input after the other and answers each.  Two machines that
are related step by step give the same answers to every list of inputs along
which the steps are allowed, and to no other list if a step that is not allowed
is answered differently.
-/

namespace Infractl.Lib.Answers

universe u v w x

variable {S : Type u} {T : Type v} {I : Type w} {A : Type x}

/-- The answers of a machine to inputs, in their order. -/
def answers (act : S → I → S × A) : S → List I → List A
  | _, [] => []
  | state, input :: rest =>
      (act state input).2 :: answers act (act state input).1 rest

/-- Each input is allowed in the state in which the machine takes it. -/
def Along (act : S → I → S × A) (allowed : S → I → Prop) : S → List I → Prop
  | _, [] => True
  | state, input :: rest =>
      allowed state input ∧ Along act allowed (act state input).1 rest

theorem along_true (act : S → I → S × A) (state : S) (inputs : List I) :
    Along act (fun _ _ => True) state inputs := by
  induction inputs generalizing state with
  | nil => trivial
  | cons input rest ih => exact ⟨trivial, ih _⟩

theorem Along.mono {act : S → I → S × A} {first second : S → I → Prop}
    {state : S} {inputs : List I} (allowed : Along act first state inputs)
    (weaker : ∀ state input, first state input → second state input) :
    Along act second state inputs := by
  induction inputs generalizing state with
  | nil => trivial
  | cons input rest ih => exact ⟨weaker _ _ allowed.1, ih allowed.2⟩

/-- The first machine follows the second wherever an input is allowed. -/
def Follows (act : S → I → S × A) (reference : T → I → T × A)
    (allowed : T → I → Prop) (related : S → T → Prop) : Prop :=
  ∀ state abstract input, related state abstract → allowed abstract input →
    (act state input).2 = (reference abstract input).2 ∧
      related (act state input).1 (reference abstract input).1

theorem Follows.answers_eq {act : S → I → S × A} {reference : T → I → T × A}
    {allowed : T → I → Prop} {related : S → T → Prop}
    (follows : Follows act reference allowed related)
    {state : S} {abstract : T} {inputs : List I}
    (start : related state abstract)
    (allowedAll : Along reference allowed abstract inputs) :
    answers act state inputs = answers reference abstract inputs := by
  induction inputs generalizing state abstract with
  | nil => rfl
  | cons input rest ih =>
      rcases follows state abstract input start allowedAll.1 with
        ⟨sameAnswer, stillRelated⟩
      rw [answers, answers, sameAnswer, ih stillRelated allowedAll.2]

/--
If an input that is not allowed is answered differently, the answers agree
exactly as long as the inputs are allowed.
-/
theorem Follows.answers_eq_iff {act : S → I → S × A} {reference : T → I → T × A}
    {admitted allowed : T → I → Prop} {related : S → T → Prop}
    (follows : Follows act reference
      (fun abstract input => admitted abstract input ∧ allowed abstract input) related)
    (differs : ∀ state abstract input, related state abstract →
      admitted abstract input → ¬ allowed abstract input →
      (act state input).2 ≠ (reference abstract input).2)
    {state : S} {abstract : T} {inputs : List I}
    (start : related state abstract)
    (admittedAll : Along reference admitted abstract inputs) :
    answers act state inputs = answers reference abstract inputs ↔
      Along reference allowed abstract inputs := by
  induction inputs generalizing state abstract with
  | nil => exact iff_of_true rfl trivial
  | cons input rest ih =>
      rw [answers, answers, List.cons.injEq, Along]
      by_cases isAllowed : allowed abstract input
      · rcases follows state abstract input start ⟨admittedAll.1, isAllowed⟩ with
          ⟨sameAnswer, stillRelated⟩
        exact and_congr (iff_of_true sameAnswer isAllowed)
          (ih stillRelated admittedAll.2)
      · have different := differs state abstract input start admittedAll.1 isAllowed
        exact iff_of_false (fun same => different same.1) fun both => isAllowed both.1

end Infractl.Lib.Answers
