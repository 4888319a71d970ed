import Infractl.Lib.Answers
import Infractl.Lib.Run

/-!
# Interleaved machines that answer like a sequential one

A sequential machine takes one input after the other and answers each.  In an
interleaved machine many calls are under way at once; a call takes effect in a
single step, at which its input and its answer are written to a log.

When every step either leaves the sequential state and the log alone, or takes
one input as the sequential machine does and logs its answer, then the logged
answers of a whole run are those the sequential machine gives to the logged
inputs, in the order of the log.
-/

namespace Infractl.Lib.Linearize

open Infractl.Lib.Answers
open Infractl.Lib.Run

universe u v w x y

variable {S : Type u} {I : Type v} {A : Type w}

/-- The state of a sequential machine after inputs. -/
def after (act : S → I → S × A) (state : S) (inputs : List I) : S :=
  inputs.foldl (fun current input => (act current input).1) state

@[simp]
theorem after_concat (act : S → I → S × A) (state : S) (inputs : List I)
    (input : I) :
    after act state (inputs ++ [input]) = (act (after act state inputs) input).1 := by
  rw [after, List.foldl_append]
  rfl

theorem answers_concat (act : S → I → S × A) (state : S) (inputs : List I)
    (input : I) :
    answers act state (inputs ++ [input]) =
      answers act state inputs ++ [(act (after act state inputs) input).2] := by
  induction inputs generalizing state with
  | nil => rfl
  | cons first rest ih =>
      rw [List.cons_append, answers, answers, ih, List.cons_append]
      rfl

/-- The log holds the answers of the sequential machine to its inputs. -/
structure Replays (act : S → I → S × A) (start : S) (log : List (I × A))
    (state : S) : Prop where
  answers_eq : answers act start (log.map Prod.fst) = log.map Prod.snd
  after_eq : after act start (log.map Prod.fst) = state

/-- A step that is not seen by the sequential machine, or takes one input. -/
inductive Commits (act : S → I → S × A) (state : S) (log : List (I × A)) :
    S → List (I × A) → Prop where
  | keeps : Commits act state log state log
  | takes (input : I) :
      Commits act state log (act state input).1
        (log ++ [(input, (act state input).2)])

namespace Replays

variable {act : S → I → S × A} {start state next : S} {log longer : List (I × A)}

theorem nil (act : S → I → S × A) (start : S) : Replays act start [] start :=
  ⟨rfl, rfl⟩

theorem commit (replays : Replays act start log state)
    (commits : Commits act state log next longer) :
    Replays act start longer next := by
  cases commits with
  | keeps => exact replays
  | takes input =>
      rcases replays with ⟨sameAnswers, rfl⟩
      constructor
      · rw [List.map_append, List.map_append, List.map_singleton,
          List.map_singleton, answers_concat, sameAnswers]
      · rw [List.map_append, List.map_singleton, after_concat]

end Replays

variable {State : Type x} {Label : Type y} {step : State → Label → Option State}

/--
Where every step from a state with the invariant commits, the log of a whole
run replays on the sequential machine.
-/
theorem run_replays
    (act : S → I → S × A) (view : State → S) (log : State → List (I × A))
    (invariant : State → Prop)
    (preserved :
      ∀ state label next,
        invariant state → step state label = some next → invariant next)
    (commits :
      ∀ state label next,
        invariant state → step state label = some next →
        Commits act (view state) (log state) (view next) (log next))
    {start finish : State} {labels : List Label}
    (initial : invariant start)
    (empty : log start = [])
    (reached : run step start labels = some finish) :
    Replays act (view start) (log finish) (view finish) := by
  have extend : ∀ state label next,
      (invariant state ∧ Replays act (view start) (log state) (view state)) →
      step state label = some next →
      invariant next ∧ Replays act (view start) (log next) (view next) := by
    rintro state label next ⟨holds, replays⟩ stepped
    exact ⟨preserved state label next holds stepped,
      replays.commit (commits state label next holds stepped)⟩
  have first : Replays act (view start) (log start) (view start) := by
    rw [empty]
    exact Replays.nil act (view start)
  exact (run_invariant step extend ⟨initial, first⟩ reached).2

end Infractl.Lib.Linearize
