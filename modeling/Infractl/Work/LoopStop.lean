import Infractl.Work.Loop

/-!
# Stopping the work loop

`Run` looks at its context after each call of the work function and after each
sleep, and the sleep ends when the context is cancelled.  Once it is, `Run` has
a fixed number of steps left in each phase, can always take the next one, and
calls the work function once more only if it was past its last look.
-/

namespace Infractl.Work

open Infractl.Lib.Run

namespace Loop

/-- The steps of `Run` up to its return, when the context is cancelled. -/
def Phase.stepsLeft : Phase → Nat
  | .starting => 3
  | .working => 2
  | .worked => 1
  | .selecting _ => 2
  | .slept => 1
  | .stopped => 0

/-- The calls of the work function still to come, when the context is cancelled. -/
def Phase.callsLeft : Phase → Nat
  | .starting => 1
  | _ => 0

/-- The step calls the work function. -/
def State.calls (state : State) : Label → Bool
  | .advance _ => state.phase = .starting
  | _ => false

/-- The calls of the work function along a run. -/
def callsAlong (interval : Int64) : State → List Label → Nat
  | _, [] => 0
  | state, label :: rest =>
      match state.step interval label with
      | none => 0
      | some next => (state.calls label).toNat + callsAlong interval next rest

namespace State

variable {interval : Int64} {state next : State}

/-- What a step takes from the steps and the calls that are left. -/
structure Spends (state : State) (label : Label) (next : State) : Prop where
  cancelled : next.cancelled = true
  steps : label.own.toNat + next.phase.stepsLeft = state.phase.stepsLeft
  calls : (state.calls label).toNat + next.phase.callsLeft = state.phase.callsLeft

theorem spends_of_phase {label : Label} {phase : Phase} (cancelled : next.cancelled = true)
    (before : state.phase = phase)
    (steps : label.own.toNat + next.phase.stepsLeft = phase.stepsLeft)
    (calls : (State.calls { state with phase := phase } label).toNat +
      next.phase.callsLeft = phase.callsLeft) :
    state.Spends label next := by
  subst before
  exact ⟨cancelled, steps, calls⟩

theorem advance_spends {elapsed : Int64} (cancelled : state.cancelled = true)
    (stepped : state.advance interval elapsed = some next) :
    state.Spends (.advance elapsed) next := by
  have stops (phase : Phase) : state.unlessCancelled phase =
      { state with phase := .stopped } := by
    simp [unlessCancelled, cancelled]
  unfold advance at stepped
  cases phase : state.phase with
  | starting =>
      rw [phase] at stepped
      cases stepped
      exact spends_of_phase cancelled phase rfl rfl
  | working =>
      rw [phase] at stepped
      cases stepped
      exact spends_of_phase cancelled phase rfl rfl
  | worked =>
      rw [phase] at stepped
      cases stepped
      rw [stops]
      exact spends_of_phase cancelled phase rfl rfl
  | selecting fired =>
      rw [phase] at stepped
      cases stepped
  | slept =>
      rw [phase] at stepped
      cases stepped
      rw [stops]
      exact spends_of_phase cancelled phase rfl rfl
  | stopped =>
      rw [phase] at stepped
      cases stepped

theorem select_spends {branch : Branch} (cancelled : state.cancelled = true)
    (stepped : state.select branch = some next) :
    state.Spends (.select branch) next := by
  unfold select at stepped
  cases phase : state.phase with
  | selecting fired =>
      rw [phase] at stepped
      rcases Option.ite_none_right_eq_some.mp stepped with ⟨_, equal⟩
      cases equal
      exact spends_of_phase cancelled phase rfl rfl
  | _ =>
      rw [phase] at stepped
      cases stepped

theorem step_spends {label : Label} (cancelled : state.cancelled = true)
    (stepped : state.step interval label = some next) :
    state.Spends label next := by
  cases label with
  | kick =>
      cases stepped
      exact ⟨cancelled, Nat.zero_add _, Nat.zero_add _⟩
  | cancel =>
      cases stepped
      exact ⟨rfl, Nat.zero_add _, Nat.zero_add _⟩
  | fire =>
      simp only [step] at stepped
      split at stepped
      · next fired phase =>
          cases stepped
          exact spends_of_phase cancelled phase rfl rfl
      · cases stepped
  | advance elapsed => exact advance_spends cancelled stepped
  | select branch => exact select_spends cancelled stepped

/-- A cancelled `Run` that has not returned can take its next step. -/
theorem enabled_of_cancelled (interval : Int64) (cancelled : state.cancelled = true)
    (running : state.phase ≠ .stopped) :
    ∃ label next, label.own = true ∧ state.step interval label = some next := by
  cases phase : state.phase with
  | selecting fired =>
      have selects : (state.step interval (.select .done)).isSome = true := by
        simp [step, select, phase, ready, cancelled]
      rcases Option.isSome_iff_exists.mp selects with ⟨next, stepped⟩
      exact ⟨.select .done, next, rfl, stepped⟩
  | stopped => cases running phase
  | _ =>
      have advances : (state.step interval (.advance 0)).isSome = true := by
        simp [step, advance, phase]
      rcases Option.isSome_iff_exists.mp advances with ⟨next, stepped⟩
      exact ⟨.advance 0, next, rfl, stepped⟩

end State

/--
From any state in which the context is cancelled, and whatever others do, `Run`
takes as many steps as its phase has left, at most three, and is never blocked
before it returns.  It calls the work function at most once, and not at all
unless it was about to.
-/
theorem cancelled_loop_stops (interval : Int64) {state final : State}
    (labels : List Label) (cancelled : state.cancelled = true)
    (reached : run (State.step interval) state labels = some final) :
    labels.countP Label.own + final.phase.stepsLeft = state.phase.stepsLeft ∧
      callsAlong interval state labels + final.phase.callsLeft = state.phase.callsLeft ∧
      (final.phase ≠ .stopped →
        ∃ label next, label.own = true ∧ final.step interval label = some next) := by
  induction labels generalizing state with
  | nil =>
      cases reached
      exact ⟨Nat.zero_add _, Nat.zero_add _,
        State.enabled_of_cancelled interval cancelled⟩
  | cons label rest ih =>
      rcases (run_cons_eq_some_iff (State.step interval)).mp reached with
        ⟨next, stepped, later⟩
      have spends := State.step_spends cancelled stepped
      rcases ih spends.cancelled later with ⟨steps, calls, enabled⟩
      refine ⟨?_, ?_, enabled⟩
      · rw [List.countP_cons]
        have own := spends.steps
        cases owned : label.own <;> simp [owned] at own ⊢ <;> omega
      · simp only [callsAlong, stepped]
        have called := spends.calls
        omega

/-- A loop cancelled in its sleep, with a kick pending, returns without a call. -/
theorem cancelled_sleep_stops :
    ∃ final,
      run (State.step 10) ⟨.selecting false, true, true, true⟩
          [.select .kick, .advance 0] = some final ∧
        callsAlong 10 ⟨.selecting false, true, true, true⟩
            [.select .kick, .advance 0] + final.phase.callsLeft = 0 := by
  refine ⟨⟨.stopped, false, true, true⟩, rfl, ?_⟩
  exact (cancelled_loop_stops 10 [.select .kick, .advance 0] rfl rfl).2.1

end Loop

end Infractl.Work
