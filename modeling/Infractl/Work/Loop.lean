import Infractl.Lib.Run

/-!
# The work loop

`Run` calls the work function, sleeps for what is left of the interval, and
starts again.  The sleep is a `select` over the context, the kick channel and a
timer, and is skipped when the work took longer than the interval.  `Kick`
sends to the kick channel, which holds one token, and drops the token when one
is there already.

A send to a `select` that is already waiting hands the token over at once; here
it is a send followed by the choice of the kick branch, with any steps of
others between the two.
-/

namespace Infractl.Work

open Infractl.Lib.Run

namespace Loop

/-- Where `Run` is. -/
inductive Phase where
  /-- About to call the work function. -/
  | starting
  | working
  /-- The work function has returned. -/
  | worked
  /-- In the `select` of `sleep`; the timer may have fired. -/
  | selecting (fired : Bool)
  /-- Back from `sleep`. -/
  | slept
  | stopped
deriving DecidableEq

/-- The branches of the `select`. -/
inductive Branch where
  | done
  | kick
  | timer
deriving DecidableEq

/-- A loop and its context; `kicked` records a `Kick` since the last call. -/
structure State where
  phase : Phase
  token : Bool
  cancelled : Bool
  kicked : Bool
deriving DecidableEq

/-- `advance` and `select` are steps of `Run`, the others of its surroundings. -/
inductive Label where
  | kick
  | cancel
  | fire
  | advance (elapsed : Int64)
  | select (branch : Branch)
deriving DecidableEq

/-- The label is a step of `Run` itself. -/
def Label.own : Label → Bool
  | .advance _ => true
  | .select _ => true
  | _ => false

/-- `NewLoop`, with `Run` about to start. -/
def new : State :=
  ⟨.starting, false, false, false⟩

namespace State

/-- The branches of the `select` that can be taken. -/
def ready (state : State) (fired : Bool) : Branch → Bool
  | .done => state.cancelled
  | .kick => state.token
  | .timer => fired

/-- Go on unless the context is cancelled. -/
def unlessCancelled (state : State) (phase : Phase) : State :=
  { state with phase := if state.cancelled then .stopped else phase }

/-- Where `sleep` goes: it returns at once when nothing of the interval is left. -/
def sleep (interval elapsed : Int64) : Phase :=
  if interval - elapsed ≤ 0 then .slept else .selecting false

theorem sleep_ne_stopped (interval elapsed : Int64) :
    sleep interval elapsed ≠ .stopped := by
  unfold sleep
  split <;> simp

/-- A step of `Run` outside the `select`. -/
def advance (interval elapsed : Int64) (state : State) : Option State :=
  match state.phase with
  | .starting => some { state with phase := .working, kicked := false }
  | .working => some { state with phase := .worked }
  | .worked => some (state.unlessCancelled (sleep interval elapsed))
  | .selecting _ => none
  | .slept => some (state.unlessCancelled .starting)
  | .stopped => none

/-- Take a branch of the `select`; the kick branch takes the token. -/
def select (branch : Branch) (state : State) : Option State :=
  match state.phase with
  | .selecting fired =>
      if state.ready fired branch then
        some
          { state with
            phase := .slept
            token := state.token && branch ≠ .kick }
      else
        none
  | _ => none

/-- One step of the loop or of its surroundings. -/
def step (interval : Int64) (state : State) : Label → Option State
  | .kick => some { state with token := true, kicked := true }
  | .cancel => some { state with cancelled := true }
  | .fire =>
      match state.phase with
      | .selecting _ => some { state with phase := .selecting true }
      | _ => none
  | .advance elapsed => state.advance interval elapsed
  | .select branch => state.select branch

/-- `Run` waits in `sleep`, and none of the branches can be taken. -/
def Blocked (state : State) : Prop :=
  ∃ fired, state.phase = .selecting fired ∧
    ∀ branch, state.ready fired branch = false

/--
Whatever `Run` chooses, its steps lead to a call of the work function, and it
can always take the next one.
-/
inductive Proceeds (interval : Int64) : State → Prop where
  | call {state : State}
      (starting : state.phase = .starting) :
      Proceeds interval state
  | advance {state : State}
      (enabled : ∃ label next,
        label.own = true ∧ state.step interval label = some next)
      (each : ∀ label next, label.own = true →
        state.step interval label = some next → Proceeds interval next) :
      Proceeds interval state

/-! ## A kick that is still to be served -/

/--
A kick not yet served is in the channel, or `Run` is past its `select` and on
its way to a call.
-/
structure Valid (state : State) : Prop where
  served : state.kicked = true →
    state.cancelled = true ∨ state.token = true ∨ state.phase = .starting ∨
      state.phase = .slept
  stopped : state.phase = .stopped → state.cancelled = true

variable {interval : Int64} {state next : State}

theorem Valid.token_or_cancelled (valid : state.Valid)
    (kicked : state.kicked = true)
    (notStarting : state.phase ≠ .starting)
    (notSlept : state.phase ≠ .slept) :
    state.cancelled = true ∨ state.token = true := by
  rcases valid.served kicked with cancelled | token | starting | slept
  · exact Or.inl cancelled
  · exact Or.inr token
  · exact absurd starting notStarting
  · exact absurd slept notSlept

theorem cancelled_of_stopped {phase : Phase} (goesOn : phase ≠ .stopped)
    (stopped : (state.unlessCancelled phase).phase = .stopped) :
    state.cancelled = true := by
  by_contra running
  exact goesOn ((if_neg running).symm.trans stopped)

theorem advance_valid {elapsed : Int64} (valid : state.Valid)
    (advanced : state.advance interval elapsed = some next) :
    next.Valid := by
  have held := valid.token_or_cancelled
  rw [advance] at advanced
  split at advanced
  · cases advanced
    exact ⟨(fun impossible => by cases impossible),
      (fun impossible => by cases impossible)⟩
  · next working =>
      cases advanced
      refine ⟨fun kicked => ?_, (fun impossible => by cases impossible)⟩
      have kept := held kicked (by simp [working]) (by simp [working])
      exact kept.imp_right Or.inl
  · next worked =>
      cases advanced
      constructor
      · intro kicked
        have kept := held kicked (by simp [worked]) (by simp [worked])
        exact kept.imp_right Or.inl
      · exact cancelled_of_stopped (sleep_ne_stopped interval elapsed)
  · cases advanced
  · cases advanced
    constructor
    · intro _
      by_cases cancelled : state.cancelled = true
      · exact Or.inl cancelled
      · simp [unlessCancelled, cancelled]
    · exact cancelled_of_stopped (by simp)
  · cases advanced

theorem select_valid {branch : Branch}
    (selected : state.select branch = some next) :
    next.Valid := by
  rw [select] at selected
  split at selected
  · rcases Option.ite_none_right_eq_some.mp selected with ⟨_, equal⟩
    cases equal
    exact ⟨fun _ => by simp, (fun impossible => by cases impossible)⟩
  · cases selected

theorem step_valid {label : Label} (valid : state.Valid)
    (stepped : state.step interval label = some next) :
    next.Valid := by
  cases label with
  | kick =>
      cases stepped
      exact ⟨fun _ => by simp, valid.stopped⟩
  | cancel =>
      cases stepped
      exact ⟨fun _ => by simp, fun _ => rfl⟩
  | fire =>
      simp only [step] at stepped
      split at stepped
      · next fired selecting =>
          cases stepped
          refine ⟨fun kicked => ?_, (fun impossible => by cases impossible)⟩
          have kept := valid.token_or_cancelled kicked (by simp [selecting])
            (by simp [selecting])
          exact kept.imp_right Or.inl
      · cases stepped
  | advance elapsed => exact advance_valid valid stepped
  | select branch => exact select_valid stepped

theorem run_valid {labels : List Label}
    (reached : run (step interval) new labels = some state) :
    state.Valid := by
  have initial : new.Valid :=
    ⟨(fun impossible => by cases impossible),
      (fun impossible => by cases impossible)⟩
  exact run_invariant (step interval)
    (fun _ _ _ valid stepped => step_valid valid stepped) initial reached

/-! ## From each phase to the next call -/

/-- Outside the `select`, `Run` can only advance. -/
theorem proceeds_of_advance (outside : ∀ branch, state.select branch = none)
    (proceeds : ∀ elapsed, ∃ next,
      state.advance interval elapsed = some next ∧ next.Proceeds interval) :
    state.Proceeds interval := by
  rcases proceeds 0 with ⟨next, advances, _⟩
  refine .advance ⟨.advance 0, next, rfl, advances⟩ ?_
  intro label other own stepped
  cases label with
  | advance elapsed =>
      rcases proceeds elapsed with ⟨next, advances, proceeds⟩
      cases advances.symm.trans stepped
      exact proceeds
  | select branch => cases (outside branch).symm.trans stepped
  | _ => cases own

theorem proceeds_of_slept (running : state.cancelled = false)
    (slept : state.phase = .slept) :
    state.Proceeds interval := by
  refine proceeds_of_advance (by simp [select, slept]) fun elapsed => ?_
  refine ⟨{ state with phase := .starting }, ?_, .call rfl⟩
  simp [advance, slept, unlessCancelled, running]

theorem proceeds_of_selecting {fired : Bool} (running : state.cancelled = false)
    (token : state.token = true)
    (selecting : state.phase = .selecting fired) :
    state.Proceeds interval := by
  have selects : state.select .kick =
      some { state with phase := .slept, token := false } := by
    simp [select, selecting, ready, token]
  refine .advance ⟨.select .kick, _, rfl, selects⟩ ?_
  intro label next own stepped
  cases label with
  | advance elapsed => simp [step, advance, selecting] at stepped
  | select branch =>
      simp only [step, select, selecting] at stepped
      rcases Option.ite_none_right_eq_some.mp stepped with ⟨_, equal⟩
      cases equal
      exact proceeds_of_slept running rfl
  | _ => cases own

theorem proceeds_of_worked (running : state.cancelled = false)
    (token : state.token = true)
    (worked : state.phase = .worked) :
    state.Proceeds interval := by
  refine proceeds_of_advance (by simp [select, worked]) fun elapsed => ?_
  refine ⟨{ state with phase := sleep interval elapsed }, ?_, ?_⟩
  · simp [advance, worked, unlessCancelled, running]
  · by_cases overran : interval - elapsed ≤ 0
    · exact proceeds_of_slept running (if_pos overran)
    · exact proceeds_of_selecting running token (if_neg overran)

end State

/--
In every state of every run in which a `Kick` has returned since the work
function was last called, and the context is not cancelled, `Run` is not
waiting for its timer: it is inside the work function with the token in the
channel, or its own steps lead to the next call and it can take each of them.
-/
theorem kick_not_lost (interval : Int64) {state : State} (labels : List Label)
    (reached : run (State.step interval) new labels = some state)
    (running : state.cancelled = false)
    (kicked : state.kicked = true) :
    ¬ state.Blocked ∧
      (state.phase = .working ∧ state.token = true ∨
        state.Proceeds interval) := by
  have valid := State.run_valid reached
  have buffered (notStarting : state.phase ≠ .starting)
      (notSlept : state.phase ≠ .slept) : state.token = true := by
    rcases valid.token_or_cancelled kicked notStarting notSlept with
      cancelled | token
    · cases running.symm.trans cancelled
    · exact token
  constructor
  · rintro ⟨fired, selecting, blocked⟩
    have token := buffered (by simp [selecting]) (by simp [selecting])
    cases token.symm.trans (blocked .kick)
  · cases phase : state.phase with
    | starting => exact Or.inr (.call phase)
    | working =>
        exact Or.inl ⟨rfl, buffered (by simp [phase]) (by simp [phase])⟩
    | worked =>
        exact Or.inr (State.proceeds_of_worked running
          (buffered (by simp [phase]) (by simp [phase])) phase)
    | selecting fired =>
        exact Or.inr (State.proceeds_of_selecting running
          (buffered (by simp [phase]) (by simp [phase])) phase)
    | slept => exact Or.inr (State.proceeds_of_slept running phase)
    | stopped => cases running.symm.trans (valid.stopped phase)

/-- A kick during the work cuts the sleep after it short. -/
theorem kick_during_work_not_lost :
    ∃ state,
      run (State.step 10) new
          [.advance 0, .kick, .kick, .advance 0, .advance 3] = some state ∧
        state.phase = .selecting false ∧
        ¬ state.Blocked ∧ state.Proceeds 10 := by
  refine ⟨_, rfl, rfl, ?_⟩
  have served := kick_not_lost 10
    [.advance 0, .kick, .kick, .advance 0, .advance 3] rfl rfl rfl
  refine ⟨served.1, served.2.resolve_left ?_⟩
  rintro ⟨working, _⟩
  cases working

end Loop

end Infractl.Work
