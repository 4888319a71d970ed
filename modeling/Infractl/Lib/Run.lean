import Mathlib.Data.List.Induction

/-!
# Runs of a labelled transition function

A transition function `step : State → Label → Option State` answers with the
next state, or with `none` when the label is not enabled.  A run follows a
list of labels; nondeterminism (which process moves, which choice it makes)
lives in the labels, so that a run is determined by its start and its labels
and can be evaluated.

Invariants are proved once per step and lifted here to whole runs.
`AllSteps` says that every step of a run satisfies a relation between the
state before it, its label and the state after it.
-/

namespace Infractl.Lib.Run

universe u v

variable {State : Type u} {Label : Type v}
variable (step : State → Label → Option State)

/-- Follow the labels in order; `none` when one of them is not enabled. -/
def run : State → List Label → Option State
  | state, [] => some state
  | state, label :: rest =>
      (step state label).bind (fun next => run next rest)

@[simp]
theorem run_nil (state : State) : run step state [] = some state :=
  rfl

theorem run_cons_eq_some_iff
    {start finish : State} {label : Label} {rest : List Label} :
    run step start (label :: rest) = some finish ↔
      ∃ next, step start label = some next ∧
        run step next rest = some finish := by
  simp [run, Option.bind_eq_some_iff]

theorem run_append (start : State) (first second : List Label) :
    run step start (first ++ second) =
      (run step start first).bind (fun middle => run step middle second) := by
  induction first generalizing start with
  | nil => rfl
  | cons label rest ih =>
      rw [List.cons_append, run, run, Option.bind_assoc]
      exact congrArg _ (funext ih)

theorem run_append_eq_some_iff
    {start finish : State} {first second : List Label} :
    run step start (first ++ second) = some finish ↔
      ∃ middle, run step start first = some middle ∧
        run step middle second = some finish := by
  rw [run_append, Option.bind_eq_some_iff]

theorem run_concat_eq_some_iff
    {start finish : State} {labels : List Label} {label : Label} :
    run step start (labels ++ [label]) = some finish ↔
      ∃ last, run step start labels = some last ∧
        step last label = some finish := by
  rw [run_append_eq_some_iff]
  simp [run_cons_eq_some_iff]

/-- Some run leads from one state to the other. -/
def Reaches (start finish : State) : Prop :=
  ∃ labels, run step start labels = some finish

namespace Reaches

variable {step}

theorem refl (state : State) : Reaches step state state :=
  ⟨[], rfl⟩

theorem head {start next finish : State} (label : Label)
    (stepped : step start label = some next)
    (reaches : Reaches step next finish) :
    Reaches step start finish := by
  rcases reaches with ⟨labels, reached⟩
  exact ⟨label :: labels, (run_cons_eq_some_iff step).mpr
    ⟨next, stepped, reached⟩⟩

theorem trans {start middle finish : State}
    (first : Reaches step start middle) (second : Reaches step middle finish) :
    Reaches step start finish := by
  rcases first with ⟨earlier, reachedMiddle⟩
  rcases second with ⟨later, reachedFinish⟩
  exact ⟨earlier ++ later, (run_append_eq_some_iff step).mpr
    ⟨middle, reachedMiddle, reachedFinish⟩⟩

end Reaches

variable {labels : List Label} {good : State → Label → State → Prop} {start : State}
variable (invariant : State → Prop)

/--
Induction over a run from a fixed start, one label at a time at its end.  The
motive may speak about the labels followed so far.
-/
theorem run_induction
    {motive : List Label → State → Prop} (initial : motive [] start)
    (extend :
      ∀ labels label state next,
        run step start labels = some state →
        motive labels state →
        step state label = some next →
        motive (labels ++ [label]) next)
    {finish : State} (reached : run step start labels = some finish) :
    motive labels finish := by
  induction labels using List.reverseRecOn generalizing finish with
  | nil =>
      cases reached
      exact initial
  | append_singleton labels label ih =>
      rcases (run_concat_eq_some_iff step).mp reached with
        ⟨last, reachedLast, stepped⟩
      exact extend labels label last finish reachedLast (ih reachedLast) stepped

/-- A property kept by every step holds at the end of every run. -/
theorem run_invariant
    {invariant : State → Prop}
    (preserved :
      ∀ state label next,
        invariant state → step state label = some next → invariant next)
    {start finish : State} (initial : invariant start)
    (reached : run step start labels = some finish) :
    invariant finish :=
  run_induction step (motive := fun _ state => invariant state) initial
    (fun _ label state next _ holds stepped =>
      preserved state label next holds stepped)
    reached

/-- Every step taken along the labels satisfies `good`. -/
def AllSteps (good : State → Label → State → Prop) :
    State → List Label → Prop
  | _, [] => True
  | state, label :: rest =>
      ∀ next, step state label = some next →
        good state label next ∧ AllSteps good next rest

variable {step}

theorem AllSteps.cons
    {start next : State} {label : Label} {rest : List Label}
    (stepped : step start label = some next) (holds : good start label next)
    (remaining : AllSteps step good next rest) :
    AllSteps step good start (label :: rest) := by
  intro other steppedOther
  cases stepped.symm.trans steppedOther
  exact ⟨holds, remaining⟩

/-- What holds of every label holds along every run that follows them. -/
theorem allSteps_of_forall_mem
    {good : Label → Prop} (holds : ∀ label ∈ labels, good label) (start : State) :
    AllSteps step (fun _ label _ => good label) start labels := by
  induction labels generalizing start with
  | nil => trivial
  | cons label rest ih =>
      rcases List.forall_mem_cons.mp holds with ⟨head, tail⟩
      exact fun next _ => ⟨head, ih tail next⟩

/-- The relation that holds of every step. -/
theorem allSteps_true (start : State) (labels : List Label) :
    AllSteps step (fun _ _ _ => True) start labels :=
  allSteps_of_forall_mem (fun _ _ => trivial) start

theorem AllSteps.and
    {first second : State → Label → State → Prop}
    (holds : AllSteps step first start labels)
    (alsoHolds : AllSteps step second start labels) :
    AllSteps step
      (fun before label after =>
        first before label after ∧ second before label after) start labels := by
  induction labels generalizing start with
  | nil => trivial
  | cons label rest ih =>
      intro next stepped
      rcases holds next stepped with ⟨good, remaining⟩
      rcases alsoHolds next stepped with ⟨alsoGood, alsoRemaining⟩
      exact ⟨⟨good, alsoGood⟩, ih remaining alsoRemaining⟩

theorem AllSteps.mono
    {weak strong : State → Label → State → Prop}
    (preserved :
      ∀ state label next,
        invariant state → step state label = some next →
        strong state label next → invariant next)
    (implies :
      ∀ state label next,
        invariant state → step state label = some next →
        strong state label next → weak state label next)
    (initial : invariant start) (steps : AllSteps step strong start labels) :
    AllSteps step weak start labels := by
  induction labels generalizing start with
  | nil => trivial
  | cons label rest ih =>
      intro next stepped
      rcases steps next stepped with ⟨good, remaining⟩
      exact
        ⟨implies start label next initial stepped good,
          ih (preserved start label next initial stepped good) remaining⟩

/-- What the invariant gives for one step holds for every step. -/
theorem allSteps_of_invariant
    (preserved :
      ∀ state label next,
        invariant state → step state label = some next → invariant next)
    (implies :
      ∀ state label next,
        invariant state → step state label = some next → good state label next)
    (initial : invariant start) (labels : List Label) :
    AllSteps step good start labels :=
  AllSteps.mono invariant
    (fun state label next holds stepped _ => preserved state label next holds stepped)
    (fun state label next holds stepped _ => implies state label next holds stepped)
    initial (allSteps_true start labels)

/--
Two relations that agree on every step taken from a state with the invariant
hold of the same runs.  The invariant has to survive only steps on which they
hold.
-/
theorem allSteps_congr
    {left right : State → Label → State → Prop}
    (preserved :
      ∀ state label next,
        invariant state → step state label = some next →
        right state label next → invariant next)
    (agree :
      ∀ state label next,
        invariant state → step state label = some next →
        (left state label next ↔ right state label next))
    (initial : invariant start) (labels : List Label) :
    AllSteps step left start labels ↔ AllSteps step right start labels := by
  constructor
  · refine AllSteps.mono invariant ?_
      (fun state label next holds stepped =>
        (agree state label next holds stepped).mp) initial
    intro state label next holds stepped good
    exact preserved state label next holds stepped
      ((agree state label next holds stepped).mp good)
  · exact AllSteps.mono invariant preserved
      (fun state label next holds stepped =>
        (agree state label next holds stepped).mpr) initial

/--
A property kept by every step that satisfies `good` holds at the end of every
run all of whose steps do.
-/
theorem AllSteps.run_invariant
    (preserved :
      ∀ state label next,
        invariant state → step state label = some next →
        good state label next → invariant next)
    {start finish : State} (initial : invariant start)
    (steps : AllSteps step good start labels)
    (reached : run step start labels = some finish) :
    invariant finish := by
  induction labels generalizing start with
  | nil =>
      cases reached
      exact initial
  | cons label rest ih =>
      rcases (run_cons_eq_some_iff step).mp reached with
        ⟨next, stepped, reached⟩
      rcases steps next stepped with ⟨good, remaining⟩
      exact
        ih (preserved start label next initial stepped good) remaining reached

/--
A step that is not `good` spoils the state for the rest of the run.  So the
state at the end tells whether all steps were good.  The steps may be assumed
`allowed`.
-/
theorem allSteps_or_spoiled
    {allowed : State → Label → State → Prop} (good : State → Label → State → Prop)
    (sound spoiled : State → Prop)
    (keeps :
      ∀ state label next,
        sound state → step state label = some next →
        allowed state label next → good state label next → sound next)
    (spoils :
      ∀ state label next,
        sound state → step state label = some next →
        allowed state label next → ¬ good state label next → spoiled next)
    (stays :
      ∀ state label next,
        spoiled state → step state label = some next →
        allowed state label next → spoiled next)
    {start finish : State} (initial : sound start)
    (steps : AllSteps step allowed start labels)
    (reached : run step start labels = some finish) :
    (AllSteps step good start labels ∧ sound finish) ∨
      (¬ AllSteps step good start labels ∧ spoiled finish) := by
  induction labels generalizing start with
  | nil =>
      cases reached
      exact Or.inl ⟨trivial, initial⟩
  | cons label rest ih =>
      rcases (run_cons_eq_some_iff step).mp reached with
        ⟨next, stepped, reachedRest⟩
      rcases steps next stepped with ⟨fits, remaining⟩
      by_cases holds : good start label next
      · have soundNext := keeps start label next initial stepped fits holds
        rcases ih soundNext remaining reachedRest with
          ⟨others, ends⟩ | ⟨others, ends⟩
        · exact Or.inl ⟨.cons stepped holds others, ends⟩
        · exact Or.inr ⟨fun all => others (all next stepped).2, ends⟩
      · have spoiledNext := spoils start label next initial stepped fits holds
        refine Or.inr ⟨fun all => holds (all next stepped).1, ?_⟩
        exact AllSteps.run_invariant spoiled stays spoiledNext remaining
          reachedRest

end Infractl.Lib.Run
