import Infractl.Lib.Run

/-!
# Runs under a clock

Some labels carry a reading of a clock that all processes share.  A run is
clocked when no reading is earlier than the one before it.  An invariant may
then speak about the latest reading.
-/

namespace Infractl.Lib.Run

universe u v w

variable {State : Type u} {Label : Type v} {Instant : Type w} [LE Instant]

/-- No reading along the labels is earlier than the one before it. -/
def Clocked (reading : Label → Option Instant) : Instant → List Label → Prop
  | _, [] => True
  | since, label :: rest =>
      since ≤ (reading label).getD since ∧
        Clocked reading ((reading label).getD since) rest

/-- An invariant of the latest reading and the state gives what it implies for each step. -/
theorem Clocked.allSteps {step : State → Label → Option State}
    {reading : Label → Option Instant} {good : State → Label → State → Prop}
    (invariant : Instant → State → Prop)
    (preserved :
      ∀ since state label next,
        invariant since state → since ≤ (reading label).getD since →
        step state label = some next →
        good state label next ∧ invariant ((reading label).getD since) next)
    {since : Instant} {start : State} {labels : List Label}
    (initial : invariant since start)
    (clocked : Clocked reading since labels) :
    AllSteps step good start labels := by
  induction labels generalizing since start with
  | nil => trivial
  | cons label rest ih =>
      intro next stepped
      rcases preserved since start label next initial clocked.1 stepped with
        ⟨holds, kept⟩
      exact ⟨holds, ih kept clocked.2⟩

end Infractl.Lib.Run
