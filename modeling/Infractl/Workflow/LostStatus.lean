import Infractl.Workflow.Reporting

/-!
# Status updates that are lost

The status of a resource is to be updated when its workflow ends.  A main run
that is finished when `Submit` returns is never tracked, so that no callback is
invoked for it; and a run is removed from tracking after its callback, whether
or not the callback returned an error.  Without these two, and with distinct
identifiers of the runs that are tracked, no update is lost.
-/

namespace Infractl.Workflow

open Infractl.Lib
open Infractl.Lib.Run

variable {ι V : Type}

/-- A run that has ended, as `Submit` or a later `Poll` reported. -/
def World.Ended (world : World ι V) (run : Run V) : Prop :=
  run.status.terminal = true ∨
    ∃ entry polled, .polled entry polled ∈ world.log ∧
      entry.runID = run.id ∧ polled.status.terminal = true

/--
Every main run of a call with options that has ended was reported by a callback
that returned no error, or is still tracked.
-/
def World.KeepsUpdates (world : World ι V) : Prop :=
  ∀ client run,
    (world.calls client).stage.mainRun = some run →
    (world.calls client).request.opts ≠ [] →
    world.Ended run →
    (∃ entry reported, .called entry reported none ∈ world.log ∧
        entry.runID = run.id) ∨
      (world.tracked.find run.id).isSome = true

/--
A step that loses no update: runs that are tracked have distinct identifiers, the
main `Submit` of a call with options returns an unfinished run, and the callback
returns no error.
-/
structure LosesNothing (world : World ι V) (label : Label ι V)
    (next : World ι V) : Prop where
  distinctIDs : DistinctIDs world label next
  unfinished : ∀ client run handler, label = .submit client (.ok run) →
    (world.calls client).stage = .main handler →
    (world.calls client).request.opts ≠ [] →
    run.status.terminal = false
  accepted : ∀ error, label ≠ .callback (some error)

namespace World

variable {world next : World ι V} {label : Label ι V}

/-- What the two conditions on the executor and the callback maintain. -/
structure Keeps (world : World ι V) : Prop where
  valid : world.Valid
  unfinished : ∀ client run,
    (world.calls client).stage.mainRun = some run →
    (world.calls client).request.opts ≠ [] →
    run.status.terminal = false
  accepted : ∀ entry run error, .called entry run error ∈ world.log →
    error = none

theorem Keeps.keepsUpdates (keeps : world.Keeps) : world.KeepsUpdates := by
  intro client run main options ended
  rcases ended with terminal | ⟨entry, polled, member, sameID, _⟩
  · cases (keeps.unfinished client run main options).symm.trans terminal
  · rcases keeps.valid.polled entry polled member with ⟨owner, owns⟩
    have tracks := keeps.unfinished client run main options
    have recorded :=
      (keeps.valid.owner_eq ⟨main, tracks, options⟩ owns sameID).2
    rcases keeps.valid.recorded client run recorded with tracked | once
    · exact Or.inr tracked
    · have called : callbacksOf run.id world.log ≠ 0 := by omega
      rcases exists_called called with ⟨reported, last, error, logged, reportedID⟩
      cases keeps.accepted reported last error logged
      exact Or.inl ⟨reported, last, logged, reportedID⟩

variable [DecidableEq ι]

theorem Moves.keeps (moves : world.Moves label next) (keeps : world.Keeps)
    (losesNothing : LosesNothing world label next) :
    next.Keeps := by
  refine ⟨moves.valid keeps.valid losesNothing.distinctIDs, ?_, ?_⟩
  · cases moves with
    | @submitted client answer call submits =>
        intro other run main options
        simp only [Function.update_apply] at main options
        split at main
        · next same =>
            subst same
            rw [if_pos rfl, Call.submit_request submits] at options
            rcases (Call.submit_reports submits).mainRun main with
              old | ⟨rfl, handler, atMain⟩
            · exact keeps.unfinished other run old options
            · exact losesNothing.unfinished other run handler rfl atMain options
        · next different =>
            rw [if_neg different] at options
            exact keeps.unfinished other run main options
    | @recorded client now run opts others stage _ =>
        intro other otherRun main options
        simp only [Function.update_apply] at main options
        split at main
        · next same =>
            subst same
            simp only [Call.recorded, Stage.mainRun_toPost] at main
            cases main
            exact (keeps.valid.awaiting other run stage).1
        · next different =>
            rw [if_neg different] at options
            exact keeps.unfinished other otherRun main options
    | copied => exact keeps.unfinished
    | polled => exact keeps.unfinished
    | called => exact keeps.unfinished
    | deleted => exact keeps.unfinished
  · cases moves with
    | submitted => exact keeps.accepted
    | recorded => exact keeps.accepted
    | copied => exact keeps.accepted
    | polled =>
        intro entry run error member
        exact keeps.accepted entry run error (called_mem_of_polled member)
    | @called error calledEntry calledRun rest calling =>
        intro entry run otherError member
        rcases List.mem_append.mp member with old | new
        · exact keeps.accepted entry run otherError old
        · cases List.mem_singleton.mp new
          cases error with
          | none => rfl
          | some cause => exact absurd rfl (losesNothing.accepted cause)
    | deleted => exact keeps.accepted

omit [DecidableEq ι] in
theorem Initial.keeps (initial : world.Initial) : world.Keeps := by
  refine ⟨initial.valid, ?_, ?_⟩
  · intro client run main
    cases (initial.mainRun client).symm.trans main
  · intro entry run error member
    rw [initial.log] at member
    cases member

end World

variable [DecidableEq ι]

/--
In every run whose executor gives tracked runs distinct identifiers and finishes
no main run of a call with options within `Submit`, and whose callbacks return
no error, no status update is lost.
-/
theorem status_updates_kept
    {start final : World ι V} (labels : List (Label ι V))
    (initial : start.Initial)
    (losesNothing : AllSteps World.step LosesNothing start labels)
    (reached : run World.step start labels = some final) :
    final.KeepsUpdates := by
  have keeps := AllSteps.run_invariant World.Keeps
    (fun _ _ _ keeps stepped good => (World.step_moves stepped).keeps keeps good)
    initial.keeps losesNothing reached
  exact keeps.keepsUpdates

/-- Steps that neither submit a run nor return from the callback. -/
theorem LosesNothing.of_other {world next : World Nat Nat}
    {label : Label Nat Nat}
    (notSubmit : ∀ client answer, label ≠ .submit client answer)
    (accepted : ∀ error, label ≠ .callback (some error)) :
    LosesNothing world label next where
  distinctIDs client run _ isSubmit :=
    absurd isSubmit (notSubmit client (.ok run))
  unfinished client run _ isSubmit :=
    absurd isSubmit (notSubmit client (.ok run))
  accepted := accepted

theorem pollTwice_losesNothing :
    AllSteps World.step LosesNothing provisioning pollTwice := by
  refine .cons rfl ⟨?_, ?_, by simp⟩ ?_
  · intro client run handler _ _ _ _ other otherRun tracks
    cases (provisioning_initial.mainRun other).symm.trans tracks.main
  · rintro client run handler ⟨⟩ _ _
    rfl
  refine .cons rfl (.of_other (by simp) (by simp)) ?_
  refine .cons rfl (.of_other (by simp) (by simp)) ?_
  refine .cons rfl (.of_other (by simp) (by simp)) ?_
  refine .cons rfl (.of_other (by simp) (by simp)) ?_
  refine .cons rfl (.of_other (by simp) (by simp)) ?_
  refine .cons rfl (.of_other (by simp) (by simp)) ?_
  refine .cons rfl (.of_other (by simp) (by simp)) ?_
  exact .cons rfl (.of_other (by simp) (by simp)) trivial

/-- A run that completes after its first poll has failed is reported. -/
theorem polled_run_status_kept :
    ∃ final,
      run World.step provisioning pollTwice = some final ∧
        final.Ended ⟨"run", .pending, none, ""⟩ ∧
        final.KeepsUpdates := by
  refine ⟨_, rfl, Or.inr ⟨provisioned, ⟨"run", .completed, none, ""⟩, ?_⟩, ?_⟩
  · exact ⟨List.mem_cons_self .., rfl, rfl⟩
  · exact status_updates_kept pollTwice provisioning_initial
      pollTwice_losesNothing rfl

/--
The status of the machine is lost when its run completes within `Submit`, and
when the callback fails on the completed run.
-/
theorem completed_run_status_lost :
    provisioning.Initial ∧
      (∃ final,
        run World.step provisioning
            [.submit 0 (.ok ⟨"run", .completed, none, ""⟩), .snapshot []] =
          some final ∧
        ¬ final.KeepsUpdates) ∧
      ∃ final,
        run World.step provisioning
            [.submit 0 (.ok ⟨"run", .pending, none, ""⟩), .record 0 5,
              .snapshot [provisioned],
              .poll (.ok ⟨"run", .completed, none, ""⟩),
              .callback (some "database is down"), .delete] =
          some final ∧
        ¬ final.KeepsUpdates := by
  refine ⟨provisioning_initial, ⟨_, rfl, ?_⟩, ⟨_, rfl, ?_⟩⟩
  · intro keeps
    rcases keeps 0 ⟨"run", .completed, none, ""⟩ rfl (List.cons_ne_nil _ _)
      (Or.inl rfl) with ⟨entry, reported, member, _⟩ | tracked
    · cases member
    · cases tracked
  · intro keeps
    rcases keeps 0 ⟨"run", .pending, none, ""⟩ rfl (List.cons_ne_nil _ _)
      (Or.inr ⟨provisioned, ⟨"run", .completed, none, ""⟩,
        List.mem_cons_self .., rfl, rfl⟩) with
      ⟨entry, reported, member, _⟩ | tracked
    · rcases List.mem_pair.mp member with impossible | impossible
      · cases impossible
      · cases impossible
    · cases tracked

end Infractl.Workflow
