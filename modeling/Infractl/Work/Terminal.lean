import Infractl.Lib.Run
import Infractl.Work.Locking

/-!
# Finished tasks

A task whose status is `completed` or `failed` is meant to keep it.  The query
of a claim, stale recovery and `cancelTask` look at the status of the row they
write.  `Complete` and `Fail` do not, and a worker whose task was cancelled
under it can still report.  A run leaves a finished task alone exactly when no
such report contradicts the status stored.
-/

namespace Infractl.Work

open Infractl.Lib
open Infractl.Lib.Run
open Infractl.Store (UUID Time)

theorem TaskStatus.eq_of_terminal {status : TaskStatus}
    (terminal : status.terminal = true) :
    status = .completed ∨ status = .failed := by
  cases status with
  | completed => exact Or.inl rfl
  | failed => exact Or.inr rfl
  | pending => cases terminal
  | running => cases terminal

/--
A report about to be executed on a task agrees with the status stored for it:
`Complete` finds it not failed, a `Fail` that requeues finds it unfinished, and
one that gives up finds it not completed.
-/
def Process.Agrees (id : String) (stored : Option TaskStatus) : Process → Prop
  | .complete reported => reported = id → stored ≠ some .failed
  | .writeFail record _ =>
      record.id = id →
        if record.attempts < record.maxAttempts then
          ∀ status, stored = some status → status.terminal = false
        else
          stored ≠ some .completed
  | _ => True

theorem Process.agrees_of_unmatched {id : String} {stored : Option TaskStatus}
    {process : Process} (now : Time) (row : TaskRecord)
    (unmatched :
      ∀ write, process.writes now = some write → write.id = id →
        write.guard row = false) :
    process.Agrees id stored := by
  cases process with
  | complete reported =>
      intro sameID
      cases unmatched (Write.complete now reported) rfl sameID
  | writeFail record reason =>
      intro sameID
      have refused := unmatched (Write.fail now record reason) rfl
        ((Write.fail_id ..).trans sameID)
      cases (Write.fail_guard ..).symm.trans refused
  | _ => trivial

/--
On a finished task, an executed `UPDATE` leaves the status as it was exactly
when it agrees with it.
-/
theorem Process.status_eq_iff_agrees {process : Process} {now : Time}
    {write : Write} {row : TaskRecord}
    (terminal : row.status.terminal = true)
    (writes : process.writes now = some write)
    (guarded : write.guard row = true) :
    (write.assign row).status = row.status ↔
      process.Agrees write.id (some row.status) := by
  have ended := TaskStatus.eq_of_terminal terminal
  cases process with
  | complete reported =>
      cases writes
      rcases ended with ended | ended <;>
        simp [Process.Agrees, Write.complete, TaskRecord.complete, ended]
  | writeFail record reason =>
      cases writes
      simp only [Process.Agrees, Write.fail]
      split
      · rcases ended with ended | ended <;>
          simp [Write.requeue, TaskRecord.requeue, ended, TaskStatus.terminal]
      · rcases ended with ended | ended <;>
          simp [Write.giveUp, TaskRecord.fail, ended]
  | cancel org cancelled =>
      cases writes
      rcases ended with ended | ended <;>
        simp [Write.cancel, TaskRecord.cancellable, ended] at guarded
  | _ => cases writes

namespace World

variable {ι : Type}

/-- A step leaves the status of a task and returns no claim of it. -/
def Absorbs (id : String) (world : World ι) (_ : Label ι) (next : World ι) :
    Prop :=
  next.status id = world.status id ∧
    ∀ client, next.log ≠ world.log ++ [(client, .claimed id)]

/-- A step that executes a report finds the task in a status it agrees with. -/
def ReportAgrees (id : String) (world : World ι) (label : Label ι)
    (_ : World ι) : Prop :=
  ∀ client now, label = .execute client now →
    (world.processes client).Agrees id (world.status id)

section Steps

variable {world next : World ι} {label : Label ι} {id : String}

/-- A step that leaves the row and the log alone absorbs. -/
theorem absorbs_of_same
    (sameRow : next.tasks.find id = world.tasks.find id)
    (sameLog : next.log = world.log) :
    Absorbs id world label next := by
  refine ⟨congrArg (Option.map TaskRecord.status) sameRow, ?_⟩
  intro client equal
  rw [sameLog] at equal
  simpa using congrArg List.length equal

/-- A step that logs an event other than a claim of the task. -/
theorem absorbs_iff_of_logged {client : ι} {event : Event}
    (logged : next.log = world.log ++ [(client, event)])
    (other : event ≠ .claimed id) :
    Absorbs id world label next ↔ next.status id = world.status id := by
  apply and_iff_left
  intro claimer equal
  rw [logged] at equal
  cases List.append_cancel_left equal
  exact other rfl

/-- An `UPDATE` of the finished task itself. -/
theorem written_absorbs_iff {client : ι} {now : Time} {write : Write}
    {row : TaskRecord}
    (found : world.tasks.find write.id = some row)
    (terminal : row.status.terminal = true)
    (writes : (world.processes client).writes now = some write)
    (guarded : write.guard row = true)
    (written : next.tasks.find write.id = some (write.assign row))
    (logged : next.log = world.log ++ [(client, write.event)]) :
    Absorbs write.id world (.execute client now) next ↔
      ReportAgrees write.id world (.execute client now) next := by
  have stored := status_of_find found
  rw [absorbs_iff_of_logged logged (Process.event_ne_claimed writes write.id),
    status_of_find written, stored, Option.some.injEq,
    Process.status_eq_iff_agrees terminal writes guarded, ← stored]
  constructor
  · rintro agrees _ _ ⟨⟩
    exact agrees
  · intro agrees
    exact agrees client now rfl

variable [DecidableEq ι]

theorem Moves.absorbs_iff {row : TaskRecord}
    (moves : world.Moves label next)
    (consistent : world.Consistent)
    (found : world.tasks.find id = some row)
    (terminal : row.status.terminal = true) :
    Absorbs id world label next ↔ ReportAgrees id world label next := by
  have idle {client : ι} {now : Time}
      (writeless : (world.processes client).writes now = none) :
      ReportAgrees id world (.execute client now) next := by
    rintro other time ⟨⟩
    apply Process.agrees_of_unmatched now row
    intro write writes
    cases writeless.symm.trans writes
  cases moves with
  | @quiet _ client process follows unmatched mover =>
      refine iff_of_true (absorbs_of_same rfl rfl) ?_
      rintro other now executes
      cases mover other now executes
      apply Process.agrees_of_unmatched now row
      rintro write writes rfl
      exact unmatched now write executes writes row found
  | enqueued running inserted =>
      refine iff_of_true (absorbs_of_same ?_ rfl) (idle (by rw [running]; rfl))
      exact (KeyedTable.find_of_insert? inserted found).trans found.symm
  | selected running =>
      exact iff_of_true (absorbs_of_same rfl rfl) (idle (by rw [running]; rfl))
  | saved running =>
      exact iff_of_true (absorbs_of_same rfl rfl) (idle (by rw [running]; rfl))
  | @committed client now record pendingRow tasks running pendingFound written =>
      refine iff_of_true ?_ (idle (by rw [running]; rfl))
      rcases consistent.commits running with ⟨locked, lockedFound, pending, _⟩
      have apart : id ≠ record.id := by
        rintro rfl
        cases found.symm.trans lockedFound
        rw [pending] at terminal
        cases terminal
      rw [absorbs_iff_of_logged rfl (fun same => apart (Event.claimed.inj same).symm)]
      exact congrArg (Option.map TaskRecord.status)
        ((written id).trans (if_neg apart))
  | released =>
      refine iff_of_true (absorbs_of_same rfl rfl) ?_
      rintro other now ⟨⟩
  | @rewrote client now write other tasks writes free otherFound guarded written =>
      by_cases same : id = write.id
      · subst same
        cases found.symm.trans otherFound
        exact written_absorbs_iff found terminal writes guarded
          ((written write.id).trans (if_pos rfl)) rfl
      · refine iff_of_true ?_ ?_
        · rw [absorbs_iff_of_logged rfl (Process.event_ne_claimed writes id)]
          exact congrArg (Option.map TaskRecord.status)
            ((written id).trans (if_neg same))
        · rintro _ _ ⟨⟩
          apply Process.agrees_of_unmatched now row
          intro otherWrite writesOther sameID
          cases writes.symm.trans writesOther
          exact absurd sameID.symm same
  | @recovered client now staleTimeout running =>
      refine iff_of_true ?_ (idle (by rw [running]; rfl))
      rw [absorbs_iff_of_logged rfl (by simp)]
      have idleRow : row.status ≠ .running := by
        intro running
        rw [running] at terminal
        cases terminal
      have fresh := TaskRecord.stale_of_not_running (now - staleTimeout) idleRow
      exact congrArg (Option.map TaskRecord.status)
        ((find_recoverStale_of_fresh found fresh).trans found.symm)

end Steps

end World

variable {ι : Type} [DecidableEq ι]

/--
From any moment at which a task is finished, every further step leaves its
status and returns no claim of it, exactly when every report executed on the
task from then on agrees with its status.
-/
theorem finished_task_absorbing_iff
    {start middle : World ι} (first rest : List (Label ι))
    {id : String} {status : TaskStatus}
    (initial : start.Initial)
    (reached : run World.step start first = some middle)
    (stored : middle.status id = some status)
    (finished : status.terminal = true) :
    AllSteps World.step (World.Absorbs id) middle rest ↔
      AllSteps World.step (World.ReportAgrees id) middle rest := by
  have consistent := World.run_consistent initial.consistent reached
  have agree : ∀ (world : World ι) label next,
      world.Consistent ∧ world.status id = some status →
      world.step label = some next →
      (World.Absorbs id world label next ↔
        World.ReportAgrees id world label next) := by
    rintro world label next ⟨holds, same⟩ stepped
    rcases Option.map_eq_some_iff.mp same with ⟨row, found, rowStatus⟩
    exact (World.step_moves stepped).absorbs_iff holds found
      (rowStatus ▸ finished)
  apply allSteps_congr
    (fun world => world.Consistent ∧ world.status id = some status) _ agree
    ⟨consistent, stored⟩
  intro world label next holds stepped agrees
  have absorbed := (agree world label next holds stepped).mpr agrees
  exact
    ⟨(World.step_moves stepped).consistent holds.1,
      absorbed.1.trans holds.2⟩

/-- A completed task outlives a cancellation that comes too late. -/
theorem completed_task_not_cancelled :
    ∃ middle,
      run World.step (oneTask [.select [], .cancel 0 "t", .select []])
          [.execute 0 1, .execute 0 2, .execute 0 3, .callComplete 0,
            .execute 0 4] = some middle ∧
        middle.status "t" = some .completed ∧
        AllSteps World.step (World.Absorbs "t") middle
          [.execute 1 5, .execute 2 6] := by
  refine ⟨_, rfl, rfl, ?_⟩
  have initial :
      (oneTask [.select [], .cancel 0 "t", .select []]).Initial :=
    oneTask_initial (by decide)
  refine (finished_task_absorbing_iff
    [.execute 0 1, .execute 0 2, .execute 0 3, .callComplete 0, .execute 0 4]
    [.execute 1 5, .execute 2 6] initial rfl rfl rfl).mpr ?_
  refine .cons rfl ?_ (.cons rfl ?_ trivial)
  · rintro _ _ ⟨⟩
    trivial
  · rintro _ _ ⟨⟩
    trivial

/--
The task is cancelled while its worker runs it.  The worker's `Fail` then
requeues it, and another worker is given the cancelled task.
-/
theorem cancelled_task_claimed :
    (oneTask [.select [], .cancel 0 "t", .select []]).Initial ∧
      ∃ middle final,
        run World.step (oneTask [.select [], .cancel 0 "t", .select []])
            [.execute 0 1, .execute 0 2, .execute 0 3, .execute 1 4] =
          some middle ∧
        middle.status "t" = some .failed ∧
        run World.step middle
            [.callFail 0 "stopped", .execute 0 5, .execute 0 6,
              .execute 2 10000000006, .execute 2 10000000007,
              .execute 2 10000000008] = some final ∧
        final.status "t" = some .running ∧
        final.log =
          middle.log ++ [(0, .requeued "t"), (2, .claimed "t")] :=
  ⟨oneTask_initial (by decide), _, _, rfl, rfl, rfl, rfl, rfl⟩

end Infractl.Work
