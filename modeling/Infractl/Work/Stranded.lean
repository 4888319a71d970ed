import Infractl.Lib.Run
import Infractl.Work.Locking

/-!
# Stranded tasks

A pending task is found by the query of a claim, and a running one by the query
of stale recovery, provided that its claim time is set.  No operation deletes
a row, and none leaves a row running without a claim time.  So a task that was
enqueued can neither be lost nor fall between the two queries.
-/

namespace Infractl.Work

open Infractl.Lib
open Infractl.Lib.Run
open Infractl.Store (Time)

/-- A row that stale recovery will find if its worker never reports. -/
def TaskRecord.Recoverable (row : TaskRecord) : Prop :=
  row.status = .running →
    ∃ claimed, row.claimedAt = some claimed ∧
      ∀ cutoff, claimed < cutoff → row.stale cutoff = true

theorem TaskRecord.recoverable_of_idle {row : TaskRecord}
    (idle : row.status ≠ .running) :
    row.Recoverable :=
  fun running => absurd running idle

theorem TaskRecord.recoverable_of_claimedAt {row : TaskRecord} {claimed : Time}
    (claimedAt : row.claimedAt = some claimed) :
    row.Recoverable := by
  intro running
  refine ⟨claimed, claimedAt, ?_⟩
  intro cutoff earlier
  simp [TaskRecord.stale, running, claimedAt, earlier]

/-- Whatever a single-row `UPDATE` writes, it does not start the task. -/
theorem Process.writes_idle {process : Process} {now : Time} {write : Write}
    (writes : process.writes now = some write) (row : TaskRecord) :
    (write.assign row).status ≠ .running := by
  cases process with
  | complete id =>
      cases writes
      simp [Write.complete, TaskRecord.complete]
  | writeFail record reason =>
      cases writes
      unfold Write.fail
      split
      · simp [Write.requeue, TaskRecord.requeue]
      · simp [Write.giveUp, TaskRecord.fail]
  | cancel org id =>
      cases writes
      simp [Write.cancel, TaskRecord.cancel]
  | _ => cases writes

namespace World

variable {ι : Type}

/-- No running row is without a claim time. -/
def AllRecoverable (world : World ι) : Prop :=
  ∀ id row, world.tasks.find id = some row → row.Recoverable

/-- The row a claim is about to commit has its claim time set. -/
theorem Consistent.commit_recoverable {world : World ι} {client : ι}
    {record : TaskRecord}
    (consistent : world.Consistent)
    (running : world.processes client = .commit record) :
    record.Recoverable := by
  have prepared := consistent.prepared client
  rw [running] at prepared
  rcases prepared with ⟨row, now, _, _, rfl⟩
  exact TaskRecord.recoverable_of_claimedAt rfl

variable [DecidableEq ι] {world next : World ι} {label : Label ι}

theorem Moves.allRecoverable
    (moves : world.Moves label next)
    (consistent : world.Consistent)
    (recoverable : world.AllRecoverable) :
    next.AllRecoverable := by
  intro id row found
  cases moves with
  | quiet => exact recoverable id row found
  | @enqueued client now task generated tasks running inserted =>
      rw [KeyedTable.find_insert? inserted] at found
      split at found
      · cases found
        exact TaskRecord.recoverable_of_idle
          (by simp [TaskRecord.enqueued])
      · exact recoverable id row found
  | selected => exact recoverable id row found
  | saved => exact recoverable id row found
  | @committed client now record stored tasks running _ written =>
      rw [written] at found
      split at found
      · cases found
        exact consistent.commit_recoverable running
      · exact recoverable id row found
  | released => exact recoverable id row found
  | @rewrote client now write stored tasks writes _ _ _ written =>
      rw [written] at found
      split at found
      · cases found
        exact TaskRecord.recoverable_of_idle
          (Process.writes_idle writes stored)
      · exact recoverable id row found
  | @recovered client now staleTimeout running =>
      rw [find_recoverStale] at found
      rcases Option.map_eq_some_iff.mp found with ⟨stored, before, rfl⟩
      split
      · exact TaskRecord.recoverable_of_idle
          (by simp [TaskRecord.recover])
      · exact recoverable id stored before

/-- A stored row may be rewritten, but stays stored. -/
theorem Moves.keeps_row
    (moves : world.Moves label next) {id : String}
    (stored : (world.tasks.find id).isSome = true) :
    (next.tasks.find id).isSome = true := by
  cases moves with
  | quiet => exact stored
  | enqueued running inserted =>
      rw [KeyedTable.find_insert? inserted]
      split
      · rfl
      · exact stored
  | selected => exact stored
  | saved => exact stored
  | committed _ _ written =>
      rw [written]
      split
      · rfl
      · exact stored
  | released => exact stored
  | rewrote _ _ _ _ written =>
      rw [written]
      split
      · rfl
      · exact stored
  | recovered =>
      rw [find_recoverStale, Option.isSome_map]
      exact stored

theorem run_keeps_row {final : World ι} {labels : List (Label ι)} {id : String}
    (stored : (world.tasks.find id).isSome = true)
    (reached : run step world labels = some final) :
    (final.tasks.find id).isSome = true :=
  run_invariant step
    (fun _ _ _ kept stepped => (step_moves stepped).keeps_row kept)
    stored reached

theorem run_allRecoverable {final : World ι} {labels : List (Label ι)}
    (consistent : world.Consistent)
    (recoverable : world.AllRecoverable)
    (reached : run step world labels = some final) :
    final.AllRecoverable := by
  have preserved : ∀ (before : World ι) label after,
      before.Consistent ∧ before.AllRecoverable →
      before.step label = some after →
      after.Consistent ∧ after.AllRecoverable := by
    rintro before label after ⟨consistent, recoverable⟩ stepped
    have moves := step_moves stepped
    exact ⟨moves.consistent consistent,
      moves.allRecoverable consistent recoverable⟩
  exact (run_invariant step preserved ⟨consistent, recoverable⟩ reached).2

/-- An `Enqueue` that returns without an error has stored its row. -/
theorem stored_of_enqueued {client : ι} {now : Time} {task : Task}
    {generated : String}
    (running : world.processes client = .enqueue task generated)
    (stepped : world.step (.execute client now) = some next)
    (accepted : next.processes client = .returned none) :
    next.tasks.find (TaskRecord.enqueued now generated task).id =
      some (TaskRecord.enqueued now generated task) := by
  simp only [step, execute, running] at stepped
  split at stepped
  · cases stepped
    simp [setProcess] at accepted
  · next tasks inserted =>
      cases stepped
      change tasks.find _ = _
      rw [KeyedTable.find_insert? inserted, if_pos rfl]

end World

variable {ι : Type} [DecidableEq ι]

/--
Whatever the calls in flight do after an `Enqueue` has returned, crashes
included, its task has exactly one row.  The row is pending, running, completed
or failed, and while it is running its claim time is set, so that recovery
selects it once the time is past.
-/
theorem enqueued_task_not_stranded
    {start world next final : World ι} (before after : List (Label ι))
    {client : ι} {now : Time} {task : Task} {generated : String}
    (initial : start.Initial)
    (recoverable : start.AllRecoverable)
    (reached : run World.step start before = some world)
    (calls : world.processes client = .enqueue task generated)
    (stepped : world.step (.execute client now) = some next)
    (accepted : next.processes client = .returned none)
    (continued : run World.step next after = some final) :
    ∃ row,
      final.tasks.rows.filter
          (fun stored =>
            stored.id = (TaskRecord.enqueued now generated task).id) = [row] ∧
        row.status ∈
          [TaskStatus.pending, .running, .completed, .failed] ∧
        (row.status = .running →
          ∃ claimed, row.claimedAt = some claimed ∧
            ∀ cutoff, claimed < cutoff → row.stale cutoff = true) := by
  have stored := World.stored_of_enqueued calls stepped accepted
  have kept := World.run_keeps_row (Option.isSome_of_eq_some stored) continued
  rcases Option.isSome_iff_exists.mp kept with ⟨row, found⟩
  have whole : run World.step start (before ++ .execute client now :: after) =
      some final := by
    rw [run_append_eq_some_iff]
    exact ⟨world, reached,
      (run_cons_eq_some_iff World.step).mpr ⟨next, stepped, continued⟩⟩
  have safe := World.run_allRecoverable initial.consistent recoverable whole
  refine ⟨row, KeyedTable.filter_key_of_find found, ?_, safe _ row found⟩
  cases row.status <;> simp

/-- A second task, enqueued and claimed by a worker that crashes. -/
def crashedClaim : World Nat :=
  oneTask
    [.enqueue
      { id := "u", kind := "other", orgID := 0, name := "", payload := [],
        status := .pending, createdAt := 0 } "",
      .select ["other"]]

theorem crashedClaim_allRecoverable : crashedClaim.AllRecoverable := by
  intro id row found
  cases List.mem_singleton.mp (List.mem_of_find?_eq_some found)
  exact TaskRecord.recoverable_of_idle (by decide)

/-- The row the crashed worker leaves behind is selected by recovery. -/
theorem crashed_task_not_stranded :
    ∃ final row,
      run World.step crashedClaim
          [.execute 0 1, .execute 1 2, .execute 1 3, .execute 1 4, .abort 1] =
        some final ∧
      final.tasks.rows.filter (fun stored => stored.id = "u") = [row] ∧
      row.status = .running ∧
      row.stale 20 = true := by
  have initial : crashedClaim.Initial := oneTask_initial (by decide)
  have reached : run World.step crashedClaim [] = some crashedClaim := rfl
  have calls : crashedClaim.processes 0 = .enqueue _ "" := rfl
  have stepped : crashedClaim.step (.execute 0 1) = some _ := rfl
  rcases enqueued_task_not_stranded []
      [.execute 1 2, .execute 1 3, .execute 1 4, .abort 1]
      initial crashedClaim_allRecoverable reached calls stepped rfl rfl with
    ⟨row, only, _, recovered⟩
  refine ⟨_, row, rfl, only, ?_⟩
  have listed := List.singleton_inj.mp only
  subst listed
  rcases recovered rfl with ⟨claimed, claimedAt, stale⟩
  cases claimedAt
  exact ⟨rfl, stale 20 (by decide)⟩

end Infractl.Work
