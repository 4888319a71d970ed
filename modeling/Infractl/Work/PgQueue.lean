import Mathlib.Logic.Function.Basic
import Infractl.Work.Tasks

/-!
# The PostgreSQL queue, statement by statement

A `Process` is one call in flight: of the queue, of the task handler's
`cancelTask`, or one tick of stale recovery.  It is named after the statement
it issues next.  A worker goes from `Claim` through `claimed` to a `Complete`
or `Fail` of the task it was given.

`Claim` is a transaction.  Its `SELECT ... FOR UPDATE SKIP LOCKED` finds and
locks a row in one step, its save is not visible before the commit, and a
commit or an abort releases the lock.  An `UPDATE` that matches a locked row
waits, so that its step is not enabled; a plain read does not wait.

The log records what was committed.  No transition reads it.
-/

namespace Infractl.Work

open Infractl.Lib
open Infractl.Store (UUID Time Collation)

/-- The errors of the calls. -/
inductive QueueError where
  | noTasks
  | recordNotFound
  | duplicatedKey
  | notCancellable
  | interrupted
deriving DecidableEq

/-- A call in flight, at the statement it issues next. -/
inductive Process where
  | enqueue (task : Task) (generated : String)
  | select (kinds : List String)
  | save (record : TaskRecord)
  | commit (record : TaskRecord)
  | claimed (task : Task)
  | complete (id : String)
  | readForFail (id reason : String)
  | writeFail (record : TaskRecord) (reason : String)
  | cancel (org : UUID) (id : String)
  | recover (staleTimeout : Time)
  | returned (error : Option QueueError)

/-- What a committed statement did to the tasks it wrote. -/
inductive Event where
  | claimed (id : String)
  | completed (id : String)
  | requeued (id : String)
  | failed (id : String)
  | cancelled (id : String)
  | recovered (ids : List String)
deriving DecidableEq

/-- An `UPDATE` of at most one row. -/
structure Write where
  id : String
  guard : TaskRecord → Bool
  assign : TaskRecord → TaskRecord
  keepsID : ∀ row, (assign row).id = row.id
  missing : Option QueueError
  event : Event

namespace Write

/-- The statement of `Complete`, which asks for the identifier only. -/
def complete (now : Time) (id : String) : Write where
  id := id
  guard _ := true
  assign := TaskRecord.complete now
  keepsID _ := rfl
  missing := some .noTasks
  event := .completed id

/-- The statement of `Fail` for a task with attempts left. -/
def requeue (now : Time) (record : TaskRecord) (reason : String) : Write where
  id := record.id
  guard _ := true
  assign := TaskRecord.requeue now record.attempts reason
  keepsID _ := rfl
  missing := none
  event := .requeued record.id

/-- The statement of `Fail` for a task without attempts left. -/
def giveUp (record : TaskRecord) (reason : String) : Write where
  id := record.id
  guard _ := true
  assign := TaskRecord.fail reason
  keepsID _ := rfl
  missing := none
  event := .failed record.id

/--
The statement that ends `Fail`, chosen by the attempts of the row as it was
read before.
-/
def fail (now : Time) (record : TaskRecord) (reason : String) : Write :=
  if record.attempts < record.maxAttempts then
    requeue now record reason
  else
    giveUp record reason

@[simp]
theorem fail_id (now : Time) (record : TaskRecord) (reason : String) :
    (fail now record reason).id = record.id := by
  unfold fail
  split <;> rfl

@[simp]
theorem fail_guard (now : Time) (record : TaskRecord) (reason : String)
    (row : TaskRecord) :
    (fail now record reason).guard row = true := by
  unfold fail
  split <;> rfl

/-- The statement of `cancelTask`. -/
def cancel (org : UUID) (id : String) : Write where
  id := id
  guard := TaskRecord.cancellable org
  assign := TaskRecord.cancel
  keepsID _ := rfl
  missing := some .notCancellable
  event := .cancelled id

end Write

namespace Process

/-- The single-row `UPDATE` a call issues next. -/
def writes (now : Time) : Process → Option Write
  | .complete id => some (Write.complete now id)
  | .writeFail record reason => some (Write.fail now record reason)
  | .cancel org id => some (Write.cancel org id)
  | _ => none

/-- The only `UPDATE` that makes a row pending is the one of a `Fail` to retry. -/
theorem retries_or_not_pending {process : Process} {now : Time} {write : Write}
    (writes : process.writes now = some write) :
    (∃ record reason, process = .writeFail record reason ∧
      record.attempts < record.maxAttempts ∧ write.id = record.id ∧
      write.event = .requeued write.id) ∨
      ∀ row, (write.assign row).status ≠ .pending := by
  cases process with
  | complete reported =>
      cases writes
      exact Or.inr (fun _ impossible => by cases impossible)
  | writeFail record reason =>
      cases writes
      unfold Write.fail
      split
      · next left =>
          exact Or.inl ⟨record, reason, rfl, left, rfl, rfl⟩
      · exact Or.inr (fun _ impossible => by cases impossible)
  | cancel org cancelled =>
      cases writes
      exact Or.inr (fun _ impossible => by cases impossible)
  | _ => cases writes

theorem event_ne_claimed {process : Process} {now : Time} {write : Write}
    (writes : process.writes now = some write) (id : String) :
    write.event ≠ .claimed id := by
  cases process with
  | complete reported =>
      cases writes
      simp [Write.complete]
  | writeFail record reason =>
      cases writes
      unfold Write.fail
      split
      · simp [Write.requeue]
      · simp [Write.giveUp]
  | cancel org cancelled =>
      cases writes
      simp [Write.cancel]
  | _ => cases writes

/-- The row a transaction in flight has locked. -/
def locked : Process → Option String
  | .save record => some record.id
  | .commit record => some record.id
  | _ => none

/-- The task a worker was given and has not yet reported on. -/
def working : Process → Option String
  | .claimed task => some task.id
  | .complete id => some id
  | .readForFail id _ => some id
  | .writeFail record _ => some record.id
  | _ => none

def recovering : Process → Bool
  | .recover _ => true
  | _ => false

end Process

/--
The table and how the database orders texts, its row locks, the calls in flight,
and what was committed.
-/
structure World (ι : Type) where
  collation : Collation
  tasks : Tasks
  locks : String → Option ι
  processes : ι → Process
  log : List (ι × Event)

/-- Which process moves, and how; `abort` also covers a worker's crash. -/
inductive Label (ι : Type) where
  | execute (client : ι) (now : Time)
  | abort (client : ι)
  | callComplete (client : ι)
  | callFail (client : ι) (reason : String)

variable {ι : Type}

/-- What the query of a claim returns: the oldest eligible row not locked. -/
def World.selectOldest (world : World ι) (now : Time) (kinds : List String) :
    Option TaskRecord :=
  TaskRecord.oldest world.collation (world.tasks.rows.filter fun record =>
    record.eligible now kinds && (world.locks record.id).isNone)

theorem World.selectOldest_spec
    {world : World ι} {now : Time} {kinds : List String} {record : TaskRecord}
    (selected : world.selectOldest now kinds = some record) :
    world.tasks.find record.id = some record ∧
      record.eligible now kinds = true ∧
      world.locks record.id = none ∧
      ∀ other ∈ world.tasks.rows,
        other.eligible now kinds = true →
        world.locks other.id = none →
        record.createdAt ≤ other.createdAt := by
  rcases TaskRecord.oldest_spec selected with ⟨member, least⟩
  simp only [List.mem_filter, Bool.and_eq_true, Option.isNone_iff_eq_none]
    at member least
  refine ⟨KeyedTable.find_key member.1, member.2.1, member.2.2, ?_⟩
  intro other stored eligible free
  exact TaskRecord.createdAt_le_of_before (least other ⟨stored, eligible, free⟩)

/-- The status stored for a task. -/
def World.status (world : World ι) (id : String) : Option TaskStatus :=
  (world.tasks.find id).map TaskRecord.status

theorem World.status_of_find {world : World ι} {id : String} {row : TaskRecord}
    (found : world.tasks.find id = some row) :
    world.status id = some row.status :=
  congrArg (Option.map TaskRecord.status) found

variable [DecidableEq ι]

namespace World

/-- The world after process `client` became `process`. -/
def setProcess (world : World ι) (client : ι) (process : Process) : World ι :=
  { world with processes := Function.update world.processes client process }

/-- Run an `UPDATE` and return; it waits while its row is locked. -/
def write (world : World ι) (client : ι) (write : Write) : Option (World ι) :=
  if (world.locks write.id).isSome && (world.tasks.find write.id).any write.guard then
    none
  else
    match world.tasks.update? write.id write.guard write.assign write.keepsID with
    | none => some (world.setProcess client (.returned write.missing))
    | some tasks =>
        some
          { world with
            tasks := tasks
            processes := Function.update world.processes client (.returned none)
            log := world.log ++ [(client, write.event)] }

/-- The next statement of a process. -/
def execute (world : World ι) (client : ι) (now : Time) : Option (World ι) :=
  match world.processes client with
  | .enqueue task generated =>
      match world.tasks.insert? (TaskRecord.enqueued now generated task) with
      | none => some (world.setProcess client (.returned (some .duplicatedKey)))
      | some tasks =>
          some { world.setProcess client (.returned none) with tasks := tasks }
  | .select kinds =>
      match world.selectOldest now kinds with
      | none => some (world.setProcess client (.returned (some .noTasks)))
      | some record =>
          some
            { world.setProcess client (.save record) with
              locks := Function.update world.locks record.id (some client) }
  | .save record => some (world.setProcess client (.commit (record.claim now)))
  | .commit record =>
      (world.tasks.update? record.id (fun _ => true)
        (fun row => { record with id := row.id }) (fun _ => rfl)).map fun tasks =>
          { world with
            tasks := tasks
            locks := Function.update world.locks record.id none
            processes :=
              Function.update world.processes client (.claimed record.task)
            log := world.log ++ [(client, .claimed record.id)] }
  | .claimed _ => none
  | .complete id => world.write client (Write.complete now id)
  | .readForFail id reason =>
      match world.tasks.find id with
      | none => some (world.setProcess client (.returned (some .recordNotFound)))
      | some record => some (world.setProcess client (.writeFail record reason))
  | .writeFail record reason => world.write client (Write.fail now record reason)
  | .cancel org id => world.write client (Write.cancel org id)
  | .recover staleTimeout =>
      some
        { world with
          tasks := recoverStale (now - staleTimeout) world.tasks
          processes := Function.update world.processes client (.returned none)
          log := world.log ++
            [(client, .recovered (staleIDs (now - staleTimeout) world.tasks))] }
  | .returned _ => none

/-- A call that loses its database connection, or a worker that stops. -/
def abort (world : World ι) (client : ι) : Option (World ι) :=
  match world.processes client with
  | .returned _ => none
  | process =>
      some
        { world.setProcess client (.returned (some .interrupted)) with
          locks :=
            match process.locked with
            | none => world.locks
            | some id => Function.update world.locks id none }

/-- One step of the world. -/
def step (world : World ι) : Label ι → Option (World ι)
  | .execute client now => world.execute client now
  | .abort client => world.abort client
  | .callComplete client =>
      match world.processes client with
      | .claimed task => some (world.setProcess client (.complete task.id))
      | _ => none
  | .callFail client reason =>
      match world.processes client with
      | .claimed task => some (world.setProcess client (.readForFail task.id reason))
      | _ => none

/-! ## What a step can do -/

/-- What a call hands on when its step commits nothing and locks nothing. -/
structure Follows (process next : Process) : Prop where
  locked : process.locked = none
  unlocked : next.locked = none
  working : next.working = none ∨ next.working = process.working
  recovering : next.recovering = false

/-- The effect of a step on the table, the locks and the log, case by case. -/
inductive Moves (world : World ι) : Label ι → World ι → Prop where
  | quiet {label : Label ι} {client : ι} {process : Process}
      (follows : Follows (world.processes client) process)
      (unmatched :
        ∀ now write, label = .execute client now →
          (world.processes client).writes now = some write →
          ∀ row, world.tasks.find write.id = some row → write.guard row = false)
      (mover : ∀ other now, label = .execute other now → other = client) :
      Moves world label (world.setProcess client process)
  | enqueued {client : ι} {now : Time} {task : Task} {generated : String}
      {tasks : Tasks}
      (running : world.processes client = .enqueue task generated)
      (inserted :
        world.tasks.insert? (TaskRecord.enqueued now generated task) = some tasks) :
      Moves world (.execute client now)
        { world.setProcess client (.returned none) with tasks := tasks }
  | selected {client : ι} {now : Time} {kinds : List String}
      {record : TaskRecord}
      (running : world.processes client = .select kinds)
      (found : world.selectOldest now kinds = some record) :
      Moves world (.execute client now)
        { world.setProcess client (.save record) with
          locks := Function.update world.locks record.id (some client) }
  | saved {client : ι} {now : Time} {record : TaskRecord}
      (running : world.processes client = .save record) :
      Moves world (.execute client now)
        (world.setProcess client (.commit (record.claim now)))
  | committed {client : ι} {now : Time} {record row : TaskRecord} {tasks : Tasks}
      (running : world.processes client = .commit record)
      (found : world.tasks.find record.id = some row)
      (stored : ∀ other, tasks.find other =
        if other = record.id then some record else world.tasks.find other) :
      Moves world (.execute client now)
        { world with
          tasks := tasks
          locks := Function.update world.locks record.id none
          processes := Function.update world.processes client (.claimed record.task)
          log := world.log ++ [(client, .claimed record.id)] }
  | released {client : ι} {id : String}
      (held : (world.processes client).locked = some id) :
      Moves world (.abort client)
        { world.setProcess client (.returned (some .interrupted)) with
          locks := Function.update world.locks id none }
  | rewrote {client : ι} {now : Time} {write : Write} {row : TaskRecord}
      {tasks : Tasks}
      (writes : (world.processes client).writes now = some write)
      (free : world.locks write.id = none)
      (found : world.tasks.find write.id = some row)
      (guarded : write.guard row = true)
      (stored : ∀ other, tasks.find other =
        if other = write.id then some (write.assign row)
        else world.tasks.find other) :
      Moves world (.execute client now)
        { world with
          tasks := tasks
          processes := Function.update world.processes client (.returned none)
          log := world.log ++ [(client, write.event)] }
  | recovered {client : ι} {now staleTimeout : Time}
      (running : world.processes client = .recover staleTimeout) :
      Moves world (.execute client now)
        { world with
          tasks := recoverStale (now - staleTimeout) world.tasks
          processes := Function.update world.processes client (.returned none)
          log := world.log ++
            [(client, .recovered (staleIDs (now - staleTimeout) world.tasks))] }

variable {world next : World ι} {client : ι} {label : Label ι}

theorem write_moves
    {now : Time} {write : Write}
    (writes : (world.processes client).writes now = some write)
    (unlocked : (world.processes client).locked = none)
    (written : world.write client write = some next) :
    world.Moves (.execute client now) next := by
  rw [World.write] at written
  split at written
  · cases written
  · next enabled =>
      split at written
      · next missed =>
          cases written
          refine .quiet ⟨unlocked, rfl, Or.inl rfl, rfl⟩ ?_ ?_
          · rintro time other ⟨⟩ writesOther
            cases writes.symm.trans writesOther
            exact KeyedTable.update?_eq_none_iff.mp missed
          · rintro other time ⟨⟩
            rfl
      · next tasks updated =>
          cases written
          rcases KeyedTable.update?_spec updated with ⟨row, found, guarded, stored⟩
          refine .rewrote writes ?_ found guarded stored
          simpa [found, guarded] using enabled

/-- A step that only moves a process on. -/
theorem quiet_of_no_write
    {world : World ι} {process : Process}
    (follows : Follows (world.processes client) process)
    (writeless : ∀ now, (world.processes client).writes now = none)
    (mover : ∀ other now, label = .execute other now → other = client) :
    world.Moves label (world.setProcess client process) := by
  refine .quiet follows ?_ mover
  intro now write _ writes
  cases (writeless now).symm.trans writes

theorem execute_moves
    {now : Time} (executed : world.execute client now = some next) :
    world.Moves (.execute client now) next := by
  have mover : ∀ other time,
      Label.execute client now = .execute other time → other = client := by
    rintro other time ⟨⟩
    rfl
  have returns {error : Option QueueError}
      (unlocked : (world.processes client).locked = none)
      (writeless : ∀ time, (world.processes client).writes time = none) :
      world.Moves (.execute client now)
        (world.setProcess client (.returned error)) :=
    quiet_of_no_write ⟨unlocked, rfl, Or.inl rfl, rfl⟩ writeless mover
  rw [execute] at executed
  split at executed
  · next task generated running =>
      split at executed
      · cases executed
        exact returns (by rw [running]; rfl) (fun _ => by rw [running]; rfl)
      · next tasks inserted =>
          cases executed
          exact .enqueued running inserted
  · next kinds running =>
      split at executed
      · cases executed
        exact returns (by rw [running]; rfl) (fun _ => by rw [running]; rfl)
      · next record found =>
          cases executed
          exact .selected running found
  · next record running =>
      cases executed
      exact .saved running
  · next record running =>
      rcases Option.map_eq_some_iff.mp executed with ⟨tasks, updated, rfl⟩
      rcases KeyedTable.update?_spec updated with ⟨row, found, _, stored⟩
      have sameID : row.id = record.id := KeyedTable.key_of_find found
      simp only [sameID] at stored
      exact .committed running found stored
  · cases executed
  · next id running =>
      exact write_moves (by rw [running]; rfl) (by rw [running]; rfl) executed
  · next id reason running =>
      split at executed
      · cases executed
        exact returns (by rw [running]; rfl) (fun _ => by rw [running]; rfl)
      · next record found =>
          cases executed
          refine quiet_of_no_write ?_ (fun _ => by rw [running]; rfl) mover
          rw [running]
          have sameID : record.id = id := KeyedTable.key_of_find found
          exact ⟨rfl, rfl, Or.inr (congrArg some sameID), rfl⟩
  · next record reason running =>
      exact write_moves (by rw [running]; rfl) (by rw [running]; rfl) executed
  · next org id running =>
      exact write_moves (by rw [running]; rfl) (by rw [running]; rfl) executed
  · next staleTimeout running =>
      cases executed
      exact .recovered running
  · cases executed

theorem abort_moves (aborted : world.abort client = some next) :
    world.Moves (.abort client) next := by
  rw [abort] at aborted
  split at aborted
  · cases aborted
  · next process running _ =>
      cases aborted
      split
      · next unlocked =>
          refine .quiet ⟨unlocked, rfl, Or.inl rfl, rfl⟩ ?_ ?_
          · intro now write impossible
            cases impossible
          · intro other now impossible
            cases impossible
      · next id held =>
          exact .released held

/-- A worker calls the queue about the task it has claimed. -/
theorem quiet_of_claimed
    {world : World ι} {task : Task} {process : Process}
    (running : world.processes client = .claimed task)
    (unlocked : process.locked = none)
    (working : process.working = (Process.claimed task).working)
    (recovering : process.recovering = false)
    (mover : ∀ other now, label = .execute other now → other = client) :
    world.Moves label (world.setProcess client process) := by
  refine quiet_of_no_write ?_ ?_ mover
  · rw [running]
    exact ⟨rfl, unlocked, Or.inr working, recovering⟩
  · intro now
    rw [running]
    rfl

/-- Every step is one of the moves. -/
theorem step_moves (stepped : world.step label = some next) :
    world.Moves label next := by
  cases label with
  | execute client now => exact execute_moves stepped
  | abort client => exact abort_moves stepped
  | callComplete client =>
      simp only [step] at stepped
      split at stepped
      · next task running =>
          cases stepped
          exact quiet_of_claimed running rfl rfl rfl
            (fun _ _ impossible => by cases impossible)
      · cases stepped
  | callFail client reason =>
      simp only [step] at stepped
      split at stepped
      · next task running =>
          cases stepped
          exact quiet_of_claimed running rfl rfl rfl
            (fun _ _ impossible => by cases impossible)
      · cases stepped

end World

end Infractl.Work
