import Infractl.Work.Locking

/-!
# The retry budget

A claim counts an attempt, and `Fail` puts a task back only while attempts are
left.  Stale recovery puts a task back without looking, and so does a `Fail`
whose row was claimed again between its read and its write.  No task is given
out more often than its budget allows when whatever is put back has attempts
left.
-/

namespace Infractl.Work

open Infractl.Lib
open Infractl.Lib.Run
open Infractl.Store (Time)

/-- Attempts within the maximum, and one left for a task that can be claimed. -/
def TaskRecord.WithinBudget (record : TaskRecord) : Prop :=
  record.attempts ≤ record.maxAttempts ∧
    (record.status = .pending → record.attempts < record.maxAttempts)

/-- No `UPDATE` touches the attempts or their maximum. -/
theorem Process.writes_budget {process : Process} {now : Time} {write : Write}
    (writes : process.writes now = some write) (row : TaskRecord) :
    (write.assign row).attempts = row.attempts ∧
      (write.assign row).maxAttempts = row.maxAttempts := by
  cases process with
  | complete reported =>
      cases writes
      exact ⟨rfl, rfl⟩
  | writeFail record reason =>
      cases writes
      unfold Write.fail
      split
      · exact ⟨rfl, rfl⟩
      · exact ⟨rfl, rfl⟩
  | cancel org cancelled =>
      cases writes
      exact ⟨rfl, rfl⟩
  | _ => cases writes

section Log

variable {ι : Type}

/-- How often a task was returned by a claim. -/
def claimsOf (id : String) (log : List (ι × Event)) : Nat :=
  log.countP (fun entry => decide (entry.2 = .claimed id))

@[simp]
theorem claimsOf_claimed (log : List (ι × Event)) (client : ι) (id : String) :
    claimsOf id (log ++ [(client, .claimed id)]) = claimsOf id log + 1 := by
  simp [claimsOf]

theorem claimsOf_of_ne (log : List (ι × Event)) (client : ι) {id : String}
    {event : Event} (other : event ≠ .claimed id) :
    claimsOf id (log ++ [(client, event)]) = claimsOf id log := by
  simp [claimsOf, other]

end Log

namespace World

variable {ι : Type}

/-- Whatever a step puts back for another claim has attempts left. -/
structure RequeuesWithin (world : World ι) (label : Label ι) (_ : World ι) :
    Prop where
  recovery : ∀ client now staleTimeout, label = .execute client now →
    world.processes client = .recover staleTimeout →
    ∀ id row, world.tasks.find id = some row →
      row.stale (now - staleTimeout) = true → row.attempts < row.maxAttempts
  fail : ∀ client now record reason, label = .execute client now →
    world.processes client = .writeFail record reason →
    record.attempts < record.maxAttempts →
    ∀ row, world.tasks.find record.id = some row →
      row.attempts < row.maxAttempts

/-- A step of a call that puts nothing back. -/
theorem RequeuesWithin.of_other {world next : World ι} {label : Label ι}
    (other : ∀ client now, label = .execute client now →
      (world.processes client).recovering = false ∧
        (world.processes client).writes now = none) :
    world.RequeuesWithin label next where
  recovery := by
    intro client now staleTimeout executes running
    have idle := (other client now executes).1
    rw [running] at idle
    cases idle
  fail := by
    intro client now record reason executes running
    have idle := (other client now executes).2
    rw [running] at idle
    cases idle

/-- The attempts stored for a task, none for a task that is not stored. -/
def attemptsOf (world : World ι) (id : String) : Nat :=
  ((world.tasks.find id).map TaskRecord.attempts).getD 0

theorem attemptsOf_of_find {world : World ι} {id : String} {row : TaskRecord}
    (found : world.tasks.find id = some row) :
    world.attemptsOf id = row.attempts := by
  simp [attemptsOf, found]

/-- Every stored task is within its budget, and its claims are counted. -/
structure Budgeted (world : World ι) : Prop where
  consistent : world.Consistent
  rows : ∀ id row, world.tasks.find id = some row → row.WithinBudget
  counted : ∀ id, claimsOf id world.log ≤ world.attemptsOf id

theorem Initial.budgeted {world : World ι}
    (initial : world.Initial)
    (rows : ∀ id row, world.tasks.find id = some row → row.WithinBudget) :
    world.Budgeted where
  consistent := initial.consistent
  rows := rows
  counted id := by
    rw [initial.log]
    exact Nat.zero_le _

section Steps

variable {world next : World ι} {label : Label ι}

theorem Budgeted.of_same
    (budgeted : world.Budgeted)
    (consistent : next.Consistent)
    (sameTasks : next.tasks = world.tasks)
    (sameLog : next.log = world.log) :
    next.Budgeted where
  consistent := consistent
  rows := by
    rw [sameTasks]
    exact budgeted.rows
  counted id := by
    rw [sameLog, attemptsOf, sameTasks]
    exact budgeted.counted id

/--
A step that rewrites one row and logs one event keeps the budget if the new
row is within it and has counted what the event adds.
-/
theorem Budgeted.of_rewritten {client : ι} {event : Event} {key : String}
    {new : TaskRecord}
    (budgeted : world.Budgeted)
    (consistent : next.Consistent)
    (logged : next.log = world.log ++ [(client, event)])
    (stored : ∀ other, next.tasks.find other =
      if other = key then some new else world.tasks.find other)
    (within : new.WithinBudget)
    (counts : claimsOf key (world.log ++ [(client, event)]) ≤ new.attempts)
    (others : ∀ id, id ≠ key → event ≠ .claimed id) :
    next.Budgeted where
  consistent := consistent
  rows := by
    intro id row found
    rw [stored] at found
    split at found
    · cases found
      exact within
    · exact budgeted.rows id row found
  counted := by
    intro id
    rw [logged]
    by_cases same : id = key
    · subst same
      have found : next.tasks.find id = some new := (stored id).trans (if_pos rfl)
      rw [attemptsOf_of_find found]
      exact counts
    · rw [claimsOf_of_ne _ _ (others id same), attemptsOf, stored, if_neg same]
      exact budgeted.counted id

/-- A task just enqueued has no attempts, so that inserting it costs nothing. -/
theorem Budgeted.of_inserted {now : Time} {generated : String} {task : Task}
    (budgeted : world.Budgeted)
    (consistent : next.Consistent)
    (sameLog : next.log = world.log)
    (inserted :
      world.tasks.insert? (TaskRecord.enqueued now generated task) =
        some next.tasks) :
    next.Budgeted where
  consistent := consistent
  rows := by
    intro id row found
    rw [KeyedTable.find_insert? inserted] at found
    split at found
    · cases found
      simp [TaskRecord.WithinBudget, TaskRecord.enqueued]
    · exact budgeted.rows id row found
  counted := by
    intro id
    rw [sameLog]
    refine (budgeted.counted id).trans ?_
    simp only [attemptsOf]
    cases found : world.tasks.find id with
    | none => exact Nat.zero_le _
    | some row => rw [KeyedTable.find_of_insert? inserted found]

/--
A recovery counts no attempt.  It keeps the budget if every row it requeues
has an attempt left.
-/
theorem Budgeted.of_recovered {client : ι} {cutoff : Time} {ids : List String}
    (budgeted : world.Budgeted)
    (consistent : next.Consistent)
    (logged : next.log = world.log ++ [(client, .recovered ids)])
    (recovered : next.tasks = recoverStale cutoff world.tasks)
    (left :
      ∀ id row, world.tasks.find id = some row → row.stale cutoff = true →
        row.attempts < row.maxAttempts) :
    next.Budgeted where
  consistent := consistent
  rows := by
    intro id row found
    rw [recovered, find_recoverStale] at found
    rcases Option.map_eq_some_iff.mp found with ⟨old, oldFound, rewritten⟩
    split at rewritten
    · next stale =>
        cases rewritten
        have oldLeft := left id old oldFound stale
        exact ⟨Nat.le_of_lt oldLeft, fun _ => oldLeft⟩
    · cases rewritten
      exact budgeted.rows id old oldFound
  counted := by
    intro id
    rw [logged, claimsOf_of_ne _ _ (by simp)]
    refine (budgeted.counted id).trans_eq ?_
    simp only [attemptsOf, recovered, find_recoverStale, Option.map_map]
    congr 2
    funext row
    simp only [Function.comp]
    split
    · rfl
    · rfl

variable [DecidableEq ι]

theorem Moves.budgeted
    (moves : world.Moves label next)
    (budgeted : world.Budgeted)
    (requeues : world.RequeuesWithin label next) :
    next.Budgeted := by
  have consistent := moves.consistent budgeted.consistent
  cases moves with
  | quiet => exact budgeted.of_same consistent rfl rfl
  | selected => exact budgeted.of_same consistent rfl rfl
  | saved => exact budgeted.of_same consistent rfl rfl
  | released => exact budgeted.of_same consistent rfl rfl
  | @enqueued client now task generated tasks running inserted =>
      exact budgeted.of_inserted consistent rfl inserted
  | @committed client now record row tasks running found stored =>
      have prepared := budgeted.consistent.prepared client
      rw [running] at prepared
      rcases prepared with ⟨locked, time, lockedFound, pending, claimed⟩
      have left := (budgeted.rows _ _ lockedFound).2 pending
      refine budgeted.of_rewritten consistent rfl stored ?_ ?_ ?_
      · subst claimed
        refine ⟨left, ?_⟩
        intro impossible
        cases impossible
      · have counted := budgeted.counted record.id
        rw [attemptsOf_of_find lockedFound] at counted
        rw [claimsOf_claimed, claimed]
        exact Nat.succ_le_succ (claimed ▸ counted)
      · rintro id different ⟨⟩
        exact different rfl
  | @rewrote client now write row tasks writes free found guarded stored =>
      rcases Process.writes_budget writes row with ⟨sameAttempts, sameMax⟩
      refine budgeted.of_rewritten consistent rfl stored ?_ ?_ ?_
      · rw [TaskRecord.WithinBudget, sameAttempts, sameMax]
        refine ⟨(budgeted.rows _ _ found).1, ?_⟩
        intro pending
        rcases Process.retries_or_not_pending writes with
          ⟨record, reason, running, left, sameID, _⟩ | busy
        · exact requeues.fail client now record reason rfl running left row
            (sameID ▸ found)
        · exact absurd pending (busy row)
      · rw [claimsOf_of_ne _ _ (Process.event_ne_claimed writes write.id), sameAttempts,
          ← attemptsOf_of_find found]
        exact budgeted.counted write.id
      · intro id _
        exact Process.event_ne_claimed writes id
  | @recovered client now staleTimeout running =>
      exact budgeted.of_recovered consistent rfl rfl
        (requeues.recovery client now staleTimeout rfl running)

end Steps

end World

variable {ι : Type} [DecidableEq ι]

/--
If whatever recovery and `Fail` put back has attempts left, every task stays
within its budget and is returned by at most that many claims.
-/
theorem claims_within_budget
    {start final : World ι} (labels : List (Label ι))
    (initial : start.Initial)
    (rows : ∀ id row, start.tasks.find id = some row → row.WithinBudget)
    (requeues : AllSteps World.step World.RequeuesWithin start labels)
    (reached : run World.step start labels = some final)
    (id : String) (row : TaskRecord)
    (found : final.tasks.find id = some row) :
    row.attempts ≤ row.maxAttempts ∧ claimsOf id final.log ≤ row.maxAttempts := by
  have budgeted := AllSteps.run_invariant World.Budgeted
    (fun _ _ _ holds stepped within =>
      (World.step_moves stepped).budgeted holds within)
    (initial.budgeted rows) requeues reached
  have within := (budgeted.rows id row found).1
  have counted := budgeted.counted id
  rw [World.attemptsOf_of_find found] at counted
  exact ⟨within, counted.trans within⟩

theorem oneTask_within {calls : List Process} (id : String) (row : TaskRecord)
    (found : (oneTask calls).tasks.find id = some row) :
    row.WithinBudget := by
  have only := List.mem_of_find?_eq_some found
  cases List.mem_singleton.mp only
  exact ⟨by decide, fun _ => by decide⟩

/-- A worker crashes after its claim, and the task is given out once more. -/
theorem crashed_claim_within_budget :
    ∃ final row,
      run World.step (oneTask [.select [], .select [], .recover 10])
          [.execute 0 1, .execute 0 2, .execute 0 3, .abort 0, .execute 2 20,
            .execute 1 21, .execute 1 22, .execute 1 23] = some final ∧
        final.tasks.find "t" = some row ∧
        row.attempts = 2 ∧
        claimsOf "t" final.log ≤ row.maxAttempts := by
  refine ⟨_, _, rfl, rfl, rfl, ?_⟩
  have initial : (oneTask [.select [], .select [], .recover 10]).Initial :=
    oneTask_initial (by decide)
  refine (claims_within_budget
    [.execute 0 1, .execute 0 2, .execute 0 3, .abort 0, .execute 2 20,
      .execute 1 21, .execute 1 22, .execute 1 23]
    initial oneTask_within ?_ rfl "t" _ rfl).2
  refine .cons rfl (.of_other (by rintro _ _ ⟨⟩; exact ⟨rfl, rfl⟩)) ?_
  refine .cons rfl (.of_other (by rintro _ _ ⟨⟩; exact ⟨rfl, rfl⟩)) ?_
  refine .cons rfl (.of_other (by rintro _ _ ⟨⟩; exact ⟨rfl, rfl⟩)) ?_
  refine .cons rfl (.of_other (by rintro _ _ ⟨⟩)) ?_
  refine .cons rfl ⟨?_, ?_⟩ ?_
  · rintro _ _ _ ⟨⟩ _ id row found _
    cases List.mem_singleton.mp (List.mem_of_find?_eq_some found)
    decide
  · rintro _ _ _ _ ⟨⟩ running
    cases running
  refine .cons rfl (.of_other (by rintro _ _ ⟨⟩; exact ⟨rfl, rfl⟩)) ?_
  refine .cons rfl (.of_other (by rintro _ _ ⟨⟩; exact ⟨rfl, rfl⟩)) ?_
  exact .cons rfl (.of_other (by rintro _ _ ⟨⟩; exact ⟨rfl, rfl⟩)) trivial

/-- A task that crashes its workers, each followed by a recovery. -/
def poisonTask : World Nat :=
  oneTask [.select [], .recover 10, .select [], .recover 10, .select [],
    .recover 10, .select []]

/-- A task with three attempts whose workers crash is claimed a fourth time. -/
theorem poison_task_exceeds_budget :
    poisonTask.Initial ∧
      (∀ id row, poisonTask.tasks.find id = some row → row.WithinBudget) ∧
      ∃ final row,
        run World.step poisonTask
            [.execute 0 1, .execute 0 2, .execute 0 3, .execute 1 20,
              .execute 2 21, .execute 2 22, .execute 2 23, .execute 3 40,
              .execute 4 41, .execute 4 42, .execute 4 43, .execute 5 60,
              .execute 6 61, .execute 6 62, .execute 6 63] = some final ∧
          final.tasks.find "t" = some row ∧
          row.maxAttempts = 3 ∧
          row.attempts = 4 ∧
          claimsOf "t" final.log = 4 :=
  ⟨oneTask_initial (by decide), oneTask_within, _, _, rfl, rfl, rfl, rfl, rfl⟩

end Infractl.Work
