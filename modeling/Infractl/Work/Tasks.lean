import Infractl.Lib.KeyedTable
import Infractl.Store.Model

/-!
# The tasks table

A task is one row, keyed by its identifier.  Below are the row, the query with
which a claim looks for work, and what each operation of the queue assigns to
a row it writes.
-/

namespace Infractl.Work

open Infractl.Lib
open Infractl.Store (UUID Time Collation storedTime)

/-- `TaskStatus`. -/
inductive TaskStatus where
  | pending
  | running
  | completed
  | failed
deriving DecidableEq

/-- The states in which the work on a task is over. -/
def TaskStatus.terminal : TaskStatus → Bool
  | .completed => true
  | .failed => true
  | _ => false

/-- A unit of work as callers of the queue see it. -/
structure Task where
  id : String
  kind : String
  orgID : UUID
  name : String
  payload : List UInt8
  status : TaskStatus
  createdAt : Time

/-- A row of the tasks table. -/
structure TaskRecord where
  id : String
  kind : String
  orgID : UUID
  name : String
  payload : List UInt8
  status : TaskStatus
  error : String := ""
  attempts : Nat
  maxAttempts : Nat
  createdAt : Time
  claimedAt : Option Time := none
  completedAt : Option Time := none
  retryAfter : Option Time := none
deriving DecidableEq

/-- The table of tasks. -/
abbrev Tasks := KeyedTable TaskRecord.id

namespace TaskRecord

/-- The task `Claim` returns for a row. -/
def task (record : TaskRecord) : Task where
  id := record.id
  kind := record.kind
  orgID := record.orgID
  name := record.name
  payload := record.payload
  status := record.status
  createdAt := record.createdAt

/-- The row `Enqueue` inserts; a task without an identifier is given one. -/
def enqueued (now : Time) (generated : String) (task : Task) : TaskRecord where
  id := if task.id = "" then generated else task.id
  kind := task.kind
  orgID := task.orgID
  name := task.name
  payload := task.payload
  status := .pending
  attempts := 0
  maxAttempts := 3
  createdAt := storedTime now

/-! ## The query of a claim -/

/-- Pending, of a requested kind, and not waiting for a later retry. -/
def eligible (now : Time) (kinds : List String) (record : TaskRecord) : Bool :=
  decide (record.status = .pending) &&
    (record.retryAfter.all (fun time => decide (time ≤ now)) &&
      (kinds.isEmpty || kinds.contains record.kind))

theorem eligible_iff (now : Time) (kinds : List String) (record : TaskRecord) :
    record.eligible now kinds = true ↔
      record.status = .pending ∧
        (∀ time, record.retryAfter = some time → time ≤ now) ∧
        (kinds = [] ∨ record.kind ∈ kinds) := by
  simp [eligible, Option.all_eq_true]

section Oldest

variable (collation : Collation)

/-- `ORDER BY created_at ASC, id`. -/
def before (left right : TaskRecord) : Bool :=
  decide (left.createdAt < right.createdAt) ||
    (decide (left.createdAt = right.createdAt) && collation.notAfter left.id right.id)

/-- The first row in the order of the query. -/
def oldest : List TaskRecord → Option TaskRecord
  | [] => none
  | record :: rest =>
      match oldest rest with
      | none => some record
      | some other => some (if record.before collation other then record else other)

end Oldest

section Order

variable {collation : Collation} {left middle right : TaskRecord}

theorem before_iff :
    left.before collation right = true ↔
      left.createdAt < right.createdAt ∨
        left.createdAt = right.createdAt ∧
          collation.notAfter left.id right.id = true := by
  simp [before]

theorem createdAt_le_of_before (earlier : left.before collation right = true) :
    left.createdAt ≤ right.createdAt := by
  rcases before_iff.mp earlier with less | ⟨same, _⟩
  · exact Int.le_of_lt less
  · exact Int.le_of_eq same

theorem before_total (collation : Collation) (left right : TaskRecord) :
    left.before collation right = true ∨ right.before collation left = true := by
  simp only [before_iff]
  rcases Int.lt_trichotomy left.createdAt right.createdAt with less | same | greater
  · exact Or.inl (Or.inl less)
  · have ids := collation.total left.id right.id
    rw [Bool.or_eq_true] at ids
    exact ids.imp (fun first => Or.inr ⟨same, first⟩)
      fun second => Or.inr ⟨same.symm, second⟩
  · exact Or.inr (Or.inl greater)

theorem before_trans (first : left.before collation middle = true)
    (second : middle.before collation right = true) :
    left.before collation right = true := by
  rw [before_iff] at first second ⊢
  rcases first with less | ⟨same, notAfter⟩
  · have times : middle.createdAt ≤ right.createdAt :=
      createdAt_le_of_before (before_iff.mpr second)
    exact Or.inl (Int.lt_of_lt_of_le less times)
  · rcases second with less | ⟨sameNext, notAfterNext⟩
    · exact Or.inl (same ▸ less)
    · exact Or.inr ⟨same.trans sameNext, collation.trans _ _ _ notAfter notAfterNext⟩

@[simp]
theorem oldest_eq_none_iff {records : List TaskRecord} :
    oldest collation records = none ↔ records = [] := by
  cases records with
  | nil => exact iff_of_true rfl rfl
  | cons record rest =>
      rw [oldest]
      split <;> simp

/-- The oldest row is one of the rows, and comes before all of them. -/
theorem oldest_spec {records : List TaskRecord} {first : TaskRecord}
    (found : oldest collation records = some first) :
    first ∈ records ∧ ∀ record ∈ records, first.before collation record = true := by
  have reflexive (record : TaskRecord) : record.before collation record = true :=
    or_self_iff.mp (before_total collation record record)
  induction records generalizing first with
  | nil => cases found
  | cons record rest ih =>
      rw [oldest] at found
      split at found
      · next none =>
          cases found
          rw [oldest_eq_none_iff.mp none]
          simp [reflexive]
      · next other restFound =>
          rcases ih restFound with ⟨member, least⟩
          cases found
          split
          · next earlier =>
              refine ⟨List.mem_cons_self .., List.forall_mem_cons.mpr ⟨reflexive _, ?_⟩⟩
              exact fun candidate later => before_trans earlier (least candidate later)
          · next notEarlier =>
              refine ⟨List.mem_cons_of_mem record member,
                List.forall_mem_cons.mpr ⟨?_, least⟩⟩
              exact (before_total collation record other).resolve_left notEarlier

end Order

/-! ## Assignments -/

/-- What `Claim` saves over the row it has locked. -/
def claim (now : Time) (record : TaskRecord) : TaskRecord :=
  { record with
    status := .running
    claimedAt := some now
    attempts := record.attempts + 1 }

/-- What `Complete` sets. -/
def complete (now : Time) (record : TaskRecord) : TaskRecord :=
  { record with
    status := .completed
    completedAt := some now }

/--
The delay before a retry, in nanoseconds: five seconds doubled for each
attempt, as a product of 64-bit durations, and at most five minutes.
-/
def backoff (attempts : Nat) : Time :=
  min (Int64.ofInt (5000000000 * 2 ^ attempts)).toInt 300000000000

/-- What `Fail` sets on a task with attempts left. -/
def requeue (now : Time) (attempts : Nat) (reason : String)
    (record : TaskRecord) : TaskRecord :=
  { record with
    status := .pending
    retryAfter := some (now + backoff attempts)
    error := reason }

/-- What `Fail` sets on a task without attempts left. -/
def fail (reason : String) (record : TaskRecord) : TaskRecord :=
  { record with
    status := .failed
    error := reason }

/-- The rows `cancelTask` writes. -/
def cancellable (org : UUID) (record : TaskRecord) : Bool :=
  decide (record.orgID = org) &&
    (decide (record.status = .pending) || decide (record.status = .running))

/-- What `cancelTask` sets. -/
def cancel (record : TaskRecord) : TaskRecord :=
  { record with status := .failed }

/-- The rows that stale recovery writes. -/
def stale (cutoff : Time) (record : TaskRecord) : Bool :=
  decide (record.status = .running) &&
    record.claimedAt.any (fun time => decide (time < cutoff))

/-- What stale recovery sets. -/
def recover (record : TaskRecord) : TaskRecord :=
  { record with
    status := .pending
    claimedAt := none }

end TaskRecord

/-! ## Stale recovery -/

/-- The `UPDATE` of stale recovery, which writes every stale row. -/
def recoverStale (cutoff : Time) (tasks : Tasks) : Tasks :=
  tasks.modify (TaskRecord.stale cutoff) TaskRecord.recover (fun _ => rfl)

/-- The tasks that stale recovery writes. -/
def staleIDs (cutoff : Time) (tasks : Tasks) : List String :=
  (tasks.rows.filter (TaskRecord.stale cutoff)).map TaskRecord.id

theorem find_recoverStale (cutoff : Time) (tasks : Tasks) (id : String) :
    (recoverStale cutoff tasks).find id =
      (tasks.find id).map
        (fun row => if row.stale cutoff then row.recover else row) :=
  KeyedTable.find_modify ..

theorem TaskRecord.stale_of_not_running (cutoff : Time) {row : TaskRecord}
    (idle : row.status ≠ .running) :
    row.stale cutoff = false := by
  simp [TaskRecord.stale, idle]

theorem find_recoverStale_of_fresh {cutoff : Time} {tasks : Tasks}
    {id : String} {row : TaskRecord}
    (found : tasks.find id = some row)
    (fresh : row.stale cutoff = false) :
    (recoverStale cutoff tasks).find id = some row := by
  rw [find_recoverStale, found]
  simp [fresh]

theorem mem_staleIDs (cutoff : Time) (tasks : Tasks) (id : String) :
    id ∈ staleIDs cutoff tasks ↔
      ∃ row, tasks.find id = some row ∧ row.stale cutoff = true := by
  simp only [staleIDs, List.mem_map, List.mem_filter]
  constructor
  · rintro ⟨row, ⟨member, stale⟩, rfl⟩
    exact ⟨row, KeyedTable.find_key member, stale⟩
  · rintro ⟨row, found, stale⟩
    exact
      ⟨row, ⟨KeyedTable.find_mem found, stale⟩, KeyedTable.key_of_find found⟩

end Infractl.Work
