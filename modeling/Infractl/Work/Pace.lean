import Infractl.Lib.Clock
import Infractl.Work.Budget
import Infractl.Work.Claims
import Infractl.Work.Fencing

/-!
# The pace of retries

While nothing recovers tasks, a task has at most one worker, and what that
worker's `Fail` read of the row is what the row still has when it is written.
Two things follow.  The budget of attempts is kept without further
assumptions, and under a shared clock each claim of a task keeps the distance
from the claim before it that the backoff asks for.
-/

namespace Infractl.Work

open Infractl.Lib
open Infractl.Lib.Run
open Infractl.Store (Time)

/-! ## One worker for each task -/

/-- Two versions of a row between which it was not claimed. -/
structure TaskRecord.SameClaim (left right : TaskRecord) : Prop where
  attempts : right.attempts = left.attempts
  maxAttempts : right.maxAttempts = left.maxAttempts
  claimedAt : right.claimedAt = left.claimedAt

theorem TaskRecord.SameClaim.refl (row : TaskRecord) : row.SameClaim row :=
  ⟨rfl, rfl, rfl⟩

theorem TaskRecord.SameClaim.trans {first second third : TaskRecord}
    (before : first.SameClaim second) (after : second.SameClaim third) :
    first.SameClaim third where
  attempts := after.attempts.trans before.attempts
  maxAttempts := after.maxAttempts.trans before.maxAttempts
  claimedAt := after.claimedAt.trans before.claimedAt

/-- No `UPDATE` of a single row counts an attempt or sets a claim time. -/
theorem Process.sameClaim_of_writes {process : Process} {now : Time} {write : Write}
    (writes : process.writes now = some write) (row : TaskRecord) :
    row.SameClaim (write.assign row) := by
  rcases Process.writes_budget writes row with ⟨attempts, maxAttempts⟩
  refine ⟨attempts, maxAttempts, ?_⟩
  cases process with
  | complete reported =>
      cases writes
      rfl
  | writeFail record reason =>
      cases writes
      unfold Write.fail
      split
      · rfl
      · rfl
  | cancel org cancelled =>
      cases writes
      rfl
  | _ => cases writes

/-- What a `Fail` has read agrees with a row about its claim. -/
def Process.HasRead (row : TaskRecord) : Process → Prop
  | .writeFail record _ => record.SameClaim row
  | _ => True

theorem Process.HasRead.trans {row after : TaskRecord} {process : Process}
    (read : process.HasRead row) (same : row.SameClaim after) :
    process.HasRead after := by
  cases process with
  | writeFail record reason => exact TaskRecord.SameClaim.trans read same
  | _ => trivial

namespace World

variable {ι : Type}

/-- A worker's task is stored, out of the queue, and as its `Fail` has read it. -/
def Holds (tasks : Tasks) (process : Process) : Prop :=
  ∀ id, process.working = some id →
    ∃ row, tasks.find id = some row ∧ row.status ≠ .pending ∧ process.HasRead row

/-- Without recovery in flight, every task has at most one worker. -/
structure SoleWorkers (world : World ι) : Prop where
  consistent : world.Consistent
  unrecovered : ∀ client, (world.processes client).recovering = false
  single : ∀ client other id, (world.processes client).working = some id →
    (world.processes other).working = some id → client = other
  holds : ∀ client, Holds world.tasks (world.processes client)

/-- Before any claim, without workers and without recovery. -/
structure Idle (world : World ι) : Prop where
  initial : world.Initial
  unrecovered : ∀ client, (world.processes client).recovering = false
  workless : ∀ client, (world.processes client).working = none

theorem Idle.soleWorkers {world : World ι} (idle : world.Idle) : world.SoleWorkers where
  consistent := idle.initial.consistent
  unrecovered := idle.unrecovered
  single client other id works := by
    cases (idle.workless client).symm.trans works
  holds client id works := by
    cases (idle.workless client).symm.trans works

variable {world next : World ι} {label : Label ι}

/-- A `Fail` about to write agrees with the stored row about its claim. -/
theorem SoleWorkers.reads (sole : world.SoleWorkers) {client : ι}
    {record row : TaskRecord} {reason : String}
    (running : world.processes client = .writeFail record reason)
    (found : world.tasks.find record.id = some row) :
    record.SameClaim row := by
  rcases sole.holds client record.id (by rw [running]; rfl) with
    ⟨stored, storedFound, _, read⟩
  cases found.symm.trans storedFound
  rw [running] at read
  exact read

/-- So whatever is put back has attempts left. -/
theorem SoleWorkers.requeuesWithin (sole : world.SoleWorkers)
    (label : Label ι) (next : World ι) :
    world.RequeuesWithin label next where
  recovery := by
    intro client now staleTimeout _ running
    have plain := sole.unrecovered client
    rw [running] at plain
    cases plain
  fail := by
    intro client now record reason _ running left row found
    have read := sole.reads running found
    rw [read.attempts, read.maxAttempts]
    exact left

variable [DecidableEq ι]

/-- An `UPDATE` ends the call that issued it. -/
theorem write_processes {client : ι} {write : Write}
    (written : world.write client write = some next) :
    ∃ error, next.processes =
      Function.update world.processes client (.returned error) := by
  rw [World.write] at written
  split at written
  · cases written
  · split at written
    · cases written
      exact ⟨_, rfl⟩
    · cases written
      exact ⟨_, rfl⟩

/-- A `Fail` comes to its write by reading the row, or was there before. -/
theorem writeFail_of_step
    (stepped : world.step label = some next) {client : ι} {record : TaskRecord}
    {reason : String}
    (running : next.processes client = .writeFail record reason) :
    world.processes client = .writeFail record reason ∨
      world.tasks.find record.id = some record := by
  have moved {mover : ι} {process : Process}
      (same : next.processes = Function.update world.processes mover process)
      (other : ∀ record reason, process ≠ .writeFail record reason) :
      world.processes client = .writeFail record reason := by
    rw [same, Function.update_apply] at running
    split at running
    · exact absurd running (other record reason)
    · exact running
  have wrote {mover : ι} {write : Write}
      (written : world.write mover write = some next) :
      world.processes client = .writeFail record reason := by
    rcases write_processes written with ⟨error, same⟩
    exact moved same (fun _ _ impossible => by cases impossible)
  cases label with
  | execute mover now =>
      simp only [step, execute] at stepped
      split at stepped
      · split at stepped
        · cases stepped
          exact Or.inl (moved rfl (by simp))
        · cases stepped
          exact Or.inl (moved rfl (by simp))
      · split at stepped
        · cases stepped
          exact Or.inl (moved rfl (by simp))
        · cases stepped
          exact Or.inl (moved rfl (by simp))
      · cases stepped
        exact Or.inl (moved rfl (by simp))
      · rcases Option.map_eq_some_iff.mp stepped with ⟨tasks, _, rfl⟩
        exact Or.inl (moved rfl (by simp))
      · cases stepped
      · exact Or.inl (wrote stepped)
      · split at stepped
        · cases stepped
          exact Or.inl (moved rfl (by simp))
        · next read found =>
            cases stepped
            simp only [setProcess, Function.update_apply] at running
            split at running
            · cases running
              exact Or.inr (KeyedTable.key_of_find found ▸ found)
            · exact Or.inl running
      · exact Or.inl (wrote stepped)
      · exact Or.inl (wrote stepped)
      · cases stepped
        exact Or.inl (moved rfl (by simp))
      · cases stepped
  | abort mover =>
      simp only [step, abort] at stepped
      split at stepped
      · cases stepped
      · cases stepped
        exact Or.inl (moved rfl (by simp))
  | callComplete mover =>
      simp only [step] at stepped
      split at stepped
      · cases stepped
        exact Or.inl (moved rfl (by simp))
      · cases stepped
  | callFail mover why =>
      simp only [step] at stepped
      split at stepped
      · cases stepped
        exact Or.inl (moved rfl (by simp))
      · cases stepped

/-- One process moves; the workers it leaves keep tasks that were not claimed again. -/
theorem SoleWorkers.of_frame {client : ι} {process : Process}
    (sole : world.SoleWorkers)
    (consistent : next.Consistent)
    (unrecovered : ∀ client, (next.processes client).recovering = false)
    (moved : next.processes = Function.update world.processes client process)
    (single : ∀ other id, other ≠ client → process.working = some id →
      (world.processes other).working ≠ some id)
    (holds : Holds next.tasks process)
    (kept : ∀ other id row, other ≠ client →
      (world.processes other).working = some id →
      world.tasks.find id = some row → row.status ≠ .pending →
      ∃ after, next.tasks.find id = some after ∧ after.status ≠ .pending ∧
        row.SameClaim after) :
    next.SoleWorkers where
  consistent := consistent
  unrecovered := unrecovered
  single := by
    intro first second id works worksToo
    rw [moved, Function.update_apply] at works worksToo
    split at works
    · next firstMoved =>
        split at worksToo
        · next secondMoved => rw [firstMoved, secondMoved]
        · next different => exact absurd worksToo (single second id different works)
    · next different =>
        split at worksToo
        · exact absurd works (single first id different worksToo)
        · exact sole.single first second id works worksToo
  holds := by
    intro other
    rw [moved, Function.update_apply]
    split
    · exact holds
    · next different =>
        intro id works
        rcases sole.holds other id works with ⟨row, found, busy, read⟩
        rcases kept other id row different works found busy with
          ⟨after, afterFound, stillBusy, same⟩
        exact ⟨after, afterFound, stillBusy, read.trans same⟩

theorem holds_of_workless (tasks : Tasks) {process : Process}
    (workless : process.working = none) :
    Holds tasks process := by
  intro id works
  cases workless.symm.trans works

theorem step_soleWorkers
    (sole : world.SoleWorkers)
    (stepped : world.step label = some next) :
    next.SoleWorkers := by
  have moves := step_moves stepped
  have consistent := moves.consistent sole.consistent
  have unrecovered := moves.unrecovered sole.unrecovered
  have alone {client : ι} {process : Process} (workless : process.working = none) :
      ∀ other id, other ≠ client → process.working = some id →
        (world.processes other).working ≠ some id := by
    intro other id _ works
    cases workless.symm.trans works
  cases moves with
  | @quiet _ client process follows _ _ =>
      refine sole.of_frame consistent unrecovered rfl ?_ ?_ ?_
      · intro other id different works worksToo
        rcases follows.working with workless | same
        · cases workless.symm.trans works
        · exact different (sole.single other client id worksToo (same ▸ works))
      · intro id works
        rcases follows.working with workless | same
        · cases workless.symm.trans works
        · rcases sole.holds client id (same ▸ works) with ⟨row, found, busy, read⟩
          refine ⟨row, found, busy, ?_⟩
          cases process with
          | writeFail record reason =>
              have running := Function.update_self client
                (Process.writeFail record reason) world.processes
              rcases writeFail_of_step stepped running with before | current
              · rw [before] at read
                exact read
              · cases works
                cases current.symm.trans found
                exact .refl row
          | _ => trivial
      · intro other id row _ _ found busy
        exact ⟨row, found, busy, .refl row⟩
  | enqueued running inserted =>
      refine sole.of_frame consistent unrecovered rfl (alone rfl)
        (holds_of_workless _ rfl) ?_
      intro other id row _ _ found busy
      exact ⟨row, KeyedTable.find_of_insert? inserted found, busy, .refl row⟩
  | selected =>
      refine sole.of_frame consistent unrecovered rfl (alone rfl)
        (holds_of_workless _ rfl) ?_
      intro other id row _ _ found busy
      exact ⟨row, found, busy, .refl row⟩
  | saved =>
      refine sole.of_frame consistent unrecovered rfl (alone rfl)
        (holds_of_workless _ rfl) ?_
      intro other id row _ _ found busy
      exact ⟨row, found, busy, .refl row⟩
  | @committed client now record row tasks running found stored =>
      rcases sole.consistent.commits running with
        ⟨locked, lockedFound, pending, claimed⟩
      have free : ∀ other, (world.processes other).working ≠ some record.id := by
        intro other works
        rcases sole.holds other record.id works with ⟨held, heldFound, busy, _⟩
        cases lockedFound.symm.trans heldFound
        exact busy pending
      refine sole.of_frame consistent unrecovered rfl ?_ ?_ ?_
      · rintro other id _ ⟨⟩
        exact free other
      · rintro id ⟨⟩
        refine ⟨record, (stored record.id).trans (if_pos rfl), ?_, trivial⟩
        simp [claimed]
      · intro other id held _ works heldFound busy
        have different : id ≠ record.id := by
          rintro rfl
          exact free other works
        exact ⟨held, ((stored id).trans (if_neg different)).trans heldFound, busy,
          .refl held⟩
  | released =>
      refine sole.of_frame consistent unrecovered rfl (alone rfl)
        (holds_of_workless _ rfl) ?_
      intro other id row _ _ found busy
      exact ⟨row, found, busy, .refl row⟩
  | @rewrote client now write row tasks writes free found guarded stored =>
      refine sole.of_frame consistent unrecovered rfl (alone rfl)
        (holds_of_workless _ rfl) ?_
      intro other id held different works heldFound busy
      by_cases same : id = write.id
      · subst same
        cases found.symm.trans heldFound
        refine ⟨write.assign row, (stored _).trans (if_pos rfl), ?_,
          Process.sameClaim_of_writes writes row⟩
        -- A report on the task comes from its only worker, a cancellation leaves it failed.
        rcases Process.writes_cases writes with ⟨reports, _⟩ | ⟨_, failed⟩
        · have worksToo := Process.working_of_reports reports
          exact absurd (sole.single other client _ works worksToo) different
        · simp [failed]
      · exact ⟨held, ((stored id).trans (if_neg same)).trans heldFound, busy,
          .refl held⟩
  | @recovered client now staleTimeout running =>
      have plain := sole.unrecovered client
      rw [running] at plain
      cases plain

/-- Without recovery the budget of attempts is kept, whatever the workers do. -/
theorem step_budgeted
    (sole : world.SoleWorkers) (budgeted : world.Budgeted)
    (stepped : world.step label = some next) :
    next.Budgeted :=
  (step_moves stepped).budgeted budgeted (sole.requeuesWithin label next)

end World

/-! ## The distance between claims -/

/--
A row as the clock stands: a counted attempt has its claim time, which has
passed, and while the row is pending its retry time keeps the backoff from it.
-/
structure TaskRecord.Paced (clock : Time) (row : TaskRecord) : Prop where
  claimed : 0 < row.attempts → ∃ time, row.claimedAt = some time
  passed : ∀ time, row.claimedAt = some time → time ≤ clock
  waits : row.status = .pending → ∀ time, row.claimedAt = some time →
    ∃ retry, row.retryAfter = some retry ∧
      time + TaskRecord.backoff row.attempts ≤ retry

namespace TaskRecord.Paced

variable {clock later : Time} {row after : TaskRecord}

theorem mono (paced : row.Paced clock) (ticks : clock ≤ later) :
    row.Paced later where
  claimed := paced.claimed
  passed time claimedAt := Int.le_trans (paced.passed time claimedAt) ticks
  waits := paced.waits

/-- A row out of the queue, of the same claim. -/
theorem of_busy (paced : row.Paced clock) (same : row.SameClaim after)
    (busy : after.status ≠ .pending) :
    after.Paced clock where
  claimed counted := by
    rw [same.claimedAt]
    exact paced.claimed (same.attempts ▸ counted)
  passed time claimedAt := paced.passed time (same.claimedAt ▸ claimedAt)
  waits pending := absurd pending busy

theorem enqueued (clock now : Time) (generated : String) (task : Task) :
    (TaskRecord.enqueued now generated task).Paced clock where
  claimed counted := absurd counted (Nat.lt_irrefl 0)
  passed time claimedAt := by cases claimedAt
  waits _ time claimedAt := by cases claimedAt

/-- What a claim saved at `now`. -/
theorem claim (now : Time) (row : TaskRecord) : (row.claim now).Paced now where
  claimed _ := ⟨now, rfl⟩
  passed time claimedAt := by
    cases claimedAt
    exact Int.le_refl now
  waits pending := by cases pending

/-- A `Fail` that has read the attempts of the row sets a retry time far enough off. -/
theorem requeue {reason : String} (paced : row.Paced clock) (ticks : clock ≤ later) :
    (TaskRecord.requeue later row.attempts reason row).Paced later where
  claimed := paced.claimed
  passed time claimedAt := Int.le_trans (paced.passed time claimedAt) ticks
  waits _ time claimedAt := by
    refine ⟨later + TaskRecord.backoff row.attempts, rfl, ?_⟩
    exact Int.add_le_add_right
      (Int.le_trans (paced.passed time claimedAt) ticks) _

end TaskRecord.Paced

/-- A claim about to commit was saved before. -/
def Process.Paced (clock : Time) : Process → Prop
  | .commit record => record.Paced clock
  | _ => True

theorem Process.Paced.mono {clock later : Time} {process : Process}
    (paced : process.Paced clock) (ticks : clock ≤ later) :
    process.Paced later := by
  cases process with
  | commit record => exact TaskRecord.Paced.mono paced ticks
  | _ => trivial

theorem Process.paced_of_unlocked (clock : Time) {process : Process}
    (unlocked : process.locked = none) :
    process.Paced clock := by
  cases process with
  | commit record => cases unlocked
  | _ => trivial

/-- The reading of the clock that a statement makes. -/
def Label.reading {ι : Type} : Label ι → Option Time
  | .execute _ now => some now
  | _ => none

namespace World

variable {ι : Type}

/-- Every row, and every claim about to commit, is paced as the clock stands. -/
structure Paced (clock : Time) (world : World ι) : Prop where
  sole : world.SoleWorkers
  rows : ∀ id row, world.tasks.find id = some row → row.Paced clock
  commits : ∀ client, (world.processes client).Paced clock

/--
A claim that takes a task tried before comes no sooner after the claim before
it than the backoff for the attempts counted so far.
-/
def BacksOff (world : World ι) (label : Label ι) (_ : World ι) : Prop :=
  ∀ client now kinds record, label = .execute client now →
    world.processes client = .select kinds →
    world.selectOldest now kinds = some record →
    0 < record.attempts →
    ∃ claimed, record.claimedAt = some claimed ∧
      claimed + TaskRecord.backoff record.attempts ≤ now

theorem Paced.backsOff {clock : Time} {world : World ι}
    (paced : world.Paced clock) (label : Label ι) (next : World ι) :
    world.BacksOff label next := by
  intro client now kinds record _ _ selected tried
  rcases selectOldest_spec selected with ⟨found, eligible, _, _⟩
  rcases (TaskRecord.eligible_iff ..).mp eligible with ⟨pending, due, _⟩
  have row := paced.rows record.id record found
  rcases row.claimed tried with ⟨claimed, claimedAt⟩
  rcases row.waits pending claimed claimedAt with ⟨retry, retryAfter, apart⟩
  exact ⟨claimed, claimedAt, Int.le_trans apart (due retry retryAfter)⟩

variable [DecidableEq ι] {world next : World ι} {label : Label ι}

theorem commits_of_update {clock later : Time} {client : ι} {process : Process}
    (paced : world.Paced clock) (ticks : clock ≤ later)
    (moved : process.Paced later) (other : ι) :
    (Function.update world.processes client process other).Paced later := by
  rw [Function.update_apply]
  split
  · exact moved
  · exact (paced.commits other).mono ticks

theorem step_paced {clock : Time}
    (paced : world.Paced clock)
    (ticks : clock ≤ (label.reading).getD clock)
    (stepped : world.step label = some next) :
    next.Paced ((label.reading).getD clock) := by
  have sole := step_soleWorkers paced.sole stepped
  have rows : ∀ id row, world.tasks.find id = some row →
      row.Paced ((label.reading).getD clock) :=
    fun id row found => (paced.rows id row found).mono ticks
  cases step_moves stepped with
  | quiet follows =>
      exact ⟨sole, rows, commits_of_update paced ticks
        (Process.paced_of_unlocked _ follows.unlocked)⟩
  | @enqueued client now task generated tasks running inserted =>
      refine ⟨sole, ?_, commits_of_update paced ticks trivial⟩
      intro id row found
      rw [KeyedTable.find_insert? inserted] at found
      split at found
      · cases found
        exact TaskRecord.Paced.enqueued ..
      · exact rows id row found
  | selected => exact ⟨sole, rows, commits_of_update paced ticks trivial⟩
  | @saved client now record running =>
      exact ⟨sole, rows, commits_of_update paced ticks (TaskRecord.Paced.claim now record)⟩
  | @committed client now record stale tasks running _ stored =>
      refine ⟨sole, ?_, commits_of_update paced ticks trivial⟩
      intro id row found
      rw [stored] at found
      split at found
      · cases found
        have saved := paced.commits client
        rw [running] at saved
        exact TaskRecord.Paced.mono saved ticks
      · exact rows id row found
  | released => exact ⟨sole, rows, commits_of_update paced ticks trivial⟩
  | @rewrote client now write before tasks writes _ storedBefore _ stored =>
      refine ⟨sole, ?_, commits_of_update paced ticks trivial⟩
      intro id row found
      rw [stored] at found
      split at found
      · cases found
        rcases Process.retries_or_not_pending writes with
          ⟨record, reason, running, left, sameID, _⟩ | busy
        · have read := paced.sole.reads running (sameID ▸ storedBefore)
          rw [running] at writes
          cases writes
          rw [Write.fail, if_pos left]
          simp only [Write.requeue, ← read.attempts]
          exact (paced.rows _ _ storedBefore).requeue ticks
        · exact (rows _ _ storedBefore).of_busy
            (Process.sameClaim_of_writes writes before) (busy before)
      · exact rows id row found
  | @recovered client now staleTimeout running =>
      have plain := paced.sole.unrecovered client
      rw [running] at plain
      cases plain

end World

variable {ι : Type} [DecidableEq ι]

/--
Along every run without recovery and under a shared clock, each claim of a
task that was tried before keeps the backoff from the claim before it.
-/
theorem retries_back_off
    {start : World ι} (labels : List (Label ι)) (since : Time)
    (idle : start.Idle)
    (rows : ∀ id row, start.tasks.find id = some row → row.Paced since)
    (clocked : Clocked Label.reading since labels) :
    AllSteps World.step World.BacksOff start labels := by
  have paced : start.Paced since :=
    ⟨idle.soleWorkers, rows, fun client =>
      Process.paced_of_unlocked since (idle.initial.processes client)⟩
  refine Clocked.allSteps World.Paced ?_ paced clocked
  intro clock world label next holds ticks stepped
  exact ⟨holds.backsOff label next, World.step_paced holds ticks stepped⟩

/-- The three claims of a task, in nanoseconds: ten and twenty seconds apart. -/
example : TaskRecord.backoff 1 = 10000000000 ∧ TaskRecord.backoff 2 = 20000000000 := by
  decide

theorem oneTask_idle {calls : List Process}
    (outside : ∀ process ∈ calls, process.locked = none)
    (unrecovered : ∀ process ∈ calls, process.recovering = false)
    (workless : ∀ process ∈ calls, process.working = none) :
    (oneTask calls).Idle where
  initial := oneTask_initial outside
  unrecovered := oneTask_processes (fun process => process.recovering = false)
    unrecovered rfl
  workless := oneTask_processes (fun process => process.working = none) workless rfl

/-- A task fails two seconds after its claim and is claimed again when it is due. -/
theorem failedOnce_backs_off :
    (∃ final, run World.step (oneTask [.select [], .select []])
        [.execute 0 1, .execute 0 2, .execute 0 3, .callFail 0 "boom",
          .execute 0 2000000000, .execute 0 2000000001,
          .execute 1 12000000001, .execute 1 12000000002, .execute 1 12000000003] =
          some final ∧
        claimsOf "t" final.log = 2) ∧
      AllSteps World.step World.BacksOff (oneTask [.select [], .select []])
        [.execute 0 1, .execute 0 2, .execute 0 3, .callFail 0 "boom",
          .execute 0 2000000000, .execute 0 2000000001,
          .execute 1 12000000001, .execute 1 12000000002, .execute 1 12000000003] := by
  refine ⟨⟨_, rfl, rfl⟩, ?_⟩
  refine retries_back_off _ 0 (oneTask_idle (by decide) (by decide) (by decide)) ?_ ?_
  · intro id row found
    cases List.mem_singleton.mp (List.mem_of_find?_eq_some found)
    exact ⟨fun counted => absurd counted (by decide), by simp, by simp⟩
  · simp [Clocked, Label.reading]

end Infractl.Work
