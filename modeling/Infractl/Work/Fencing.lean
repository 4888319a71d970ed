import Infractl.Work.Locking

/-!
# Claims that outlive recovery

A claim stands until its own worker reports on the task or stale recovery
resets it.  `Complete` and `Fail` name the task only, so that a worker whose
claim was reset can still write the row after another worker claimed it.

If every report comes from the latest claimer of its task, no task has two
standing claims.  Reports are of that kind when recovery resets only the
claims of workers that have stopped, which is what a timeout longer than any
task gives.
-/

namespace Infractl.Work

open Infractl.Lib
open Infractl.Lib.Run
open Infractl.Store (Time)

/-- The task that a report about to be executed is on. -/
def Process.reports : Process → Option String
  | .complete id => some id
  | .writeFail record _ => some record.id
  | _ => none

theorem Process.working_of_reports {process : Process} {id : String}
    (reports : process.reports = some id) :
    process.working = some id := by
  cases process with
  | complete reported => exact reports
  | writeFail record reason => exact reports
  | _ => cases reports

/-- The events a worker's report leaves in the log. -/
def Event.report : Event → Bool
  | .completed _ => true
  | .requeued _ => true
  | .failed _ => true
  | _ => false

/-- An executed `UPDATE` is a report, or a cancellation. -/
theorem Process.writes_cases {process : Process} {now : Time} {write : Write}
    (writes : process.writes now = some write) :
    (process.reports = some write.id ∧ write.event.report = true) ∨
      (write.event = .cancelled write.id ∧
        ∀ row, (write.assign row).status = .failed) := by
  cases process with
  | complete reported =>
      cases writes
      exact Or.inl ⟨rfl, rfl⟩
  | writeFail record reason =>
      cases writes
      refine Or.inl ⟨congrArg some (Write.fail_id ..).symm, ?_⟩
      unfold Write.fail
      split <;> rfl
  | cancel org cancelled =>
      cases writes
      exact Or.inr ⟨rfl, fun _ => rfl⟩
  | _ => cases writes

/-! ## Reading the log -/

section Log

variable {ι : Type}

/-- The last process to claim a task. -/
def latest (id : String) (log : List (ι × Event)) : Option ι :=
  log.foldl (fun found entry => if entry.2 = .claimed id then some entry.1 else found)
    none

@[simp]
theorem latest_claimed (log : List (ι × Event)) (client : ι) (id : String) :
    latest id (log ++ [(client, .claimed id)]) = some client := by
  simp [latest]

theorem latest_of_ne (log : List (ι × Event)) (client : ι) {id : String}
    {event : Event} (other : event ≠ .claimed id) :
    latest id (log ++ [(client, event)]) = latest id log := by
  simp [latest, other]

variable [DecidableEq ι]

/-- How an event changes the claims that stand. -/
def settle (held : ι → Option String) (entry : ι × Event) : ι → Option String :=
  match entry.2 with
  | .claimed id => Function.update held entry.1 (some id)
  | .completed _ => Function.update held entry.1 none
  | .requeued _ => Function.update held entry.1 none
  | .failed _ => Function.update held entry.1 none
  | .cancelled _ => held
  | .recovered ids => fun other => (held other).filter (fun id => id ∉ ids)

/--
The task each process holds: claimed by it, and since then neither reset by
recovery nor reported on by the process.
-/
def standing (log : List (ι × Event)) : ι → Option String :=
  log.foldl settle (fun _ => none)

@[simp]
theorem standing_concat (log : List (ι × Event)) (entry : ι × Event) :
    standing (log ++ [entry]) = settle (standing log) entry := by
  simp [standing]

theorem settle_report (held : ι → Option String) (client : ι) {event : Event}
    (report : event.report = true) :
    settle held (client, event) = Function.update held client none := by
  cases event with
  | completed id => rfl
  | requeued id => rfl
  | failed id => rfl
  | claimed id => cases report
  | cancelled id => cases report
  | recovered ids => cases report

end Log

namespace World

variable {ι : Type} [DecidableEq ι]

/--
A report by a process whose claim no longer stands leaves a task alone that
another process has claimed since.
-/
def Fenced (world : World ι) (label : Label ι) (next : World ι) : Prop :=
  ∀ client now id other, label = .execute client now →
    (world.processes client).reports = some id →
    standing world.log client ≠ some id →
    latest id world.log = some other → other ≠ client →
    next.tasks.find id = world.tasks.find id

/-- No task is held by two processes at once. -/
def Exclusive (world : World ι) : Prop :=
  ∀ left right id, standing world.log left = some id →
    standing world.log right = some id → left = right

/-- A report is executed by the latest claimer of its task. -/
def ReportsLatest (world : World ι) (label : Label ι) (_ : World ι) : Prop :=
  ∀ client now id, label = .execute client now →
    (world.processes client).reports = some id →
    latest id world.log = some client

/-- Recovery resets a claim only after its worker has stopped. -/
def RecoversStopped (world : World ι) (label : Label ι) (_ : World ι) : Prop :=
  ∀ client now staleTimeout, label = .execute client now →
    world.processes client = .recover staleTimeout →
    ∀ worker id, standing world.log worker = some id →
      id ∈ staleIDs (now - staleTimeout) world.tasks →
      (world.processes worker).working = none

theorem ReportsLatest.fenced {world next : World ι} {label : Label ι}
    (reports : world.ReportsLatest label next) :
    world.Fenced label next := by
  intro client now id other executes reported _ claimed different
  have same := (reports client now id executes reported).symm.trans claimed
  exact absurd (Option.some.inj same).symm different

/-! ## Standing claims -/

/--
A standing claim is the latest of its task, whose row is stored and not
pending.
-/
structure Settled (world : World ι) : Prop where
  consistent : world.Consistent
  claims : ∀ client id, standing world.log client = some id →
    latest id world.log = some client ∧
      ∃ row, world.tasks.find id = some row ∧ row.status ≠ .pending

theorem Initial.settled {world : World ι} (initial : world.Initial) :
    world.Settled where
  consistent := initial.consistent
  claims client id held := by
    rw [initial.log] at held
    cases held

theorem Settled.exclusive {world : World ι} (settled : world.Settled) :
    world.Exclusive := by
  intro left right id heldLeft heldRight
  have leftLatest := (settled.claims left id heldLeft).1
  have rightLatest := (settled.claims right id heldRight).1
  exact Option.some.inj (leftLatest.symm.trans rightLatest)

section Steps

variable {world next : World ι} {label : Label ι}

/-- A step that logs nothing and keeps the rows keeps the claims settled. -/
theorem Settled.of_same_log
    (settled : world.Settled)
    (consistent : next.Consistent)
    (sameLog : next.log = world.log)
    (kept : ∀ id row, world.tasks.find id = some row →
      next.tasks.find id = some row) :
    next.Settled where
  consistent := consistent
  claims client id held := by
    rw [sameLog] at held ⊢
    rcases settled.claims client id held with ⟨isLatest, row, found, busy⟩
    exact ⟨isLatest, row, kept id row found, busy⟩

/--
A single-row `UPDATE` keeps the claims settled: a report ends the claim of the
latest claimer, and a cancelled task is not pending.
-/
theorem Settled.of_written {client : ι} {now : Time} {write : Write}
    {row : TaskRecord}
    (settled : world.Settled)
    (consistent : next.Consistent)
    (writes : (world.processes client).writes now = some write)
    (logged : next.log = world.log ++ [(client, write.event)])
    (stored : ∀ other, next.tasks.find other =
      if other = write.id then some (write.assign row) else world.tasks.find other)
    (reporter : (world.processes client).reports = some write.id →
      latest write.id world.log = some client) :
    next.Settled := by
  refine ⟨consistent, ?_⟩
  intro holder id held
  rw [logged, standing_concat] at held
  rw [logged, latest_of_ne _ _ (Process.event_ne_claimed writes id)]
  rcases Process.writes_cases writes with ⟨reported, report⟩ | ⟨cancels, fails⟩
  · rw [settle_report _ _ report, Function.update_apply] at held
    split at held
    · cases held
    · next different =>
        rcases settled.claims holder id held with ⟨isLatest, other, otherFound, busy⟩
        have apart : id ≠ write.id := by
          rintro rfl
          exact different
            (Option.some.inj (isLatest.symm.trans (reporter reported)))
        exact
          ⟨isLatest, other, ((stored id).trans (if_neg apart)).trans otherFound, busy⟩
  · rw [cancels] at held
    rcases settled.claims holder id held with ⟨isLatest, other, otherFound, busy⟩
    refine ⟨isLatest, ?_⟩
    by_cases same : id = write.id
    · refine ⟨write.assign row, (stored id).trans (if_pos same), ?_⟩
      simp [fails]
    · exact ⟨other, ((stored id).trans (if_neg same)).trans otherFound, busy⟩

theorem Moves.settled
    (moves : world.Moves label next)
    (settled : world.Settled)
    (reports : world.ReportsLatest label next) :
    next.Settled := by
  have consistent := moves.consistent settled.consistent
  cases moves with
  | quiet => exact settled.of_same_log consistent rfl (fun _ _ found => found)
  | enqueued running inserted =>
      exact settled.of_same_log consistent rfl
        (fun _ _ found => KeyedTable.find_of_insert? inserted found)
  | selected => exact settled.of_same_log consistent rfl (fun _ _ found => found)
  | saved => exact settled.of_same_log consistent rfl (fun _ _ found => found)
  | released => exact settled.of_same_log consistent rfl (fun _ _ found => found)
  | @committed client now record row tasks running found stored =>
      refine ⟨consistent, ?_⟩
      intro holder id held
      rcases settled.consistent.commits running with
        ⟨locked, lockedFound, pending, claimed⟩
      simp only [standing_concat, settle, Function.update_apply] at held
      split at held
      · next same =>
          subst same
          cases held
          refine ⟨latest_claimed .., record, (stored _).trans (if_pos rfl), ?_⟩
          simp [claimed]
      · rcases settled.claims holder id held with ⟨isLatest, other, otherFound, busy⟩
        have apart : id ≠ record.id := by
          rintro rfl
          cases lockedFound.symm.trans otherFound
          exact busy pending
        refine ⟨?_, other, ((stored id).trans (if_neg apart)).trans otherFound, busy⟩
        rw [latest_of_ne _ _ (fun same => apart (Event.claimed.inj same).symm)]
        exact isLatest
  | @rewrote client now write row tasks writes free found guarded stored =>
      exact settled.of_written consistent writes rfl stored
        (fun reported => reports client now write.id rfl reported)
  | @recovered client now staleTimeout running =>
      refine ⟨consistent, ?_⟩
      intro holder id held
      simp only [standing_concat, settle, Option.filter_eq_some_iff] at held
      rw [latest_of_ne _ _ (by simp)]
      rcases settled.claims holder id held.1 with ⟨isLatest, row, found, busy⟩
      have fresh : row.stale (now - staleTimeout) = false := by
        by_contra stale
        have listed := (mem_staleIDs (now - staleTimeout) world.tasks id).mpr
          ⟨row, found, by simpa using stale⟩
        simp [listed] at held
      exact ⟨isLatest, row, find_recoverStale_of_fresh found fresh, busy⟩

/-! ## Workers at work -/

/-- Every worker at work on a task holds a standing claim of it. -/
def Accounted (world : World ι) : Prop :=
  ∀ client id, (world.processes client).working = some id →
    standing world.log client = some id

/--
A step of one process keeps the workers accounted for if the claims of the
others at work stand.
-/
theorem Accounted.of_frame {client : ι} {process : Process}
    (accounted : world.Accounted)
    (moved : next.processes = Function.update world.processes client process)
    (own : ∀ id, process.working = some id → standing next.log client = some id)
    (frame :
      ∀ other id, other ≠ client →
        (world.processes other).working = some id →
        standing world.log other = some id →
        standing next.log other = some id) :
    next.Accounted := by
  intro other id works
  rw [moved, Function.update_apply] at works
  split at works
  · next same =>
      subst same
      exact own id works
  · next different =>
      exact frame other id different works (accounted other id works)

theorem Moves.accounted
    (moves : world.Moves label next)
    (accounted : world.Accounted)
    (stopped : world.RecoversStopped label next) :
    next.Accounted := by
  have idle {process : Process} {held : Option String}
      (unworking : process.working = none) :
      ∀ id, process.working = some id → held = some id := by
    intro id works
    cases unworking.symm.trans works
  cases moves with
  | @quiet _ client process follows =>
      refine accounted.of_frame rfl ?_ (fun _ _ _ _ held => held)
      intro id works
      rcases follows.working with none | same
      · cases none.symm.trans works
      · exact accounted client id (same.symm.trans works)
  | enqueued => exact accounted.of_frame rfl (idle rfl) (fun _ _ _ _ held => held)
  | selected => exact accounted.of_frame rfl (idle rfl) (fun _ _ _ _ held => held)
  | saved => exact accounted.of_frame rfl (idle rfl) (fun _ _ _ _ held => held)
  | released => exact accounted.of_frame rfl (idle rfl) (fun _ _ _ _ held => held)
  | @committed client now record row tasks running =>
      refine accounted.of_frame rfl ?_ ?_
      · rintro id ⟨⟩
        simp [settle, TaskRecord.task]
      · intro other id different _ held
        simpa [settle, different] using held
  | @rewrote client now write row tasks writes =>
      apply accounted.of_frame rfl (idle rfl)
      intro other id different _ held
      rw [standing_concat]
      rcases Process.writes_cases writes with ⟨_, report⟩ | ⟨cancels, _⟩
      · rw [settle_report _ _ report, Function.update_of_ne different]
        exact held
      · rw [cancels]
        exact held
  | @recovered client now staleTimeout running =>
      apply accounted.of_frame rfl (idle rfl)
      intro other id _ works held
      rw [standing_concat]
      have unlisted : id ∉ staleIDs (now - staleTimeout) world.tasks := by
        intro listed
        have none := stopped client now staleTimeout rfl running other id held listed
        cases none.symm.trans works
      simp [settle, held, unlisted]

theorem Accounted.reportsLatest
    (accounted : world.Accounted)
    (settled : world.Settled) :
    world.ReportsLatest label next := by
  intro client now id _ reported
  have held := accounted client id (Process.working_of_reports reported)
  exact (settled.claims client id held).1

theorem settled_accounted_step
    (holds : world.Settled ∧ world.Accounted)
    (stepped : world.step label = some next)
    (stopped : world.RecoversStopped label next) :
    next.Settled ∧ next.Accounted :=
  ⟨(step_moves stepped).settled holds.1 (holds.2.reportsLatest holds.1),
    (step_moves stepped).accounted holds.2 stopped⟩

end Steps

/-- Reports by latest claimers only keep every task with one holder. -/
theorem run_exclusive_of_reportsLatest {start final : World ι}
    {labels : List (Label ι)}
    (initial : start.Initial)
    (reports : AllSteps step ReportsLatest start labels)
    (reached : run step start labels = some final) :
    final.Exclusive := by
  have settled := AllSteps.run_invariant Settled
    (fun _ _ _ holds stepped latest => (step_moves stepped).settled holds latest)
    initial.settled reports reached
  exact settled.exclusive

end World

variable {ι : Type} [DecidableEq ι]

/--
When recovery resets only claims of workers that have stopped, no report of a
reset claim changes a task claimed since, and no task is held twice.
-/
theorem recovered_claims_fenced
    {start final : World ι} (labels : List (Label ι))
    (initial : start.Initial)
    (unclaimed : ∀ client, (start.processes client).working = none)
    (stopped : AllSteps World.step World.RecoversStopped start labels)
    (reached : run World.step start labels = some final) :
    AllSteps World.step World.Fenced start labels ∧ final.Exclusive := by
  have accounted : start.Accounted := by
    intro client id works
    cases (unclaimed client).symm.trans works
  have reports : AllSteps World.step World.ReportsLatest start labels :=
    AllSteps.mono (fun world => world.Settled ∧ world.Accounted)
      (fun _ _ _ holds stepped safe =>
        World.settled_accounted_step holds stepped safe)
      (fun _ _ _ holds _ _ => holds.2.reportsLatest holds.1)
      ⟨initial.settled, accounted⟩ stopped
  refine ⟨?_, World.run_exclusive_of_reportsLatest initial reports reached⟩
  exact AllSteps.mono (fun _ => True) (fun _ _ _ _ _ _ => trivial)
    (fun _ _ _ _ _ latest => latest.fenced) trivial reports

theorem oneTask_unclaimed {calls : List Process}
    (unclaimed : ∀ process ∈ calls, process.working = none) (client : Nat) :
    ((oneTask calls).processes client).working = none :=
  oneTask_processes (fun process => process.working = none) unclaimed rfl client

/-- A worker crashes, its claim is reset, and another is given the task. -/
theorem crashed_worker_replaced :
    ∃ final,
      run World.step (oneTask [.select [], .select [], .recover 10])
          [.execute 0 1, .execute 0 2, .execute 0 3, .abort 0, .execute 2 20,
            .execute 1 21, .execute 1 22, .execute 1 23] = some final ∧
        latest "t" final.log = some 1 ∧
        final.Exclusive := by
  refine ⟨_, rfl, rfl, ?_⟩
  have initial : (oneTask [.select [], .select [], .recover 10]).Initial :=
    oneTask_initial (by decide)
  refine (recovered_claims_fenced
    [.execute 0 1, .execute 0 2, .execute 0 3, .abort 0, .execute 2 20,
      .execute 1 21, .execute 1 22, .execute 1 23]
    initial (oneTask_unclaimed (by decide)) ?_ rfl).2
  have idle {world next : World Nat} {label : Label Nat}
      (other : ∀ client now, label = .execute client now →
        (world.processes client).recovering = false) :
      world.RecoversStopped label next := by
    intro client now staleTimeout executes running
    have none := other client now executes
    rw [running] at none
    cases none
  refine .cons rfl (idle (by rintro _ _ ⟨⟩; rfl)) ?_
  refine .cons rfl (idle (by rintro _ _ ⟨⟩; rfl)) ?_
  refine .cons rfl (idle (by rintro _ _ ⟨⟩; rfl)) ?_
  refine .cons rfl (idle (by rintro _ _ ⟨⟩)) ?_
  refine .cons rfl ?_ ?_
  · rintro _ _ staleTimeout ⟨⟩ _ worker id held _
    have claimedOnce : standing [(0, .claimed "t")] worker = some id := held
    have stoppedWorker : worker = 0 := by
      by_contra different
      simp [standing, settle, different] at claimedOnce
    subst stoppedWorker
    rfl
  refine .cons rfl (idle (by rintro _ _ ⟨⟩; rfl)) ?_
  refine .cons rfl (idle (by rintro _ _ ⟨⟩; rfl)) ?_
  exact .cons rfl (idle (by rintro _ _ ⟨⟩; rfl)) trivial

/--
A slow worker's claim is reset and a second worker claims the task.  The slow
worker's `Fail` puts the task back while the second works on it, and a third
worker claims it as well.
-/
theorem reset_worker_requeues :
    (oneTask [.select [], .select [], .select [], .recover 10]).Initial ∧
      (∀ client,
        ((oneTask [.select [], .select [], .select [], .recover 10]).processes
          client).working = none) ∧
      ∃ middle requeued final,
        run World.step
            (oneTask [.select [], .select [], .select [], .recover 10])
            [.execute 0 1, .execute 0 2, .execute 0 3, .execute 3 20,
              .execute 1 21, .execute 1 22, .execute 1 23, .callFail 0 "slow",
              .execute 0 24] = some middle ∧
        (middle.processes 0).reports = some "t" ∧
        standing middle.log 0 = none ∧
        latest "t" middle.log = some 1 ∧
        middle.status "t" = some .running ∧
        run World.step middle [.execute 0 25] = some requeued ∧
        requeued.status "t" = some .pending ∧
        run World.step requeued
            [.execute 2 20000000025, .execute 2 20000000026,
              .execute 2 20000000027] = some final ∧
        standing final.log 1 = some "t" ∧
        standing final.log 2 = some "t" :=
  ⟨oneTask_initial (by decide), oneTask_unclaimed (by decide), _, _, _,
    rfl, rfl, rfl, rfl, rfl, rfl, rfl, rfl, rfl, rfl⟩

end Infractl.Work
