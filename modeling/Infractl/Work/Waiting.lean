import Mathlib.Algebra.Order.BigOperators.Group.Finset
import Infractl.Work.Pace

/-!
# How long a task waits

The query of a claim takes the oldest task that is due.  A task that is due
can be passed over for an older one only, and each time it is, the older one
uses up an attempt.  Without recovery attempts are never given back, so that
the attempts left to the older tasks bound how many claims pass a task over.
-/

namespace Infractl.Work

open Infractl.Lib
open Infractl.Lib.Run
open Infractl.Store (Time storedTime)

/-- An event that gives a task to a worker. -/
def Event.isClaim : Event → Bool
  | .claimed _ => true
  | _ => false

theorem Process.event_not_claim {process : Process} {now : Time} {write : Write}
    (writes : process.writes now = some write) :
    write.event.isClaim = false := by
  cases event : write.event with
  | claimed id => exact absurd event (Process.event_ne_claimed writes id)
  | _ => rfl

/-- No `UPDATE` of a single row touches the time of creation. -/
theorem Process.createdAt_of_writes {process : Process} {now : Time} {write : Write}
    (writes : process.writes now = some write) (row : TaskRecord) :
    (write.assign row).createdAt = row.createdAt := by
  cases process with
  | complete reported =>
      cases writes
      rfl
  | writeFail record reason =>
      cases writes
      unfold Write.fail
      split
      · rfl
      · rfl
  | cancel org cancelled =>
      cases writes
      rfl
  | _ => cases writes

section Log

variable {ι : Type}

/-- How many claims were returned. -/
def claimsIn (log : List (ι × Event)) : Nat :=
  log.countP (fun entry => entry.2.isClaim)

@[simp]
theorem claimsIn_concat (log : List (ι × Event)) (client : ι) (event : Event) :
    claimsIn (log ++ [(client, event)]) =
      claimsIn log + if event.isClaim then 1 else 0 := by
  simp [claimsIn, List.countP_append, List.countP_cons]

end Log

namespace World

variable {ι : Type}

/-- The tasks stored, other than `id`, that were created no later than `created`. -/
def noLaterThan (world : World ι) (created : Time) (id : String) : Finset String :=
  ((world.tasks.rows.filter fun row =>
    decide (row.createdAt ≤ created) && decide (row.id ≠ id)).map
      TaskRecord.id).toFinset

@[simp]
theorem mem_noLaterThan (world : World ι) (created : Time) (id other : String) :
    other ∈ world.noLaterThan created id ↔
      ∃ row, world.tasks.find other = some row ∧ row.createdAt ≤ created ∧
        other ≠ id := by
  simp only [noLaterThan, List.mem_toFinset, List.mem_map, List.mem_filter,
    Bool.and_eq_true, decide_eq_true_eq]
  constructor
  · rintro ⟨row, ⟨member, early, different⟩, rfl⟩
    exact ⟨row, KeyedTable.find_key member, early, different⟩
  · rintro ⟨row, found, early, different⟩
    have sameID : row.id = other := KeyedTable.key_of_find found
    exact ⟨row, ⟨KeyedTable.find_mem found, early, sameID.symm ▸ different⟩, sameID⟩

/-- The attempts left to a task, none to a task that is not stored. -/
def attemptsLeft (world : World ι) (id : String) : Nat :=
  ((world.tasks.find id).map fun row => row.maxAttempts - row.attempts).getD 0

theorem attemptsLeft_of_find {world : World ι} {id : String} {row : TaskRecord}
    (found : world.tasks.find id = some row) :
    world.attemptsLeft id = row.maxAttempts - row.attempts := by
  simp [attemptsLeft, found]

/--
A step that passes the task `id` over: a query made in it was entitled to the
task, which was due, of a requested kind and not locked, and did not take it.
A task enqueued in it is younger.
-/
structure PassesOver (id : String) (created : Time) (world : World ι)
    (label : Label ι) (next : World ι) : Prop where
  entitled : ∀ client now kinds, label = .execute client now →
    world.processes client = .select kinds →
    ∃ row, world.tasks.find id = some row ∧ row.createdAt = created ∧
      row.eligible now kinds = true ∧ world.locks id = none
  untaken : next.locks id = none
  younger : ∀ client now task generated, label = .execute client now →
    world.processes client = .enqueue task generated → created < storedTime now

/-- What the tasks in `older` have spent, and what they have left. -/
structure Spending (older : Finset String) (id : String) (created : Time)
    (budget : Nat) (world : World ι) : Prop where
  sole : world.SoleWorkers
  budgeted : world.Budgeted
  covered : ∀ other row, world.tasks.find other = some row →
    row.createdAt ≤ created → other ≠ id → other ∈ older
  stored : ∀ other ∈ older, (world.tasks.find other).isSome = true
  inFlight : ∀ client other, (world.processes client).locked = some other →
    other ∈ older
  spent : claimsIn world.log + ∑ other ∈ older, world.attemptsLeft other ≤ budget

section Steps

variable {older : Finset String} {id : String} {created : Time} {budget : Nat}
variable {world next : World ι} {label : Label ι}

/--
A step adds no task created so early, locks only tasks in `older`, and spends
on a claim what an older task has left.
-/
theorem Spending.of_frame
    (spending : world.Spending older id created budget)
    (sole : next.SoleWorkers) (budgeted : next.Budgeted)
    (early : ∀ other row, next.tasks.find other = some row →
      row.createdAt ≤ created →
      ∃ before, world.tasks.find other = some before ∧ before.createdAt ≤ created)
    (kept : ∀ other, (world.tasks.find other).isSome = true →
      (next.tasks.find other).isSome = true)
    (inFlight : ∀ client other, (next.processes client).locked = some other →
      other ∈ older)
    (spent : claimsIn next.log + ∑ other ∈ older, next.attemptsLeft other ≤
      claimsIn world.log + ∑ other ∈ older, world.attemptsLeft other) :
    next.Spending older id created budget where
  sole := sole
  budgeted := budgeted
  covered other row found isEarly different := by
    rcases early other row found isEarly with ⟨before, foundBefore, wasEarly⟩
    exact spending.covered other before foundBefore wasEarly different
  stored other member := kept other (spending.stored other member)
  inFlight := inFlight
  spent := spent.trans spending.spent

/-- A step that leaves the table and the log alone. -/
theorem Spending.of_same
    (spending : world.Spending older id created budget)
    (sole : next.SoleWorkers) (budgeted : next.Budgeted)
    (sameTasks : next.tasks = world.tasks) (sameLog : next.log = world.log)
    (inFlight : ∀ client other, (next.processes client).locked = some other →
      other ∈ older) :
    next.Spending older id created budget := by
  refine spending.of_frame sole budgeted ?_ ?_ inFlight ?_
  · intro other row found isEarly
    exact ⟨row, sameTasks ▸ found, isEarly⟩
  · intro other stored
    rw [sameTasks]
    exact stored
  · simp only [attemptsLeft, sameTasks, sameLog]
    exact Nat.le_refl _

variable [DecidableEq ι]

/-- Locks held after a process moved. -/
theorem Spending.inFlight_of_update {client : ι} {process : Process}
    (spending : world.Spending older id created budget)
    (moved : ∀ other, process.locked = some other → other ∈ older)
    (holder : ι) (other : String)
    (held : (Function.update world.processes client process holder).locked =
      some other) :
    other ∈ older := by
  rw [Function.update_apply] at held
  split at held
  · exact moved other held
  · exact spending.inFlight holder other held

theorem Spending.inFlight_of_unlocked {client : ι} {process : Process}
    (spending : world.Spending older id created budget)
    (unlocked : process.locked = none)
    (holder : ι) (other : String)
    (held : (Function.update world.processes client process holder).locked =
      some other) :
    other ∈ older := by
  refine spending.inFlight_of_update ?_ holder other held
  intro locked isLocked
  cases unlocked.symm.trans isLocked

/-- A query that passes the task over locks an older one. -/
theorem Spending.selects_older {client : ι} {now : Time} {kinds : List String}
    {record : TaskRecord}
    (spending : world.Spending older id created budget)
    (running : world.processes client = .select kinds)
    (selected : world.selectOldest now kinds = some record)
    (passes : world.PassesOver id created (.execute client now)
      { world.setProcess client (.save record) with
        locks := Function.update world.locks record.id (some client) }) :
    record.id ∈ older := by
  rcases selectOldest_spec selected with ⟨found, _, _, oldest⟩
  rcases passes.entitled client now kinds rfl running with
    ⟨row, stored, sameTime, eligible, free⟩
  have isEarly := oldest row (KeyedTable.find_mem stored) eligible
    (KeyedTable.key_of_find stored ▸ free)
  have different : record.id ≠ id := by
    rintro rfl
    have untaken : Function.update world.locks record.id (some client) record.id = none :=
      passes.untaken
    rw [Function.update_self] at untaken
    cases untaken
  exact spending.covered record.id record found (sameTime ▸ isEarly) different

/-- A claim that commits spends an attempt of an older task. -/
theorem Spending.of_committed {client : ι} {record : TaskRecord}
    (spending : world.Spending older id created budget)
    (sole : next.SoleWorkers) (budgeted : next.Budgeted)
    (running : world.processes client = .commit record)
    (processes : next.processes =
      Function.update world.processes client (.claimed record.task))
    (stored : ∀ other, next.tasks.find other =
      if other = record.id then some record else world.tasks.find other)
    (logged : next.log = world.log ++ [(client, .claimed record.id)]) :
    next.Spending older id created budget := by
  have member := spending.inFlight client record.id (by rw [running]; rfl)
  have prepared := spending.budgeted.consistent.prepared client
  rw [running] at prepared
  rcases prepared with ⟨row, time, found, pending, claimed⟩
  have left := (spending.budgeted.rows _ _ found).2 pending
  refine spending.of_frame sole budgeted ?_ ?_ ?_ ?_
  · intro other after foundAfter isEarly
    rw [stored] at foundAfter
    split at foundAfter
    · next same =>
        cases foundAfter
        subst same
        rw [claimed] at isEarly
        exact ⟨row, found, isEarly⟩
    · exact ⟨after, foundAfter, isEarly⟩
  · intro other isStored
    rw [stored]
    split
    · rfl
    · exact isStored
  · rw [processes]
    exact spending.inFlight_of_unlocked rfl
  · have spends : ∑ other ∈ older, next.attemptsLeft other <
        ∑ other ∈ older, world.attemptsLeft other := by
      have after : next.attemptsLeft record.id = row.maxAttempts - (row.attempts + 1) := by
        rw [attemptsLeft_of_find ((stored record.id).trans (if_pos rfl)), claimed]
        rfl
      have before := attemptsLeft_of_find found
      refine Finset.sum_lt_sum ?_ ⟨record.id, member, by omega⟩
      intro other _
      by_cases same : other = record.id
      · subst same
        omega
      · simp only [attemptsLeft, stored, if_neg same]
        exact Nat.le_refl _
    rw [logged, claimsIn_concat]
    simp only [Event.isClaim, if_true]
    omega

theorem step_spending
    (spending : world.Spending older id created budget)
    (stepped : world.step label = some next)
    (passes : world.PassesOver id created label next) :
    next.Spending older id created budget := by
  have sole := step_soleWorkers spending.sole stepped
  have budgeted := step_budgeted spending.sole spending.budgeted stepped
  cases step_moves stepped with
  | quiet follows =>
      exact spending.of_same sole budgeted rfl rfl
        (spending.inFlight_of_unlocked follows.unlocked)
  | @enqueued client now task generated tasks running inserted =>
      refine spending.of_frame sole budgeted ?_ ?_
        (spending.inFlight_of_unlocked rfl) ?_
      · intro other row found isEarly
        rw [KeyedTable.find_insert? inserted] at found
        split at found
        · cases found
          have younger := passes.younger client now task generated rfl running
          exact absurd isEarly (Int.not_le.mpr younger)
        · exact ⟨row, found, isEarly⟩
      · intro other isStored
        rw [KeyedTable.find_insert? inserted]
        split
        · rfl
        · exact isStored
      · refine Nat.add_le_add_left (le_of_eq (Finset.sum_congr rfl ?_)) _
        intro other member
        rcases Option.isSome_iff_exists.mp (spending.stored other member) with
          ⟨row, found⟩
        rw [attemptsLeft_of_find found]
        exact attemptsLeft_of_find (KeyedTable.find_of_insert? inserted found)
  | @selected client now kinds record running found =>
      refine spending.of_same sole budgeted rfl rfl (spending.inFlight_of_update ?_)
      rintro other ⟨⟩
      exact spending.selects_older running found passes
  | @saved client now record running =>
      refine spending.of_same sole budgeted rfl rfl (spending.inFlight_of_update ?_)
      rintro other ⟨⟩
      exact spending.inFlight client record.id (by rw [running]; rfl)
  | committed running found stored =>
      exact spending.of_committed sole budgeted running rfl stored rfl
  | released =>
      exact spending.of_same sole budgeted rfl rfl (spending.inFlight_of_unlocked rfl)
  | @rewrote client now write before tasks writes free found guarded stored =>
      rcases Process.writes_budget writes before with ⟨sameAttempts, sameMax⟩
      refine spending.of_frame sole budgeted ?_ ?_
        (spending.inFlight_of_unlocked rfl) ?_
      · intro other row foundAfter isEarly
        rw [stored] at foundAfter
        split at foundAfter
        · next same =>
            cases foundAfter
            rw [Process.createdAt_of_writes writes] at isEarly
            exact ⟨before, same ▸ found, isEarly⟩
        · exact ⟨row, foundAfter, isEarly⟩
      · intro other isStored
        rw [stored]
        split
        · rfl
        · exact isStored
      · rw [claimsIn_concat, Process.event_not_claim writes]
        refine Nat.add_le_add_left (le_of_eq (Finset.sum_congr rfl ?_)) _
        intro other _
        simp only [attemptsLeft, stored]
        split
        · next same => simp [same, found, sameAttempts, sameMax]
        · rfl
  | @recovered client now staleTimeout running =>
      have plain := spending.sole.unrecovered client
      rw [running] at plain
      cases plain

end Steps

end World

variable {ι : Type} [DecidableEq ι]

/--
Along every run without recovery that passes a task over, no more claims are
returned than the tasks created before it, or at the same time, have attempts
left.
-/
theorem passed_over_within_attempts
    {start final : World ι} (labels : List (Label ι)) (id : String) (created : Time)
    (idle : start.Idle)
    (rows : ∀ id row, start.tasks.find id = some row → row.WithinBudget)
    (passed : AllSteps World.step (World.PassesOver id created) start labels)
    (reached : run World.step start labels = some final) :
    claimsIn final.log ≤
      ∑ other ∈ start.noLaterThan created id, start.attemptsLeft other := by
  have spending : start.Spending (start.noLaterThan created id) id created
      (∑ other ∈ start.noLaterThan created id, start.attemptsLeft other) :=
    { sole := idle.soleWorkers
      budgeted := idle.initial.budgeted rows
      covered := fun other row found early different =>
        (start.mem_noLaterThan created id other).mpr ⟨row, found, early, different⟩
      stored := by
        intro other member
        rcases (start.mem_noLaterThan created id other).mp member with ⟨row, found, _⟩
        rw [found]
        rfl
      inFlight := by
        intro client other held
        cases (idle.initial.processes client).symm.trans held
      spent := by
        rw [idle.initial.log]
        simp [claimsIn] }
  have ends := AllSteps.run_invariant
    (World.Spending (start.noLaterThan created id) id created _)
    (fun _ _ _ holds stepped passes => World.step_spending holds stepped passes)
    spending passed reached
  exact Nat.le_of_add_right_le ends.spent

/-- Two pending tasks, `a` created before `b`, and a worker about to claim. -/
def queuedPair : World Nat where
  collation := Store.codePointOrder
  tasks :=
    ⟨[{ id := "a", kind := "k", orgID := 0, name := "", payload := [],
        status := .pending, attempts := 0, maxAttempts := 3, createdAt := 0 },
      { id := "b", kind := "k", orgID := 0, name := "", payload := [],
        status := .pending, attempts := 0, maxAttempts := 3, createdAt := 1 }],
      by decide⟩
  locks _ := none
  processes client := if client = 0 then .select ["k"] else .returned none
  log := []

theorem queuedPair_idle : queuedPair.Idle where
  initial := by
    refine ⟨rfl, fun _ => rfl, ?_⟩
    intro client
    simp only [queuedPair]
    split <;> rfl
  unrecovered client := by
    simp only [queuedPair]
    split <;> rfl
  workless client := by
    simp only [queuedPair]
    split <;> rfl

/-- The younger of two tasks is passed over once, and may be so three times. -/
theorem younger_passed_over :
    ∃ final,
      run World.step queuedPair [.execute 0 2, .execute 0 3, .execute 0 4] = some final ∧
        final.log = [(0, .claimed "a")] ∧
        ∑ other ∈ queuedPair.noLaterThan 1 "b", queuedPair.attemptsLeft other = 3 ∧
        claimsIn final.log ≤
          ∑ other ∈ queuedPair.noLaterThan 1 "b", queuedPair.attemptsLeft other := by
  refine ⟨_, rfl, rfl, by decide, ?_⟩
  refine passed_over_within_attempts [.execute 0 2, .execute 0 3, .execute 0 4] "b" 1
    queuedPair_idle ?_ ?_ rfl
  · intro id row found
    have member := List.mem_of_find?_eq_some found
    simp only [queuedPair, List.mem_cons, List.not_mem_nil, or_false] at member
    rcases member with rfl | rfl
    · exact ⟨by decide, fun _ => by decide⟩
    · exact ⟨by decide, fun _ => by decide⟩
  · refine .cons rfl ⟨?_, rfl, ?_⟩ ?_
    · rintro client now kinds ⟨⟩ ⟨⟩
      exact ⟨_, rfl, rfl, rfl, rfl⟩
    · rintro client now task generated ⟨⟩ ⟨⟩
    refine .cons rfl ⟨?_, rfl, ?_⟩ ?_
    · rintro client now kinds ⟨⟩ ⟨⟩
    · rintro client now task generated ⟨⟩ ⟨⟩
    refine .cons rfl ⟨?_, rfl, ?_⟩ trivial
    · rintro client now kinds ⟨⟩ ⟨⟩
    · rintro client now task generated ⟨⟩ ⟨⟩

end Infractl.Work
