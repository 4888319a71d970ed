import Infractl.Lib.History
import Infractl.Work.Locking

/-!
# What a claim guarantees

Without recovery, a task is given to a second worker only after a `Fail` put
it back, and every task given to a worker was, when its row was locked,
pending, due, of a requested kind, and the oldest such task not locked.
-/

namespace Infractl.Work

open Infractl.Lib
open Infractl.Lib.Run
open Infractl.Store (Time)

namespace World

variable {ι : Type}

/-! ## Exclusive claims -/

/-- A task was claimed and not requeued since. -/
def Given (id : String) (log : List (ι × Event)) : Prop :=
  Open (fun entry => entry.2 = .claimed id) (fun entry => entry.2 = .requeued id) log

/--
Without recovery in flight, a task once given out is not pending until it is
requeued, and was so at each of its claims.
-/
structure GivesOnce (world : World ι) : Prop where
  consistent : world.Consistent
  unrecovered : ∀ client, (world.processes client).recovering = false
  given : ∀ id, Given id world.log →
    ∃ row, world.tasks.find id = some row ∧ row.status ≠ .pending
  claims : Each (fun earlier entry =>
    ∀ id, entry.2 = .claimed id → ¬ Given id earlier) world.log

theorem Initial.givesOnce {world : World ι}
    (initial : world.Initial)
    (unrecovered : ∀ client, (world.processes client).recovering = false) :
    world.GivesOnce where
  consistent := initial.consistent
  unrecovered := unrecovered
  given id isGiven := by
    rw [initial.log] at isGiven
    exact absurd isGiven Open.not_nil
  claims := by
    rw [initial.log]
    exact Each.nil

/-- A claim of a task claimed before comes after a `Fail` that requeued it. -/
theorem GivesOnce.requeued_between {world : World ι}
    (givesOnce : world.GivesOnce)
    {before between after : List (ι × Event)} {first second : ι} {id : String}
    (logged :
      world.log =
        before ++ (first, .claimed id) :: (between ++ (second, .claimed id) :: after)) :
    ∃ failing, (failing, .requeued id) ∈ between := by
  have regrouped :
      world.log =
        (before ++ (first, .claimed id) :: between) ++
          (second, .claimed id) :: after := by
    rw [logged]
    simp
  have notGiven := givesOnce.claims _ _ _ regrouped id rfl
  rcases Open.exists_closes notGiven rfl with ⟨⟨failing, event⟩, member, requeues⟩
  cases requeues
  exact ⟨failing, member⟩

section Steps

variable {world next : World ι} {label : Label ι}

/-- A step that logs nothing and keeps the rows. -/
theorem GivesOnce.of_same_log
    (givesOnce : world.GivesOnce)
    (consistent : next.Consistent)
    (unrecovered : ∀ client, (next.processes client).recovering = false)
    (sameLog : next.log = world.log)
    (kept : ∀ id row, world.tasks.find id = some row →
      next.tasks.find id = some row) :
    next.GivesOnce where
  consistent := consistent
  unrecovered := unrecovered
  given id isGiven := by
    rw [sameLog] at isGiven
    rcases givesOnce.given id isGiven with ⟨row, found, busy⟩
    exact ⟨row, kept id row found, busy⟩
  claims := by
    rw [sameLog]
    exact givesOnce.claims

variable [DecidableEq ι]

theorem Moves.unrecovered
    (moves : world.Moves label next)
    (unrecovered : ∀ client, (world.processes client).recovering = false)
    (client : ι) :
    (next.processes client).recovering = false := by
  have update {mover : ι} {process : Process}
      (plain : process.recovering = false) :
      (Function.update world.processes mover process client).recovering = false := by
    rw [Function.update_apply]
    split
    · exact plain
    · exact unrecovered client
  cases moves with
  | quiet follows => exact update follows.recovering
  | enqueued => exact update rfl
  | selected => exact update rfl
  | saved => exact update rfl
  | committed => exact update rfl
  | released => exact update rfl
  | rewrote => exact update rfl
  | recovered => exact update rfl

theorem Moves.givesOnce
    (moves : world.Moves label next)
    (givesOnce : world.GivesOnce) :
    next.GivesOnce := by
  have consistent := moves.consistent givesOnce.consistent
  have unrecovered := moves.unrecovered givesOnce.unrecovered
  cases moves with
  | quiet =>
      exact givesOnce.of_same_log consistent unrecovered rfl (fun _ _ found => found)
  | enqueued running inserted =>
      exact givesOnce.of_same_log consistent unrecovered rfl
        (fun _ _ found => KeyedTable.find_of_insert? inserted found)
  | selected =>
      exact givesOnce.of_same_log consistent unrecovered rfl (fun _ _ found => found)
  | saved =>
      exact givesOnce.of_same_log consistent unrecovered rfl (fun _ _ found => found)
  | released =>
      exact givesOnce.of_same_log consistent unrecovered rfl (fun _ _ found => found)
  | @committed client now record row tasks running found stored =>
      rcases givesOnce.consistent.commits running with
        ⟨locked, lockedFound, pending, claimed⟩
      have notGiven : ¬ Given record.id world.log := by
        intro isGiven
        rcases givesOnce.given record.id isGiven with ⟨other, otherFound, busy⟩
        cases lockedFound.symm.trans otherFound
        exact busy pending
      refine ⟨consistent, unrecovered, ?_, ?_⟩
      · intro id isGiven
        by_cases same : id = record.id
        · refine ⟨record, (stored id).trans (if_pos same), ?_⟩
          simp [claimed]
        · rcases Open.of_concat isGiven with claims | ⟨earlier, _⟩
          · exact absurd (Event.claimed.inj claims).symm same
          · rcases givesOnce.given id earlier with ⟨other, otherFound, busy⟩
            exact ⟨other, ((stored id).trans (if_neg same)).trans otherFound, busy⟩
      · apply givesOnce.claims.concat
        rintro id ⟨⟩
        exact notGiven
  | @rewrote client now write row tasks writes free found guarded stored =>
      refine ⟨consistent, unrecovered, ?_, ?_⟩
      · intro id isGiven
        rcases Open.of_concat isGiven with claims | ⟨earlier, unrequeued⟩
        · exact absurd claims (Process.event_ne_claimed writes id)
        · by_cases same : id = write.id
          · subst same
            rcases Process.retries_or_not_pending writes with
              ⟨_, _, _, _, _, requeues⟩ | busy
            · exact absurd requeues unrequeued
            · exact ⟨write.assign row, (stored _).trans (if_pos rfl), busy row⟩
          · rcases givesOnce.given id earlier with ⟨other, otherFound, busy⟩
            exact ⟨other, ((stored id).trans (if_neg same)).trans otherFound, busy⟩
      · apply givesOnce.claims.concat
        intro id claims
        exact absurd claims (Process.event_ne_claimed writes id)
  | @recovered client now staleTimeout running =>
      have plain := givesOnce.unrecovered client
      rw [running] at plain
      cases plain

end Steps

/-! ## Eligible claims -/

/--
The query of a claim may pick a task: its row is stored and not locked, it is
pending, due and of a requested kind, and no such task is older.
-/
def Picks (world : World ι) (now : Time) (kinds : List String) (id : String) :
    Prop :=
  ∃ record, world.tasks.find id = some record ∧
    record.status = .pending ∧
    (kinds = [] ∨ record.kind ∈ kinds) ∧
    (∀ time, record.retryAfter = some time → time ≤ now) ∧
    world.locks id = none ∧
    ∀ other ∈ world.tasks.rows, other.eligible now kinds = true →
      world.locks other.id = none → record.createdAt ≤ other.createdAt

theorem picks_of_selectOldest {world : World ι} {now : Time}
    {kinds : List String} {record : TaskRecord}
    (selected : world.selectOldest now kinds = some record) :
    world.Picks now kinds record.id := by
  rcases selectOldest_spec selected with ⟨stored, eligible, free, oldest⟩
  rcases (TaskRecord.eligible_iff ..).mp eligible with ⟨pending, due, wanted⟩
  exact ⟨record, stored, pending, wanted, due, free, oldest⟩

variable [DecidableEq ι]

/-- A step of the run at which the query of `client` picked and locked a task. -/
def LockedAlong (start : World ι) (labels : List (Label ι)) (client : ι)
    (id : String) : Prop :=
  ∃ taken now rest world kinds,
    labels = taken ++ .execute client now :: rest ∧
      run step start taken = some world ∧
      world.processes client = .select kinds ∧
      world.Picks now kinds id

section Steps

variable {start world next : World ι} {labels : List (Label ι)} {label : Label ι}

theorem LockedAlong.concat {client : ι} {id : String}
    (locked : LockedAlong start labels client id) (label : Label ι) :
    LockedAlong start (labels ++ [label]) client id := by
  rcases locked with ⟨taken, now, rest, world, kinds, rfl, reached⟩
  exact ⟨taken, now, rest ++ [label], world, kinds, by simp, reached⟩

/-- Every transaction in flight and every claim returned began with a lock. -/
structure Traced (start : World ι) (labels : List (Label ι)) (world : World ι) :
    Prop where
  inFlight : ∀ client id, (world.processes client).locked = some id →
    LockedAlong start labels client id
  returned : ∀ client id, (client, .claimed id) ∈ world.log →
    LockedAlong start labels client id

theorem Initial.traced (initial : start.Initial) : Traced start [] start where
  inFlight client id held := by
    cases (initial.processes client).symm.trans held
  returned client id member := by
    rw [initial.log] at member
    cases member

/-- One process moves, and may log an entry. -/
theorem Traced.of_frame {client : ι} {process : Process}
    {logged : List (ι × Event)}
    (traced : Traced start labels world)
    (moved : next.processes = Function.update world.processes client process)
    (log : next.log = world.log ++ logged)
    (inFlight : ∀ id, process.locked = some id →
      LockedAlong start (labels ++ [label]) client id)
    (returned : ∀ claimer id, (claimer, .claimed id) ∈ logged →
      LockedAlong start labels claimer id) :
    Traced start (labels ++ [label]) next where
  inFlight := by
    intro other id held
    rw [moved, Function.update_apply] at held
    split at held
    · next same =>
        subst same
        exact inFlight id held
    · exact (traced.inFlight other id held).concat label
  returned := by
    intro other id member
    rw [log] at member
    rcases List.mem_append.mp member with earlier | latest
    · exact (traced.returned other id earlier).concat label
    · exact (returned other id latest).concat label

theorem Moves.traced
    (moves : world.Moves label next)
    (reached : run step start labels = some world)
    (traced : Traced start labels world) :
    Traced start (labels ++ [label]) next := by
  have unlocked {client : ι} {process : Process} (outside : process.locked = none) :
      ∀ id, process.locked = some id →
        LockedAlong start (labels ++ [label]) client id := by
    intro id held
    cases outside.symm.trans held
  have silent : ∀ claimer id, (claimer, .claimed id) ∈ ([] : List (ι × Event)) →
      LockedAlong start labels claimer id := by
    intro claimer id member
    cases member
  cases moves with
  | quiet follows =>
      exact traced.of_frame rfl (List.append_nil _).symm
        (unlocked follows.unlocked) silent
  | enqueued =>
      exact traced.of_frame rfl (List.append_nil _).symm (unlocked rfl) silent
  | @selected client now kinds record running found =>
      refine traced.of_frame rfl (List.append_nil _).symm ?_ silent
      rintro id ⟨⟩
      exact ⟨labels, now, [], world, kinds, rfl, reached, running,
        picks_of_selectOldest found⟩
  | @saved client now record running =>
      refine traced.of_frame rfl (List.append_nil _).symm ?_ silent
      rintro id ⟨⟩
      exact (traced.inFlight client _ (by rw [running]; rfl)).concat _
  | @committed client now record row tasks running =>
      apply traced.of_frame rfl rfl (unlocked rfl)
      intro claimer id member
      cases List.mem_singleton.mp member
      exact traced.inFlight client record.id (by rw [running]; rfl)
  | released =>
      exact traced.of_frame rfl (List.append_nil _).symm (unlocked rfl) silent
  | rewrote writes =>
      apply traced.of_frame rfl rfl (unlocked rfl)
      intro claimer id member
      have same := (Prod.mk.inj (List.mem_singleton.mp member)).2
      exact absurd same.symm (Process.event_ne_claimed writes id)
  | recovered =>
      apply traced.of_frame rfl rfl (unlocked rfl)
      intro claimer id member
      cases List.mem_singleton.mp member

end Steps

end World

variable {ι : Type} [DecidableEq ι]

/--
Without recovery, a `Fail` stands between two claims of one task, and each
claim locked a task its query was entitled to.
-/
theorem claims_exclusive_and_eligible
    {start final : World ι} (labels : List (Label ι))
    (initial : start.Initial)
    (unrecovered : ∀ client, (start.processes client).recovering = false)
    (reached : run World.step start labels = some final) :
    (∀ before between after first second id,
      final.log =
          before ++ (first, .claimed id) ::
            (between ++ (second, .claimed id) :: after) →
        ∃ failing, (failing, .requeued id) ∈ between) ∧
      ∀ client id, (client, .claimed id) ∈ final.log →
        World.LockedAlong start labels client id := by
  constructor
  · have givesOnce := run_invariant World.step
      (fun _ _ _ holds stepped => (World.step_moves stepped).givesOnce holds)
      (initial.givesOnce unrecovered) reached
    intro before between after first second id logged
    exact givesOnce.requeued_between logged
  · have traced := run_induction World.step
      (motive := fun taken world => World.Traced start taken world)
      initial.traced
      (fun taken label world next reachedWorld holds stepped =>
        (World.step_moves stepped).traced reachedWorld holds)
      reached
    exact traced.returned

/-- Two claims of one task, the first of which ends in a `Fail`. -/
def claimFailClaim : List (Label Nat) :=
  [.execute 0 1, .execute 0 2, .execute 0 3, .callFail 0 "busy", .execute 0 4,
    .execute 0 5, .execute 1 10000000005, .execute 1 10000000006,
    .execute 1 10000000007]

theorem failed_task_claimed_again :
    ∃ final,
      run World.step (oneTask [.select [], .select ["k"]]) claimFailClaim =
          some final ∧
        final.log = [(0, .claimed "t"), (0, .requeued "t"), (1, .claimed "t")] ∧
        (∃ failing, (failing, .requeued "t") ∈ [((0 : Nat), Event.requeued "t")]) ∧
        World.LockedAlong (oneTask [.select [], .select ["k"]]) claimFailClaim
          1 "t" := by
  have initial : (oneTask [.select [], .select ["k"]]).Initial :=
    oneTask_initial (by decide)
  have unrecovered : ∀ client,
      ((oneTask [.select [], .select ["k"]]).processes client).recovering = false :=
    oneTask_processes (fun process => process.recovering = false) (by decide) rfl
  have guarantees :=
    claims_exclusive_and_eligible claimFailClaim initial unrecovered rfl
  exact
    ⟨_, rfl, rfl, guarantees.1 [] [(0, .requeued "t")] [] 0 1 "t" rfl,
      guarantees.2 1 "t" (by decide)⟩

end Infractl.Work
