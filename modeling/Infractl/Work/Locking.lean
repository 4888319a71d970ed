import Infractl.Lib.Run
import Infractl.Work.PgQueue

/-!
# Row locks

What `SELECT ... FOR UPDATE SKIP LOCKED` gives a claim: from the moment its
row is locked until the transaction ends, the row stays stored and pending,
and no other transaction has it.
-/

namespace Infractl.Work

open Infractl.Lib
open Infractl.Lib.Run
open Infractl.Store (Time)

/-- A transaction in flight works on the pending row that is stored. -/
def Process.Prepared (tasks : Tasks) : Process → Prop
  | .save record =>
      tasks.find record.id = some record ∧ record.status = .pending
  | .commit record =>
      ∃ row now, tasks.find record.id = some row ∧ row.status = .pending ∧
        record = row.claim now
  | _ => True

theorem Process.prepared_of_unlocked (tasks : Tasks) {process : Process}
    (unlocked : process.locked = none) :
    process.Prepared tasks := by
  cases process with
  | save record => cases unlocked
  | commit record => cases unlocked
  | _ => trivial

namespace Process.Prepared

variable {tasks after : Tasks} {process : Process}

theorem found {id : String}
    (prepared : process.Prepared tasks)
    (held : process.locked = some id) :
    ∃ row, tasks.find id = some row ∧ row.status = .pending := by
  cases process with
  | save record =>
      cases held
      exact ⟨record, prepared⟩
  | commit record =>
      cases held
      rcases prepared with ⟨row, now, stored, pending, _⟩
      exact ⟨row, stored, pending⟩
  | _ => cases held

theorem frame
    (prepared : process.Prepared tasks)
    (same : ∀ id, process.locked = some id → after.find id = tasks.find id) :
    process.Prepared after := by
  cases process with
  | save record =>
      exact ⟨(same record.id rfl).trans prepared.1, prepared.2⟩
  | commit record =>
      rcases prepared with ⟨row, now, stored, rest⟩
      exact ⟨row, now, (same record.id rfl).trans stored, rest⟩
  | _ => trivial

end Process.Prepared

namespace World

variable {ι : Type}

/--
Every transaction in flight holds the lock of its row, and the row is stored
and pending until the transaction commits.
-/
structure Consistent (world : World ι) : Prop where
  holds : ∀ client id, (world.processes client).locked = some id →
    world.locks id = some client
  prepared : ∀ client, (world.processes client).Prepared world.tasks

/-- Before any claim: nothing is committed and no transaction is open. -/
structure Initial (world : World ι) : Prop where
  log : world.log = []
  locks : ∀ id, world.locks id = none
  processes : ∀ client, (world.processes client).locked = none

theorem Initial.consistent {world : World ι} (initial : world.Initial) :
    world.Consistent where
  holds client id held := by
    cases (initial.processes client).symm.trans held
  prepared client :=
    Process.prepared_of_unlocked world.tasks (initial.processes client)

variable {world next : World ι} {label : Label ι}

theorem Consistent.ne_of_held {client other : ι} {id otherID : String}
    (consistent : world.Consistent)
    (different : other ≠ client)
    (held : (world.processes client).locked = some id)
    (heldOther : (world.processes other).locked = some otherID) :
    otherID ≠ id := by
  rintro rfl
  have sameHolder :=
    (consistent.holds client _ held).symm.trans
      (consistent.holds other _ heldOther)
  exact different (Option.some.inj sameHolder).symm

theorem Consistent.ne_of_free {client : ι} {id free : String}
    (consistent : world.Consistent)
    (unlocked : world.locks free = none)
    (held : (world.processes client).locked = some id) :
    id ≠ free := by
  rintro rfl
  cases unlocked.symm.trans (consistent.holds client _ held)

/-- The row a claim is about to commit: stored as pending, saved as running. -/
theorem Consistent.commits {client : ι} {record : TaskRecord}
    (consistent : world.Consistent)
    (running : world.processes client = .commit record) :
    ∃ row, world.tasks.find record.id = some row ∧ row.status = .pending ∧
      record.status = .running := by
  have prepared := consistent.prepared client
  rw [running] at prepared
  rcases prepared with ⟨row, now, found, pending, claimed⟩
  exact ⟨row, found, pending, congrArg TaskRecord.status claimed⟩

variable [DecidableEq ι]

/--
A step of one process keeps the world consistent if it leaves the locks and
rows of the other transactions alone.
-/
theorem Consistent.of_frame {client : ι} {process : Process}
    (consistent : world.Consistent)
    (moved : next.processes = Function.update world.processes client process)
    (holds : ∀ id, process.locked = some id → next.locks id = some client)
    (prepared : process.Prepared next.tasks)
    (frame :
      ∀ other id, other ≠ client → (world.processes other).locked = some id →
        next.locks id = world.locks id ∧
          next.tasks.find id = world.tasks.find id) :
    next.Consistent where
  holds := by
    intro other id held
    rw [moved, Function.update_apply] at held
    split at held
    · next same =>
        subst same
        exact holds id held
    · next different =>
        rw [(frame other id different held).1]
        exact consistent.holds other id held
  prepared := by
    intro other
    rw [moved, Function.update_apply]
    split
    · exact prepared
    · next different =>
        exact (consistent.prepared other).frame
          (fun id held => (frame other id different held).2)

theorem Moves.consistent
    (moves : world.Moves label next)
    (consistent : world.Consistent) :
    next.Consistent := by
  cases moves with
  | quiet follows =>
      refine consistent.of_frame rfl ?_ ?_ (fun _ _ _ _ => ⟨rfl, rfl⟩)
      · intro id held
        cases follows.unlocked.symm.trans held
      · exact Process.prepared_of_unlocked _ follows.unlocked
  | enqueued running inserted =>
      refine consistent.of_frame rfl ?_ trivial ?_
      · intro id held
        cases held
      · intro other id _ held
        refine ⟨rfl, ?_⟩
        rcases (consistent.prepared other).found held with ⟨row, stored, _⟩
        exact (KeyedTable.find_of_insert? inserted stored).trans stored.symm
  | @selected client now kinds record running found =>
      rcases selectOldest_spec found with ⟨stored, eligible, free, _⟩
      refine consistent.of_frame rfl ?_ ?_ ?_
      · rintro id ⟨⟩
        exact Function.update_self ..
      · exact ⟨stored, ((TaskRecord.eligible_iff ..).mp eligible).1⟩
      · intro other id _ held
        exact ⟨Function.update_of_ne (consistent.ne_of_free free held) .., rfl⟩
  | @saved client now record running =>
      have prepared := consistent.prepared client
      rw [running] at prepared
      refine consistent.of_frame rfl ?_ ?_ (fun _ _ _ _ => ⟨rfl, rfl⟩)
      · rintro id ⟨⟩
        exact consistent.holds client record.id (by rw [running]; rfl)
      · exact ⟨record, now, prepared.1, prepared.2, rfl⟩
  | @committed client now record row tasks running found stored =>
      refine consistent.of_frame rfl ?_ trivial ?_
      · intro id held
        cases held
      · intro other id different held
        have apart : id ≠ record.id :=
          consistent.ne_of_held different (by rw [running]; rfl) held
        exact ⟨Function.update_of_ne apart .., (stored id).trans (if_neg apart)⟩
  | @released client id held =>
      refine consistent.of_frame rfl ?_ trivial ?_
      · intro id held
        cases held
      · intro other otherID different heldOther
        exact
          ⟨Function.update_of_ne (consistent.ne_of_held different held heldOther) ..,
            rfl⟩
  | @rewrote client now write row tasks writes free found guarded stored =>
      refine consistent.of_frame rfl ?_ trivial ?_
      · intro id held
        cases held
      · intro other id _ held
        exact ⟨rfl, (stored id).trans (if_neg (consistent.ne_of_free free held))⟩
  | @recovered client now staleTimeout running =>
      refine consistent.of_frame rfl ?_ trivial ?_
      · intro id held
        cases held
      · intro other id _ held
        rcases (consistent.prepared other).found held with ⟨row, stored, pending⟩
        have idle : row.status ≠ .running := by simp [pending]
        have fresh := TaskRecord.stale_of_not_running (now - staleTimeout) idle
        exact ⟨rfl, (find_recoverStale_of_fresh stored fresh).trans stored.symm⟩

/-- Row locks stay consistent along a run. -/
theorem run_consistent {start : World ι} {labels : List (Label ι)}
    (consistent : start.Consistent)
    (reached : run step start labels = some world) :
    world.Consistent :=
  run_invariant step
    (fun _ _ _ holds stepped => (step_moves stepped).consistent holds)
    consistent reached

end World

/-- One pending task, and calls about to issue their first statement. -/
def oneTask (calls : List Process) : World Nat where
  collation := Store.codePointOrder
  tasks :=
    ⟨[{ id := "t", kind := "k", orgID := 0, name := "", payload := [],
        status := .pending, attempts := 0, maxAttempts := 3, createdAt := 0 }],
      List.nodup_singleton _⟩
  locks _ := none
  processes client := calls.getD client (.returned none)
  log := []

theorem oneTask_processes {calls : List Process} (holds : Process → Prop)
    (each : ∀ process ∈ calls, holds process)
    (returned : holds (.returned none)) (client : Nat) :
    holds ((oneTask calls).processes client) := by
  change holds (calls.getD client (.returned none))
  rw [List.getD_eq_getElem?_getD]
  cases called : calls[client]? with
  | none => exact returned
  | some process => exact each process (List.mem_of_getElem? called)

theorem oneTask_initial {calls : List Process}
    (outside : ∀ process ∈ calls, process.locked = none) :
    (oneTask calls).Initial :=
  ⟨rfl, fun _ => rfl,
    oneTask_processes (fun process => process.locked = none) outside rfl⟩

end Infractl.Work
