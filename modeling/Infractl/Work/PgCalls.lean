import Infractl.Lib.Run
import Infractl.Work.Interface

/-!
# The PostgreSQL queue, call by call

When no other call is in flight, the statements of a call have the effect of
one operation on the table.  The theorems that end in `returns` say so for each
call, over the steps of the statement-level model.

A claim may take the waiting tasks, and the tasks that failed and whose retry is
due.  `pgQueue_represents` says that the queue follows the reference as long as
the first task waiting comes before all of these in the order of the query, and
that its answer is another one where it does not.
-/

namespace Infractl.Work

open Infractl.Lib
open Infractl.Lib.Run
open Infractl.Store (Time Collation)

/-! ## The calls -/

/-- An error of the database queue as the interface returns it. -/
def QueueError.toCallError : QueueError → CallError
  | .noTasks => .noTasks
  | error => .database error

namespace PgQueue

/-- `Enqueue` as a whole. -/
def enqueue (tasks : Tasks) (now : Time) (generated : String) (task : Task) :
    Tasks × Option QueueError :=
  match tasks.insert? (TaskRecord.enqueued now generated task) with
  | some stored => (stored, none)
  | none => (tasks, some .duplicatedKey)

/-- The query of `Claim` when no row is locked. -/
def selectOldest (collation : Collation) (tasks : Tasks) (now : Time)
    (kinds : List String) : Option TaskRecord :=
  TaskRecord.oldest collation
    (tasks.rows.filter fun record => record.eligible now kinds)

theorem saved_id (record row : TaskRecord) :
    ({ record with id := row.id } : TaskRecord).id = row.id :=
  rfl

/-- `Save` of a record over the row with its identifier. -/
def save (tasks : Tasks) (record : TaskRecord) : Option Tasks :=
  tasks.update? record.id (fun _ => true) (fun row => { record with id := row.id })
    (saved_id record)

/-- `Claim` as a whole; the row that its query finds is there to be saved. -/
def claim (collation : Collation) (tasks : Tasks) (now savedAt : Time)
    (kinds : List String) : Tasks × Except QueueError Task :=
  match selectOldest collation tasks now kinds with
  | none => (tasks, .error .noTasks)
  | some record =>
      ((save tasks (record.claim savedAt)).getD tasks,
        .ok (record.claim savedAt).task)

/-- A single-row `UPDATE` as a whole. -/
def write (tasks : Tasks) (write : Write) : Tasks × Option QueueError :=
  match tasks.update? write.id write.guard write.assign write.keepsID with
  | some stored => (stored, none)
  | none => (tasks, write.missing)

/-- `Fail` as a whole: a read and a write. -/
def fail (tasks : Tasks) (now : Time) (id reason : String) :
    Tasks × Option QueueError :=
  match tasks.find id with
  | none => (tasks, some .recordNotFound)
  | some record => write tasks (Write.fail now record reason)

end PgQueue

/-- The PostgreSQL implementation of the interface. -/
def pgQueue (collation : Collation) : Queue Tasks where
  enqueue tasks now generated task :=
    ((PgQueue.enqueue tasks now generated task).1,
      (PgQueue.enqueue tasks now generated task).2.map QueueError.toCallError)
  claim tasks now savedAt kinds :=
    ((PgQueue.claim collation tasks now savedAt kinds).1,
      (PgQueue.claim collation tasks now savedAt kinds).2.mapError
        QueueError.toCallError)
  complete tasks now id :=
    ((PgQueue.write tasks (Write.complete now id)).1,
      (PgQueue.write tasks (Write.complete now id)).2.map QueueError.toCallError)
  fail tasks now id reason :=
    ((PgQueue.fail tasks now id reason).1,
      (PgQueue.fail tasks now id reason).2.map QueueError.toCallError)

section Alone

variable {ι : Type} [DecidableEq ι] {world : World ι} {client : ι}

/--
A call in flight returns when it is the only one to take steps, and leaves the
table as given.
-/
def World.Returns (world : World ι) (client : ι) (tasks : Tasks)
    (ended : Process) : Prop :=
  ∃ labels final,
    (∀ label ∈ labels, ∃ now, label = .execute client now) ∧
      run World.step world labels = some final ∧
      final.tasks = tasks ∧ final.processes client = ended ∧
      final.locks = world.locks

theorem World.Returns.of_step {now : Time} {final : World ι} {tasks : Tasks}
    {ended : Process}
    (stepped : World.step world (.execute client now) = some final)
    (table : final.tasks = tasks)
    (process : final.processes client = ended)
    (sameLocks : final.locks = world.locks) :
    world.Returns client tasks ended := by
  refine ⟨[.execute client now], final, ?_, ?_, table, process, sameLocks⟩
  · intro label member
    exact ⟨now, List.mem_singleton.mp member⟩
  · exact (run_cons_eq_some_iff World.step).mpr ⟨final, stepped, rfl⟩

theorem World.Returns.of_next {now : Time} {next : World ι} {tasks : Tasks}
    {ended : Process}
    (stepped : World.step world (.execute client now) = some next)
    (returns : next.Returns client tasks ended)
    (sameLocks : next.locks = world.locks) :
    world.Returns client tasks ended := by
  rcases returns with ⟨labels, final, own, ran, table, process, locks⟩
  refine ⟨.execute client now :: labels, final, ?_, ?_, table, process,
    locks.trans sameLocks⟩
  · exact List.forall_mem_cons.mpr ⟨⟨now, rfl⟩, own⟩
  · exact (run_cons_eq_some_iff World.step).mpr ⟨next, stepped, ran⟩

theorem enqueue_returns (now : Time) {generated : String} {task : Task}
    (called : world.processes client = .enqueue task generated) :
    world.Returns client (PgQueue.enqueue world.tasks now generated task).1
      (.returned (PgQueue.enqueue world.tasks now generated task).2) := by
  unfold PgQueue.enqueue
  cases inserted :
      world.tasks.insert? (TaskRecord.enqueued now generated task) with
  | none =>
      have stepped : World.step world (.execute client now) =
          some (world.setProcess client (.returned (some .duplicatedKey))) := by
        simp only [World.step, World.execute, called, inserted]
      exact .of_step stepped rfl (Function.update_self ..) rfl
  | some tasks =>
      have stepped : World.step world (.execute client now) =
          some { world.setProcess client (.returned none) with tasks := tasks } := by
        simp only [World.step, World.execute, called, inserted]
      exact .of_step stepped rfl (Function.update_self ..) rfl

/-- A single-row `UPDATE` waits for no lock when none is held. -/
theorem write_returns {now : Time} {write : Write}
    (executes : world.execute client now = world.write client write)
    (unlocked : ∀ id, world.locks id = none) :
    world.Returns client (PgQueue.write world.tasks write).1
      (.returned (PgQueue.write world.tasks write).2) := by
  unfold PgQueue.write
  have free : ((world.locks write.id).isSome &&
      (world.tasks.find write.id).any write.guard) = false := by
    rw [unlocked, Option.isSome_none, Bool.false_and]
  cases updated :
      world.tasks.update? write.id write.guard write.assign write.keepsID with
  | none =>
      have stepped : World.step world (.execute client now) =
          some (world.setProcess client (.returned write.missing)) := by
        simp [World.step, executes, World.write, free, updated]
      exact .of_step stepped rfl (Function.update_self ..) rfl
  | some tasks =>
      have stepped : World.step world (.execute client now) =
          some
            { world with
              tasks := tasks
              processes := Function.update world.processes client (.returned none)
              log := world.log ++ [(client, write.event)] } := by
        simp [World.step, executes, World.write, free, updated]
      exact .of_step stepped rfl (Function.update_self ..) rfl

theorem complete_returns (now : Time) {id : String}
    (called : world.processes client = .complete id)
    (unlocked : ∀ id, world.locks id = none) :
    world.Returns client (PgQueue.write world.tasks (Write.complete now id)).1
      (.returned (PgQueue.write world.tasks (Write.complete now id)).2) := by
  apply write_returns _ unlocked
  · exact now
  · simp only [World.execute, called]

theorem fail_returns (now : Time) {id reason : String}
    (called : world.processes client = .readForFail id reason)
    (unlocked : ∀ id, world.locks id = none) :
    world.Returns client (PgQueue.fail world.tasks now id reason).1
      (.returned (PgQueue.fail world.tasks now id reason).2) := by
  unfold PgQueue.fail
  cases found : world.tasks.find id with
  | none =>
      have stepped : World.step world (.execute client now) =
          some (world.setProcess client (.returned (some .recordNotFound))) := by
        simp only [World.step, World.execute, called, found]
      exact .of_step stepped rfl (Function.update_self ..) rfl
  | some record =>
      have stepped : World.step world (.execute client now) =
          some (world.setProcess client (.writeFail record reason)) := by
        simp only [World.step, World.execute, called, found]
      have writes :
          (world.setProcess client (.writeFail record reason)).execute client now =
            (world.setProcess client (.writeFail record reason)).write client
              (Write.fail now record reason) := by
        simp only [World.execute, World.setProcess, Function.update_self]
      exact .of_next stepped (write_returns writes unlocked) rfl

/-- What a claim has become when it returned. -/
def claimOutcome : Except QueueError Task → Process
  | .ok task => .claimed task
  | .error error => .returned (some error)

theorem claim_returns (now savedAt : Time) {kinds : List String}
    (called : world.processes client = .select kinds)
    (unlocked : ∀ id, world.locks id = none) :
    world.Returns client
      (PgQueue.claim world.collation world.tasks now savedAt kinds).1
      (claimOutcome
        (PgQueue.claim world.collation world.tasks now savedAt kinds).2) := by
  have select : world.selectOldest now kinds =
      PgQueue.selectOldest world.collation world.tasks now kinds := by
    simp [World.selectOldest, PgQueue.selectOldest, unlocked]
  unfold PgQueue.claim
  cases selected : PgQueue.selectOldest world.collation world.tasks now kinds with
  | none =>
      have stepped : World.step world (.execute client now) =
          some (world.setProcess client (.returned (some .noTasks))) := by
        simp only [World.step, World.execute, called, select, selected]
      exact .of_step stepped rfl (Function.update_self ..) rfl
  | some record =>
      have stored := (World.selectOldest_spec (select.trans selected)).1
      cases saved : PgQueue.save world.tasks (record.claim savedAt) with
      | none =>
          have missing := KeyedTable.update?_eq_none_iff.mp saved record stored
          cases missing
      | some tasks =>
          refine ⟨[.execute client now, .execute client savedAt,
              .execute client savedAt],
            { world with
              tasks := tasks
              locks := Function.update
                (Function.update world.locks record.id (some client)) record.id
                none
              processes := Function.update
                (Function.update (Function.update world.processes client
                  (.save record)) client (.commit (record.claim savedAt))) client
                (.claimed (record.claim savedAt).task)
              log := world.log ++ [(client, .claimed record.id)] },
            by simp, ?_, ?_, Function.update_self .., ?_⟩
          · simp only [run, World.step, World.execute, called, select, selected,
              World.setProcess, Function.update_self, Option.bind_some]
            rw [PgQueue.save] at saved
            rw [saved]
            rfl
          · simp only [saved, Option.getD_some]
          · funext id
            by_cases same : id = record.id
            · simp [same, unlocked]
            · simp [same]

end Alone

/-! ## The queue follows the reference -/

/-- The order in which the query of a claim has two tasks. -/
def Entry.Precedes (collation : Collation) (earlier later : Entry) : Prop :=
  earlier.createdAt < later.createdAt ∨
    earlier.createdAt = later.createdAt ∧
      collation.notAfter earlier.id later.id = true

instance (collation : Collation) (earlier later : Entry) :
    Decidable (earlier.Precedes collation later) :=
  inferInstanceAs (Decidable (_ ∨ _))

theorem Entry.Precedes.antisymm {collation : Collation} {entry other : Entry}
    (forth : entry.Precedes collation other) (back : other.Precedes collation entry) :
    entry.id = other.id := by
  rcases forth with less | ⟨same, notAfter⟩
  · rcases back with greater | ⟨same, _⟩
    · exact absurd (Int.lt_trans less greater) (Int.lt_irrefl _)
    · exact absurd (same ▸ less) (Int.lt_irrefl _)
  · rcases back with greater | ⟨_, notBefore⟩
    · exact absurd (same ▸ greater) (Int.lt_irrefl _)
    · exact collation.antisymm _ _ notAfter notBefore

/-- What a claim may take: the tasks waiting, and those whose retry is due. -/
def Fifo.candidates (fifo : Fifo) (now : Time) (kinds : List String) : List Entry :=
  (fifo.waiting ++
    fifo.claimed.filter fun entry => (fifo.retryAt entry.id).any (· ≤ now)).filter
      fun entry => asksFor kinds entry.kind

theorem Fifo.mem_candidates {fifo : Fifo} {now : Time} {kinds : List String}
    {entry : Entry} :
    entry ∈ fifo.candidates now kinds ↔
      (entry ∈ fifo.waiting ∨
        entry ∈ fifo.claimed ∧ ∃ time, fifo.retryAt entry.id = some time ∧ time ≤ now) ∧
      asksFor kinds entry.kind = true := by
  simp only [candidates, List.mem_filter, List.mem_append, Option.any_eq_true,
    decide_eq_true_eq]

/-- The first task waiting comes before everything the claim may take. -/
def WaitingFirst (collation : Collation) (fifo : Fifo) (now : Time)
    (kinds : List String) : Prop :=
  ∀ other ∈ fifo.candidates now kinds,
    ∃ entry, fifo.first kinds = some entry ∧ entry.Precedes collation other

namespace TaskRecord

/-- The row as the queue of entries has it. -/
def entry (record : TaskRecord) : Entry :=
  ⟨record.id, record.kind, record.createdAt⟩

theorem before_iff_precedes {collation : Collation} {record other : TaskRecord} :
    record.before collation other = true ↔
      record.entry.Precedes collation other.entry :=
  before_iff

/-- The row of a task that waits. -/
structure Fresh (record : TaskRecord) : Prop where
  pending : record.status = .pending
  undelayed : record.retryAfter = none
  untried : record.attempts = 0
  limit : record.maxAttempts = 3

/-- The row of a task that was claimed once, and when its retry is due. -/
structure Tried (record : TaskRecord) (retryAt : Option Time) : Prop where
  once : record.attempts = 1
  limit : record.maxAttempts = 3
  pending : record.status = .pending ↔ retryAt.isSome = true
  delayed : ∀ time, retryAt = some time → record.retryAfter = some time

section Eligible

variable {record : TaskRecord} {now : Time} {kinds : List String}

theorem Fresh.eligible_iff (fresh : record.Fresh) :
    record.eligible now kinds = true ↔ asksFor kinds record.kind = true := by
  simp [TaskRecord.eligible_iff, asksFor_iff, fresh.pending, fresh.undelayed]

theorem Tried.eligible_iff {retryAt : Option Time} (tried : record.Tried retryAt) :
    record.eligible now kinds = true ↔
      (∃ time, retryAt = some time ∧ time ≤ now) ∧
        asksFor kinds record.kind = true := by
  rw [TaskRecord.eligible_iff, asksFor_iff, tried.pending]
  cases retryAt with
  | none => simp
  | some time => simp [tried.delayed time rfl]

end Eligible

end TaskRecord

namespace PgQueue

/-- The rows are those of the tasks enqueued, each in the state it should be in. -/
structure Represents (tasks : Tasks) (fifo : Fifo) : Prop where
  stored : ∀ id row, tasks.find id = some row → row.entry ∈ fifo.enqueued
  waits : ∀ entry ∈ fifo.waiting, ∃ row,
    tasks.find entry.id = some row ∧ row.entry = entry ∧ row.Fresh
  claimed : ∀ entry ∈ fifo.claimed, ∃ row,
    tasks.find entry.id = some row ∧ row.entry = entry ∧
      row.Tried (fifo.retryAt entry.id)

theorem empty_represents : Represents KeyedTable.empty Fifo.empty where
  stored _ _ found := nomatch found
  waits _ member := nomatch member
  claimed _ member := nomatch member

variable {tasks : Tasks} {fifo : Fifo}

/-- A new row waits behind all the others. -/
theorem Represents.insert (represents : Represents tasks fifo)
    {record : TaskRecord} {stored : Tasks}
    (inserted : tasks.insert? record = some stored) (fresh : record.Fresh) :
    Represents stored (fifo.enqueue record.entry) := by
  have finds := KeyedTable.find_insert? inserted
  constructor
  · intro other row found
    rw [finds] at found
    split at found
    · cases found
      exact List.mem_append_right _ (List.mem_singleton_self _)
    · exact List.mem_append_left _ (represents.stored other row found)
  · intro waiting member
    rcases List.mem_append.mp member with earlier | new
    · rcases represents.waits waiting earlier with ⟨row, found, rest⟩
      exact ⟨row, KeyedTable.find_of_insert? inserted found, rest⟩
    · rw [List.mem_singleton.mp new]
      refine ⟨record, ?_, rfl, fresh⟩
      rw [finds]
      exact if_pos rfl
  · intro claimed member
    rcases represents.claimed claimed member with ⟨row, found, rest⟩
    exact ⟨row, KeyedTable.find_of_insert? inserted found, rest⟩

/-- Rewriting the row of a task that is claimed from then on. -/
theorem Represents.replace (represents : Represents tasks fifo)
    {after : Fifo} {updated : Tasks} (entry : Entry) {row replaced : TaskRecord}
    (found : tasks.find entry.id = some row)
    (stored : ∀ other, updated.find other =
      if other = entry.id then some replaced else tasks.find other)
    (sameEntry : replaced.entry = row.entry)
    (sameEnqueued : after.enqueued = fifo.enqueued)
    (waiting : ∀ other ∈ after.waiting,
      other ∈ fifo.waiting ∧ other.id ≠ entry.id)
    (claimed : ∀ other ∈ after.claimed,
      (other ∈ fifo.claimed ∧ other.id ≠ entry.id ∧
          after.retryAt other.id = fifo.retryAt other.id) ∨
        (other = row.entry ∧ other = entry ∧
          replaced.Tried (after.retryAt entry.id))) :
    Represents updated after where
  stored := by
    intro other otherRow otherFound
    rw [sameEnqueued]
    rw [stored] at otherFound
    split at otherFound
    · cases otherFound
      rw [sameEntry]
      exact represents.stored entry.id row found
    · exact represents.stored other otherRow otherFound
  waits := by
    intro other member
    rcases waiting other member with ⟨waited, different⟩
    rcases represents.waits other waited with ⟨waitingRow, waitingFound, rest⟩
    refine ⟨waitingRow, ?_, rest⟩
    rw [stored, if_neg different]
    exact waitingFound
  claimed := by
    intro other member
    rcases claimed other member with ⟨before, different, sameRetry⟩ | ⟨isRow, rfl, tried⟩
    · rcases represents.claimed other before with ⟨otherRow, otherFound, rest⟩
      refine ⟨otherRow, ?_, ?_⟩
      · rw [stored, if_neg different]
        exact otherFound
      · rw [sameRetry]
        exact rest
    · refine ⟨replaced, ?_, sameEntry.trans isRow.symm, tried⟩
      rw [stored]
      exact if_pos rfl

section Claim

variable {collation : Collation} {now : Time} {kinds : List String}

/-- The rows a query considers are those of the candidates. -/
theorem Represents.eligible_iff (represents : Represents tasks fifo)
    (valid : fifo.Valid) {row : TaskRecord} (found : tasks.find row.id = some row) :
    row.eligible now kinds = true ↔ row.entry ∈ fifo.candidates now kinds := by
  rw [Fifo.mem_candidates]
  rcases valid.known row.entry (represents.stored row.id row found) with
    waiting | claimed
  · rcases represents.waits row.entry waiting with ⟨_, alsoFound, _, fresh⟩
    cases found.symm.trans alsoFound
    rw [fresh.eligible_iff]
    exact (and_iff_right (Or.inl waiting)).symm
  · have notWaiting := (valid.claimed row.entry claimed).2
    rcases represents.claimed row.entry claimed with ⟨_, alsoFound, _, tried⟩
    cases found.symm.trans alsoFound
    rw [tried.eligible_iff, or_iff_right notWaiting, and_iff_right claimed]
    rfl

theorem Represents.exists_row (represents : Represents tasks fifo) {entry : Entry}
    (member : entry ∈ fifo.candidates now kinds) :
    ∃ row, tasks.find row.id = some row ∧ row.entry = entry := by
  rcases (Fifo.mem_candidates.mp member).1 with waiting | ⟨claimed, _⟩
  · rcases represents.waits entry waiting with ⟨row, found, rfl, _⟩
    exact ⟨row, found, rfl⟩
  · rcases represents.claimed entry claimed with ⟨row, found, rfl, _⟩
    exact ⟨row, found, rfl⟩

theorem Represents.candidates_eq_nil (represents : Represents tasks fifo)
    (valid : fifo.Valid) (nothing : selectOldest collation tasks now kinds = none) :
    fifo.candidates now kinds = [] := by
  rw [selectOldest, TaskRecord.oldest_eq_none_iff, List.filter_eq_nil_iff] at nothing
  rw [List.eq_nil_iff_forall_not_mem]
  intro entry member
  rcases represents.exists_row member with ⟨row, found, rfl⟩
  exact nothing row (KeyedTable.find_mem found)
    ((represents.eligible_iff valid found).mpr member)

/-- The row selected is that of the first candidate. -/
theorem Represents.selected_first (represents : Represents tasks fifo)
    (valid : fifo.Valid) {record : TaskRecord}
    (selected : selectOldest collation tasks now kinds = some record) :
    record.entry ∈ fifo.candidates now kinds ∧
      ∀ other ∈ fifo.candidates now kinds, record.entry.Precedes collation other := by
  rcases TaskRecord.oldest_spec selected with ⟨member, least⟩
  rcases List.mem_filter.mp member with ⟨stored, isEligible⟩
  refine ⟨(represents.eligible_iff valid (KeyedTable.find_key stored)).mp isEligible, ?_⟩
  intro other isCandidate
  rcases represents.exists_row isCandidate with ⟨row, found, rfl⟩
  have alsoEligible := (represents.eligible_iff valid found).mpr isCandidate
  exact TaskRecord.before_iff_precedes.mp
    (least row (List.mem_filter.mpr ⟨KeyedTable.find_mem found, alsoEligible⟩))

/-- A claim takes the first task waiting exactly when that comes before the rest. -/
theorem Represents.selects_first_iff (represents : Represents tasks fifo)
    (valid : fifo.Valid) :
    (selectOldest collation tasks now kinds).map TaskRecord.entry = fifo.first kinds ↔
      WaitingFirst collation fifo now kinds := by
  have isCandidate {entry : Entry} (found : fifo.first kinds = some entry) :
      entry ∈ fifo.candidates now kinds := by
    rcases Fifo.first_eq_some found with ⟨waits, asks⟩
    exact Fifo.mem_candidates.mpr ⟨Or.inl waits, asks⟩
  cases selected : selectOldest collation tasks now kinds with
  | none =>
      have empty := represents.candidates_eq_nil valid selected
      refine iff_of_true ?_ fun other member => ?_
      · cases found : fifo.first kinds with
        | none => rfl
        | some entry =>
            have member := isCandidate found
            rw [empty] at member
            cases member
      · rw [empty] at member
        cases member
  | some record =>
      rcases represents.selected_first valid selected with ⟨member, least⟩
      rw [Option.map_some]
      constructor
      · intro isFirst other otherMember
        exact ⟨record.entry, isFirst.symm, least other otherMember⟩
      · intro first
        rcases first record.entry member with ⟨entry, found, precedes⟩
        have sameID := precedes.antisymm (least entry (isCandidate found))
        have waits := valid.waits.subset (Fifo.first_eq_some found).1
        have stored := (TaskRecord.oldest_spec selected).1
        rw [found]
        congr 1
        refine valid.eq_of_id (represents.stored record.id record ?_) waits sameID.symm
        exact KeyedTable.find_key (List.mem_filter.mp stored).1

end Claim

/-- A write to the row of a claimed task. -/
theorem Represents.write (represents : Represents tasks fifo) (valid : fifo.Valid)
    {entry : Entry} {write : Write} {retryAt : Option Time}
    (member : entry ∈ fifo.claimed) (names : write.id = entry.id)
    (unguarded : ∀ row, write.guard row = true)
    (keeps : ∀ row, (write.assign row).entry = row.entry)
    (tries : ∀ row, row.Tried (fifo.retryAt entry.id) →
      (write.assign row).Tried retryAt) :
    Represents (PgQueue.write tasks write).1
      { fifo with retryAt := Function.update fifo.retryAt entry.id retryAt } := by
  rcases represents.claimed entry member with ⟨row, found, isEntry, tried⟩
  unfold PgQueue.write
  split
  · next updated written =>
      rcases KeyedTable.update?_spec written with ⟨matched, foundMatched, _, stored⟩
      rw [names] at foundMatched stored
      cases found.symm.trans foundMatched
      refine represents.replace entry found stored (keeps row) rfl ?_ ?_
      · intro other waits
        exact ⟨waits, valid.claimed_id_ne member waits⟩
      · intro other otherMember
        by_cases same : other.id = entry.id
        · have isSame := valid.eq_of_id (valid.claimed other otherMember).1
            (valid.claimed entry member).1 same
          refine Or.inr ⟨isSame.trans isEntry.symm, isSame, ?_⟩
          simpa only [Function.update_self] using tries row tried
        · exact Or.inl ⟨otherMember, same, Function.update_of_ne same _ _⟩
  · next refused =>
      have impossible := KeyedTable.update?_eq_none_iff.mp refused row (names ▸ found)
      rw [unguarded] at impossible
      cases impossible

/-- A claim saves the row of the task it takes. -/
theorem Represents.claim (represents : Represents tasks fifo) (valid : fifo.Valid)
    {savedAt : Time} {record : TaskRecord}
    (found : tasks.find record.id = some record)
    (waits : record.entry ∈ fifo.waiting) :
    Represents ((save tasks (record.claim savedAt)).getD tasks)
      (fifo.take record.entry) := by
  rcases represents.waits record.entry waits with ⟨_, alsoFound, _, fresh⟩
  cases found.symm.trans alsoFound
  cases saved : save tasks (record.claim savedAt) with
  | none => cases KeyedTable.update?_eq_none_iff.mp saved record found
  | some updated =>
      rcases KeyedTable.update?_spec saved with ⟨row, isRow, _, stored⟩
      cases found.symm.trans isRow
      have tried : (record.claim savedAt).Tried (fifo.retryAt record.id) := by
        have untried : fifo.retryAt record.id = none := valid.untried waits
        rw [untried]
        exact ⟨congrArg (· + 1) fresh.untried, fresh.limit,
          by simp [TaskRecord.claim], fun _ impossible => by cases impossible⟩
      refine represents.replace record.entry found stored rfl rfl ?_ ?_
      · intro other member
        have waited := List.mem_of_mem_erase member
        refine ⟨waited, fun same => ?_⟩
        rw [valid.eq_of_id (valid.waits.subset waited) (valid.waits.subset waits) same]
          at member
        exact valid.waiting_nodup.not_mem_erase member
      · intro other member
        rcases List.mem_append.mp member with earlier | new
        · exact Or.inl ⟨earlier, (valid.claimed_id_ne earlier waits).symm, rfl⟩
        · cases List.mem_singleton.mp new
          exact Or.inr ⟨rfl, rfl, tried⟩

end PgQueue

/--
The PostgreSQL queue follows the reference exactly as long as, at each claim,
the first task waiting comes before everything the claim may take.
-/
theorem pgQueue_represents (collation : Collation) :
    (pgQueue collation).Represents (WaitingFirst collation) PgQueue.Represents where
  enqueue := by
    intro tasks fifo now generated task _ represents admits
    have entry : (TaskRecord.enqueued now generated task).entry =
        .enqueued now task := by
      simp [TaskRecord.enqueued, TaskRecord.entry, Entry.enqueued, admits.1]
    simp only [pgQueue, PgQueue.enqueue]
    split
    · next stored inserted =>
        rw [← entry]
        exact represents.insert inserted ⟨rfl, rfl, rfl, rfl⟩
    · next duplicate =>
        rcases (KeyedTable.insert?_eq_none_iff _ _).mp duplicate with ⟨row, found⟩
        have sameID : row.entry.id = task.id :=
          (KeyedTable.key_of_find found).trans (congrArg Entry.id entry)
        exact absurd sameID (admits.2 row.entry (represents.stored _ row found))
  claim := by
    intro tasks fifo now savedAt kinds valid represents
    rw [← represents.selects_first_iff valid]
    simp only [pgQueue, PgQueue.claim]
    cases selected : PgQueue.selectOldest collation tasks now kinds with
    | none =>
        refine ⟨Fifo.answer_eq_error_iff.trans eq_comm, fun missing => ?_⟩
        rw [Fifo.claim, ← missing]
        exact represents
    | some record =>
        have stored := (List.mem_filter.mp (TaskRecord.oldest_spec selected).1).1
        have found := KeyedTable.find_key stored
        have isEnqueued := represents.stored record.id record found
        refine ⟨(Fifo.answer_eq_ok_iff valid isEnqueued).trans eq_comm, fun first => ?_⟩
        rw [Option.map_some] at first
        rw [Fifo.claim, ← first]
        exact represents.claim valid found (Fifo.first_eq_some first.symm).1
  complete := by
    intro tasks fifo now entry valid represents member
    refine represents.write valid member rfl (fun _ => rfl) (fun _ => rfl) ?_
    intro row tried
    exact ⟨tried.once, tried.limit, by simp [Write.complete, TaskRecord.complete],
      fun _ impossible => by cases impossible⟩
  fail := by
    intro tasks fifo now entry reason valid represents member
    rcases represents.claimed entry member with ⟨record, found, isEntry, tried⟩
    have retries : Write.fail now record reason = Write.requeue now record reason := by
      rw [Write.fail, tried.once, tried.limit]
      rfl
    simp only [pgQueue, PgQueue.fail, found, retries]
    refine represents.write valid member (congrArg Entry.id isEntry) (fun _ => rfl)
      (fun _ => rfl) ?_
    intro row rowTried
    refine ⟨rowTried.once, rowTried.limit, iff_of_true rfl rfl, ?_⟩
    rintro time ⟨⟩
    simp only [Write.requeue, TaskRecord.requeue, tried.once]
    rfl

end Infractl.Work
