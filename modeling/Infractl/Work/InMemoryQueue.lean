import Infractl.Work.Interface

/-!
# The in-memory queue

The tasks are kept in one list, in the order of their enqueuing.  A claim walks
the list up to the first pending task of a requested kind; `Complete` and
`Fail` walk it up to the task they name.

`inMemoryQueue_represents` says that the queue follows the reference without
any condition.
-/

namespace Infractl.Work

open Infractl.Store (Time storedTime)

/-- A task in memory, with the error that `Fail` sets. -/
structure MemoryTask where
  task : Task
  error : String

namespace MemoryTask

/-- The task as the queue of entries has it. -/
def entry (stored : MemoryTask) : Entry :=
  ⟨stored.task.id, stored.task.kind, storedTime stored.task.createdAt⟩

def pending (stored : MemoryTask) : Bool :=
  decide (stored.task.status = .pending)

def setStatus (status : TaskStatus) (stored : MemoryTask) : MemoryTask :=
  { stored with task := { stored.task with status := status } }

@[simp]
theorem entry_setStatus (status : TaskStatus) (stored : MemoryTask) :
    (stored.setStatus status).entry = stored.entry :=
  rfl

end MemoryTask

/-- `InMemoryQueue`. -/
abbrev InMemoryQueue := List MemoryTask

namespace InMemoryQueue

/-- The task `Enqueue` appends. -/
def enqueued (now : Time) (generated : String) (task : Task) : MemoryTask where
  task :=
    { task with
      id := if task.id = "" then generated else task.id
      status := .pending
      createdAt := now }
  error := ""

/-- The loop of `Claim`. -/
def claim (kinds : List String) :
    InMemoryQueue → Option (Task × InMemoryQueue)
  | [] => none
  | stored :: rest =>
      if stored.pending && asksFor kinds stored.task.kind then
        some ((stored.setStatus .running).task, stored.setStatus .running :: rest)
      else
        (claim kinds rest).map fun found => (found.1, stored :: found.2)

/-- The loop of `Complete` and of `Fail`, which assign to the task they name. -/
def report (id : String) (assign : MemoryTask → MemoryTask) :
    InMemoryQueue → Option InMemoryQueue
  | [] => none
  | stored :: rest =>
      if stored.task.id = id then
        some (assign stored :: rest)
      else
        (report id assign rest).map (stored :: ·)

/-- What `Complete` assigns. -/
def complete : MemoryTask → MemoryTask :=
  MemoryTask.setStatus .completed

/-- What `Fail` assigns. -/
def fail (reason : String) (stored : MemoryTask) : MemoryTask :=
  { stored.setStatus .failed with error := reason }

/-- The queue after `Complete` or `Fail`, or the error it returns. -/
def reported (queue : InMemoryQueue) (id : String)
    (assign : MemoryTask → MemoryTask) : InMemoryQueue × Option CallError :=
  match report id assign queue with
  | some updated => (updated, none)
  | none => (queue, some (.taskNotFound id))

end InMemoryQueue

/-- The in-memory implementation of the interface. -/
def inMemoryQueue : Queue InMemoryQueue where
  enqueue queue now generated task :=
    (queue ++ [InMemoryQueue.enqueued now generated task], none)
  claim queue _ _ kinds :=
    match InMemoryQueue.claim kinds queue with
    | some (task, claimed) => (claimed, .ok task)
    | none => (queue, .error .noTasks)
  complete queue _ id := queue.reported id InMemoryQueue.complete
  fail queue _ id reason := queue.reported id (InMemoryQueue.fail reason)

/-! ## The queue follows the reference -/

namespace InMemoryQueue

/-- The entries of the pending tasks. -/
def waiting (queue : InMemoryQueue) : List Entry :=
  (queue.filter MemoryTask.pending).map MemoryTask.entry

/-- The list stands for the queue of entries. -/
structure Represents (queue : InMemoryQueue) (fifo : Fifo) : Prop where
  enqueued : queue.map MemoryTask.entry = fifo.enqueued
  waiting : queue.waiting = fifo.waiting

theorem empty_represents : Represents [] Fifo.empty :=
  ⟨rfl, rfl⟩

@[simp]
theorem waiting_append (front back : InMemoryQueue) :
    waiting (front ++ back) = waiting front ++ waiting back := by
  simp [waiting]

theorem waiting_cons_of_pending {stored : MemoryTask}
    (pending : stored.pending = true) (rest : InMemoryQueue) :
    waiting (stored :: rest) = stored.entry :: waiting rest := by
  simp [waiting, pending]

theorem waiting_cons_of_idle {stored : MemoryTask}
    (idle : stored.pending = false) (rest : InMemoryQueue) :
    waiting (stored :: rest) = waiting rest := by
  simp [waiting, idle]

/-- The loop of a claim passes over no waiting task that it asks for. -/
theorem forall_waiting_cons {kinds : List String} {stored : MemoryTask}
    {rest : InMemoryQueue}
    (unwanted : ¬(stored.pending && asksFor kinds stored.task.kind) = true)
    (unasked : ∀ entry ∈ waiting rest, asksFor kinds entry.kind = false) :
    ∀ entry ∈ waiting (stored :: rest), asksFor kinds entry.kind = false := by
  cases pending : stored.pending with
  | false =>
      rw [waiting_cons_of_idle pending]
      exact unasked
  | true =>
      rw [pending, Bool.true_and, Bool.not_eq_true] at unwanted
      rw [waiting_cons_of_pending pending, List.forall_mem_cons]
      exact ⟨unwanted, unasked⟩

theorem claim_eq_none {kinds : List String} {queue : InMemoryQueue}
    (missing : claim kinds queue = none) :
    ∀ entry ∈ queue.waiting, asksFor kinds entry.kind = false := by
  induction queue with
  | nil =>
      intro entry member
      cases member
  | cons stored rest ih =>
      rw [claim] at missing
      split at missing
      · cases missing
      · next unwanted =>
          exact forall_waiting_cons unwanted
            (ih (Option.map_eq_none_iff.mp missing))

/-- A claim takes the first pending task of a requested kind. -/
theorem claim_eq_some {kinds : List String} {queue claimed : InMemoryQueue}
    {task : Task}
    (found : claim kinds queue = some (task, claimed)) :
    ∃ front stored back,
      queue = front ++ stored :: back ∧
        claimed = front ++ stored.setStatus .running :: back ∧
        task.id = stored.entry.id ∧
        stored.pending = true ∧ asksFor kinds stored.entry.kind = true ∧
        ∀ entry ∈ waiting front, asksFor kinds entry.kind = false := by
  induction queue generalizing claimed with
  | nil => cases found
  | cons stored rest ih =>
      rw [claim] at found
      split at found
      · next wanted =>
          rw [Bool.and_eq_true] at wanted
          cases found
          exact ⟨[], stored, rest, rfl, rfl, rfl, wanted.1, wanted.2,
            fun _ member => nomatch member⟩
      · next unwanted =>
          rcases Option.map_eq_some_iff.mp found with ⟨later, foundLater, equal⟩
          cases equal
          rcases ih foundLater with
            ⟨front, chosen, back, queueEq, claimedEq, sameID, pending, asked,
              unasked⟩
          refine ⟨stored :: front, chosen, back, ?_, ?_, sameID, pending, asked,
            forall_waiting_cons unwanted unasked⟩
          · rw [queueEq, List.cons_append]
          · rw [claimedEq, List.cons_append]

section Claim

variable {kinds : List String} {queue : InMemoryQueue} {fifo : Fifo}

/-- A claim without a task: the reference has none to give either. -/
theorem Represents.first_eq_none (represents : Represents queue fifo)
    (missing : claim kinds queue = none) :
    fifo.first kinds = none := by
  have unasked := claim_eq_none missing
  rw [represents.waiting] at unasked
  exact List.find?_eq_none.mpr (by simpa using unasked)

/-- The task that is claimed is the one the reference gives. -/
theorem Represents.claim (represents : Represents queue fifo)
    {task : Task} {after : InMemoryQueue}
    (claimed : claim kinds queue = some (task, after)) :
    ∃ entry, fifo.first kinds = some entry ∧ task.id = entry.id ∧
      Represents after (fifo.take entry) := by
  rcases claim_eq_some claimed with
    ⟨front, stored, back, rfl, rfl, sameID, pending, asked, unasked⟩
  have waiting := represents.waiting
  rw [waiting_append, waiting_cons_of_pending pending] at waiting
  have fresh : stored.entry ∉ InMemoryQueue.waiting front := by
    intro member
    rw [unasked stored.entry member] at asked
    cases asked
  refine ⟨stored.entry, ?_, sameID, ?_, ?_⟩
  · rw [Fifo.first, ← waiting, List.find?_append,
      List.find?_eq_none.mpr (by simpa using unasked), Option.none_or]
    exact List.find?_cons_of_pos asked
  · simpa [Fifo.take] using represents.enqueued
  · rw [Fifo.take, ← waiting, List.erase_append_right _ fresh,
      List.erase_cons_head, waiting_append]
    rfl

end Claim

section Report

variable {id : String} {assign : MemoryTask → MemoryTask}

/-- Reporting on a task that is not pending leaves the waiting tasks alone. -/
theorem report_keeps {queue reported : InMemoryQueue}
    (keeps : ∀ stored, (assign stored).entry = stored.entry)
    (ends : ∀ stored, (assign stored).pending = false)
    (idle : ∀ entry ∈ waiting queue, entry.id ≠ id)
    (found : report id assign queue = some reported) :
    reported.map MemoryTask.entry = queue.map MemoryTask.entry ∧
      waiting reported = waiting queue := by
  induction queue generalizing reported with
  | nil => cases found
  | cons stored rest ih =>
      rw [report] at found
      split at found
      · next named =>
          cases found
          have notPending : stored.pending = false := by
            rw [Bool.eq_false_iff]
            intro pending
            rw [waiting_cons_of_pending pending] at idle
            exact idle stored.entry (List.mem_cons_self ..) named
          rw [waiting_cons_of_idle notPending, waiting_cons_of_idle (ends stored),
            List.map_cons, List.map_cons, keeps]
          exact ⟨rfl, rfl⟩
      · rcases Option.map_eq_some_iff.mp found with ⟨later, foundLater, rfl⟩
        have split := waiting_append [stored] rest
        have restIdle : ∀ entry ∈ waiting rest, entry.id ≠ id := by
          intro entry member
          apply idle entry
          rw [← List.singleton_append, split]
          exact List.mem_append_right _ member
        rcases ih restIdle foundLater with ⟨sameEntries, sameWaiting⟩
        constructor
        · rw [List.map_cons, List.map_cons, sameEntries]
        · have splitLater := waiting_append [stored] later
          rw [List.singleton_append] at split splitLater
          rw [split, splitLater, sameWaiting]

theorem represents_reported {queue : InMemoryQueue} {fifo : Fifo}
    (represents : Represents queue fifo)
    (keeps : ∀ stored, (assign stored).entry = stored.entry)
    (ends : ∀ stored, (assign stored).pending = false)
    (idle : ∀ entry ∈ fifo.waiting, entry.id ≠ id) :
    Represents (queue.reported id assign).1 fifo := by
  unfold reported
  split
  · next updated found =>
      rw [← represents.waiting] at idle
      rcases report_keeps keeps ends idle found with ⟨sameEntries, sameWaiting⟩
      exact ⟨sameEntries.trans represents.enqueued,
        sameWaiting.trans represents.waiting⟩
  · exact represents

end Report

end InMemoryQueue

/-- The in-memory queue follows the reference, whatever is claimed. -/
theorem inMemoryQueue_represents :
    inMemoryQueue.Represents (fun _ _ _ => True) InMemoryQueue.Represents where
  enqueue := by
    intro queue fifo now generated task _ represents admits
    have entry : (InMemoryQueue.enqueued now generated task).entry =
        .enqueued now task := by
      simp [InMemoryQueue.enqueued, MemoryTask.entry, Entry.enqueued, admits.1]
    have pending : (InMemoryQueue.enqueued now generated task).pending = true :=
      rfl
    constructor
    · simp [inMemoryQueue, Fifo.enqueue, represents.enqueued, entry]
    · simp only [inMemoryQueue, Fifo.enqueue, InMemoryQueue.waiting_append,
        represents.waiting]
      simp [InMemoryQueue.waiting, pending, entry]
  claim := by
    intro queue fifo now savedAt kinds _ represents
    simp only [inMemoryQueue, iff_true, true_implies]
    cases claimed : InMemoryQueue.claim kinds queue with
    | none =>
        rw [Fifo.answer, Fifo.claim, represents.first_eq_none claimed]
        exact ⟨rfl, represents⟩
    | some result =>
        rcases represents.claim claimed with ⟨first, given, sameID, taken⟩
        rw [Fifo.answer, Fifo.claim, given]
        exact ⟨congrArg Except.ok sameID, taken⟩
  complete := by
    intro queue fifo now entry valid represents member
    have reported : InMemoryQueue.Represents
        (queue.reported entry.id InMemoryQueue.complete).1 fifo :=
      InMemoryQueue.represents_reported represents (fun _ => rfl) (fun _ => rfl)
        fun _ waits => valid.claimed_id_ne member waits
    exact ⟨reported.enqueued, reported.waiting⟩
  fail := by
    intro queue fifo now entry reason valid represents member
    have reported : InMemoryQueue.Represents
        (queue.reported entry.id (InMemoryQueue.fail reason)).1 fifo :=
      InMemoryQueue.represents_reported represents (fun _ => rfl) (fun _ => rfl)
        fun _ waits => valid.claimed_id_ne member waits
    exact ⟨reported.enqueued, reported.waiting⟩

end Infractl.Work
