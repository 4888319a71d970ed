import Infractl.Lib.Answers
import Infractl.Work.PgQueue

/-!
# The queue interface

A queue is used through `Enqueue`, `Claim`, `Complete` and `Fail`.  What its
clients see of it are the answers to their claims.

The reference for the implementations is a list of waiting tasks in the order
of their enqueuing.  A claim takes the first one of a kind it asks for, and
asks for every kind when it lists none.  A task that was claimed does not come
back.  The reference also keeps from when on a task that failed could be tried
again, for a queue that does so.
-/

namespace Infractl.Work

open Infractl.Lib
open Infractl.Store (Time storedTime)

/-! ## Calls of a queue -/

/--
A call of a queue, with the times it reads and the identifier it would
generate.
-/
inductive Operation where
  | enqueue (now : Time) (generated : String) (task : Task)
  | claim (now savedAt : Time) (kinds : List String)
  | complete (now : Time) (id : String)
  | fail (now : Time) (id reason : String)

/-- Why a call of a queue fails. -/
inductive CallError where
  | noTasks
  | database (error : QueueError)
  | taskNotFound (id : String)
  | notClaimed (id : String)
deriving DecidableEq

/--
The message of an error, where `quote` is the `%q` verb and `describe` has the
texts of the database.
-/
def CallError.message (quote : String → String)
    (describe : QueueError → String) : CallError → String
  | .noTasks => "no tasks available"
  | .database error => describe error
  | .taskNotFound id => "task not found: " ++ id
  | .notClaimed id => "task " ++ quote id ++ " not found in claimed set"

/-- The interface `Queue`, over the state of an implementation. -/
structure Queue (σ : Type) where
  enqueue : σ → Time → String → Task → σ × Option CallError
  claim : σ → Time → Time → List String → σ × Except CallError Task
  complete : σ → Time → String → σ × Option CallError
  fail : σ → Time → String → String → σ × Option CallError

/-- What a client compares: the identifier of the task it was given. -/
abbrev Answer := Option (Except CallError String)

/-- A call, and its answer if it is a claim. -/
def Queue.act {σ : Type} (queue : Queue σ) (state : σ) :
    Operation → σ × Answer
  | .enqueue now generated task =>
      ((queue.enqueue state now generated task).1, none)
  | .claim now savedAt kinds =>
      ((queue.claim state now savedAt kinds).1,
        some ((queue.claim state now savedAt kinds).2.map Task.id))
  | .complete now id => ((queue.complete state now id).1, none)
  | .fail now id reason => ((queue.fail state now id reason).1, none)

/-! ## The reference -/

/-- What the reference keeps of a task, with the time as a column keeps it. -/
structure Entry where
  id : String
  kind : String
  createdAt : Time
deriving DecidableEq

/-- The entry of a task that is enqueued under its own identifier. -/
def Entry.enqueued (now : Time) (task : Task) : Entry :=
  ⟨task.id, task.kind, storedTime now⟩

/-- How long a task that was claimed once and failed waits for a retry. -/
def retryDelay : Time :=
  TaskRecord.backoff 1

/-- A claim asks for the kinds it lists, and for all if it lists none. -/
def asksFor (kinds : List String) (kind : String) : Bool :=
  kinds.isEmpty || kinds.contains kind

theorem asksFor_iff (kinds : List String) (kind : String) :
    asksFor kinds kind = true ↔ kinds = [] ∨ kind ∈ kinds := by
  simp [asksFor]

/--
The tasks enqueued so far and those that wait, in the order of their enqueuing,
those that were claimed, and when a task that failed last may be tried again.
-/
structure Fifo where
  enqueued : List Entry
  waiting : List Entry
  claimed : List Entry
  retryAt : String → Option Time

namespace Fifo

def empty : Fifo := ⟨[], [], [], fun _ => none⟩

/-- Add an entry. -/
def enqueue (fifo : Fifo) (entry : Entry) : Fifo :=
  { fifo with
    enqueued := fifo.enqueued ++ [entry]
    waiting := fifo.waiting ++ [entry] }

/-- The first waiting task of a requested kind. -/
def first (fifo : Fifo) (kinds : List String) : Option Entry :=
  fifo.waiting.find? fun entry => asksFor kinds entry.kind

/-- Take a waiting task. -/
def take (fifo : Fifo) (entry : Entry) : Fifo :=
  { fifo with
    waiting := fifo.waiting.erase entry
    claimed := fifo.claimed ++ [entry] }

/-- A claim takes the first task it asks for. -/
def claim (fifo : Fifo) (kinds : List String) : Fifo :=
  match fifo.first kinds with
  | some entry => fifo.take entry
  | none => fifo

/-- What `Claim` answers. -/
def answer (fifo : Fifo) (kinds : List String) : Except CallError String :=
  match fifo.first kinds with
  | some entry => .ok entry.id
  | none => .error .noTasks

def complete (fifo : Fifo) (id : String) : Fifo :=
  { fifo with retryAt := Function.update fifo.retryAt id none }

def fail (fifo : Fifo) (now : Time) (id : String) : Fifo :=
  { fifo with retryAt := Function.update fifo.retryAt id (some (now + retryDelay)) }

/-- One operation. -/
def act (fifo : Fifo) : Operation → Fifo × Answer
  | .enqueue now _ task => (fifo.enqueue (.enqueued now task), none)
  | .claim _ _ kinds => (fifo.claim kinds, some (fifo.answer kinds))
  | .complete _ id => (fifo.complete id, none)
  | .fail now id _ => (fifo.fail now id, none)

/--
A client enqueues tasks with identifiers of their own, and reports on tasks it
was given.
-/
def Admits (fifo : Fifo) : Operation → Prop
  | .enqueue _ _ task =>
      task.id ≠ "" ∧ ∀ entry ∈ fifo.enqueued, entry.id ≠ task.id
  | .claim _ _ _ => True
  | .complete _ id => ∃ entry ∈ fifo.claimed, entry.id = id
  | .fail _ id _ => ∃ entry ∈ fifo.claimed, entry.id = id

/-- What holds of the reference after admitted operations. -/
structure Valid (fifo : Fifo) : Prop where
  distinct : (fifo.enqueued.map Entry.id).Nodup
  waits : fifo.waiting.Sublist fifo.enqueued
  claimed : ∀ entry ∈ fifo.claimed,
    entry ∈ fifo.enqueued ∧ entry ∉ fifo.waiting
  known : ∀ entry ∈ fifo.enqueued, entry ∈ fifo.waiting ∨ entry ∈ fifo.claimed
  tried : ∀ id time, fifo.retryAt id = some time → ∃ entry ∈ fifo.claimed, entry.id = id

theorem empty_valid : empty.Valid :=
  ⟨List.nodup_nil, List.Sublist.refl _, fun _ member => (nomatch member),
    fun _ member => (nomatch member), fun _ _ retried => nomatch retried⟩

namespace Valid

variable {fifo : Fifo}

theorem eq_of_id (valid : fifo.Valid) {entry other : Entry}
    (member : entry ∈ fifo.enqueued)
    (otherMember : other ∈ fifo.enqueued)
    (same : entry.id = other.id) :
    entry = other :=
  List.inj_on_of_nodup_map valid.distinct member otherMember same

theorem waiting_nodup (valid : fifo.Valid) : fifo.waiting.Nodup :=
  (valid.distinct.of_map Entry.id).sublist valid.waits

/-- A task that was claimed does not wait. -/
theorem claimed_id_ne (valid : fifo.Valid) {entry waiting : Entry}
    (member : entry ∈ fifo.claimed)
    (waits : waiting ∈ fifo.waiting) :
    waiting.id ≠ entry.id := by
  intro same
  have stored := valid.claimed entry member
  have equal := valid.eq_of_id (valid.waits.subset waits) stored.1 same
  rw [equal] at waits
  exact stored.2 waits

theorem enqueue (valid : fifo.Valid) {entry : Entry}
    (fresh : ∀ other ∈ fifo.enqueued, other.id ≠ entry.id) :
    (fifo.enqueue entry).Valid where
  distinct := by
    rw [Fifo.enqueue, List.map_append, List.nodup_append]
    refine ⟨valid.distinct, List.nodup_singleton _, ?_⟩
    intro id member other otherMember
    rcases List.mem_map.mp member with ⟨earlier, earlierMember, rfl⟩
    rw [List.mem_singleton.mp otherMember]
    exact fresh earlier earlierMember
  waits := valid.waits.append_right [entry]
  claimed := by
    intro claimed member
    have stored := valid.claimed claimed member
    refine ⟨List.mem_append_left _ stored.1, ?_⟩
    intro waits
    rcases List.mem_append.mp waits with earlier | new
    · exact stored.2 earlier
    · rw [List.mem_singleton.mp new] at stored
      exact fresh entry stored.1 rfl
  known := by
    intro other member
    rcases List.mem_append.mp member with earlier | new
    · exact (valid.known other earlier).imp_left (List.mem_append_left _)
    · exact Or.inl (List.mem_append_right _ new)
  tried := valid.tried

theorem take (valid : fifo.Valid) {entry : Entry}
    (waits : entry ∈ fifo.waiting) :
    (fifo.take entry).Valid where
  distinct := valid.distinct
  waits := List.erase_sublist.trans valid.waits
  claimed := by
    intro claimed member
    rcases List.mem_append.mp member with earlier | new
    · have stored := valid.claimed claimed earlier
      exact ⟨stored.1, fun waits => stored.2 (List.mem_of_mem_erase waits)⟩
    · rw [List.mem_singleton.mp new]
      exact ⟨valid.waits.subset waits, valid.waiting_nodup.not_mem_erase⟩
  known := by
    intro other member
    rcases valid.known other member with waiting | claimed
    · by_cases same : other = entry
      · rw [same]
        exact Or.inr (List.mem_append_right _ (List.mem_singleton_self _))
      · exact Or.inl ((List.mem_erase_of_ne same).mpr waiting)
    · exact Or.inr (List.mem_append_left _ claimed)
  tried := by
    intro id time retried
    rcases valid.tried id time retried with ⟨other, member, sameID⟩
    exact ⟨other, List.mem_append_left _ member, sameID⟩

theorem retry (valid : fifo.Valid) {entry : Entry} (member : entry ∈ fifo.claimed)
    (retryAt : Option Time) :
    { fifo with retryAt := Function.update fifo.retryAt entry.id retryAt }.Valid where
  distinct := valid.distinct
  waits := valid.waits
  claimed := valid.claimed
  known := valid.known
  tried := by
    intro id time retried
    by_cases same : id = entry.id
    · exact ⟨entry, member, same.symm⟩
    · exact valid.tried id time ((Function.update_of_ne same _ _).symm.trans retried)

/-- A task that waits was not tried yet. -/
theorem untried (valid : fifo.Valid) {entry : Entry} (waits : entry ∈ fifo.waiting) :
    fifo.retryAt entry.id = none := by
  cases retried : fifo.retryAt entry.id with
  | none => rfl
  | some time =>
      rcases valid.tried entry.id time retried with ⟨claimed, member, same⟩
      exact absurd same.symm (valid.claimed_id_ne member waits)

theorem claim (valid : fifo.Valid) (kinds : List String) : (fifo.claim kinds).Valid := by
  unfold Fifo.claim
  split
  · next entry found => exact valid.take (List.mem_of_find?_eq_some found)
  · exact valid

end Valid

theorem first_eq_some {fifo : Fifo} {kinds : List String} {entry : Entry}
    (found : fifo.first kinds = some entry) :
    entry ∈ fifo.waiting ∧ asksFor kinds entry.kind = true := by
  rw [first] at found
  exact ⟨List.mem_of_find?_eq_some found,
    List.find?_eq_some_iff_append.mp found |>.1⟩

theorem first_eq_none {fifo : Fifo} {kinds : List String}
    (missing : fifo.first kinds = none) :
    ∀ entry ∈ fifo.waiting, asksFor kinds entry.kind = false := by
  simpa [first] using missing

/-- The answer of a claim names the task that it takes. -/
theorem answer_eq_ok_iff {fifo : Fifo} (valid : fifo.Valid) {kinds : List String}
    {entry : Entry} (member : entry ∈ fifo.enqueued) :
    .ok entry.id = fifo.answer kinds ↔ fifo.first kinds = some entry := by
  rw [answer]
  cases first : fifo.first kinds with
  | none => simp
  | some other =>
      have isOther := valid.waits.subset (first_eq_some first).1
      simp only [Except.ok.injEq, Option.some.injEq]
      constructor
      · intro sameID
        exact valid.eq_of_id isOther member sameID.symm
      · rintro rfl
        rfl

theorem answer_eq_error_iff {fifo : Fifo} {kinds : List String} :
    .error .noTasks = fifo.answer kinds ↔ fifo.first kinds = none := by
  rw [answer]
  cases fifo.first kinds <;> simp

end Fifo

/-! ## Following the reference -/

/-- A condition on the claims among the operations. -/
def AtClaims (allowed : Fifo → Time → List String → Prop) (fifo : Fifo) :
    Operation → Prop
  | .claim now _ kinds => allowed fifo now kinds
  | _ => True

/--
An implementation follows the reference when each of its calls does, from a
state that represents the reference; `represents` may rely on its validity.
Its claims are answered like those of the reference where they are `allowed`,
and there only.
-/
structure Queue.Represents {σ : Type} (queue : Queue σ)
    (allowed : Fifo → Time → List String → Prop) (represents : σ → Fifo → Prop) :
    Prop where
  enqueue : ∀ state fifo now generated task,
    fifo.Valid → represents state fifo →
    fifo.Admits (.enqueue now generated task) →
    represents (queue.enqueue state now generated task).1
      (fifo.enqueue (.enqueued now task))
  claim : ∀ state fifo now savedAt kinds, fifo.Valid → represents state fifo →
    ((queue.claim state now savedAt kinds).2.map Task.id = fifo.answer kinds ↔
      allowed fifo now kinds) ∧
    (allowed fifo now kinds →
      represents (queue.claim state now savedAt kinds).1 (fifo.claim kinds))
  complete : ∀ state fifo now entry,
    fifo.Valid → represents state fifo → entry ∈ fifo.claimed →
    represents (queue.complete state now entry.id).1 (fifo.complete entry.id)
  fail : ∀ state fifo now entry reason,
    fifo.Valid → represents state fifo → entry ∈ fifo.claimed →
    represents (queue.fail state now entry.id reason).1 (fifo.fail now entry.id)

section Following

variable {σ : Type} {queue : Queue σ}
variable {allowed : Fifo → Time → List String → Prop} {represents : σ → Fifo → Prop}
variable (implements : queue.Represents allowed represents)
include implements

theorem Queue.Represents.follows :
    Answers.Follows queue.act Fifo.act
      (fun fifo operation => fifo.Admits operation ∧ AtClaims allowed fifo operation)
      (fun state fifo => fifo.Valid ∧ represents state fifo) := by
  rintro state fifo operation ⟨valid, represented⟩ ⟨admits, isAllowed⟩
  cases operation with
  | enqueue now generated task =>
      exact ⟨rfl, valid.enqueue admits.2,
        implements.enqueue state fifo now generated task valid represented admits⟩
  | claim now savedAt kinds =>
      rcases implements.claim state fifo now savedAt kinds valid represented with
        ⟨answers, after⟩
      exact ⟨congrArg some (answers.mpr isAllowed), valid.claim kinds, after isAllowed⟩
  | complete now id =>
      rcases admits with ⟨entry, member, rfl⟩
      exact ⟨rfl, valid.retry member none,
        implements.complete state fifo now entry valid represented member⟩
  | fail now id reason =>
      rcases admits with ⟨entry, member, rfl⟩
      exact ⟨rfl, valid.retry member _,
        implements.fail state fifo now entry reason valid represented member⟩

/-- The answers are those of the reference exactly when each claim is allowed. -/
theorem Queue.Represents.answers_eq_iff {state : σ} {fifo : Fifo}
    {operations : List Operation} (valid : fifo.Valid)
    (represented : represents state fifo)
    (admitted : Answers.Along Fifo.act Fifo.Admits fifo operations) :
    Answers.answers queue.act state operations =
        Answers.answers Fifo.act fifo operations ↔
      Answers.Along Fifo.act (AtClaims allowed) fifo operations := by
  refine implements.follows.answers_eq_iff ?_ ⟨valid, represented⟩ admitted
  rintro state fifo operation ⟨valid, represented⟩ _ refused
  cases operation with
  | claim now savedAt kinds =>
      intro same
      rcases implements.claim state fifo now savedAt kinds valid represented with
        ⟨answers, _⟩
      exact refused (answers.mp (Option.some.inj same))
  | _ => exact absurd trivial refused

end Following

end Infractl.Work
