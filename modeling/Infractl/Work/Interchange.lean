import Infractl.Work.InMemoryQueue
import Infractl.Work.PgCalls
import Infractl.Work.ValkeyQueue

/-!
# When the queues are interchangeable

The three implementations of the queue interface differ on purpose in two
respects.  `Fail` of the PostgreSQL queue requeues a task with attempts left,
where the others give it up.  A claim on the Valkey queue takes the kinds one
by one in the order of its list, where the others take the oldest task of all
listed kinds, and of all kinds when the list is empty.

`queues_agree` says that nothing else distinguishes them: they answer all claims
alike exactly when neither difference shows at any of them.
-/

namespace Infractl.Work

open Infractl.Lib
open Infractl.Store (Collation)

/--
Whatever tasks a client enqueues, claims and reports on, the in-memory queue and
the PostgreSQL queue answer its claims alike if and only if, at each claim, the
first task waiting comes before the others and before those whose retry is due,
in the order of the query.  The in-memory queue and the Valkey queue do if and
only if each claim lists the kind of the first task waiting before the other
kinds that have one.
-/
theorem queues_agree (collation : Collation) (operations : List Operation)
    (admitted : Answers.Along Fifo.act Fifo.Admits Fifo.empty operations) :
    (Answers.answers inMemoryQueue.act [] operations =
        Answers.answers (pgQueue collation).act KeyedTable.empty operations ↔
      Answers.Along Fifo.act (AtClaims (WaitingFirst collation)) Fifo.empty
        operations) ∧
    (Answers.answers inMemoryQueue.act [] operations =
        Answers.answers valkeyQueue.act ValkeyQueue.empty operations ↔
      Answers.Along Fifo.act (AtClaims OldestOfFirstKind) Fifo.empty
        operations) := by
  have reference : Answers.answers inMemoryQueue.act [] operations =
      Answers.answers Fifo.act Fifo.empty operations := by
    refine (inMemoryQueue_represents.answers_eq_iff Fifo.empty_valid
      InMemoryQueue.empty_represents admitted).mpr ?_
    refine (Answers.along_true Fifo.act Fifo.empty operations).mono ?_
    intro fifo operation _
    cases operation <;> trivial
  rw [reference]
  constructor
  · rw [eq_comm]
    exact (pgQueue_represents collation).answers_eq_iff Fifo.empty_valid
      PgQueue.empty_represents admitted
  · rw [eq_comm]
    exact valkeyQueue_represents.answers_eq_iff Fifo.empty_valid
      ValkeyQueue.empty_represents admitted

def sampleTask (id kind : String) : Task :=
  ⟨id, kind, 1, "vm", [], .pending, 0⟩

/--
Three tasks of two kinds.  The first fails and its retry is not due when its
kind is claimed again, and when it is due the other kind is claimed.
-/
def threeTasks : List Operation :=
  [.enqueue 1000 "" (sampleTask "a" "sync"),
    .enqueue 2000 "" (sampleTask "b" "clean"),
    .enqueue 3000 "" (sampleTask "c" "sync"), .claim 4000 4000 ["sync"],
    .fail 5000 "a" "broken", .claim 6000 6000 ["clean", "sync"],
    .complete 7000 "b", .claim 8000 8000 ["sync"],
    .claim 20000000000 20000000000 ["clean"]]

theorem threeTasks_admitted :
    Answers.Along Fifo.act Fifo.Admits Fifo.empty threeTasks := by
  refine ⟨⟨by decide, ?_⟩, ⟨by decide, ?_⟩, ⟨by decide, ?_⟩, trivial, ?_, trivial, ?_,
    trivial, trivial, trivial⟩
  · exact fun _ member => nomatch member
  · exact List.forall_mem_singleton.mpr (by decide)
  · exact List.forall_mem_cons.mpr ⟨by decide, List.forall_mem_singleton.mpr (by decide)⟩
  · exact ⟨_, List.mem_singleton_self _, rfl⟩
  · exact ⟨_, List.mem_of_mem_tail (List.mem_singleton_self _), rfl⟩

/-- All three queues answer the claims in the same way. -/
theorem threeTasks_answered_alike :
    Answers.answers inMemoryQueue.act [] threeTasks =
        [none, none, none, some (.ok "a"), none, some (.ok "b"), none,
          some (.ok "c"), some (.error .noTasks)] ∧
      Answers.answers inMemoryQueue.act [] threeTasks =
        Answers.answers (pgQueue Store.codePointOrder).act KeyedTable.empty
          threeTasks ∧
      Answers.answers inMemoryQueue.act [] threeTasks =
        Answers.answers valkeyQueue.act ValkeyQueue.empty threeTasks := by
  have agree := queues_agree Store.codePointOrder threeTasks threeTasks_admitted
  refine ⟨rfl, agree.1.mpr ?_, agree.2.mpr ?_⟩
  · refine ⟨trivial, trivial, trivial, ?_, trivial, ?_, trivial, ?_, ?_, trivial⟩
    · exact fun other member => ⟨⟨"a", "sync", 1000⟩, rfl, by revert other; decide⟩
    · exact fun other member => ⟨⟨"b", "clean", 2000⟩, rfl, by revert other; decide⟩
    · exact fun other member => ⟨⟨"c", "sync", 3000⟩, rfl, by revert other; decide⟩
    · exact fun _ member => nomatch member
  · refine ⟨trivial, trivial, trivial, ?_, trivial, ?_, trivial, ?_, ?_, trivial⟩
    · rintro entry ⟨⟩
      rfl
    · rintro entry ⟨⟩
      rfl
    · rintro entry ⟨⟩
      rfl
    · rintro entry ⟨⟩

/--
A failed task is claimed again from the PostgreSQL queue only, a claim that
lists no kind is refused by the Valkey queue only, and of two kinds the Valkey
queue alone takes the one listed first.
-/
theorem queues_differ :
    let failed : List Operation :=
      [.enqueue 1 "" (sampleTask "a" "sync"), .claim 2 2 ["sync"],
        .fail 3 "a" "broken", .claim 20000000000 20000000000 ["sync"]]
    let unlisted : List Operation :=
      [.enqueue 1 "" (sampleTask "a" "sync"), .claim 2 2 []]
    let listed : List Operation :=
      [.enqueue 1 "" (sampleTask "a" "sync"),
        .enqueue 2 "" (sampleTask "b" "clean"), .claim 3 3 ["clean", "sync"]]
    (Answers.answers inMemoryQueue.act [] failed =
        [none, some (.ok "a"), none, some (.error .noTasks)] ∧
      Answers.answers (pgQueue Store.codePointOrder).act KeyedTable.empty failed =
        [none, some (.ok "a"), none, some (.ok "a")]) ∧
    (Answers.answers inMemoryQueue.act [] unlisted = [none, some (.ok "a")] ∧
      Answers.answers valkeyQueue.act ValkeyQueue.empty unlisted =
        [none, some (.error .noTasks)]) ∧
    (Answers.answers inMemoryQueue.act [] listed =
        [none, none, some (.ok "a")] ∧
      Answers.answers valkeyQueue.act ValkeyQueue.empty listed =
        [none, none, some (.ok "b")]) := by
  refine ⟨⟨?_, ?_⟩, ⟨?_, ?_⟩, ?_, ?_⟩
  · rfl
  · rfl
  · rfl
  · rfl
  · rfl
  · rfl

end Infractl.Work
