import Infractl.Work.Interface

/-!
# The Valkey queue

There is one stream per kind of task.  A stream numbers the messages added to
it, and a consumer group remembers the number of the message delivered last:
reading on behalf of the group delivers the next message with a larger number.

A claim reads the streams of the kinds it lists in the order of the list, and
none when the list is empty.  `Complete` and `Fail` remove the message that the
task was delivered with.

`valkeyQueue_represents` says that the queue follows the reference as long as,
at each claim, the waiting tasks of the listed kinds are of one kind, and no
task waits when no kind is listed.
-/

namespace Infractl.Work

open Infractl.Store (Time storedTime)

/-! ## Streams -/

/-- A message, with the task its `data` field decodes to, if it does. -/
structure Message where
  id : Nat
  task : Option Task

/--
A stream with its consumer group: the messages, the number given out last and
the number delivered last.
-/
structure Stream where
  messages : List Message
  lastID : Nat
  lastDelivered : Nat

namespace Stream

/-- A stream as `XGROUP CREATE ... 0 MKSTREAM` makes it. -/
def create : Stream := ⟨[], 0, 0⟩

/-- `XADD` with a generated number. -/
def add (stream : Stream) (task : Task) : Stream :=
  { stream with
    messages := stream.messages ++ [⟨stream.lastID + 1, some task⟩]
    lastID := stream.lastID + 1 }

/-- The messages not yet delivered to the group. -/
def undelivered (stream : Stream) : List Message :=
  stream.messages.filter fun message => stream.lastDelivered < message.id

/-- `XREADGROUP ... COUNT 1 ... >`. -/
def readNext (stream : Stream) : Option (Message × Stream) :=
  stream.undelivered.head?.map fun message =>
    (message, { stream with lastDelivered := message.id })

/-- `XACK` and `XDEL` of a message. -/
def ackAndDel (stream : Stream) (id : Nat) : Stream :=
  { stream with
    messages := stream.messages.filter fun message => message.id ≠ id }

end Stream

/-! ## The queue -/

/-- Where a claimed task was delivered from. -/
structure ClaimedTask where
  stream : String
  msgID : Nat

/-- The streams of the server, and the tasks this client has claimed. -/
@[ext]
structure ValkeyQueue where
  streams : String → Option Stream
  claimed : String → Option ClaimedTask

/-- The stream of a kind. -/
def streamOf (kind : String) : String :=
  "infractl:tasks:" ++ kind

namespace ValkeyQueue

def empty : ValkeyQueue := ⟨fun _ => none, fun _ => none⟩

/-- The stream under a name, once its consumer group was ensured. -/
def ensureGroup (queue : ValkeyQueue) (name : String) : Stream :=
  (queue.streams name).getD Stream.create

def setStream (queue : ValkeyQueue) (name : String) (stream : Stream) :
    ValkeyQueue :=
  { queue with streams := Function.update queue.streams name (some stream) }

/-- `Enqueue`. -/
def enqueue (queue : ValkeyQueue) (now : Time) (generated : String)
    (task : Task) : ValkeyQueue :=
  queue.setStream (streamOf task.kind)
    ((queue.ensureGroup (streamOf task.kind)).add
      { task with
        id := if task.id = "" then generated else task.id
        status := .pending
        createdAt := now })

/-- Acknowledge and delete a message. -/
def ackAndDel (queue : ValkeyQueue) (name : String) (id : Nat) : ValkeyQueue :=
  { queue with
    streams := Function.update queue.streams name
      ((queue.streams name).map fun stream => stream.ackAndDel id) }

/-- Remember where a task was delivered from. -/
def remember (queue : ValkeyQueue) (id : String) (claimed : ClaimedTask) :
    ValkeyQueue :=
  { queue with claimed := Function.update queue.claimed id (some claimed) }

/-- `Claim`; the test for an empty list answers like the end of the loop. -/
def claim (queue : ValkeyQueue) : List String → ValkeyQueue × Except CallError Task
  | [] => (queue, .error .noTasks)
  | kind :: kinds =>
      let name := streamOf kind
      match (queue.ensureGroup name).readNext with
      | none => claim (queue.setStream name (queue.ensureGroup name)) kinds
      | some (message, stream) =>
          match message.task with
          | none =>
              claim ((queue.setStream name stream).ackAndDel name message.id) kinds
          | some task =>
              ((queue.setStream name stream).remember task.id ⟨name, message.id⟩,
                .ok { task with status := .running })

/-- `Complete`, which `Fail` calls as well. -/
def complete (queue : ValkeyQueue) (id : String) :
    ValkeyQueue × Option CallError :=
  match queue.claimed id with
  | none => (queue, some (.notClaimed id))
  | some claimed =>
      ({ queue.ackAndDel claimed.stream claimed.msgID with
          claimed := Function.update queue.claimed id none }, none)

end ValkeyQueue

/-- The Valkey implementation of the interface. -/
def valkeyQueue : Queue ValkeyQueue where
  enqueue queue now generated task := (queue.enqueue now generated task, none)
  claim queue _ _ kinds := queue.claim kinds
  complete queue _ id := queue.complete id
  fail queue _ id _ := queue.complete id

/-! ## The queue follows the reference -/

/-- The entry of a task. -/
def Task.entry (task : Task) : Entry :=
  ⟨task.id, task.kind, storedTime task.createdAt⟩

namespace Stream

/-- Numbers grow along a stream, up to the number given out last. -/
structure Numbered (stream : Stream) : Prop where
  increasing : stream.messages.Pairwise fun earlier later => earlier.id < later.id
  bounded : ∀ message ∈ stream.messages, message.id ≤ stream.lastID
  delivered : stream.lastDelivered ≤ stream.lastID

/-- The entries of the undelivered messages. -/
def entries (stream : Stream) : List (Option Entry) :=
  stream.undelivered.map fun message => message.task.map Task.entry

theorem create_numbered : create.Numbered :=
  ⟨.nil, fun _ member => (nomatch member), Nat.le_refl 0⟩

theorem Numbered.add {stream : Stream} (numbered : stream.Numbered)
    (task : Task) :
    (stream.add task).Numbered where
  increasing := by
    rw [Stream.add, List.pairwise_append]
    refine ⟨numbered.increasing, List.pairwise_singleton _ _, ?_⟩
    intro message member new newMember
    rw [List.mem_singleton.mp newMember]
    exact Nat.lt_succ_of_le (numbered.bounded message member)
  bounded := by
    intro message member
    rcases List.mem_append.mp member with earlier | new
    · exact Nat.le_succ_of_le (numbered.bounded message earlier)
    · rw [List.mem_singleton.mp new]
      exact Nat.le_refl _
  delivered := Nat.le_succ_of_le numbered.delivered

@[simp]
theorem entries_add {stream : Stream} (numbered : stream.Numbered)
    (task : Task) :
    (stream.add task).entries = stream.entries ++ [some task.entry] := by
  have new : stream.lastDelivered < stream.lastID + 1 :=
    Nat.lt_succ_of_le numbered.delivered
  have undeliveredEq : (stream.add task).undelivered =
      stream.undelivered ++ [⟨stream.lastID + 1, some task⟩] := by
    have kept : ([⟨stream.lastID + 1, some task⟩] : List Message).filter
        (fun message => stream.lastDelivered < message.id) =
          [⟨stream.lastID + 1, some task⟩] :=
      List.filter_cons_of_pos (by simpa using new)
    change (stream.messages ++ _).filter _ = _
    rw [List.filter_append]
    exact congrArg (stream.undelivered ++ ·) kept
  rw [entries, undeliveredEq, List.map_append]
  rfl

theorem Numbered.ackAndDel {stream : Stream} (numbered : stream.Numbered)
    (id : Nat) :
    (stream.ackAndDel id).Numbered :=
  ⟨numbered.increasing.filter _,
    fun message member => numbered.bounded message (List.mem_filter.mp member).1,
    numbered.delivered⟩

/-- Deleting a message that was delivered leaves the others undelivered. -/
theorem entries_ackAndDel {stream : Stream} {id : Nat}
    (delivered : id ≤ stream.lastDelivered) :
    (stream.ackAndDel id).entries = stream.entries := by
  unfold entries undelivered ackAndDel
  rw [List.filter_filter]
  congr 1
  apply List.filter_congr
  intro message _
  by_cases later : stream.lastDelivered < message.id
  · have different : message.id ≠ id := by omega
    simp [later, different]
  · simp [later]

theorem readNext_eq_none {stream : Stream} (nothing : stream.readNext = none) :
    stream.entries = [] := by
  rw [readNext, Option.map_eq_none_iff, List.head?_eq_none_iff] at nothing
  rw [entries, nothing, List.map_nil]

/-- What is numbered after the first of the later items is the rest of them. -/
theorem filter_after_first {Item : Type} {number : Item → Nat} {items rest : List Item}
    {last : Nat} {first : Item}
    (increasing : items.Pairwise fun earlier later => number earlier < number later)
    (split : (items.filter fun item => last < number item) = first :: rest) :
    (items.filter fun item => number first < number item) = rest := by
  have isLater : first ∈ items.filter fun item => last < number item := by
    rw [split]
    exact List.mem_cons_self
  have later : last < number first := by simpa using (List.mem_filter.mp isLater).2
  have sorted : (first :: rest).Pairwise
      fun earlier later => number earlier < number later := by
    rw [← split]
    exact increasing.filter _
  have twice : (items.filter fun item => number first < number item) =
      (first :: rest).filter fun item => number first < number item := by
    rw [← split, List.filter_filter]
    apply List.filter_congr
    intro item _
    by_cases after : number first < number item
    · have alsoAfter : last < number item := by omega
      simp [after, alsoAfter]
    · simp [after]
  rw [twice, List.filter_cons_of_neg (by simp), List.filter_eq_self]
  intro item member
  simpa using List.rel_of_pairwise_cons sorted member

/-- Reading delivers the first of the undelivered messages. -/
theorem readNext_eq_some {stream next : Stream} {message : Message}
    (numbered : stream.Numbered)
    (read : stream.readNext = some (message, next)) :
    next.Numbered ∧ next.lastDelivered = message.id ∧
      stream.lastDelivered ≤ next.lastDelivered ∧
      stream.entries = message.task.map Task.entry :: next.entries := by
  rcases Option.map_eq_some_iff.mp read with ⟨first, isFirst, equal⟩
  cases equal
  rcases List.head?_eq_some_iff.mp isFirst with ⟨rest, split⟩
  have member : message ∈ stream.undelivered := by
    rw [split]
    exact List.mem_cons_self ..
  have member := List.mem_filter.mp member
  have later : stream.lastDelivered < message.id := by simpa using member.2
  have remaining :
      (stream.messages.filter fun other => message.id < other.id) = rest :=
    filter_after_first numbered.increasing split
  refine ⟨⟨numbered.increasing, numbered.bounded, ?_⟩, rfl, Nat.le_of_lt later,
    ?_⟩
  · exact numbered.bounded message member.1
  · rw [entries, split, List.map_cons, entries, undelivered, remaining]

end Stream

@[simp]
theorem streamOf_inj {kind other : String} :
    streamOf kind = streamOf other ↔ kind = other :=
  String.append_right_inj _

/-- The waiting tasks of a kind. -/
def Fifo.ofKind (fifo : Fifo) (kind : String) : List Entry :=
  fifo.waiting.filter fun entry => entry.kind = kind

/-- The first kind of a list that has a task waiting. -/
def Fifo.firstKind (fifo : Fifo) (kinds : List String) : Option String :=
  kinds.find? fun kind => !(fifo.ofKind kind).isEmpty

theorem Fifo.ofKind_take_self {fifo : Fifo} {entry : Entry}
    {rest : List Entry}
    (first : fifo.ofKind entry.kind = entry :: rest) :
    (fifo.take entry).ofKind entry.kind = rest := by
  rw [Fifo.ofKind, Fifo.take, ← List.erase_filter]
  rw [Fifo.ofKind] at first
  rw [first, List.erase_cons_head]

theorem Fifo.ofKind_take_other (fifo : Fifo) {entry : Entry} {kind : String}
    (different : kind ≠ entry.kind) :
    (fifo.take entry).ofKind kind = fifo.ofKind kind := by
  rw [Fifo.ofKind, Fifo.take, ← List.erase_filter, List.erase_of_not_mem,
    Fifo.ofKind]
  intro member
  have sameKind : entry.kind = kind := by
    simpa using (List.mem_filter.mp member).2
  exact different sameKind.symm

section Named

variable {Stored : Type} (streams : String → Option Stored) (name other : String)
variable (created : Stored)

theorem getD_update (stored : Stored) :
    (Function.update streams name (some stored) other).getD created =
      if other = name then stored else (streams other).getD created := by
  rw [Function.update_apply]
  split <;> rfl

/-- A change that a new stream does not notice may pass over a missing one. -/
theorem getD_update_map {change : Stored → Stored}
    (unnoticed : change created = created) :
    (Function.update streams name ((streams name).map change) other).getD created =
      if other = name then change ((streams other).getD created)
      else (streams other).getD created := by
  rw [Function.update_apply]
  split
  · next same =>
      subst same
      cases streams other with
      | none => exact unnoticed.symm
      | some stored => rfl
  · rfl

end Named

namespace ValkeyQueue

@[simp]
theorem ensureGroup_setStream (queue : ValkeyQueue) (name other : String)
    (stream : Stream) :
    (queue.setStream name stream).ensureGroup other =
      if other = name then stream else queue.ensureGroup other :=
  getD_update queue.streams name other Stream.create stream

@[simp]
theorem ensureGroup_ackAndDel (queue : ValkeyQueue) (name other : String)
    (id : Nat) :
    (queue.ackAndDel name id).ensureGroup other =
      if other = name then (queue.ensureGroup other).ackAndDel id
      else queue.ensureGroup other :=
  getD_update_map queue.streams name other Stream.create rfl

/-- The streams stand for the queue of entries. -/
structure Represents (queue : ValkeyQueue) (fifo : Fifo) : Prop where
  numbered : ∀ name, (queue.ensureGroup name).Numbered
  entries : ∀ kind,
    (queue.ensureGroup (streamOf kind)).entries = (fifo.ofKind kind).map some
  delivered : ∀ id claimed, queue.claimed id = some claimed →
    claimed.msgID ≤ (queue.ensureGroup claimed.stream).lastDelivered

theorem empty_represents : empty.Represents Fifo.empty where
  numbered _ := Stream.create_numbered
  entries _ := rfl
  delivered _ _ found := nomatch found

section Step

variable {queue : ValkeyQueue} {fifo : Fifo}

/-- Replace the stream of a kind, and the waiting tasks of that kind. -/
theorem Represents.setStream (represents : queue.Represents fifo)
    {kind : String} {stream : Stream} {after : Fifo}
    (numbered : stream.Numbered)
    (delivered :
      (queue.ensureGroup (streamOf kind)).lastDelivered ≤ stream.lastDelivered)
    (entries : stream.entries = (after.ofKind kind).map some)
    (others : ∀ other, other ≠ kind → after.ofKind other = fifo.ofKind other) :
    (queue.setStream (streamOf kind) stream).Represents after where
  numbered := by
    intro name
    rw [ensureGroup_setStream]
    split
    · exact numbered
    · exact represents.numbered name
  entries := by
    intro other
    rw [ensureGroup_setStream]
    split
    · next same =>
        rw [streamOf_inj.mp same]
        exact entries
    · next different =>
        rw [others other fun same => different (congrArg streamOf same)]
        exact represents.entries other
  delivered := by
    intro id claimed found
    have before := represents.delivered id claimed found
    rw [ensureGroup_setStream]
    split
    · next same =>
        rw [same] at before
        exact Nat.le_trans before delivered
    · exact before

theorem Represents.remember (represents : queue.Represents fifo)
    {id : String} {claimed : ClaimedTask}
    (delivered :
      claimed.msgID ≤ (queue.ensureGroup claimed.stream).lastDelivered) :
    (queue.remember id claimed).Represents fifo where
  numbered := represents.numbered
  entries := represents.entries
  delivered := by
    intro other found isFound
    change Function.update queue.claimed id (some claimed) other = _ at isFound
    rw [Function.update_apply] at isFound
    split at isFound
    · cases isFound
      exact delivered
    · exact represents.delivered other found isFound

/--
A claim takes the first waiting task of the first listed kind that has any.
-/
theorem claim_spec (represents : queue.Represents fifo) (kinds : List String) :
    (fifo.firstKind kinds = none ∧
        (queue.claim kinds).2 = .error .noTasks ∧
        (queue.claim kinds).1.Represents fifo) ∨
      ∃ entry rest, fifo.firstKind kinds = some entry.kind ∧
        fifo.ofKind entry.kind = entry :: rest ∧
        (queue.claim kinds).2.map Task.id = .ok entry.id ∧
        (queue.claim kinds).1.Represents (fifo.take entry) := by
  induction kinds generalizing queue with
  | nil => exact Or.inl ⟨rfl, rfl, represents⟩
  | cons kind kinds ih =>
      have entries := represents.entries kind
      rw [claim]
      cases read : (queue.ensureGroup (streamOf kind)).readNext with
      | none =>
          rw [Stream.readNext_eq_none read] at entries
          have none : fifo.ofKind kind = [] := List.map_eq_nil_iff.mp entries.symm
          have unchanged := represents.setStream (represents.numbered _)
            (Nat.le_refl _) (represents.entries kind) fun _ _ => rfl
          have skipped : fifo.firstKind (kind :: kinds) = fifo.firstKind kinds :=
            List.find?_cons_of_neg (by simp [none])
          rw [skipped]
          exact ih unchanged
      | some result =>
          rcases result with ⟨message, stream⟩
          rcases Stream.readNext_eq_some (represents.numbered _) read with
            ⟨numbered, delivered, later, split⟩
          rw [split] at entries
          cases waiting : fifo.ofKind kind with
          | nil =>
              rw [waiting] at entries
              cases entries
          | cons entry rest =>
              rw [waiting, List.map_cons, List.cons.injEq] at entries
              rcases Option.map_eq_some_iff.mp entries.1 with
                ⟨task, decodes, rfl⟩
              have sameKind : task.entry.kind = kind := by
                have member : task.entry ∈ fifo.ofKind kind := by
                  rw [waiting]
                  exact List.mem_cons_self ..
                simpa using (List.mem_filter.mp member).2
              subst sameKind
              have firstKind : fifo.firstKind (task.entry.kind :: kinds) =
                  some task.entry.kind :=
                List.find?_cons_of_pos (by simp [waiting])
              refine Or.inr ⟨task.entry, rest, firstKind, waiting, ?_, ?_⟩
              · simp only [decodes]
                rfl
              · simp only [decodes]
                apply Represents.remember
                · apply represents.setStream numbered later
                  · rw [Fifo.ofKind_take_self waiting, entries.2]
                  · intro other different
                    exact fifo.ofKind_take_other different
                · rw [ensureGroup_setStream, if_pos rfl, delivered]

theorem Represents.complete (represents : queue.Represents fifo) (id : String) :
    (queue.complete id).1.Represents fifo := by
  unfold ValkeyQueue.complete
  split
  · exact represents
  · next claimed found =>
      have delivered := represents.delivered id claimed found
      constructor
      · intro name
        change ((queue.ackAndDel _ _).ensureGroup name).Numbered
        rw [ensureGroup_ackAndDel]
        split
        · exact (represents.numbered name).ackAndDel _
        · exact represents.numbered name
      · intro kind
        change ((queue.ackAndDel _ _).ensureGroup (streamOf kind)).entries = _
        rw [ensureGroup_ackAndDel]
        split
        · next same =>
            rw [Stream.entries_ackAndDel (by rwa [same])]
            exact represents.entries kind
        · exact represents.entries kind
      · intro other otherClaimed isFound
        change Function.update queue.claimed id none other = _ at isFound
        change _ ≤ ((queue.ackAndDel _ _).ensureGroup _).lastDelivered
        rw [Function.update_apply] at isFound
        rw [ensureGroup_ackAndDel]
        split at isFound
        · cases isFound
        · have before := represents.delivered other otherClaimed isFound
          split
          · exact before
          · exact before

end Step

end ValkeyQueue

/--
The first task waiting, of the kinds a claim asks for, is of the first kind in
its list that has one.
-/
def OldestOfFirstKind (fifo : Fifo) (_ : Time) (kinds : List String) : Prop :=
  ∀ entry, fifo.first kinds = some entry → fifo.firstKind kinds = some entry.kind

section FirstKind

variable {fifo : Fifo} {kinds : List String} {entry : Entry}

theorem Fifo.mem_ofKind : entry ∈ fifo.ofKind entry.kind ↔ entry ∈ fifo.waiting := by
  simp [Fifo.ofKind]

/-- Of its own kind, the first task a claim asks for is the first one. -/
theorem Fifo.ofKind_of_first (found : fifo.first kinds = some entry) :
    (fifo.ofKind entry.kind).head? = some entry := by
  rcases List.find?_eq_some_iff_append.mp found with ⟨asked, front, back, split, unasked⟩
  have others : (front.filter fun other => other.kind = entry.kind) = [] := by
    rw [List.filter_eq_nil_iff]
    intro other member same
    have notAsked := unasked other member
    rw [of_decide_eq_true same, asked] at notAsked
    cases notAsked
  rw [Fifo.ofKind, split, List.filter_append, others, List.nil_append,
    List.filter_cons_of_pos (by simp), List.head?_cons]

/-- The first task of the first kind is the one the reference takes. -/
theorem Fifo.first_of_firstKind (waits : entry ∈ fifo.waiting)
    (firstKind : fifo.firstKind kinds = some entry.kind)
    (isHead : (fifo.ofKind entry.kind).head? = some entry)
    (oldest : ∀ other, fifo.first kinds = some other →
      fifo.firstKind kinds = some other.kind) :
    fifo.first kinds = some entry := by
  have listed := List.mem_of_find?_eq_some firstKind
  have asks : asksFor kinds entry.kind = true := (asksFor_iff _ _).mpr (Or.inr listed)
  cases found : fifo.first kinds with
  | none =>
      rw [Fifo.first_eq_none found entry waits] at asks
      cases asks
  | some other =>
      have sameKind := Option.some.inj ((oldest other found).symm.trans firstKind)
      have isFirst := Fifo.ofKind_of_first found
      rw [sameKind] at isFirst
      exact isFirst.symm.trans isHead

end FirstKind

/--
The Valkey queue follows the reference exactly as long as each claim lists the
kind of the first task waiting before the others that have one.
-/
theorem valkeyQueue_represents :
    valkeyQueue.Represents OldestOfFirstKind ValkeyQueue.Represents where
  enqueue := by
    intro queue fifo now generated task _ represents admits
    apply represents.setStream
    · exact (represents.numbered _).add _
    · exact Nat.le_refl _
    · rw [Stream.entries_add (represents.numbered _), represents.entries]
      simp [Fifo.ofKind, Fifo.enqueue, Task.entry, Entry.enqueued, admits.1]
    · intro other different
      simp [Fifo.ofKind, Fifo.enqueue, Entry.enqueued, different.symm]
  claim := by
    intro queue fifo now savedAt kinds valid represents
    rcases ValkeyQueue.claim_spec represents kinds with
      ⟨none, refused, after⟩ | ⟨entry, rest, firstKind, ofKind, answer, after⟩
    · have missing : OldestOfFirstKind fifo now kinds ↔ fifo.first kinds = .none := by
        rw [OldestOfFirstKind, none, Option.eq_none_iff_forall_not_mem]
        simp
      rw [missing]
      refine ⟨?_, fun isMissing => ?_⟩
      · rw [← Fifo.answer_eq_error_iff]
        exact Eq.congr_left (congrArg (Except.map Task.id) refused)
      · rw [Fifo.claim, isMissing]
        exact after
    · have waits : entry ∈ fifo.waiting := by
        rw [← Fifo.mem_ofKind, ofKind]
        exact List.mem_cons_self
      have taken : OldestOfFirstKind fifo now kinds ↔ fifo.first kinds = some entry := by
        constructor
        · intro oldest
          exact Fifo.first_of_firstKind waits firstKind (ofKind ▸ rfl) oldest
        · rintro isFirst other found
          cases isFirst.symm.trans found
          exact firstKind
      rw [taken]
      refine ⟨?_, fun isFirst => ?_⟩
      · rw [← Fifo.answer_eq_ok_iff valid (valid.waits.subset waits)]
        exact Eq.congr_left answer
      · rw [Fifo.claim, isFirst]
        exact after
  complete := by
    intro queue fifo now entry _ represents _
    have completed := represents.complete entry.id
    exact ⟨completed.numbered, completed.entries, completed.delivered⟩
  fail := by
    intro queue fifo now entry reason _ represents _
    have completed := represents.complete entry.id
    exact ⟨completed.numbered, completed.entries, completed.delivered⟩

end Infractl.Work
