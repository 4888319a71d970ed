import Infractl.Work.TaskCodec
import Infractl.Work.ValkeyQueue

/-!
# Streams and pending entries

A stream entry has a `data` field or not, and a task is decoded from it or not.
A server keeps for a consumer the entries that were delivered to it until they
are acknowledged; the queue keeps in `claimed` where each task was delivered
from, by the identifier of the task.

`toQueue` forgets the pending entries and decodes the data, and each call of
the queue is the call of `Work.ValkeyQueue` there.  Two things are looked at
here that are not seen in that model: which claims find a task among entries
that decode and entries that do not, and, in `Work.ValkeyPending`, whether the
tasks claimed are the entries pending.
-/

namespace Infractl.Work

open Infractl.Lib
open Infractl.Store (Time)

/-! ## Streams -/

/-- An entry of a stream, with its `data` field if it has one. -/
structure StreamEntry where
  id : Nat
  data : Option String

/-- The task an entry holds, if its data is that of a task. -/
def StreamEntry.task (codec : TaskCodec) (entry : StreamEntry) : Option Task :=
  entry.data.bind codec.unmarshal

/--
A stream with its consumer group: the number given out last, the number
delivered last, and the entries that are pending for this consumer.
-/
structure ServerStream where
  entries : List StreamEntry
  lastID : Nat
  lastDelivered : Nat
  pending : List Nat
  increasing : entries.Pairwise fun earlier later => earlier.id < later.id
  bounded : ∀ entry ∈ entries, entry.id ≤ lastID
  delivered : lastDelivered ≤ lastID
  received : ∀ id ∈ pending, id ≤ lastDelivered

namespace ServerStream

/-- A stream as `XGROUP CREATE ... 0 MKSTREAM` makes it. -/
def create : ServerStream where
  entries := []
  lastID := 0
  lastDelivered := 0
  pending := []
  increasing := .nil
  bounded := List.forall_mem_nil _
  delivered := Nat.le_refl 0
  received := List.forall_mem_nil _

/-- The entry that is added next. -/
def nextEntry (stream : ServerStream) (data : Option String) : StreamEntry :=
  ⟨stream.lastID + 1, data⟩

theorem increasing_concat (stream : ServerStream) (data : Option String) :
    (stream.entries ++ [stream.nextEntry data]).Pairwise
      fun earlier later => earlier.id < later.id := by
  rw [List.pairwise_append]
  refine ⟨stream.increasing, List.pairwise_singleton _ _, ?_⟩
  intro entry member new newMember
  rw [List.mem_singleton.mp newMember]
  exact Nat.lt_succ_of_le (stream.bounded entry member)

theorem bounded_concat (stream : ServerStream) (data : Option String) :
    ∀ entry ∈ stream.entries ++ [stream.nextEntry data],
      entry.id ≤ stream.lastID + 1 := by
  intro entry member
  rcases List.mem_append.mp member with earlier | new
  · exact Nat.le_succ_of_le (stream.bounded entry earlier)
  · rw [List.mem_singleton.mp new]
    exact Nat.le_refl _

/-- `XADD` with a generated number. -/
def add (stream : ServerStream) (data : Option String) : ServerStream where
  entries := stream.entries ++ [stream.nextEntry data]
  lastID := stream.lastID + 1
  lastDelivered := stream.lastDelivered
  pending := stream.pending
  increasing := stream.increasing_concat data
  bounded := stream.bounded_concat data
  delivered := Nat.le_succ_of_le stream.delivered
  received := stream.received

/-- The entries not yet delivered to the group. -/
def undelivered (stream : ServerStream) : List StreamEntry :=
  stream.entries.filter fun entry => stream.lastDelivered < entry.id

@[simp]
theorem mem_undelivered {stream : ServerStream} {entry : StreamEntry} :
    entry ∈ stream.undelivered ↔
      entry ∈ stream.entries ∧ stream.lastDelivered < entry.id := by
  rw [undelivered, List.mem_filter, decide_eq_true_iff]

theorem received_concat {stream : ServerStream} {entry : StreamEntry}
    (waits : entry ∈ stream.undelivered) :
    ∀ id ∈ stream.pending ++ [entry.id], id ≤ entry.id := by
  intro id member
  rcases List.mem_append.mp member with earlier | new
  · exact Nat.le_of_lt
      (Nat.lt_of_le_of_lt (stream.received id earlier) (mem_undelivered.mp waits).2)
  · exact Nat.le_of_eq (List.mem_singleton.mp new)

/-- Deliver an entry to the consumer. -/
def deliver (stream : ServerStream) (entry : StreamEntry)
    (waits : entry ∈ stream.undelivered) : ServerStream where
  entries := stream.entries
  lastID := stream.lastID
  lastDelivered := entry.id
  pending := stream.pending ++ [entry.id]
  increasing := stream.increasing
  bounded := stream.bounded
  delivered := stream.bounded entry (mem_undelivered.mp waits).1
  received := received_concat waits

/-- `XREADGROUP ... COUNT 1 ... >`. -/
def readNext (stream : ServerStream) : Option (StreamEntry × ServerStream) :=
  match first : stream.undelivered.head? with
  | none => none
  | some entry =>
      some (entry, stream.deliver entry (List.mem_of_mem_head? first))

/-- `XACK` and `XDEL` of an entry. -/
def ackAndDel (stream : ServerStream) (id : Nat) : ServerStream where
  entries := stream.entries.filter fun entry => entry.id ≠ id
  lastID := stream.lastID
  lastDelivered := stream.lastDelivered
  pending := stream.pending.filter fun pending => pending ≠ id
  increasing := stream.increasing.filter _
  bounded := fun entry member => stream.bounded entry (List.mem_filter.mp member).1
  delivered := stream.delivered
  received := fun id member => stream.received id (List.mem_filter.mp member).1

@[simp]
theorem readNext_eq_none_iff {stream : ServerStream} :
    stream.readNext = none ↔ stream.undelivered = [] := by
  rw [← List.head?_eq_none_iff, readNext]
  split
  · next first => simp [first]
  · next entry first => simp [first]

theorem readNext_eq_some {stream next : ServerStream} {entry : StreamEntry}
    (read : stream.readNext = some (entry, next)) :
    ∃ waits : entry ∈ stream.undelivered,
      stream.undelivered.head? = some entry ∧ next = stream.deliver entry waits := by
  rw [readNext] at read
  split at read
  · cases read
  · next first =>
      cases read
      exact ⟨List.mem_of_mem_head? first, first, rfl⟩

/-- An entry that is read and discarded leaves the entries after it. -/
theorem undelivered_discard {stream : ServerStream} {entry : StreamEntry}
    {rest : List StreamEntry} (waits : entry ∈ stream.undelivered)
    (split : stream.undelivered = entry :: rest) :
    ((stream.deliver entry waits).ackAndDel entry.id).undelivered = rest := by
  rw [← Stream.filter_after_first stream.increasing split, undelivered, ackAndDel,
    deliver, List.filter_filter]
  apply List.filter_congr
  intro other _
  by_cases after : entry.id < other.id
  · simp [after, Nat.ne_of_gt after]
  · simp [after]

/-- The stream of `Work.ValkeyQueue`, with the data decoded. -/
def toStream (codec : TaskCodec) (stream : ServerStream) : Stream where
  messages := stream.entries.map fun entry => ⟨entry.id, entry.task codec⟩
  lastID := stream.lastID
  lastDelivered := stream.lastDelivered

variable (codec : TaskCodec) (stream : ServerStream)

theorem toStream_numbered : (stream.toStream codec).Numbered where
  increasing := List.pairwise_map.mpr stream.increasing
  bounded := by
    intro message member
    rcases List.mem_map.mp member with ⟨entry, stored, rfl⟩
    exact stream.bounded entry stored
  delivered := stream.delivered

@[simp]
theorem toStream_undelivered :
    (stream.toStream codec).undelivered =
      stream.undelivered.map fun entry => ⟨entry.id, entry.task codec⟩ :=
  List.filter_map ..

theorem toStream_entries :
    (stream.toStream codec).entries =
      stream.undelivered.map fun entry => (entry.task codec).map Task.entry := by
  rw [Stream.entries, toStream_undelivered, List.map_map]
  rfl

@[simp]
theorem toStream_add (task : Task) :
    (stream.add (some (codec.marshal task))).toStream codec =
      (stream.toStream codec).add task := by
  have decoded :
      (stream.nextEntry (some (codec.marshal task))).task codec = some task :=
    codec.unmarshal_marshal task
  simp only [toStream, add, Stream.add, List.map_append, List.map_cons, List.map_nil,
    decoded]
  rfl

@[simp]
theorem toStream_ackAndDel (id : Nat) :
    (stream.ackAndDel id).toStream codec = (stream.toStream codec).ackAndDel id := by
  simp only [toStream, ackAndDel, Stream.ackAndDel, List.filter_map]
  rfl

theorem toStream_readNext :
    (stream.toStream codec).readNext =
      stream.readNext.map fun read =>
        (⟨read.1.id, read.1.task codec⟩, read.2.toStream codec) := by
  rw [Stream.readNext, toStream_undelivered, List.head?_map]
  cases read : stream.readNext with
  | none =>
      rw [readNext_eq_none_iff.mp read]
      rfl
  | some result =>
      rcases readNext_eq_some read with ⟨waits, first, next⟩
      rw [first, Option.map_some, Option.map_some, Option.map_some, next]
      rfl

end ServerStream

/-! ## The queue -/

/-- The streams of the server, and the tasks this client has claimed. -/
structure ValkeyState where
  streams : String → Option ServerStream
  claimed : String → Option ClaimedTask

namespace ValkeyState

/-- The stream under a name, once its consumer group was ensured. -/
def ensureGroup (state : ValkeyState) (name : String) : ServerStream :=
  (state.streams name).getD ServerStream.create

def setStream (state : ValkeyState) (name : String) (stream : ServerStream) :
    ValkeyState :=
  { state with streams := Function.update state.streams name (some stream) }

/-- `Enqueue`. -/
def enqueue (codec : TaskCodec) (state : ValkeyState) (now : Time)
    (generated : String) (task : Task) : ValkeyState :=
  let data := codec.marshal
    { task with
      id := if task.id = "" then generated else task.id
      status := .pending
      createdAt := now }
  state.setStream (streamOf task.kind)
    ((state.ensureGroup (streamOf task.kind)).add (some data))

/-- Acknowledge and delete an entry. -/
def ackAndDel (state : ValkeyState) (name : String) (id : Nat) : ValkeyState :=
  { state with
    streams := Function.update state.streams name
      ((state.streams name).map fun stream => stream.ackAndDel id) }

/-- Remember where a task was delivered from. -/
def remember (state : ValkeyState) (id : String) (claimed : ClaimedTask) :
    ValkeyState :=
  { state with claimed := Function.update state.claimed id (some claimed) }

/-- `Claim`; the test for an empty list answers like the end of the loop. -/
def claim (codec : TaskCodec) (state : ValkeyState) :
    List String → ValkeyState × Except CallError Task
  | [] => (state, .error .noTasks)
  | kind :: kinds =>
      let name := streamOf kind
      match (state.ensureGroup name).readNext with
      | none => claim codec (state.setStream name (state.ensureGroup name)) kinds
      | some (entry, stream) =>
          match entry.task codec with
          | none =>
              claim codec ((state.setStream name stream).ackAndDel name entry.id) kinds
          | some task =>
              ((state.setStream name stream).remember task.id ⟨name, entry.id⟩,
                .ok { task with status := .running })

/-- `Complete`, which `Fail` calls as well. -/
def complete (state : ValkeyState) (id : String) :
    ValkeyState × Option CallError :=
  match state.claimed id with
  | none => (state, some (.notClaimed id))
  | some claimed =>
      ({ state.ackAndDel claimed.stream claimed.msgID with
          claimed := Function.update state.claimed id none }, none)

/-- One call of the queue. -/
def step (codec : TaskCodec) (state : ValkeyState) : Operation → Option ValkeyState
  | .enqueue now generated task => some (state.enqueue codec now generated task)
  | .claim _ _ kinds => some (state.claim codec kinds).1
  | .complete _ id => some (state.complete id).1
  | .fail _ id _ => some (state.complete id).1

@[simp]
theorem ensureGroup_setStream (state : ValkeyState) (name other : String)
    (stream : ServerStream) :
    (state.setStream name stream).ensureGroup other =
      if other = name then stream else state.ensureGroup other :=
  getD_update state.streams name other ServerStream.create stream

@[simp]
theorem ensureGroup_ackAndDel (state : ValkeyState) (name other : String)
    (id : Nat) :
    (state.ackAndDel name id).ensureGroup other =
      if other = name then (state.ensureGroup other).ackAndDel id
      else state.ensureGroup other :=
  getD_update_map state.streams name other ServerStream.create rfl

/-! ## What a claim reads -/

/--
The entries a claim comes to, in its order, when these are waiting: for each
kind it lists the next entry of that kind.
-/
def readingOrder (waiting : String → List StreamEntry) :
    List String → List StreamEntry
  | [] => []
  | kind :: kinds =>
      (waiting kind).head?.toList ++
        readingOrder (Function.update waiting kind (waiting kind).tail) kinds

/-- The entries waiting for the group, kind by kind. -/
def waiting (state : ValkeyState) (kind : String) : List StreamEntry :=
  (state.ensureGroup (streamOf kind)).undelivered

@[simp]
theorem waiting_setStream_self (state : ValkeyState) (name : String) :
    (state.setStream name (state.ensureGroup name)).waiting = state.waiting := by
  funext kind
  rw [waiting, ensureGroup_setStream]
  split
  · next same => rw [waiting, same]
  · rfl

theorem waiting_discard {state : ValkeyState} {kind : String} {entry : StreamEntry}
    {rest : List StreamEntry}
    (waits : entry ∈ (state.ensureGroup (streamOf kind)).undelivered)
    (split : state.waiting kind = entry :: rest) :
    ((state.setStream (streamOf kind)
        ((state.ensureGroup (streamOf kind)).deliver entry waits)).ackAndDel
          (streamOf kind) entry.id).waiting =
      Function.update state.waiting kind rest := by
  funext other
  rw [waiting, ensureGroup_ackAndDel, ensureGroup_setStream, Function.update_apply]
  by_cases same : other = kind
  · rw [same, if_pos rfl, if_pos rfl, if_pos rfl]
    exact ServerStream.undelivered_discard waits split
  · have otherStream : streamOf other ≠ streamOf kind :=
      fun equal => same (streamOf_inj.mp equal)
    rw [if_neg otherStream, if_neg otherStream, if_neg same, waiting]

/-- A claim returns the first task in its reading order. -/
theorem claim_answer (codec : TaskCodec) (state : ValkeyState) (kinds : List String) :
    (state.claim codec kinds).2 =
      match (readingOrder state.waiting kinds).findSome? (StreamEntry.task codec) with
      | none => .error .noTasks
      | some task => .ok { task with status := .running } := by
  induction kinds generalizing state with
  | nil => rfl
  | cons kind kinds ih =>
      rw [claim, readingOrder]
      cases read : (state.ensureGroup (streamOf kind)).readNext with
      | none =>
          have nothing : state.waiting kind = [] :=
            ServerStream.readNext_eq_none_iff.mp read
          have same : Function.update state.waiting kind [] = state.waiting := by
            rw [← nothing, Function.update_eq_self]
          simp only [nothing, List.head?_nil, Option.toList_none, List.nil_append,
            List.tail_nil, same]
          rw [ih, waiting_setStream_self]
      | some result =>
          rcases result with ⟨entry, stream⟩
          rcases ServerStream.readNext_eq_some read with ⟨waits, first, rfl⟩
          rcases List.head?_eq_some_iff.mp first with ⟨rest, split⟩
          have splitWaiting : state.waiting kind = entry :: rest := split
          simp only [splitWaiting, List.head?_cons, Option.toList_some, List.tail_cons,
            List.cons_append, List.nil_append, List.findSome?_cons]
          cases decoded : entry.task codec with
          | none =>
              simp only
              rw [ih, waiting_discard waits splitWaiting]
          | some task => simp only

/-! ## The queue without pending entries -/

/-- The state of `Work.ValkeyQueue`. -/
def toQueue (codec : TaskCodec) (state : ValkeyState) : ValkeyQueue where
  streams name := (state.streams name).map (ServerStream.toStream codec)
  claimed := state.claimed

variable (codec : TaskCodec) (state : ValkeyState)

theorem toQueue_ensureGroup (name : String) :
    (state.toQueue codec).ensureGroup name =
      (state.ensureGroup name).toStream codec := by
  simp only [ValkeyQueue.ensureGroup, ensureGroup, toQueue]
  cases state.streams name <;> rfl

@[simp]
theorem toQueue_setStream (name : String) (stream : ServerStream) :
    (state.setStream name stream).toQueue codec =
      (state.toQueue codec).setStream name (stream.toStream codec) := by
  simp only [toQueue, setStream, ValkeyQueue.setStream, ValkeyQueue.mk.injEq, and_true]
  funext other
  by_cases same : other = name
  · subst same
    simp
  · simp [same]

@[simp]
theorem toQueue_ackAndDel (name : String) (id : Nat) :
    (state.ackAndDel name id).toQueue codec =
      (state.toQueue codec).ackAndDel name id := by
  simp only [toQueue, ackAndDel, ValkeyQueue.ackAndDel, ValkeyQueue.mk.injEq, and_true]
  funext other
  by_cases same : other = name
  · subst same
    cases state.streams other with
    | none => simp
    | some stream => simp
  · simp [same]

@[simp]
theorem toQueue_enqueue (now : Time) (generated : String) (task : Task) :
    (state.enqueue codec now generated task).toQueue codec =
      (state.toQueue codec).enqueue now generated task := by
  rw [enqueue, toQueue_setStream, ServerStream.toStream_add, ← toQueue_ensureGroup]
  rfl

theorem toQueue_claim (kinds : List String) :
    (state.toQueue codec).claim kinds =
      ((state.claim codec kinds).1.toQueue codec, (state.claim codec kinds).2) := by
  induction kinds generalizing state with
  | nil => rfl
  | cons kind kinds ih =>
      rw [ValkeyQueue.claim, claim, toQueue_ensureGroup, ServerStream.toStream_readNext]
      cases (state.ensureGroup (streamOf kind)).readNext with
      | none =>
          simp only [Option.map_none]
          rw [← toQueue_setStream, ih]
      | some read =>
          rcases read with ⟨entry, stream⟩
          simp only [Option.map_some]
          cases entry.task codec with
          | none =>
              simp only
              rw [← toQueue_setStream, ← toQueue_ackAndDel, ih]
          | some task =>
              simp only
              rw [← toQueue_setStream]
              rfl

theorem toQueue_complete (id : String) :
    (state.toQueue codec).complete id =
      ((state.complete id).1.toQueue codec, (state.complete id).2) := by
  have same : (state.toQueue codec).claimed id = state.claimed id := rfl
  rw [ValkeyQueue.complete, complete, same]
  cases state.claimed id with
  | none => rfl
  | some claimed =>
      simp only
      rw [← toQueue_ackAndDel]
      rfl

end ValkeyState

/-- The implementation of the interface, with its pending entries. -/
def valkeyStreams (codec : TaskCodec) : Queue ValkeyState where
  enqueue state now generated task := (state.enqueue codec now generated task, none)
  claim state _ _ kinds := state.claim codec kinds
  complete state _ id := state.complete id
  fail state _ id _ := state.complete id

theorem valkeyStreams_follows (codec : TaskCodec) :
    Answers.Follows (valkeyStreams codec).act valkeyQueue.act (fun _ _ => True)
      (fun state queue => state.toQueue codec = queue) := by
  rintro state queue operation rfl _
  cases operation with
  | enqueue now generated task => exact ⟨rfl, state.toQueue_enqueue codec ..⟩
  | claim now savedAt kinds =>
      simp only [Queue.act, valkeyQueue, ValkeyState.toQueue_claim]
      exact ⟨rfl, rfl⟩
  | complete now id =>
      exact ⟨rfl, (congrArg Prod.fst (state.toQueue_complete codec id)).symm⟩
  | fail now id reason =>
      exact ⟨rfl, (congrArg Prod.fst (state.toQueue_complete codec id)).symm⟩

/-- A client cannot tell the two models apart, whatever it calls. -/
theorem valkeyStreams_answers (codec : TaskCodec) (state : ValkeyState)
    (operations : List Operation) :
    Answers.answers (valkeyStreams codec).act state operations =
      Answers.answers valkeyQueue.act (state.toQueue codec) operations :=
  (valkeyStreams_follows codec).answers_eq rfl (Answers.along_true _ _ _)

/-! ## Claims among entries that do not decode -/

/--
A task is within reach of a claim: it is among the first waiting entries of a
kind, of which the claim reads one each time it lists the kind.
-/
def WithinReach (kinds : List String) (waiting : String → List (Option Entry)) :
    Prop :=
  ∃ kind, ∃ entry ∈ (waiting kind).take (kinds.count kind), entry.isSome = true

theorem not_withinReach_nil (waiting : String → List (Option Entry)) :
    ¬ WithinReach [] waiting := by
  rintro ⟨kind, entry, member, _⟩
  cases member

/-- A kind of which nothing waits is passed over. -/
theorem withinReach_cons_of_nil {kind : String} {kinds : List String}
    {waiting : String → List (Option Entry)} (nothing : waiting kind = []) :
    WithinReach (kind :: kinds) waiting ↔ WithinReach kinds waiting := by
  refine exists_congr fun other => ?_
  by_cases same : other = kind
  · rw [same, nothing, List.take_nil, List.take_nil]
  · rw [List.count_cons_of_ne (Ne.symm same)]

/-- An entry that does not decode uses up one reading of its kind. -/
theorem withinReach_cons_of_none {kind : String} {kinds : List String}
    {waiting after : String → List (Option Entry)}
    (first : waiting kind = none :: after kind)
    (others : ∀ other, other ≠ kind → waiting other = after other) :
    WithinReach (kind :: kinds) waiting ↔ WithinReach kinds after := by
  refine exists_congr fun other => ?_
  by_cases same : other = kind
  · rw [same, first, List.count_cons_self, List.take_succ_cons]
    simp
  · rw [List.count_cons_of_ne (Ne.symm same), others other same]

/-- A task that is the first of its kind is within reach. -/
theorem withinReach_cons_of_some {kind : String} {kinds : List String}
    {waiting : String → List (Option Entry)} {entry : Entry}
    {rest : List (Option Entry)} (first : waiting kind = some entry :: rest) :
    WithinReach (kind :: kinds) waiting := by
  refine ⟨kind, some entry, ?_, rfl⟩
  rw [first, List.count_cons_self, List.take_succ_cons]
  exact List.mem_cons_self

namespace ValkeyQueue

/-- Ensuring a consumer group again changes no stream. -/
@[simp]
theorem ensureGroup_setStream_self (queue : ValkeyQueue) (name other : String) :
    (queue.setStream name (queue.ensureGroup name)).ensureGroup other =
      queue.ensureGroup other := by
  rw [ensureGroup_setStream]
  split
  · next same => rw [same]
  · rfl

section Discard

variable {queue : ValkeyQueue} {kind : String} {message : Message} {stream : Stream}
variable (numbered : ∀ name, (queue.ensureGroup name).Numbered)
variable (read : (queue.ensureGroup (streamOf kind)).readNext = some (message, stream))
include numbered read

theorem numbered_discard (name : String) :
    (((queue.setStream (streamOf kind) stream).ackAndDel (streamOf kind)
      message.id).ensureGroup name).Numbered := by
  have streamNumbered := (Stream.readNext_eq_some (numbered (streamOf kind)) read).1
  rw [ensureGroup_ackAndDel, ensureGroup_setStream]
  split
  · exact streamNumbered.ackAndDel _
  · exact numbered name

/-- The claim goes on without the entry it could not decode. -/
theorem withinReach_discard (undecoded : message.task = none) (kinds : List String) :
    (WithinReach (kind :: kinds) fun other =>
        (queue.ensureGroup (streamOf other)).entries) ↔
      WithinReach kinds fun other =>
        (((queue.setStream (streamOf kind) stream).ackAndDel (streamOf kind)
          message.id).ensureGroup (streamOf other)).entries := by
  rcases Stream.readNext_eq_some (numbered (streamOf kind)) read with
    ⟨_, delivered, _, entries⟩
  rw [undecoded] at entries
  refine withinReach_cons_of_none ?_ fun other different => ?_
  · rw [ensureGroup_ackAndDel, ensureGroup_setStream, if_pos rfl, if_pos rfl,
      Stream.entries_ackAndDel (Nat.le_of_eq delivered.symm), entries]
    rfl
  · have otherStream : streamOf other ≠ streamOf kind :=
      fun same => different (streamOf_inj.mp same)
    rw [ensureGroup_ackAndDel, ensureGroup_setStream, if_neg otherStream,
      if_neg otherStream]

end Discard

/-- A claim returns a task if and only if there is one within its reach. -/
theorem claim_ok_iff {queue : ValkeyQueue}
    (numbered : ∀ name, (queue.ensureGroup name).Numbered) (kinds : List String) :
    (∃ task, (queue.claim kinds).2 = .ok task) ↔
      WithinReach kinds fun kind => (queue.ensureGroup (streamOf kind)).entries := by
  induction kinds generalizing queue with
  | nil =>
      refine iff_of_false ?_ (not_withinReach_nil _)
      rintro ⟨task, impossible⟩
      cases impossible
  | cons kind kinds ih =>
      rw [claim]
      cases read : (queue.ensureGroup (streamOf kind)).readNext with
      | none =>
          rw [withinReach_cons_of_nil (Stream.readNext_eq_none read)]
          refine (ih fun name => ?_).trans ?_
          · rw [ensureGroup_setStream_self]
            exact numbered name
          · simp only [ensureGroup_setStream_self]
      | some result =>
          rcases result with ⟨message, stream⟩
          cases decoded : message.task with
          | some task =>
              rcases Stream.readNext_eq_some (numbered (streamOf kind)) read with
                ⟨_, _, _, entries⟩
              rw [decoded] at entries
              refine iff_of_true ?_ (withinReach_cons_of_some entries)
              simp only [decoded]
              exact ⟨_, rfl⟩
          | none =>
              simp only [decoded]
              rw [withinReach_discard numbered read decoded]
              exact ih (numbered_discard numbered read)

end ValkeyQueue

/--
A claim returns a task if and only if an entry that holds one is among the
first undelivered entries of a stream, as many as the times the claim lists
the stream's kind.
-/
theorem claim_finds_task_iff (codec : TaskCodec) (state : ValkeyState)
    (kinds : List String) :
    (∃ task, (state.claim codec kinds).2 = .ok task) ↔
      ∃ kind, ∃ entry ∈
        (state.ensureGroup (streamOf kind)).undelivered.take (kinds.count kind),
        (entry.task codec).isSome = true := by
  have numbered (name : String) :
      ((state.toQueue codec).ensureGroup name).Numbered := by
    rw [ValkeyState.toQueue_ensureGroup]
    exact ServerStream.toStream_numbered codec _
  have found := ValkeyQueue.claim_ok_iff numbered kinds
  rw [ValkeyState.toQueue_claim] at found
  refine found.trans (exists_congr fun kind => ?_)
  simp only [ValkeyState.toQueue_ensureGroup, ServerStream.toStream_entries,
    ← List.map_take, List.mem_map, exists_exists_and_eq_and, Option.isSome_map]

def plainTask : Task where
  id := "a"
  kind := "k"
  orgID := 0
  name := ""
  payload := []
  status := .pending
  createdAt := 0

/-- A stream of an entry without data and an entry with a task. -/
def mixedState (codec : TaskCodec) : ValkeyState where
  streams name :=
    if name = streamOf "k" then
      some ((ServerStream.create.add none).add (some (codec.marshal plainTask)))
    else none
  claimed _ := none

theorem claim_mixedState (codec : TaskCodec) :
    (∃ entry ∈ ((mixedState codec).ensureGroup (streamOf "k")).undelivered,
        entry.task codec = some plainTask) ∧
      ((mixedState codec).claim codec ["k"]).2 = .error .noTasks := by
  refine ⟨⟨⟨2, some (codec.marshal plainTask)⟩, ?_, ?_⟩, rfl⟩
  · exact List.mem_cons_of_mem _ List.mem_cons_self
  · exact codec.unmarshal_marshal plainTask

/-- The claim reads the first entry, and answers that there are no tasks. -/
theorem claim_stops_at_broken_entry :
    (∃ entry ∈ ((mixedState objectCodec).ensureGroup (streamOf "k")).undelivered,
        entry.task objectCodec = some plainTask) ∧
      ((mixedState objectCodec).claim objectCodec ["k"]).2 = .error .noTasks :=
  claim_mixedState objectCodec

end Infractl.Work
