import Infractl.Lib.Ledger
import Infractl.Lib.Run
import Infractl.Work.ValkeyStreams

/-!
# Claimed tasks and pending entries

The queue remembers a task under its identifier, and the server keeps the entry
it was delivered in as pending until the queue acknowledges it.  This is a
ledger of `Lib.Ledger`: a claim issues an entry under the identifier of its
task, and `Complete` and `Fail` settle what is held under theirs.

Two entries may hold tasks of one identifier.  When the second is claimed
before the first is completed, the queue forgets the first, which stays pending
whatever is called after.
-/

namespace Infractl.Work

open Infractl.Lib
open Infractl.Lib.Run
open Infractl.Store (Time)

namespace ValkeyState

/-- What the queue holds, and what is pending for it. -/
def ledger (state : ValkeyState) : Ledger String ClaimedTask where
  held := state.claimed
  outstanding := {place | place.msgID ∈ (state.ensureGroup place.stream).pending}

variable {state : ValkeyState}

@[simp]
theorem mem_outstanding {place : ClaimedTask} :
    place ∈ state.ledger.outstanding ↔
      place.msgID ∈ (state.ensureGroup place.stream).pending :=
  Iff.rfl

/-- A stream with the same pending entries makes no difference. -/
theorem ledger_setStream (state : ValkeyState) (name : String) {stream : ServerStream}
    (same : stream.pending = (state.ensureGroup name).pending) :
    (state.setStream name stream).ledger = state.ledger := by
  refine Ledger.ext rfl (Set.ext fun place => ?_)
  rw [mem_outstanding, mem_outstanding, ensureGroup_setStream]
  split
  · next isHere => rw [same, isHere]
  · rfl

section Delivery

variable {name : String} {entry : StreamEntry}
  (waits : entry ∈ (state.ensureGroup name).undelivered)

include waits in
/-- An entry that is not delivered is not pending. -/
theorem undelivered_not_outstanding :
    (⟨name, entry.id⟩ : ClaimedTask) ∉ state.ledger.outstanding := by
  intro pending
  have received := (state.ensureGroup name).received entry.id pending
  have later := (ServerStream.mem_undelivered.mp waits).2
  exact absurd received (Nat.not_le.mpr later)

theorem outstanding_deliver :
    (state.setStream name ((state.ensureGroup name).deliver entry waits)).ledger.outstanding =
      insert ⟨name, entry.id⟩ state.ledger.outstanding := by
  refine Set.ext fun place => ?_
  rw [Set.mem_insert_iff, mem_outstanding, mem_outstanding, ensureGroup_setStream]
  rcases place with ⟨stream, msgID⟩
  by_cases isHere : stream = name
  · subst isHere
    simp [ServerStream.deliver, or_comm]
  · simp [isHere]

@[simp]
theorem outstanding_ackAndDel (id : Nat) :
    (state.ackAndDel name id).ledger.outstanding =
      state.ledger.outstanding \ {⟨name, id⟩} := by
  refine Set.ext fun place => ?_
  rw [Set.mem_sdiff, Set.mem_singleton_iff, mem_outstanding, mem_outstanding,
    ensureGroup_ackAndDel]
  rcases place with ⟨stream, msgID⟩
  by_cases isHere : stream = name
  · subst isHere
    simp [ServerStream.ackAndDel]
  · simp [isHere]

/-- An entry that is claimed is issued under the identifier of its task. -/
theorem ledger_remember (id : String) :
    ((state.setStream name ((state.ensureGroup name).deliver entry waits)).remember id
        ⟨name, entry.id⟩).ledger =
      state.ledger.issue id ⟨name, entry.id⟩ :=
  Ledger.ext rfl (outstanding_deliver waits)

/-- An entry that does not decode is acknowledged at once. -/
theorem ledger_discard :
    ((state.setStream name ((state.ensureGroup name).deliver entry waits)).ackAndDel name
        entry.id).ledger =
      state.ledger := by
  refine Ledger.ext rfl ?_
  rw [outstanding_ackAndDel, outstanding_deliver]
  exact Set.insert_sdiff_self_of_notMem (undelivered_not_outstanding waits)

end Delivery

/-- A claim issues the entry of the task it returns, and nothing else. -/
theorem claim_ledger (codec : TaskCodec) (state : ValkeyState) (kinds : List String) :
    ((state.claim codec kinds).2 = .error .noTasks ∧
        (state.claim codec kinds).1.ledger = state.ledger) ∨
      ∃ task place, (state.claim codec kinds).2 = .ok task ∧
        place ∉ state.ledger.outstanding ∧
        (state.claim codec kinds).1.ledger = state.ledger.issue task.id place := by
  induction kinds generalizing state with
  | nil => exact Or.inl ⟨rfl, rfl⟩
  | cons kind kinds ih =>
      rw [claim]
      cases read : (state.ensureGroup (streamOf kind)).readNext with
      | none =>
          rw [← ledger_setStream state (streamOf kind) rfl]
          exact ih _
      | some result =>
          rcases result with ⟨entry, stream⟩
          rcases ServerStream.readNext_eq_some read with ⟨waits, _, rfl⟩
          cases decoded : entry.task codec with
          | none =>
              simp only [decoded]
              rw [← ledger_discard waits]
              exact ih _
          | some task =>
              refine Or.inr ⟨{ task with status := .running }, _, ?_,
                undelivered_not_outstanding waits, ?_⟩
              · simp only [decoded]
              · simp only [decoded]
                exact ledger_remember waits task.id

/-- A completion settles what is held under the identifier, if anything is. -/
theorem complete_ledger (state : ValkeyState) (id : String) :
    (state.claimed id = none ∧ (state.complete id).2 = some (.notClaimed id) ∧
        (state.complete id).1.ledger = state.ledger) ∨
      ∃ place, state.claimed id = some place ∧ (state.complete id).2 = none ∧
        (state.complete id).1.ledger = state.ledger.settle id place := by
  rw [complete]
  cases held : state.claimed id with
  | none => exact Or.inl ⟨rfl, rfl, rfl⟩
  | some place =>
      refine Or.inr ⟨place, rfl, rfl, Ledger.ext rfl ?_⟩
      exact outstanding_ackAndDel place.msgID

/--
The call is a claim, and the first of the waiting entries it comes to that
holds a task holds one whose identifier is claimed already.
-/
def Overwrites (codec : TaskCodec) (state : ValkeyState) : Operation → Prop
  | .claim _ _ kinds =>
      ∃ task,
        (readingOrder state.waiting kinds).findSome? (StreamEntry.task codec) =
          some task ∧
        state.claimed task.id ≠ none
  | _ => False

theorem overwrites_claim_iff (codec : TaskCodec) (state : ValkeyState)
    (now savedAt : Time) (kinds : List String) :
    state.Overwrites codec (.claim now savedAt kinds) ↔
      ∃ task, (state.claim codec kinds).2 = .ok task ∧
        state.claimed task.id ≠ none := by
  rw [Overwrites, claim_answer]
  cases (readingOrder state.waiting kinds).findSome? (StreamEntry.task codec) with
  | none => simp
  | some task => simp

/-- What a call does to the ledger. -/
inductive Moves (codec : TaskCodec) (state next : ValkeyState) (call : Operation) :
    Prop where
  | kept (same : next.ledger = state.ledger) (apart : ¬ state.Overwrites codec call)
  | issued (id : String) (place : ClaimedTask)
      (fresh : place ∉ state.ledger.outstanding)
      (issues : next.ledger = state.ledger.issue id place)
      (overwrites : state.Overwrites codec call ↔ state.claimed id ≠ none)
  | settled (id : String) (place : ClaimedTask) (held : state.claimed id = some place)
      (settles : next.ledger = state.ledger.settle id place)
      (apart : ¬ state.Overwrites codec call)

theorem moves_complete (codec : TaskCodec) (state : ValkeyState) (id : String)
    {call : Operation} (apart : ¬ state.Overwrites codec call) :
    Moves codec state (state.complete id).1 call := by
  rcases complete_ledger state id with ⟨_, _, same⟩ | ⟨place, held, _, settles⟩
  · exact .kept same apart
  · exact .settled id place held settles apart

theorem moves_of_step {codec : TaskCodec} {state next : ValkeyState}
    {call : Operation} (stepped : state.step codec call = some next) :
    Moves codec state next call := by
  cases call with
  | enqueue now generated task =>
      cases stepped
      exact .kept (ledger_setStream state _ rfl) id
  | claim now savedAt kinds =>
      cases stepped
      rcases claim_ledger codec state kinds with
        ⟨refused, same⟩ | ⟨task, place, found, fresh, issues⟩
      · refine .kept same ?_
        rw [overwrites_claim_iff]
        rintro ⟨task, found, _⟩
        cases refused.symm.trans found
      · refine .issued task.id place fresh issues ?_
        rw [overwrites_claim_iff]
        constructor
        · rintro ⟨other, alsoFound, taken⟩
          cases found.symm.trans alsoFound
          exact taken
        · intro taken
          exact ⟨task, found, taken⟩
  | complete now id =>
      cases stepped
      exact moves_complete codec state id not_false
  | fail now id reason =>
      cases stepped
      exact moves_complete codec state id not_false

section Step

variable {codec : TaskCodec} {state next : ValkeyState} {call : Operation}

theorem Moves.sound (moves : Moves codec state next call)
    (sound : state.ledger.Sound) (apart : ¬ state.Overwrites codec call) :
    next.ledger.Sound := by
  cases moves with
  | kept same _ =>
      rw [same]
      exact sound
  | issued id place fresh issues overwrites =>
      rw [issues]
      exact sound.issue (not_not.mp (mt overwrites.mpr apart)) fresh
  | settled id place held settles _ =>
      rw [settles]
      exact sound.settle held

/-- Claiming a task under an identifier that is claimed leaves an orphan. -/
theorem Moves.orphan_of_overwrites (moves : Moves codec state next call)
    (sound : state.ledger.Sound) (overwrites : state.Overwrites codec call) :
    ∃ orphan, next.ledger.Orphan orphan := by
  cases moves with
  | kept _ apart => exact absurd overwrites apart
  | issued id place fresh issues taken =>
      rcases Option.ne_none_iff_exists'.mp (taken.mp overwrites) with ⟨orphan, held⟩
      rw [issues]
      exact ⟨orphan, sound.orphan_issue held fresh⟩
  | settled _ _ _ _ apart => exact absurd overwrites apart

theorem Moves.orphan (moves : Moves codec state next call) {orphan : ClaimedTask}
    (orphaned : state.ledger.Orphan orphan) :
    next.ledger.Orphan orphan := by
  cases moves with
  | kept same _ =>
      rw [same]
      exact orphaned
  | issued id place fresh issues _ =>
      rw [issues]
      exact orphaned.issue fresh
  | settled id place held settles _ =>
      rw [settles]
      exact orphaned.settle held

end Step

/-! ## Runs -/

/-- A new queue: it has claimed nothing, and nothing is pending for it. -/
structure New (state : ValkeyState) : Prop where
  claimed : ∀ id, state.claimed id = none
  pending : ∀ name, (state.ensureGroup name).pending = []

/-- The tasks claimed were delivered in the entries that are pending. -/
def ClaimedArePending (state : ValkeyState) : Prop :=
  ∀ place : ClaimedTask, (∃ id, state.claimed id = some place) ↔
    place.msgID ∈ (state.ensureGroup place.stream).pending

/-- No claim of the run comes first to a task whose identifier is claimed. -/
def ClaimsApart (codec : TaskCodec) (start : ValkeyState) (calls : List Operation) :
    Prop :=
  AllSteps (step codec) (fun state call _ => ¬ state.Overwrites codec call) start calls

theorem New.sound {state : ValkeyState} (new : state.New) : state.ledger.Sound where
  entries := by
    intro place
    rw [mem_outstanding, new.pending]
    refine iff_of_false ?_ List.not_mem_nil
    rintro ⟨id, held⟩
    cases (new.claimed id).symm.trans held
  single := by
    intro id other place held _
    cases (new.claimed id).symm.trans held

/-- The ledger at the end of a run tells whether claims were apart. -/
theorem sound_or_orphan {codec : TaskCodec} {start finish : ValkeyState}
    {calls : List Operation} (new : start.New)
    (reached : run (step codec) start calls = some finish) :
    (ClaimsApart codec start calls ∧ finish.ledger.Sound) ∨
      (¬ ClaimsApart codec start calls ∧ ∃ orphan, finish.ledger.Orphan orphan) := by
  refine allSteps_or_spoiled _ (fun state => state.ledger.Sound)
    (fun state => ∃ orphan, state.ledger.Orphan orphan) ?_ ?_ ?_ new.sound
    (allSteps_true start calls) reached
  · intro state call next sound stepped _ apart
    exact (moves_of_step stepped).sound sound apart
  · intro state call next sound stepped _ overwrites
    exact (moves_of_step stepped).orphan_of_overwrites sound (not_not.mp overwrites)
  · rintro state call next ⟨orphan, orphaned⟩ stepped _
    exact ⟨orphan, (moves_of_step stepped).orphan orphaned⟩

/-- A completion of the task that is held for an entry acknowledges the entry. -/
theorem exists_complete {state : ValkeyState} (sound : state.ledger.Sound)
    {place : ClaimedTask} (pending : place ∈ state.ledger.outstanding) :
    ∃ id, (state.complete id).2 = none ∧
      place ∉ (state.complete id).1.ledger.outstanding := by
  rcases (sound.entries place).mpr pending with ⟨id, held⟩
  refine ⟨id, ?_⟩
  rcases complete_ledger state id with ⟨unheld, _⟩ | ⟨other, alsoHeld, succeeded, settles⟩
  · cases unheld.symm.trans held
  · cases alsoHeld.symm.trans held
    rw [settles]
    exact ⟨succeeded, fun stays => stays.2 rfl⟩

end ValkeyState

/--
After a run of a new queue, the tasks claimed were delivered in the entries
that are pending if and only if, at each claim of the run, the first task among
the waiting entries it comes to has an identifier that is not claimed.  Then
each pending entry is acknowledged by a completion that succeeds; otherwise
there is one that stays pending whatever is called after.
-/
theorem claimed_are_pending_iff (codec : TaskCodec) {start finish : ValkeyState}
    {calls : List Operation} (new : start.New)
    (reached : run (ValkeyState.step codec) start calls = some finish) :
    (finish.ClaimedArePending ↔ ValkeyState.ClaimsApart codec start calls) ∧
    (finish.ClaimedArePending → ∀ place : ClaimedTask,
      place.msgID ∈ (finish.ensureGroup place.stream).pending →
      ∃ id, (finish.complete id).2 = none ∧
        place.msgID ∉ ((finish.complete id).1.ensureGroup place.stream).pending) ∧
    (¬ finish.ClaimedArePending → ∃ place : ClaimedTask, ∀ more later,
      run (ValkeyState.step codec) finish more = some later →
      place.msgID ∈ (later.ensureGroup place.stream).pending) := by
  rcases ValkeyState.sound_or_orphan new reached with
    ⟨apart, sound⟩ | ⟨collision, orphan, orphaned⟩
  · refine ⟨iff_of_true sound.entries apart, fun _ place pending => ?_, ?_⟩
    · exact ValkeyState.exists_complete sound pending
    · intro differ
      exact absurd sound.entries differ
  · refine ⟨iff_of_false orphaned.not_matches collision, ?_, fun _ => ⟨orphan, ?_⟩⟩
    · intro same
      exact absurd same orphaned.not_matches
    · intro more later continued
      have stays (state : ValkeyState) (call : Operation) (next : ValkeyState)
          (before : state.ledger.Orphan orphan)
          (stepped : state.step codec call = some next) :
          next.ledger.Orphan orphan :=
        (ValkeyState.moves_of_step stepped).orphan before
      exact (run_invariant _ stays orphaned continued).outstanding

/-! ## Two tasks of one identifier -/

def noStreams : ValkeyState where
  streams _ := none
  claimed _ := none

theorem noStreams_new : noStreams.New :=
  ⟨fun _ => rfl, fun _ => rfl⟩

/-- Two tasks of one identifier are claimed, and the identifier is completed. -/
def sharedIdentifier : List Operation :=
  [.enqueue 1 "" plainTask, .enqueue 2 "" plainTask, .claim 3 3 ["k"],
    .claim 4 4 ["k"], .complete 5 "a"]

/-- Deliver the next entry of a kind as a task of a known identifier. -/
def ValkeyState.takeNext (state : ValkeyState) (kind id : String) : ValkeyState :=
  match (state.ensureGroup (streamOf kind)).readNext with
  | none => state
  | some (entry, stream) =>
      (state.setStream (streamOf kind) stream).remember id ⟨streamOf kind, entry.id⟩

theorem ValkeyState.claim_eq_takeNext (codec : TaskCodec) (state : ValkeyState)
    {kind : String} {entry : StreamEntry} {task : Task}
    (read : (state.ensureGroup (streamOf kind)).readNext.map Prod.fst = some entry)
    (decoded : entry.task codec = some task) :
    (state.claim codec [kind]).1 = state.takeNext kind task.id := by
  rcases Option.map_eq_some_iff.mp read with ⟨⟨_, stream⟩, readsEntry, rfl⟩
  simp only [claim, takeNext, readsEntry, decoded]

/-- Two tasks are claimed, and the first of them is completed. -/
def firstCompleted : List Operation :=
  [.enqueue 1 "" plainTask, .enqueue 2 "" { plainTask with id := "b" },
    .claim 3 3 ["k"], .claim 4 4 ["k"], .complete 5 "a"]

/-- A claim that comes to one entry, whose task is not claimed. -/
theorem ValkeyState.not_overwrites {codec : TaskCodec} {state : ValkeyState}
    {now savedAt : Time} {kinds : List String} {id : Nat} {task : Task}
    (order : readingOrder state.waiting kinds = [⟨id, some (codec.marshal task)⟩])
    (unclaimed : state.claimed task.id = none) :
    ¬ state.Overwrites codec (.claim now savedAt kinds) := by
  rintro ⟨found, first, taken⟩
  have decoded : StreamEntry.task codec ⟨id, some (codec.marshal task)⟩ = some task :=
    codec.unmarshal_marshal task
  rw [order, List.findSome?_cons, decoded] at first
  cases first
  exact taken unclaimed

/-- A task with the identifier `a` and a second one were enqueued. -/
def twoTasks (codec : TaskCodec) (second : String) : ValkeyState :=
  (noStreams.enqueue codec 1 "" plainTask).enqueue codec 2 ""
    { plainTask with id := second }

/-- Both tasks are claimed, one after the other. -/
def bothTaken (codec : TaskCodec) (second : String) : ValkeyState :=
  ((twoTasks codec second).takeNext "k" "a").takeNext "k" second

theorem claim_twoTasks (codec : TaskCodec) {second : String}
    (listed : second = "a" ∨ second = "b") :
    ((twoTasks codec second).claim codec ["k"]).1 =
        (twoTasks codec second).takeNext "k" "a" ∧
      (((twoTasks codec second).takeNext "k" "a").claim codec ["k"]).1 =
        bothTaken codec second := by
  have readFirst :
      ((twoTasks codec second).ensureGroup (streamOf "k")).readNext.map Prod.fst =
        some ⟨1, some (codec.marshal { plainTask with createdAt := 1 })⟩ := by
    rcases listed with rfl | rfl <;> rfl
  have readSecond :
      (((twoTasks codec second).takeNext "k" "a").ensureGroup
          (streamOf "k")).readNext.map Prod.fst =
        some ⟨2, some (codec.marshal
          { plainTask with id := second, createdAt := 2 })⟩ := by
    rcases listed with rfl | rfl <;> rfl
  exact ⟨ValkeyState.claim_eq_takeNext codec _ readFirst (codec.unmarshal_marshal _),
    ValkeyState.claim_eq_takeNext codec _ readSecond (codec.unmarshal_marshal _)⟩

/-- The two claims are apart, and the second entry is the one pending. -/
theorem run_firstCompleted (codec : TaskCodec) :
    ∃ finish, run (ValkeyState.step codec) noStreams firstCompleted = some finish ∧
      ValkeyState.ClaimsApart codec noStreams firstCompleted ∧
      (finish.ensureGroup (streamOf "k")).pending = [2] ∧
      finish.claimed "b" = some ⟨streamOf "k", 2⟩ := by
  rcases claim_twoTasks codec (.inr rfl) with ⟨first, second⟩
  refine ⟨((bothTaken codec "b").complete "a").1, ?_, ?_, rfl, rfl⟩
  · rw [← second, ← first]
    rfl
  · refine .cons rfl not_false (.cons rfl not_false ?_)
    refine .cons (congrArg some first) (ValkeyState.not_overwrites rfl rfl) ?_
    refine .cons (congrArg some second) (ValkeyState.not_overwrites rfl rfl) ?_
    exact .cons rfl not_false trivial

/-- The task that is claimed and not completed is the one that is pending. -/
theorem second_task_stays_pending :
    ∃ finish, run (ValkeyState.step objectCodec) noStreams firstCompleted =
        some finish ∧
      finish.ClaimedArePending ∧
      (finish.ensureGroup (streamOf "k")).pending = [2] ∧
      finish.claimed "b" = some ⟨streamOf "k", 2⟩ := by
  rcases run_firstCompleted objectCodec with ⟨finish, reached, apart, pending, held⟩
  have claimed := claimed_are_pending_iff objectCodec noStreams_new reached
  exact ⟨finish, reached, claimed.1.mpr apart, pending, held⟩

/-- The first entry is pending, and no task is held any more. -/
theorem run_sharedIdentifier (codec : TaskCodec) :
    ∃ finish, run (ValkeyState.step codec) noStreams sharedIdentifier = some finish ∧
      (finish.ensureGroup (streamOf "k")).pending = [1] ∧
      ∀ id, finish.claimed id = none := by
  rcases claim_twoTasks codec (.inl rfl) with ⟨first, second⟩
  refine ⟨((bothTaken codec "a").complete "a").1, ?_, rfl, ?_⟩
  · rw [← second, ← first]
    rfl
  · intro id
    have claimed : ((bothTaken codec "a").complete "a").1.claimed =
        Function.update (Function.update (Function.update (fun _ => none) "a"
          (some ⟨streamOf "k", 1⟩)) "a" (some ⟨streamOf "k", 2⟩)) "a" none := rfl
    rw [claimed, Function.update_idem, Function.update_idem, Function.update_eq_self_iff.mpr]
    rfl

/--
Both tasks are claimed and their identifier is completed without an error, and
the first entry is pending with nothing left that could acknowledge it.
-/
theorem shared_identifier_stays_pending :
    ∃ finish, run (ValkeyState.step objectCodec) noStreams sharedIdentifier =
        some finish ∧
      (finish.ensureGroup (streamOf "k")).pending = [1] ∧
      ∀ id, finish.claimed id = none :=
  run_sharedIdentifier objectCodec

end Infractl.Work
