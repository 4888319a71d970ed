import Infractl.Store.Interleaving

/-!
# Calling `Update` again with the same object

`Update` gets a pointer.  It sets the generation and the version of the object
behind it before it issues the guarded write, and leaves them set when the
write is refused.

A `Caller` makes one call after another with the same pointer until one of
them succeeds, while other clients take the table to any state between two
statements.  Its object is kept by every call that returns an error exactly as
long as each guarded write reaches the database and finds the live row at the
version the call was given.  A call that follows another write compares the
stored version with one that the caller never read.
-/

namespace Infractl.Store

open Infractl.Lib
open Infractl.Lib.Run

variable {Spec Status : Type}

/--
A client that calls `Update`: the table, its call in flight, the object behind
its pointer, and that object as it was when the call began.
-/
structure Caller (Spec Status : Type) where
  table : Table Spec Status
  process : Process Spec Status
  object : Object Spec Status
  started : Object Spec Status

namespace Caller

/-- What the caller and the others do. -/
inductive Label (Spec Status : Type) where
  | others (table : Table Spec Status)
  | execute (now : Time)
  | fail
  | again

/--
The object behind the pointer when the next statement of a call is issued:
its version and generation are set right before the guarded write.
-/
def pointee (object : Object Spec Status) :
    Process Spec Status → Object Spec Status
  | .writeGuarded tracked clientVersion =>
      tracked.setResourceVersion (clientVersion + 1)
  | _ => object

/-- The object behind the pointer once the statement has been built. -/
def built (now : Time) (object : Object Spec Status) :
    Process Spec Status → Object Spec Status
  | .writeGuarded tracked clientVersion =>
      GenericStore.stamp now clientVersion tracked
  | _ => object

/-- A call of `Update`, about to issue its first statement. -/
def call (kind : Kind Spec Status) (table : Table Spec Status)
    (object : Object Spec Status) : Caller Spec Status where
  table := table
  process := Process.startUpdate kind object
  object := pointee object (Process.startUpdate kind object)
  started := object

/-- One step of either. -/
def step (kind : Kind Spec Status) (caller : Caller Spec Status) :
    Label Spec Status → Option (Caller Spec Status)
  | .others table => some { caller with table := table }
  | .execute now =>
      (caller.process.exec kind now caller.table).map fun result =>
        { caller with
          table := result.1
          process := result.2.1
          object := pointee (built now caller.object caller.process) result.2.1 }
  | .fail =>
      caller.process.fail.map fun process => { caller with process := process }
  | .again =>
      match caller.process with
      | .returned (some _) => some (call kind caller.table caller.object)
      | _ => none

/-! ## The calls of a caller -/

/-- An `Update` call for an object that has not succeeded. -/
inductive Updating (object : Object Spec Status) : Process Spec Status → Prop where
  | checking (org : UUID) (name parent : String) :
      Updating object (.countParent org name parent (.update object))
  | walking (org : UUID) (visited : List String) (current : String) :
      Updating object (.readParent org visited current (.update object))
  | reading : Updating object (.readExisting object)
  | writing (generation : Int64) :
      Updating object
        (.writeGuarded (object.setGeneration generation)
          object.resource.resourceVersion)
  | refused (error : StoreError) : Updating object (.returned (some error))

section Calls

variable (kind : Kind Spec Status) (object : Object Spec Status)

theorem updating_enter :
    Updating object ((Continuation.update object).enter kind) := by
  unfold Continuation.enter
  cases kind.specBytes with
  | none => exact .writing object.resource.generation
  | some specBytes => exact .reading

theorem updating_walkTo (org : UUID) (visited : List String) (current : String) :
    Updating object
      (Process.walkTo kind org visited current (.update object)) := by
  refine Process.walkTo_cases (motive := Updating object) kind org visited
    current ?_ ?_ ?_
  · exact updating_enter kind object
  · exact .refused .circularParent
  · exact .walking org _ current

theorem updating_start :
    Updating object (Process.startUpdate kind object) := by
  refine Process.validate_cases (motive := Updating object) kind object
    ?_ ?_ ?_
  · exact updating_enter kind object
  · exact .refused .circularParent
  · intro parent
    exact .checking _ _ parent

end Calls

/-- A stored row under the key of an object, at the version it carries. -/
def StoredAt (object : Object Spec Status) (table : Table Spec Status) : Prop :=
  ∃ row, selectLive table object.key = some row ∧
    row.resource.resourceVersion = object.resource.resourceVersion

/-- The write of a call is on its way. -/
def AtWrite (process : Process Spec Status) : Prop :=
  ∃ tracked clientVersion, process = .writeGuarded tracked clientVersion

variable {object : Object Spec Status} {process : Process Spec Status}
variable {caller next : Caller Spec Status} {label : Label Spec Status} {now : Time}
variable (kind : Kind Spec Status)

/-- The guarded write succeeds exactly when the version it wants is stored. -/
theorem exec_writing
    {table : Table Spec Status} {generation : Int64}
    {result : Table Spec Status × Process Spec Status ×
      Option (Effect Spec Status)}
    (done :
      (Process.writeGuarded (object.setGeneration generation)
        object.resource.resourceVersion).exec kind now table = some result) :
    (result.2.1 = .returned (some .conflict) ∧ ¬ StoredAt object table) ∨
      (result.2.1 = .returned none ∧ StoredAt object table) := by
  simp only [Process.exec] at done
  split at done
  · next refused =>
      cases done
      refine Or.inl ⟨rfl, ?_⟩
      rintro ⟨row, selected, version⟩
      rcases (selectLive_eq_some_iff _ _ _).mp selected with ⟨found, live⟩
      have differs := updateLive_eq_none_iff.mp refused row found live
      exact of_decide_eq_false differs version
  · next updated written =>
      cases done
      rcases updateLive_spec written with ⟨row, found, live, current, _⟩
      refine Or.inr ⟨rfl, row, ?_, of_decide_eq_true current⟩
      exact (selectLive_eq_some_iff _ _ _).mpr ⟨found, live⟩

/-- Up to its write a call goes on with the object it was given. -/
theorem exec_updating
    {table : Table Spec Status} (updating : Updating object process)
    (earlier : ¬ AtWrite process)
    {result : Table Spec Status × Process Spec Status ×
      Option (Effect Spec Status)}
    (done : process.exec kind now table = some result) :
    Updating object result.2.1 := by
  cases updating with
  | checking org name parent =>
      simp only [Process.exec] at done
      split at done
      · cases done
        exact updating_walkTo kind object org [name] parent
      · cases done
        exact .refused .parentNotFound
  | walking org visited current =>
      simp only [Process.exec] at done
      split at done
      · cases done
        exact updating_enter kind object
      · next parent selected =>
          cases done
          exact updating_walkTo kind object org visited parent
  | reading =>
      simp only [Process.exec] at done
      split at done
      · next existing specBytes _ _ =>
          cases done
          rcases GenericStore.bumpGeneration_eq specBytes existing object with
            ⟨generation, bumped⟩
          rw [bumped]
          exact .writing generation
      · cases done
        exact .writing object.resource.generation
      · cases done
        exact .refused .notFound
  | writing generation => exact absurd ⟨_, _, rfl⟩ earlier
  | refused error => cases done

theorem fail_updating
    {process next : Process Spec Status} (updating : Updating object process)
    (failed : process.fail = some next) :
    ∃ error, next = .returned (some error) := by
  cases updating <;> cases failed <;> exact ⟨_, rfl⟩

/-! ## Steps -/

/-- The version and the generation of an object, as a call found them. -/
def SameMarks (left right : Object Spec Status) : Prop :=
  left.resource.resourceVersion = right.resource.resourceVersion ∧
    left.resource.generation = right.resource.generation

/-- Whenever a call has returned an error, the object is as it was before it. -/
def KeepsObject (_ : Caller Spec Status) (_ : Label Spec Status)
    (after : Caller Spec Status) : Prop :=
  ∀ error, after.process = .returned (some error) →
    SameMarks after.object after.started

/--
A guarded write about to be issued is not lost, and when it is executed the
live row of the key has the version of the object as the call was given it.
-/
def WriteFindsVersion (before : Caller Spec Status) (label : Label Spec Status)
    (_ : Caller Spec Status) : Prop :=
  AtWrite before.process →
    label ≠ .fail ∧
      ∀ now, label = .execute now → StoredAt before.started before.table

theorem WriteFindsVersion.of_earlier
    {before after : Caller Spec Status} (earlier : ¬ AtWrite before.process) :
    WriteFindsVersion before label after :=
  fun writing => absurd writing earlier

/-- A call succeeds only on a row at the version of the given object. -/
def SucceedsOnlyAt (object : Object Spec Status) (before : Caller Spec Status)
    (_ : Label Spec Status) (after : Caller Spec Status) : Prop :=
  before.process ≠ .returned none → after.process = .returned none →
    StoredAt object before.table

/-- A call still goes for the object its caller first had. -/
structure Intact (object : Object Spec Status) (caller : Caller Spec Status) :
    Prop where
  started : caller.started = object
  updating : Updating object caller.process
  pointed : caller.object = pointee object caller.process

theorem intact_call (table : Table Spec Status) (object : Object Spec Status) :
    Intact object (call kind table object) :=
  ⟨rfl, updating_start kind object, rfl⟩

theorem built_of_earlier (now : Time) (object : Object Spec Status)
    (earlier : ¬ AtWrite process) :
    built now object process = object := by
  cases process with
  | writeGuarded tracked clientVersion => exact absurd ⟨_, _, rfl⟩ earlier
  | _ => rfl

theorem pointee_of_earlier (object : Object Spec Status)
    (earlier : ¬ AtWrite process) :
    pointee object process = object := by
  cases process with
  | writeGuarded tracked clientVersion => exact absurd ⟨_, _, rfl⟩ earlier
  | _ => rfl

theorem not_atWrite_returned (error : Option StoreError) :
    ¬ AtWrite (.returned error : Process Spec Status) := by
  rintro ⟨tracked, clientVersion, same⟩
  cases same

/--
What a step does to a caller: the call goes on with the object, or its write
succeeds on a row at the object's version, or its write misses that version and
comes back with an error that leaves the version one higher.
-/
inductive Moves (object : Object Spec Status) (before : Caller Spec Status)
    (label : Label Spec Status) (after : Caller Spec Status) : Prop where
  | goesOn (unfinished : after.process ≠ .returned none)
      (finds : WriteFindsVersion before label after)
      (intact : Intact object after)
  | succeeds (finds : WriteFindsVersion before label after)
      (stored : StoredAt object before.table)
      (done : after.process = .returned none)
  | rejected (error : StoreError)
      (misses : ¬ WriteFindsVersion before label after)
      (returned : after.process = .returned (some error))
      (started : after.started = object)
      (bumped :
        after.object.resource.resourceVersion =
          object.resource.resourceVersion + 1)

theorem Updating.ne_returned_none
    (updating : Updating object process) : process ≠ .returned none := by
  rintro rfl
  cases updating

theorem Updating.of_atWrite
    (updating : Updating object process) (writing : AtWrite process) :
    ∃ generation,
      process =
        .writeGuarded (object.setGeneration generation)
          object.resource.resourceVersion := by
  rcases writing with ⟨tracked, clientVersion, rfl⟩
  cases updating with
  | writing generation => exact ⟨generation, rfl⟩

/-- The two ways the write of a call can end. -/
theorem moves_writing
    {generation : Int64} (started : caller.started = object)
    (writing :
      caller.process =
        .writeGuarded (object.setGeneration generation)
          object.resource.resourceVersion)
    (stepped : caller.step kind (.execute now) = some next) :
    Moves object caller (.execute now) next := by
  rcases Option.map_eq_some_iff.mp stepped with ⟨result, done, rfl⟩
  have atWrite : AtWrite caller.process := ⟨_, _, writing⟩
  rw [writing] at done
  rcases exec_writing kind done with ⟨conflict, absent⟩ | ⟨succeeded, stored⟩
  · refine .rejected .conflict ?_ conflict started ?_
    · intro finds
      exact absent (started ▸ (finds atWrite).2 now rfl)
    · simp only [conflict, writing]
      rfl
  · refine .succeeds (fun _ => ⟨?_, ?_⟩) stored succeeded
    · intro lost
      cases lost
    · intro _ _
      exact started.symm ▸ stored

theorem step_moves
    (intact : Intact object caller) (stepped : caller.step kind label = some next) :
    Moves object caller label next := by
  rcases intact with ⟨started, updating, pointed⟩
  cases label with
  | others table =>
      cases stepped
      refine .goesOn updating.ne_returned_none (fun _ => ⟨?_, ?_⟩)
        ⟨started, updating, pointed⟩
      · intro lost
        cases lost
      · intro _ executed
        cases executed
  | execute now =>
      by_cases writing : AtWrite caller.process
      · rcases updating.of_atWrite writing with ⟨generation, atWrite⟩
        exact moves_writing kind started atWrite stepped
      · rcases Option.map_eq_some_iff.mp stepped with ⟨result, done, rfl⟩
        have goesOn := exec_updating kind updating writing done
        refine .goesOn goesOn.ne_returned_none (.of_earlier writing)
          ⟨started, goesOn, ?_⟩
        simp only [built_of_earlier now _ writing, pointed,
          pointee_of_earlier object writing]
  | fail =>
      rcases Option.map_eq_some_iff.mp stepped with ⟨process, failed, rfl⟩
      rcases fail_updating updating failed with ⟨error, rfl⟩
      by_cases writing : AtWrite caller.process
      · refine .rejected error (fun finds => (finds writing).1 rfl) rfl
          started ?_
        rcases updating.of_atWrite writing with ⟨generation, atWrite⟩
        simp only [pointed, atWrite]
        rfl
      · refine .goesOn (fun same => by cases same) (.of_earlier writing)
          ⟨started, .refused error, ?_⟩
        simp only [pointed, pointee_of_earlier object writing]
        rfl
  | again =>
      simp only [step] at stepped
      split at stepped
      · next error returned =>
          cases stepped
          rw [returned, pointee_of_earlier object (not_atWrite_returned _)]
            at pointed
          rw [pointed]
          have intactNext := intact_call kind caller.table object
          refine .goesOn intactNext.updating.ne_returned_none
            (.of_earlier ?_) intactNext
          rw [returned]
          exact not_atWrite_returned _
      · cases stepped

theorem step_after_success
    (done : caller.process = .returned none)
    (stepped : caller.step kind label = some next) :
    next.process = .returned none := by
  rcases caller with ⟨table, process, pointer, origin⟩
  cases done
  cases label <;> cases stepped
  rfl

/-- Before the first rejected write, a caller is done or where it should be. -/
def Sound (object : Object Spec Status) (caller : Caller Spec Status) : Prop :=
  caller.process = .returned none ∨ Intact object caller

theorem sound_step
    (object : Object Spec Status) (caller : Caller Spec Status)
    (label : Label Spec Status) (next : Caller Spec Status)
    (sound : Sound object caller) (stepped : caller.step kind label = some next)
    (good : WriteFindsVersion caller label next) :
    Sound object next := by
  rcases sound with done | intact
  · exact Or.inl (step_after_success kind done stepped)
  · cases step_moves kind intact stepped with
    | goesOn _ _ intactNext => exact Or.inr intactNext
    | succeeds _ _ done => exact Or.inl done
    | rejected _ misses => exact absurd good misses

theorem Intact.sameMarks
    {caller : Caller Spec Status} (intact : Intact object caller)
    {error : Option StoreError} (returned : caller.process = .returned error) :
    SameMarks caller.object caller.started := by
  rw [intact.pointed, intact.started, returned]
  exact ⟨rfl, rfl⟩

/-- A step keeps the object exactly when a write it issues finds the version. -/
theorem keepsObject_iff
    (object : Object Spec Status) (caller : Caller Spec Status)
    (label : Label Spec Status) (next : Caller Spec Status)
    (sound : Sound object caller) (stepped : caller.step kind label = some next) :
    KeepsObject caller label next ↔ WriteFindsVersion caller label next := by
  rcases sound with done | intact
  · have doneNext := step_after_success kind done stepped
    constructor
    · intro _
      refine .of_earlier ?_
      rw [done]
      exact not_atWrite_returned _
    · intro _ error returned
      cases doneNext.symm.trans returned
  · cases step_moves kind intact stepped with
    | goesOn _ finds intactNext =>
        exact ⟨fun _ => finds, fun _ _ returned => intactNext.sameMarks returned⟩
    | succeeds finds _ done =>
        refine ⟨fun _ => finds, ?_⟩
        intro _ error returned
        cases done.symm.trans returned
    | rejected error misses returned started bumped =>
        constructor
        · intro keeps
          have same := (keeps error returned).1
          rw [bumped, started] at same
          exact absurd same.symm (version_ne_succ _)
        · intro finds
          exact absurd finds misses

theorem succeedsOnlyAt_of_sound
    (object : Object Spec Status) (caller : Caller Spec Status)
    (label : Label Spec Status) (next : Caller Spec Status)
    (sound : Sound object caller) (stepped : caller.step kind label = some next) :
    SucceedsOnlyAt object caller label next := by
  intro unfinished done
  rcases sound with finished | intact
  · exact absurd finished unfinished
  · cases step_moves kind intact stepped with
    | goesOn unfinished => exact absurd done unfinished
    | succeeds _ stored => exact stored
    | rejected _ _ returned => cases returned.symm.trans done

/--
A caller that goes on calling `Update` with the same object, other clients
writing in between: its errors leave the object as it was exactly when every
guarded write reaches the database and finds the version the call was given,
and then no call succeeds unless the stored version is the one the object first
carried.
-/
theorem rejected_update_keeps_object_iff
    (kind : Kind Spec Status) (table : Table Spec Status)
    (object : Object Spec Status) (labels : List (Label Spec Status)) :
    (AllSteps (step kind) KeepsObject (call kind table object) labels ↔
        AllSteps (step kind) WriteFindsVersion (call kind table object) labels) ∧
      (AllSteps (step kind) WriteFindsVersion (call kind table object) labels →
        AllSteps (step kind) (SucceedsOnlyAt object) (call kind table object)
          labels) := by
  have initial : Sound object (call kind table object) :=
    Or.inr (intact_call kind table object)
  constructor
  · exact allSteps_congr (Sound object) (sound_step kind object)
      (keepsObject_iff kind object) initial labels
  · refine AllSteps.mono (Sound object) (sound_step kind object) ?_ initial
    intro caller label next sound stepped _
    exact succeedsOnlyAt_of_sound kind object caller label next sound stepped

/-- A machine at its first version, as the client called `creator` holds it. -/
def machineCopy (creator : String) (parent : Option String) :
    Object Unit Unit where
  resource :=
    { name := "a", parent := parent, creator := creator, resourceVersion := 1 }
  spec := ()
  status := ()

def oneMachine : Table Unit Unit :=
  ⟨[machineCopy "owner" none], List.nodup_singleton _⟩

def withRack : Table Unit Unit :=
  (GenericStore.create 1 oneMachine
    ⟨{ name := "rack" }, (), ()⟩).table

/-- A call, and a second one once the parent has been created. -/
def againWithRack : List (Label Unit Unit) :=
  [.execute 1, .others withRack, .again, .execute 2, .execute 3, .execute 4]

/--
The first call names a parent that does not exist yet; the second one finds
the parent and the version it wants.
-/
theorem update_again_once_parent_exists :
    AllSteps (step ⟨none⟩) WriteFindsVersion
        (call ⟨none⟩ oneMachine (machineCopy "owner" (some "rack")))
        againWithRack ∧
      AllSteps (step ⟨none⟩) KeepsObject
        (call ⟨none⟩ oneMachine (machineCopy "owner" (some "rack")))
        againWithRack ∧
      (run (step ⟨none⟩)
          (call ⟨none⟩ oneMachine (machineCopy "owner" (some "rack")))
          againWithRack).map Caller.process =
        some (.returned none) := by
  have findsVersion :
      AllSteps (step ⟨none⟩) WriteFindsVersion
        (call ⟨none⟩ oneMachine (machineCopy "owner" (some "rack")))
        againWithRack := by
    refine .cons rfl ?_ (.cons rfl ?_ (.cons rfl ?_ (.cons rfl ?_
      (.cons rfl ?_ (.cons rfl ?_ trivial)))))
    -- only the last statement is the write, and the row is still at version 1
    case refine_6 =>
      intro _
      refine ⟨?_, fun _ _ => ⟨machineCopy "owner" none, rfl, rfl⟩⟩
      intro lost
      cases lost
    all_goals
      rintro ⟨_, _, same⟩
      cases same
  exact
    ⟨findsVersion,
      (rejected_update_keeps_object_iff _ _ _ _).1.mpr findsVersion, rfl⟩

/-- A call that loses to another client's update, and a second one. -/
def againAfterWinner : List (Label Unit Unit) :=
  [.others
      (GenericStore.update ⟨none⟩ 1 oneMachine (machineCopy "winner" none)).table,
    .execute 2, .again, .execute 3]

/--
Another client's update wins and its version conflicts with the caller's.  The
refused call leaves the caller's object at the winner's version, so that the
same call made again succeeds and replaces what the winner stored.
-/
theorem update_again_overwrites_winner :
    ∃ finish,
      run (step ⟨none⟩) (call ⟨none⟩ oneMachine (machineCopy "owner" none))
          againAfterWinner = some finish ∧
        finish.process = .returned none ∧
        (selectLive finish.table ⟨0, "a"⟩).map
            (fun row => (row.resource.creator, row.resource.resourceVersion)) =
          some ("owner", 3) ∧
        ¬ AllSteps (step ⟨none⟩) KeepsObject
          (call ⟨none⟩ oneMachine (machineCopy "owner" none))
          againAfterWinner ∧
        ¬ AllSteps (step ⟨none⟩) (SucceedsOnlyAt (machineCopy "owner" none))
          (call ⟨none⟩ oneMachine (machineCopy "owner" none))
          againAfterWinner := by
  refine ⟨_, rfl, rfl, rfl, ?_, ?_⟩
  · intro all
    have refused := ((all _ rfl).2 _ rfl).1
    exact absurd (refused .conflict rfl).1 (by decide)
  · intro all
    have overwrote := ((((all _ rfl).2 _ rfl).2 _ rfl).2 _ rfl).1
    rcases overwrote (fun same => by cases same) rfl with ⟨row, selected, version⟩
    cases selected
    exact absurd version (by decide)

end Caller

end Infractl.Store
