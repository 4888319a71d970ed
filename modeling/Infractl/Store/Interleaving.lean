import Mathlib.Logic.Function.Basic
import Infractl.Store.GenericStore

/-!
# Store calls statement by statement

The store opens no transaction around a call, so that concurrent calls
interleave between statements.  A `Process` is a call in flight, named after
the statement it issues next and holding the local variables it still needs;
`Process.exec` runs that statement and the local code up to the following one.

A `World` is the table, the processes, and a log of what their statements
returned and wrote.  The log is bookkeeping: no transition reads it.  A label
says which process moves and at what time.  A process may also lose its
statement to a database failure, and a process that holds the copy `Get`
returned may go on to update it.

`Moves` states once what a step can do; invariants are derived from it.
-/

namespace Infractl.Store

open Infractl.Lib

variable {Spec Status : Type}

/-- The call whose parent is being validated. -/
inductive Continuation (Spec Status : Type) where
  | create (object : Object Spec Status)
  | update (object : Object Spec Status)

/-- A call in flight, at the statement it issues next. -/
inductive Process (Spec Status : Type) where
  | countParent (org : UUID) (name parent : String)
      (next : Continuation Spec Status)
  | readParent (org : UUID) (visited : List String) (current : String)
      (next : Continuation Spec Status)
  | insert (object : Object Spec Status)
  | readExisting (object : Object Spec Status)
  | writeGuarded (object : Object Spec Status) (clientVersion : Int64)
  | get (key : Key)
  | holding (row : Object Spec Status)
  | writeFields (key : Key) (version : Int64) (fields : FieldMap Spec Status)
  | countExisting (key : Key)
  | readForDelete (key : Key)
  | countChildren (key : Key) (existing : Object Spec Status)
  | writeDeletionTimestamp (key : Key)
  | writeDeletedAt (key : Key)
  | writeStatus (tableName : String) (key : Key) (status : Status)
  | writeDelivery (key : Key) (status : Status)
  | returned (error : Option StoreError)

/-- The statement that follows an accepted parent. -/
def Continuation.enter (kind : Kind Spec Status) :
    Continuation Spec Status → Process Spec Status
  | .create object => .insert object
  | .update object =>
      match kind.specBytes with
      | none => .writeGuarded object object.resource.resourceVersion
      | some _ => .readExisting object

namespace Process

/-- The head of the ancestor loop: its test, then the next `SELECT`. -/
def walkTo (kind : Kind Spec Status) (org : UUID) (visited : List String)
    (current : String) (next : Continuation Spec Status) :
    Process Spec Status :=
  if current = "" then
    next.enter kind
  else if current ∈ visited then
    .returned (some .circularParent)
  else
    .readParent org (current :: visited) current next

/-- The parent check that opens `Create` and `Update`. -/
def validate (kind : Kind Spec Status) (object : Object Spec Status)
    (next : Continuation Spec Status) : Process Spec Status :=
  match object.resource.parent with
  | none => next.enter kind
  | some parent =>
      if parent = "" then
        next.enter kind
      else if parent = object.resource.name then
        .returned (some .circularParent)
      else
        .countParent object.resource.orgID object.resource.name parent next

/-- A `Create` call about to issue its first statement. -/
def startCreate (kind : Kind Spec Status) (object : Object Spec Status) :
    Process Spec Status :=
  validate kind object (.create object)

/-- An `Update` call about to issue its first statement. -/
def startUpdate (kind : Kind Spec Status) (object : Object Spec Status) :
    Process Spec Status :=
  validate kind object (.update object)

end Process

/--
What a statement returned to its client or did to a stored row: `accepted` is
a write guarded by a version, `wrote` one that is not.
-/
inductive Effect (Spec Status : Type) where
  | read (row : Object Spec Status)
  | accepted (before after : Object Spec Status)
  | wrote (before after : Object Spec Status)
  | refused (key : Key)

/-- The row a writing statement replaced, with what it became. -/
def replaced
    (effect : Object Spec Status → Object Spec Status → Effect Spec Status)
    (before after : Table Spec Status) (key newKey : Key) :
    Option (Effect Spec Status) :=
  match before.find key, after.find newKey with
  | some old, some new => some (effect old new)
  | _, _ => none

theorem replaced_of_replaces
    (effect : Object Spec Status → Object Spec Status → Effect Spec Status)
    {before after : Table Spec Status} {key : Key}
    {old new : Object Spec Status}
    (stored : before.find key = some old)
    (replaces : Replaces before after key new) :
    replaced effect before after key key = some (effect old new) := by
  simp only [replaced, stored, replaces.find_self]

namespace Process

/-- The writes no version guards: the row they address and what they set. -/
def unguarded (now : Time) : Process Spec Status →
    Option (Key × (Object Spec Status → Object Spec Status))
  | .writeDeletionTimestamp key => some (key, Object.markDeletion now)
  | .writeDeletedAt key => some (key, Object.softDelete now)
  | .writeStatus _ key status => some (key, Object.setStatus now status)
  | .writeDelivery key status => some (key, Object.setStatus now status)
  | _ => none

/-- The end of a call on an unguarded write. -/
def finishWrite (table : Table Spec Status) (key : Key)
    (result : Option (Table Spec Status)) (missing found : Option StoreError) :
    Table Spec Status × Process Spec Status × Option (Effect Spec Status) :=
  match result with
  | none => (table, .returned missing, none)
  | some written =>
      (written, .returned found, replaced .wrote table written key key)

/-- Run the next statement of a call, alone and atomically. -/
def exec (kind : Kind Spec Status) (now : Time) (table : Table Spec Status) :
    Process Spec Status →
      Option (Table Spec Status × Process Spec Status ×
        Option (Effect Spec Status))
  | .countParent org name parent next =>
      if liveExists table ⟨org, parent⟩ then
        some (table, walkTo kind org [name] parent next, none)
      else
        some (table, .returned (some .parentNotFound), none)
  | .readParent org visited current next =>
      match selectParent table org current with
      | none => some (table, next.enter kind, none)
      | some parent => some (table, walkTo kind org visited parent next, none)
  | .insert object =>
      match insertRow now table object with
      | none => some (table, .returned (some .alreadyExists), none)
      | some inserted => some (inserted, .returned none, none)
  | .readExisting object =>
      match selectLive table object.key, kind.specBytes with
      | some existing, some specBytes =>
          some (table,
            .writeGuarded (GenericStore.bumpGeneration specBytes existing object)
              object.resource.resourceVersion, none)
      | some _, none =>
          some (table,
            .writeGuarded object object.resource.resourceVersion, none)
      | none, _ => some (table, .returned (some .notFound), none)
  | .writeGuarded object clientVersion =>
      match updateGuarded now table
          (GenericStore.stamp now clientVersion object) clientVersion with
      | none =>
          some (table, .returned (some .conflict), some (.refused object.key))
      | some updated =>
          some (updated, .returned none,
            replaced .accepted table updated object.key object.key)
  | .get key =>
      match selectLive table key with
      | none => some (table, .returned (some .notFound), none)
      | some row => some (table, .holding row, some (.read row))
  | .holding _ => none
  | .writeFields key version fields =>
      match updateFields now table key version fields with
      | none =>
          some (table,
            .returned (some (.database "partial updating resource")), none)
      | some none => some (table, .countExisting key, some (.refused key))
      | some (some updated) =>
          some (updated, .returned none,
            replaced .accepted table updated key (fields.renamed key))
  | .countExisting key =>
      if liveExists table key then
        some (table, .returned (some .conflict), none)
      else
        some (table, .returned (some .notFound), none)
  | .readForDelete key =>
      match selectLive table key with
      | none => some (table, .returned (some .notFound), none)
      | some existing => some (table, .countChildren key existing, none)
  | .countChildren key existing =>
      if hasChildren table key.org key.name then
        some (table, .returned (some .hasChildren), none)
      else if existing.resource.getFinalizers.length > 0 then
        some (table, .writeDeletionTimestamp key, none)
      else
        some (table, .writeDeletedAt key, none)
  | .writeDeletionTimestamp key =>
      some (finishWrite table key (markDeletion now table key)
        (some .finalizersPending) (some .finalizersPending))
  | .writeDeletedAt key =>
      some (finishWrite table key (softDelete now table key)
        (some .notFound) none)
  | .writeStatus _ key status =>
      some (finishWrite table key (Store.writeStatus now table key status)
        (some .notFound) none)
  | .writeDelivery key status =>
      some (finishWrite table key (Store.writeStatus now table key status)
        none none)
  | .returned _ => none

/--
A call whose next statement fails in the database.  `PartialUpdate` ignores
the error of its count and finds no row, and a delivery ignores its error.
-/
def fail : Process Spec Status → Option (Process Spec Status)
  | .countParent .. =>
      some (.returned (some (.database "checking parent existence")))
  | .readParent .. =>
      some (.returned (some (.database "walking ancestor chain")))
  | .insert _ => some (.returned (some (.database "creating resource")))
  | .readExisting _ =>
      some (.returned (some (.database "fetching existing resource")))
  | .writeGuarded .. =>
      some (.returned (some (.database "updating resource")))
  | .get _ => some (.returned (some (.database "getting resource")))
  | .holding _ => none
  | .writeFields .. =>
      some (.returned (some (.database "partial updating resource")))
  | .countExisting _ => some (.returned (some .notFound))
  | .readForDelete _ =>
      some (.returned (some (.database "fetching resource for delete")))
  | .countChildren .. =>
      some (.returned (some (.database "checking children")))
  | .writeDeletionTimestamp _ =>
      some (.returned (some (.database "setting deletion timestamp")))
  | .writeDeletedAt _ =>
      some (.returned (some (.database "deleting resource")))
  | .writeStatus tableName _ _ =>
      some (.returned (some (.database ("updating status in " ++ tableName))))
  | .writeDelivery .. => some (.returned none)
  | .returned _ => none

end Process

/-! ## Worlds -/

/-- The table, the calls in flight, and what their statements have done. -/
structure World (ι Spec Status : Type) where
  table : Table Spec Status
  processes : ι → Process Spec Status
  log : List (ι × Effect Spec Status)

/-- Which process moves, and how. -/
inductive Label (ι Spec Status : Type) where
  | execute (client : ι) (now : Time)
  | fail (client : ι)
  | update (client : ι) (object : Object Spec Status)
  | partialUpdate (client : ι) (fields : FieldMap Spec Status)

section Worlds

variable {ι : Type} [DecidableEq ι]

/-- The world after process `client` became `process`. -/
def World.setProcess (world : World ι Spec Status) (client : ι)
    (process : Process Spec Status) : World ι Spec Status :=
  { world with processes := Function.update world.processes client process }

/--
One step of the world.  A client that holds a copy may call `Update` with any
object of the same key and version, or `PartialUpdate` with the version it
read and any map that does not rename the row.
-/
def World.step (kind : Kind Spec Status) (world : World ι Spec Status) :
    Label ι Spec Status → Option (World ι Spec Status)
  | .execute client now =>
      ((world.processes client).exec kind now world.table).map fun result =>
        { table := result.1
          processes := Function.update world.processes client result.2.1
          log := world.log ++ result.2.2.toList.map (client, ·) }
  | .fail client =>
      (world.processes client).fail.map (world.setProcess client)
  | .update client object =>
      match world.processes client with
      | .holding row =>
          if object.key = row.key ∧
              object.resource.resourceVersion = row.resource.resourceVersion then
            some (world.setProcess client (Process.startUpdate kind object))
          else
            none
      | _ => none
  | .partialUpdate client fields =>
      match world.processes client with
      | .holding row =>
          if fields.renamed row.key = row.key then
            some (world.setProcess client
              (.writeFields row.key row.resource.resourceVersion fields))
          else
            none
      | _ => none

end Worlds

/-! ## What a step can do -/

/-- The key and version of the copy an `Update` is based on. -/
def Continuation.claim : Continuation Spec Status → Option (Key × Int64)
  | .create _ => none
  | .update object => some (object.key, object.resource.resourceVersion)

def Continuation.object : Continuation Spec Status → Object Spec Status
  | .create object => object
  | .update object => object

namespace Process

/-- The key and version of the copy a client works with. -/
def claim : Process Spec Status → Option (Key × Int64)
  | .countParent _ _ _ next => next.claim
  | .readParent _ _ _ next => next.claim
  | .readExisting object => some (object.key, object.resource.resourceVersion)
  | .writeGuarded object clientVersion => some (object.key, clientVersion)
  | .holding row => some (row.key, row.resource.resourceVersion)
  | .writeFields key version _ => some (key, version)
  | _ => none

/-- The object a `Create` or `Update` in flight is to store. -/
def carried : Process Spec Status → Option (Object Spec Status)
  | .countParent _ _ _ next => some next.object
  | .readParent _ _ _ next => some next.object
  | .insert object => some object
  | .readExisting object => some object
  | .writeGuarded object _ => some object
  | _ => none

/-- Calls all of whose writes are inserts or guarded by a version. -/
def optimistic : Process Spec Status → Bool
  | .readForDelete _ => false
  | .countChildren _ _ => false
  | .writeDeletionTimestamp _ => false
  | .writeDeletedAt _ => false
  | .writeStatus _ _ _ => false
  | .writeDelivery _ _ => false
  | _ => true

/-- A call of `Create`, `Update` or `Delete`, or one that has returned. -/
def storeCall : Process Spec Status → Bool
  | .get _ => false
  | .holding _ => false
  | .writeFields _ _ _ => false
  | .countExisting _ => false
  | .writeStatus _ _ _ => false
  | .writeDelivery _ _ => false
  | _ => true

theorem storeCall_of_carried
    {process : Process Spec Status} {object : Object Spec Status}
    (carries : process.carried = some object) :
    process.storeCall = true := by
  cases process with
  | get key => cases carries
  | holding row => cases carries
  | writeFields key version fields => cases carries
  | countExisting key => cases carries
  | writeStatus tableName key status => cases carries
  | writeDelivery key status => cases carries
  | _ => rfl

/-- A partial update that renames no row. -/
def keepsKey : Process Spec Status → Bool
  | .writeFields key _ fields => decide (fields.renamed key = key)
  | _ => true

/--
What a call hands on from one statement to the next when it neither reads a
copy nor writes.
-/
structure Follows (process next : Process Spec Status) : Prop where
  claim : next.claim = none ∨ next.claim = process.claim
  carried : ∀ object, next.carried = some object →
    (∃ row, process = .holding row) ∨
      ∃ earlier generation, process.carried = some earlier ∧
        object = earlier.setGeneration generation
  optimistic : process.optimistic = true → next.optimistic = true
  storeCall : process.storeCall = true → next.storeCall = true
  keepsKey : next.keepsKey = true
  started : ∀ key, next ≠ .get key

/-- A call that no longer carries an object or a copy. -/
theorem follows_of_plain
    {process next : Process Spec Status}
    (unclaimed : next.claim = none)
    (uncarried : next.carried = none)
    (optimistic : process.optimistic = true → next.optimistic = true)
    (storeCall : process.storeCall = true → next.storeCall = true)
    (keepsKey : next.keepsKey = true)
    (started : ∀ key, next ≠ .get key) :
    Follows process next where
  claim := Or.inl unclaimed
  carried := by
    intro object carries
    cases uncarried.symm.trans carries
  optimistic := optimistic
  storeCall := storeCall
  keepsKey := keepsKey
  started := started

theorem follows_returned (process : Process Spec Status)
    (error : Option StoreError) :
    Follows process (.returned error) :=
  follows_of_plain rfl rfl (fun _ => rfl) (fun _ => rfl) rfl
    (fun _ equal => by cases equal)

/-- A delete goes on with another of its statements. -/
theorem follows_unguarded {process next : Process Spec Status}
    (unguarded : process.optimistic = false)
    (deletes : (∃ key existing, next = .countChildren key existing) ∨
      (∃ key, next = .writeDeletionTimestamp key) ∨
        ∃ key, next = .writeDeletedAt key) :
    Follows process next := by
  have guardless (optimistic : process.optimistic = true) :
      next.optimistic = true := by
    cases unguarded.symm.trans optimistic
  rcases deletes with ⟨key, existing, rfl⟩ | ⟨key, rfl⟩ | ⟨key, rfl⟩ <;>
    exact follows_of_plain rfl rfl guardless (fun _ => rfl) rfl
      (fun _ equal => by cases equal)

/-- A call that goes on with its object, up to the generation. -/
theorem follows_of_carried
    {process next : Process Spec Status}
    {earlier : Object Spec Status} (generation : Int64)
    (source : process.carried = some earlier ∨ ∃ row, process = .holding row)
    (carries : next.carried = some (earlier.setGeneration generation))
    (claim : next.claim = none ∨ next.claim = process.claim)
    (optimistic : next.optimistic = true)
    (keepsKey : next.keepsKey = true)
    (started : ∀ key, next ≠ .get key) :
    Follows process next where
  claim := claim
  carried := by
    intro object carriesObject
    cases carries.symm.trans carriesObject
    rcases source with carriesEarlier | holds
    · exact Or.inr ⟨earlier, generation, carriesEarlier, rfl⟩
    · exact Or.inl holds
  optimistic _ := optimistic
  storeCall _ := storeCall_of_carried carries
  keepsKey := keepsKey
  started := started

section Validation

variable (kind : Kind Spec Status)
variable {process : Process Spec Status} {next : Continuation Spec Status}

/-- Where the ancestor loop leads: on to the call, to an error, or to a read. -/
theorem walkTo_cases {motive : Process Spec Status → Prop}
    (org : UUID) (visited : List String) (current : String)
    (enters : motive (next.enter kind))
    (refuses : motive (.returned (some .circularParent)))
    (reads : motive (.readParent org (current :: visited) current next)) :
    motive (walkTo kind org visited current next) := by
  unfold walkTo
  split
  · exact enters
  · split
    · exact refuses
    · exact reads

/-- Where the parent check leads before its first statement. -/
theorem validate_cases {motive : Process Spec Status → Prop}
    (object : Object Spec Status)
    (enters : motive (next.enter kind))
    (refuses : motive (.returned (some .circularParent)))
    (counts : ∀ parent,
      motive
        (.countParent object.resource.orgID object.resource.name parent next)) :
    motive (validate kind object next) := by
  unfold validate
  split
  · exact enters
  · split
    · exact enters
    · split
      · exact refuses
      · exact counts _

theorem follows_enter
    (sameClaim : process.claim = next.claim)
    (source :
      process.carried = some next.object ∨ ∃ row, process = .holding row) :
    Follows process (next.enter kind) := by
  cases next with
  | create object =>
      exact follows_of_carried object.resource.generation source rfl
        (Or.inl rfl) rfl rfl (fun _ equal => by cases equal)
  | update object =>
      unfold Continuation.enter
      cases kind.specBytes with
      | none =>
          exact follows_of_carried object.resource.generation source rfl
            (Or.inr sameClaim.symm) rfl rfl (fun _ equal => by cases equal)
      | some specBytes =>
          exact follows_of_carried object.resource.generation source rfl
            (Or.inr sameClaim.symm) rfl rfl (fun _ equal => by cases equal)

theorem follows_walkTo (org : UUID) (visited : List String) (current : String)
    (sameClaim : process.claim = next.claim)
    (source :
      process.carried = some next.object ∨ ∃ row, process = .holding row) :
    Follows process (walkTo kind org visited current next) := by
  refine walkTo_cases (motive := Follows process) kind org visited current
    (follows_enter kind sameClaim source) (follows_returned process _) ?_
  exact follows_of_carried next.object.resource.generation source rfl
    (Or.inr sameClaim.symm) rfl rfl (fun _ equal => by cases equal)

theorem follows_validate (object : Object Spec Status)
    (sameClaim : process.claim = next.claim)
    (source :
      process.carried = some next.object ∨ ∃ row, process = .holding row) :
    Follows process (validate kind object next) := by
  refine validate_cases (motive := Follows process) kind object
    (follows_enter kind sameClaim source) (follows_returned process _) ?_
  intro parent
  exact follows_of_carried next.object.resource.generation source rfl
    (Or.inr sameClaim.symm) rfl rfl (fun _ equal => by cases equal)

end Validation

/-- What the next statement of a call does, case by case. -/
inductive Does (now : Time) (table : Table Spec Status) :
    Process Spec Status → Table Spec Status → Process Spec Status →
      Option (Effect Spec Status) → Prop where
  | pass {process next : Process Spec Status}
      (follows : Follows process next) :
      Does now table process table next none
  | refuse {process : Process Spec Status} (key : Key)
      {next : Process Spec Status} (follows : Follows process next) :
      Does now table process table next (some (.refused key))
  | read {key : Key} {row : Object Spec Status}
      (selected : selectLive table key = some row) :
      Does now table (.get key) table (.holding row) (some (.read row))
  | insert {object : Object Spec Status} {inserted : Table Spec Status}
      (done : insertRow now table object = some inserted) :
      Does now table (.insert object) inserted (.returned none) none
  | accept {process : Process Spec Status} {updated : Table Spec Status}
      {key : Key} {version : Int64} {row new : Object Spec Status}
      (claims : process.claim = some (key, version))
      (found : table.find key = some row)
      (live : row.live = true)
      (current : row.resource.resourceVersion = version)
      (bumped : new.resource.resourceVersion = version + 1)
      (replaces : Replaces table updated key new)
      (writes :
        (∃ object, process = .writeGuarded object version ∧
          object.key = key ∧
          new = (GenericStore.stamp now version object).overwrite now row) ∨
        ∃ fields, process = .writeFields key version fields) :
      Does now table process updated (.returned none)
        (some (.accepted row new))
  | write {process : Process Spec Status} {written : Table Spec Status}
      {key : Key} {assign : Object Spec Status → Object Spec Status}
      {row : Object Spec Status} (error : Option StoreError)
      (writes : process.unguarded now = some (key, assign))
      (found : table.find key = some row)
      (live : row.live = true)
      (replaces : Replaces table written key (assign row)) :
      Does now table process written (.returned error)
        (some (.wrote row (assign row)))

variable {result : Table Spec Status × Process Spec Status × Option (Effect Spec Status)}
variable (kind : Kind Spec Status) (now : Time) (table : Table Spec Status)

theorem does_finishWrite
    {now : Time} {table : Table Spec Status} {process : Process Spec Status}
    (key : Key) (assign : Object Spec Status → Object Spec Status)
    (writes : process.unguarded now = some (key, assign))
    (keepsKey : ∀ row, (assign row).key = row.key)
    (missing found : Option StoreError)
    (done :
      finishWrite table key
        (updateLive table key (fun _ => true) assign keepsKey) missing found =
      result) :
    Does now table process result.1 result.2.1 result.2.2 := by
  subst done
  unfold finishWrite
  split
  · exact .pass (follows_returned process missing)
  · next written updated =>
      rcases updateLive_spec updated with ⟨row, stored, live, _, replaces⟩
      simp only [replaced_of_replaces .wrote stored replaces]
      exact .write found writes stored live replaces

theorem does_writeGuarded
    (object : Object Spec Status) (clientVersion : Int64)
    (done :
      (writeGuarded object clientVersion).exec kind now table = some result) :
    Does now table (.writeGuarded object clientVersion)
      result.1 result.2.1 result.2.2 := by
  simp only [exec] at done
  split at done
  · cases done
    exact .refuse object.key (follows_returned _ _)
  · next updated written =>
      cases done
      rcases updateLive_spec written with
        ⟨row, found, live, current, replaces⟩
      simp only [decide_eq_true_eq] at current
      have keyEq :
          (GenericStore.stamp now clientVersion object).key = object.key := rfl
      rw [keyEq] at found replaces
      simp only [replaced_of_replaces .accepted found replaces]
      exact .accept rfl found live current rfl replaces
        (Or.inl ⟨object, rfl, rfl, rfl⟩)

theorem does_writeFields
    (key : Key) (version : Int64) (fields : FieldMap Spec Status)
    (keepsKey : fields.renamed key = key)
    (done :
      (writeFields key version fields).exec kind now table = some result) :
    Does now table (.writeFields key version fields)
      result.1 result.2.1 result.2.2 := by
  simp only [exec] at done
  split at done
  · cases done
    exact .pass (follows_returned _ _)
  · cases done
    exact .refuse key (follows_of_plain rfl rfl (fun _ => rfl)
      (fun impossible => by cases impossible) rfl
      (fun _ equal => by cases equal))
  · next updated written =>
      cases done
      rcases updateFields_spec keepsKey written with
        ⟨row, found, live, current, replaces⟩
      simp only [keepsKey, replaced_of_replaces .accepted found replaces]
      exact .accept rfl found live current rfl replaces
        (Or.inr ⟨fields, rfl⟩)

/-- Every statement but a renaming one is covered by `Does`. -/
theorem exec_does
    (process : Process Spec Status) (keepsKey : process.keepsKey = true)
    (done : process.exec kind now table = some result) :
    Does now table process result.1 result.2.1 result.2.2 := by
  cases process with
  | countParent org name parent next =>
      simp only [exec] at done
      split at done
      · cases done
        exact .pass (follows_walkTo kind org [name] parent rfl (Or.inl rfl))
      · cases done
        exact .pass (follows_returned _ _)
  | readParent org visited current next =>
      simp only [exec] at done
      split at done
      · cases done
        exact .pass (follows_enter kind rfl (Or.inl rfl))
      · next parent selected =>
          cases done
          exact .pass (follows_walkTo kind org visited parent rfl (Or.inl rfl))
  | insert object =>
      simp only [exec] at done
      split at done
      · cases done
        exact .pass (follows_returned _ _)
      · next inserted stored =>
          cases done
          exact .insert stored
  | readExisting object =>
      simp only [exec] at done
      split at done
      · next existing specBytes _ _ =>
          cases done
          refine .pass ?_
          rcases GenericStore.bumpGeneration_eq specBytes existing object with
            ⟨generation, bumped⟩
          rw [bumped]
          exact follows_of_carried generation (Or.inl rfl) rfl (Or.inr rfl)
            rfl rfl (fun _ equal => by cases equal)
      · cases done
        exact .pass (follows_of_carried object.resource.generation (Or.inl rfl)
          rfl (Or.inr rfl) rfl rfl (fun _ equal => by cases equal))
      · cases done
        exact .pass (follows_returned _ _)
  | writeGuarded object clientVersion =>
      exact does_writeGuarded kind now table object clientVersion done
  | get key =>
      simp only [exec] at done
      split at done
      · cases done
        exact .pass (follows_returned _ _)
      · next row selected =>
          cases done
          exact .read selected
  | holding row => cases done
  | writeFields key version fields =>
      exact does_writeFields kind now table key version fields
        (of_decide_eq_true keepsKey) done
  | countExisting key =>
      simp only [exec] at done
      split at done
      · cases done
        exact .pass (follows_returned _ _)
      · cases done
        exact .pass (follows_returned _ _)
  | readForDelete key =>
      simp only [exec] at done
      split at done
      · cases done
        exact .pass (follows_returned _ _)
      · cases done
        exact .pass (follows_unguarded rfl (Or.inl ⟨_, _, rfl⟩))
  | countChildren key existing =>
      simp only [exec] at done
      split at done
      · cases done
        exact .pass (follows_returned _ _)
      · split at done
        · cases done
          exact .pass (follows_unguarded rfl (Or.inr (Or.inl ⟨_, rfl⟩)))
        · cases done
          exact .pass (follows_unguarded rfl (Or.inr (Or.inr ⟨_, rfl⟩)))
  | writeDeletionTimestamp key =>
      exact does_finishWrite key (Object.markDeletion now) rfl (fun _ => rfl) _ _
        (Option.some.inj done)
  | writeDeletedAt key =>
      exact does_finishWrite key (Object.softDelete now) rfl (fun _ => rfl) _ _
        (Option.some.inj done)
  | writeStatus tableName key status =>
      exact does_finishWrite key (Object.setStatus now status) rfl (fun _ => rfl) _ _
        (Option.some.inj done)
  | writeDelivery key status =>
      exact does_finishWrite key (Object.setStatus now status) rfl (fun _ => rfl) _ _
        (Option.some.inj done)
  | returned error => cases done

end Process

/-- The process that a statement leaves behind renames nothing. -/
theorem Process.Does.keepsKey
    {now : Time} {table after : Table Spec Status}
    {process next : Process Spec Status} {effect : Option (Effect Spec Status)}
    (does : Process.Does now table process after next effect) :
    next.keepsKey = true := by
  cases does with
  | pass follows => exact follows.keepsKey
  | refuse key follows => exact follows.keepsKey
  | read => rfl
  | insert => rfl
  | accept => rfl
  | write => rfl

/-- No partial update in flight renames its row. -/
def World.KeepsKeys {ι : Type} (world : World ι Spec Status) : Prop :=
  ∀ client, (world.processes client).keepsKey = true

theorem Process.fail_follows
    {process next : Process Spec Status}
    (failed : process.fail = some next) :
    Process.Follows process next := by
  cases process with
  | holding row => cases failed
  | returned error => cases failed
  | _ =>
      cases failed
      exact Process.follows_returned _ _

section Worlds

variable {ι : Type} [DecidableEq ι]

/-- What a step of the world does: a statement, or local code only. -/
inductive World.Moves (world : World ι Spec Status) :
    Label ι Spec Status → World ι Spec Status → Prop where
  | execute {client : ι} {now : Time} {table : Table Spec Status}
      {process next : Process Spec Status}
      {effect : Option (Effect Spec Status)}
      (running : world.processes client = process)
      (does : Process.Does now world.table process table next effect) :
      Moves world (.execute client now)
        { table := table
          processes := Function.update world.processes client next
          log := world.log ++ effect.toList.map (client, ·) }
  | silent {label : Label ι Spec Status} {client : ι}
      {process : Process Spec Status}
      (stays : ∀ other now, label ≠ .execute other now)
      (follows : Process.Follows (world.processes client) process) :
      Moves world label (world.setProcess client process)

theorem World.step_moves
    (kind : Kind Spec Status) {world next : World ι Spec Status}
    {label : Label ι Spec Status}
    (keepsKeys : world.KeepsKeys)
    (stepped : world.step kind label = some next) :
    world.Moves label next := by
  cases label with
  | execute client now =>
      rcases Option.map_eq_some_iff.mp stepped with ⟨result, done, rfl⟩
      exact .execute rfl
        (Process.exec_does kind now world.table _ (keepsKeys client) done)
  | fail client =>
      rcases Option.map_eq_some_iff.mp stepped with ⟨process, failed, rfl⟩
      exact .silent (fun _ _ equal => by cases equal) (Process.fail_follows failed)
  | update client object =>
      simp only [World.step] at stepped
      split at stepped
      · next row holds =>
          split at stepped
          · next same =>
              cases stepped
              refine .silent (fun _ _ equal => by cases equal) ?_
              rw [holds]
              refine Process.follows_validate kind object ?_ (Or.inr ⟨row, rfl⟩)
              simp only [Process.claim, Continuation.claim, same]
          · cases stepped
      · cases stepped
  | partialUpdate client fields =>
      simp only [World.step] at stepped
      split at stepped
      · next row holds =>
          split at stepped
          · next same =>
              cases stepped
              refine .silent (fun _ _ equal => by cases equal) ?_
              rw [holds]
              exact
                { claim := Or.inr rfl
                  carried := fun _ carries => by cases carries
                  optimistic := fun _ => rfl
                  storeCall := fun impossible => by cases impossible
                  keepsKey := decide_eq_true same
                  started := fun _ equal => by cases equal }
          · cases stepped
      · cases stepped

theorem World.Moves.keepsKeys
    {world next : World ι Spec Status} {label : Label ι Spec Status}
    (moves : world.Moves label next)
    (keepsKeys : world.KeepsKeys) :
    next.KeepsKeys := by
  intro other
  cases moves with
  | @execute client now table process next effect running does =>
      change (Function.update world.processes client next other).keepsKey = true
      rw [Function.update_apply]
      split
      · exact does.keepsKey
      · exact keepsKeys other
  | @silent _ client process stays follows =>
      change (Function.update world.processes client process other).keepsKey =
        true
      rw [Function.update_apply]
      split
      · exact follows.keepsKey
      · exact keepsKeys other

end Worlds

end Infractl.Store
