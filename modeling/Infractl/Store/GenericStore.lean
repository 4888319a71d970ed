import Infractl.Lib.Run
import Infractl.Store.Nesting

/-!
# The generic store

The calls of `GenericStore`, each executed alone on the table.  A call reads
with several statements and writes with at most one, its last.  `update` and
`create` also return the object they were given, which they change in place:
the insert hooks and the bumped version and generation show in the caller's
copy.

For each writing call a lemma says what it can do to the table.  Sequential
runs are lists of calls; a call is always enabled.
-/

namespace Infractl.Store

open Infractl.Lib

variable {Spec Status : Type}

/-- What a call on an object leaves behind. -/
@[ext]
structure Outcome (Spec Status : Type) where
  table : Table Spec Status
  object : Object Spec Status
  error : Option StoreError

namespace GenericStore

/-- The parent check of `Create` and `Update`; no parent needs no check. -/
def validateParent (table : Table Spec Status) (object : Object Spec Status) :
    Option StoreError :=
  match object.resource.parent with
  | none => none
  | some parent =>
      if parent = "" then
        none
      else
        Store.validateParent table object.resource.orgID object.resource.name
          parent

/-- `Create`. -/
def create (now : Time) (table : Table Spec Status)
    (object : Object Spec Status) : Outcome Spec Status :=
  match validateParent table object with
  | some error => ⟨table, object, some error⟩
  | none =>
      match insertRow now table object with
      | none => ⟨table, object.prepareInsert now, some .alreadyExists⟩
      | some inserted => ⟨inserted, object.prepareInsert now, none⟩

/-- `Get`. -/
def get (table : Table Spec Status) (org : UUID) (name : String) :
    Except StoreError (Object Spec Status) :=
  match selectLive table ⟨org, name⟩ with
  | none => .error .notFound
  | some row => .ok row

/--
The generation of a tracked kind moves when the marshalled spec differs from
the stored one.
-/
def bumpGeneration
    (specBytes : Object Spec Status → Option (List UInt8))
    (existing object : Object Spec Status) : Object Spec Status :=
  match specBytes existing, specBytes object with
  | some oldSpec, some newSpec =>
      if oldSpec = newSpec then
        object
      else
        object.setGeneration (object.resource.generation + 1)
  | _, _ => object

/-- The generation step of `Update`, with its separate read. -/
def trackGeneration (kind : Kind Spec Status) (table : Table Spec Status)
    (object : Object Spec Status) :
    Except StoreError (Object Spec Status) :=
  match kind.specBytes with
  | none => .ok object
  | some specBytes =>
      match selectLive table object.key with
      | none => .error .notFound
      | some existing => .ok (bumpGeneration specBytes existing object)

/-- The object as `Update` leaves it once its statement has been built. -/
def stamp (now : Time) (clientVersion : Int64) (object : Object Spec Status) :
    Object Spec Status :=
  let bumped := object.setResourceVersion (clientVersion + 1)
  bumped.overwrite now bumped

/-- `Update`. -/
def update (kind : Kind Spec Status) (now : Time) (table : Table Spec Status)
    (object : Object Spec Status) : Outcome Spec Status :=
  match validateParent table object with
  | some error => ⟨table, object, some error⟩
  | none =>
      let clientVersion := object.resource.resourceVersion
      match trackGeneration kind table object with
      | .error error => ⟨table, object, some error⟩
      | .ok tracked =>
          let stamped := stamp now clientVersion tracked
          match updateGuarded now table stamped clientVersion with
          | none => ⟨table, stamped, some .conflict⟩
          | some updated => ⟨updated, stamped, none⟩

/-- `PartialUpdate`. -/
def partialUpdate (now : Time) (table : Table Spec Status) (key : Key)
    (version : Int64) (fields : FieldMap Spec Status) :
    Table Spec Status × Option StoreError :=
  match updateFields now table key version fields with
  | none => (table, some (.database "partial updating resource"))
  | some (some updated) => (updated, none)
  | some none =>
      if liveExists table key then
        (table, some .conflict)
      else
        (table, some .notFound)

/-- `Delete`. -/
def delete (now : Time) (table : Table Spec Status) (key : Key) :
    Table Spec Status × Option StoreError :=
  match selectLive table key with
  | none => (table, some .notFound)
  | some existing =>
      if hasChildren table key.org key.name then
        (table, some .hasChildren)
      else if existing.resource.getFinalizers.length > 0 then
        ((markDeletion now table key).getD table, some .finalizersPending)
      else
        match softDelete now table key with
        | none => (table, some .notFound)
        | some deleted => (deleted, none)

/-! ## What the calls do to the table -/

variable {table : Table Spec Status} {object : Object Spec Status}
variable (kind : Kind Spec Status) (now : Time)

theorem create_table (table : Table Spec Status) (object : Object Spec Status) :
    (create now table object).table = table ∨
      (validateParent table object = none ∧
        insertRow now table object = some (create now table object).table) := by
  unfold create
  split
  · exact Or.inl rfl
  · next accepted =>
      split
      · exact Or.inl rfl
      · next inserted done => exact Or.inr ⟨accepted, done⟩

theorem bumpGeneration_eq
    (specBytes : Object Spec Status → Option (List UInt8))
    (existing object : Object Spec Status) :
    ∃ generation,
      bumpGeneration specBytes existing object =
        object.setGeneration generation := by
  unfold bumpGeneration
  split
  · split
    · exact ⟨object.resource.generation, rfl⟩
    · exact ⟨_, rfl⟩
  · exact ⟨object.resource.generation, rfl⟩

theorem trackGeneration_eq_ok
    {kind : Kind Spec Status} {object tracked : Object Spec Status}
    (done : trackGeneration kind table object = .ok tracked) :
    ∃ generation, tracked = object.setGeneration generation := by
  unfold trackGeneration at done
  split at done
  · cases done
    exact ⟨object.resource.generation, rfl⟩
  · split at done
    · cases done
    · cases done
      exact bumpGeneration_eq ..

/--
The state in which an `Update` is accepted: its parent passes, and a live row
is stored under its key with the version it carries.
-/
def acceptsUpdate (table : Table Spec Status) (object : Object Spec Status) :
    Bool :=
  (validateParent table object).isNone &&
    (selectLive table object.key).any (fun row =>
      decide (row.resource.resourceVersion = object.resource.resourceVersion))

/-- The columns an accepted `Update` writes, up to the generation. -/
def updated (now : Time) (generation : Int64) (object : Object Spec Status) :
    Object Spec Status :=
  stamp now object.resource.resourceVersion (object.setGeneration generation)

theorem overwrite_updated
    (generation : Int64) {object row : Object Spec Status}
    (sameKey : row.key = object.key) :
    (updated now generation object).overwrite now row =
      updated now generation object := by
  have sameOrg : row.resource.orgID = object.resource.orgID :=
    congrArg Key.org sameKey
  have sameName : row.resource.name = object.resource.name :=
    congrArg Key.name sameKey
  simp [updated, stamp, Object.overwrite, Object.setResourceVersion,
    Object.setGeneration, sameOrg, sameName]

/-- An accepted `Update` issues its statement with the tracked generation. -/
theorem update_tracked (accepted : acceptsUpdate table object = true) :
    (update kind now table object).error = none ∧
      ∃ generation,
        trackGeneration kind table object =
          .ok (object.setGeneration generation) ∧
        updateGuarded now table (updated now generation object)
            object.resource.resourceVersion =
          some (update kind now table object).table := by
  simp only [acceptsUpdate, Bool.and_eq_true, Option.isNone_iff_eq_none,
    Option.any_eq_true, decide_eq_true_eq] at accepted
  rcases accepted with ⟨parentAccepted, row, selected, versionEq⟩
  have stored := (selectLive_eq_some_iff table object.key row).mp selected
  rcases tracking : trackGeneration kind table object with error | tracked
  · unfold trackGeneration at tracking
    split at tracking
    · cases tracking
    · rw [selected] at tracking
      cases tracking
  · rcases trackGeneration_eq_ok tracking with ⟨generation, rfl⟩
    cases guarded :
        updateGuarded now table (updated now generation object)
          object.resource.resourceVersion with
    | none =>
        have unmatched := updateLive_eq_none_iff.mp guarded row stored.1 stored.2
        simp [versionEq] at unmatched
    | some result =>
        have computed :
            update kind now table object =
              ⟨result, updated now generation object, none⟩ := by
          change updateGuarded now table
              (stamp now object.resource.resourceVersion
                (object.setGeneration generation))
              object.resource.resourceVersion = some result at guarded
          simp only [update, parentAccepted, tracking, guarded]
          rfl
        rw [computed]
        exact ⟨rfl, generation, rfl, guarded⟩

/-- An accepted `Update` replaces the row under its key, and nothing else. -/
theorem update_accepted (accepted : acceptsUpdate table object = true) :
    (update kind now table object).error = none ∧
      ∃ generation,
        updateGuarded now table (updated now generation object)
            object.resource.resourceVersion =
          some (update kind now table object).table ∧
        Replaces table (update kind now table object).table object.key
          (updated now generation object) := by
  rcases update_tracked kind now accepted with
    ⟨succeeded, generation, _, guarded⟩
  refine ⟨succeeded, generation, guarded, ?_⟩
  intro wanted
  have keyEq : (updated now generation object).key = object.key := rfl
  rcases updateLive_spec guarded with ⟨matched, found, _, _, after⟩
  have matchedKey : matched.key = object.key := KeyedTable.key_of_find found
  rw [after wanted, keyEq, overwrite_updated now generation matchedKey]

theorem update_refused (refused : acceptsUpdate table object = false) :
    (update kind now table object).table = table ∧
      (update kind now table object).error ≠ none := by
  cases parentCheck : validateParent table object with
  | some error => simp [update, parentCheck]
  | none =>
      rcases tracking : trackGeneration kind table object with error | tracked
      · simp [update, parentCheck, tracking]
      · rcases trackGeneration_eq_ok tracking with ⟨generation, rfl⟩
        cases guarded :
            updateGuarded now table
              (stamp now object.resource.resourceVersion
                (object.setGeneration generation))
              object.resource.resourceVersion with
        | none => simp [update, parentCheck, tracking, guarded]
        | some result =>
            rcases updateLive_spec guarded with
              ⟨row, found, live, versionEq, _⟩
            have selected : selectLive table object.key = some row :=
              (selectLive_eq_some_iff _ _ _).mpr ⟨found, live⟩
            simp only [acceptsUpdate, parentCheck, selected, Option.isNone_none,
              Bool.true_and, Option.any_some] at refused
            exact absurd (versionEq.symm.trans refused) (by decide)

/-- A call succeeds in the states that accept it. -/
@[simp]
theorem update_error_eq_none_iff
    (table : Table Spec Status) (object : Object Spec Status) :
    (update kind now table object).error = none ↔
      acceptsUpdate table object = true := by
  cases accepted : acceptsUpdate table object with
  | false => simp [(update_refused kind now accepted).2]
  | true => simp [(update_accepted kind now accepted).1]

theorem partialUpdate_table
    (table : Table Spec Status) (key : Key) (version : Int64)
    (fields : FieldMap Spec Status) :
    (partialUpdate now table key version fields).1 = table ∨
      updateFields now table key version fields =
        some (some (partialUpdate now table key version fields).1) := by
  unfold partialUpdate
  split
  · exact Or.inl rfl
  · next result done => exact Or.inr done
  · split <;> exact Or.inl rfl

theorem partialUpdate_refused
    {key : Key} {version : Int64} {fields : FieldMap Spec Status}
    (refused : acceptsFields table key version fields = false) :
    (partialUpdate now table key version fields).1 = table := by
  rcases partialUpdate_table now table key version fields with unchanged | done
  · exact unchanged
  · have accepted :=
      (updateFields_accepted_iff now table key version fields).mp ⟨_, done⟩
    rw [refused] at accepted
    cases accepted

/-- An accepted `PartialUpdate` found a live row at the expected version. -/
theorem partialUpdate_accepted
    {key : Key} {version : Int64} {fields : FieldMap Spec Status}
    (accepted : acceptsFields table key version fields = true) :
    updateFields now table key version fields =
        some (some (partialUpdate now table key version fields).1) ∧
      ∃ row, table.find key = some row ∧ row.live = true ∧
        row.resource.resourceVersion = version ∧
        (fields.renamed key = key ∨
          table.find (fields.renamed key) = none) := by
  rcases (updateFields_accepted_iff now table key version fields).mpr accepted
    with ⟨result, done⟩
  have computed : (partialUpdate now table key version fields).1 = result := by
    simp [partialUpdate, done]
  rw [computed]
  simp only [acceptsFields, Bool.and_eq_true, Bool.or_eq_true,
    Option.any_eq_true, decide_eq_true_eq, Option.isNone_iff_eq_none] at accepted
  rcases accepted with ⟨_, ⟨row, selected, versionEq⟩, free⟩
  rcases (selectLive_eq_some_iff table key row).mp selected with ⟨found, live⟩
  exact ⟨done, row, found, live, versionEq, free⟩

/--
What `Delete` answers and does: the row is missing, has children, has
finalizers and is marked, or is deleted.
-/
theorem delete_cases (table : Table Spec Status) (key : Key) :
    (selectLive table key = none ∧
      delete now table key = (table, some .notFound)) ∨
    ∃ existing, selectLive table key = some existing ∧
      ((hasChildren table key.org key.name = true ∧
        delete now table key = (table, some .hasChildren)) ∨
      (hasChildren table key.org key.name = false ∧
        existing.resource.getFinalizers ≠ [] ∧
        ∃ marked, markDeletion now table key = some marked ∧
          delete now table key = (marked, some .finalizersPending)) ∨
      (hasChildren table key.org key.name = false ∧
        existing.resource.getFinalizers = [] ∧
        ∃ deleted, softDelete now table key = some deleted ∧
          delete now table key = (deleted, none))) := by
  cases selected : selectLive table key with
  | none => exact Or.inl ⟨rfl, by rw [delete, selected]⟩
  | some existing =>
      refine Or.inr ⟨existing, rfl, ?_⟩
      cases counted : hasChildren table key.org key.name with
      | true => exact Or.inl ⟨rfl, by simp [delete, selected, counted]⟩
      | false =>
          refine Or.inr ?_
          by_cases unfinalized : existing.resource.getFinalizers = []
          · rcases updateLive_of_selected (Object.softDelete now) (fun _ => rfl)
              selected with ⟨deleted, updated⟩
            refine Or.inr ⟨rfl, unfinalized, deleted, updated, ?_⟩
            simp [delete, selected, counted, unfinalized, softDelete, updated]
          · rcases updateLive_of_selected (Object.markDeletion now)
              (fun _ => rfl) selected with ⟨marked, updated⟩
            refine Or.inl ⟨rfl, unfinalized, marked, updated, ?_⟩
            have pending := List.length_pos_iff.mpr unfinalized
            simp [delete, selected, counted, pending, markDeletion, updated]

theorem delete_table (table : Table Spec Status) (key : Key) :
    (delete now table key).1 = table ∨
      markDeletion now table key = some (delete now table key).1 ∨
      (∃ existing, selectLive table key = some existing ∧
        hasChildren table key.org key.name = false ∧
        existing.resource.getFinalizers = [] ∧
        softDelete now table key = some (delete now table key).1) := by
  rcases delete_cases now table key with
    ⟨_, answer⟩ | ⟨existing, selected, ⟨_, answer⟩ |
      ⟨_, _, marked, updated, answer⟩ |
      ⟨childless, unfinalized, deleted, updated, answer⟩⟩
  · exact Or.inl (congrArg Prod.fst answer)
  · exact Or.inl (congrArg Prod.fst answer)
  · rw [answer]
    exact Or.inr (Or.inl updated)
  · rw [answer]
    exact Or.inr (Or.inr ⟨existing, selected, childless, unfinalized, updated⟩)

/-! ## Sequential runs -/

/-- A writing call together with its arguments. -/
inductive Call (Spec Status : Type) where
  | create (object : Object Spec Status)
  | update (object : Object Spec Status)
  | partialUpdate (key : Key) (version : Int64) (fields : FieldMap Spec Status)
  | delete (key : Key)

/-- The table after a call, whether it succeeded or failed. -/
def execute (kind : Kind Spec Status) (table : Table Spec Status)
    (now : Time) : Call Spec Status → Table Spec Status
  | .create object => (create now table object).table
  | .update object => (update kind now table object).table
  | .partialUpdate key version fields =>
      (partialUpdate now table key version fields).1
  | .delete key => (delete now table key).1

/-- One call of a sequential run, at the time its label carries. -/
def callStep (kind : Kind Spec Status) (table : Table Spec Status)
    (label : Time × Call Spec Status) : Option (Table Spec Status) :=
  some (execute kind table label.1 label.2)

end GenericStore

end Infractl.Store
