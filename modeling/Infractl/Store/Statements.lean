import Infractl.Lib.KeyedTable
import Infractl.Store.Model

/-!
# The SQL statements of the store

A resource table holds one row per `(org_id, name)`, soft-deleted rows
included: a soft delete only sets `deleted_at`, and the primary key does not
look at it.  Every statement issued through the mapper on a model with a
`DeletedAt` column carries `deleted_at IS NULL`, so that a soft-deleted row is
neither read nor written again.

Each definition below is one statement, executed atomically.  A statement that
writes answers `none` when it matches no row.  All single-row writes are
instances of `updateLive`, whose two specifications are the only facts later
modules use about them.
-/

namespace Infractl.Store

open Infractl.Lib

variable {Spec Status : Type}

/-- A resource table, keyed by `(org_id, name)`. -/
abbrev Table (Spec Status : Type) :=
  KeyedTable (Object.key : Object Spec Status → Key)

/-! ## Reads -/

/-- `SELECT * WHERE org_id = ? AND name = ?`, on live rows. -/
def selectLive (table : Table Spec Status) (key : Key) :
    Option (Object Spec Status) :=
  (table.find key).filter Object.live

theorem selectLive_eq_some_iff
    (table : Table Spec Status) (key : Key) (row : Object Spec Status) :
    selectLive table key = some row ↔
      table.find key = some row ∧ row.live = true := by
  simp [selectLive, Option.filter_eq_some_iff]

/-- `SELECT count(*)` under a key, positive when a live row is stored there. -/
def liveExists (table : Table Spec Status) (key : Key) : Bool :=
  (selectLive table key).isSome

theorem liveExists_iff (table : Table Spec Status) (key : Key) :
    liveExists table key = true ↔
      ∃ row, table.find key = some row ∧ row.live = true := by
  simp [liveExists, Option.isSome_iff_exists, selectLive_eq_some_iff]

/--
`SELECT parent WHERE org_id = ? AND name = ?` scanned into a nil pointer: the
pointer stays nil when no live row matches.
-/
def selectParent (table : Table Spec Status) (org : UUID) (name : String) :
    Option String :=
  (selectLive table ⟨org, name⟩).bind (fun row => row.resource.parent)

/-- A live row of the tenant naming `name` as its parent. -/
def isChildOf (org : UUID) (name : String) (row : Object Spec Status) : Bool :=
  row.live && row.resource.orgID = org && row.resource.parent = some name

/-- `SELECT count(*) WHERE org_id = ? AND parent = ?`. -/
def countChildren (table : Table Spec Status) (org : UUID) (name : String) :
    Nat :=
  table.rows.countP (isChildOf org name)

/-! ## Writes -/

/-- `after` is `before` with `row` stored under `key`. -/
def Replaces (before after : Table Spec Status) (key : Key)
    (row : Object Spec Status) : Prop :=
  ∀ wanted, after.find wanted =
    if wanted = key then some row else before.find wanted

theorem Replaces.find_self
    {before after : Table Spec Status} {key : Key} {row : Object Spec Status}
    (replaces : Replaces before after key row) :
    after.find key = some row := by
  rw [replaces key, if_pos rfl]

theorem Replaces.find_other
    {before after : Table Spec Status} {key wanted : Key}
    {row : Object Spec Status}
    (replaces : Replaces before after key row)
    (different : wanted ≠ key) :
    after.find wanted = before.find wanted := by
  rw [replaces wanted, if_neg different]

/--
`UPDATE ... WHERE org_id = ? AND name = ? AND <guard> AND deleted_at IS NULL`,
with a column list that leaves the primary key out.
-/
def updateLive (table : Table Spec Status) (key : Key)
    (guard : Object Spec Status → Bool)
    (assign : Object Spec Status → Object Spec Status)
    (keepsKey : ∀ row, (assign row).key = row.key) :
    Option (Table Spec Status) :=
  table.update? key (fun row => row.live && guard row) assign keepsKey

section UpdateLive

variable {table result : Table Spec Status} {key : Key}
variable {guard : Object Spec Status → Bool}
variable {assign : Object Spec Status → Object Spec Status}
variable {keepsKey : ∀ row, (assign row).key = row.key}

theorem updateLive_eq_none_iff :
    updateLive table key guard assign keepsKey = none ↔
      ∀ row, table.find key = some row → row.live = true → guard row = false := by
  rw [updateLive, KeyedTable.update?_eq_none_iff]
  simp only [Bool.and_eq_false_imp]

/-- The row a successful statement matched, and every row afterwards. -/
theorem updateLive_spec
    (updated : updateLive table key guard assign keepsKey = some result) :
    ∃ row, table.find key = some row ∧ row.live = true ∧ guard row = true ∧
      Replaces table result key (assign row) := by
  rcases KeyedTable.update?_spec updated with ⟨row, found, chosen, replaces⟩
  simp only [Bool.and_eq_true] at chosen
  exact ⟨row, found, chosen.1, chosen.2, replaces⟩

/-- A statement writes the row that a read has just returned. -/
theorem replaces_of_selected {row : Object Spec Status}
    (selected : selectLive table key = some row)
    (updated : updateLive table key guard assign keepsKey = some result) :
    Replaces table result key (assign row) := by
  rcases updateLive_spec updated with ⟨stored, found, _, _, replaces⟩
  cases found.symm.trans ((selectLive_eq_some_iff ..).mp selected).1
  exact replaces

/-- The same statement seen as a rewriting of the rows in place. -/
theorem updateLive_rows
    (updated : updateLive table key guard assign keepsKey = some result) :
    result.rows =
      table.rows.map (fun row =>
        if decide (row.key = key) && (row.live && guard row) then assign row
        else row) :=
  KeyedTable.update?_rows updated

end UpdateLive

/-- Without a guard, a statement matches the row that was just read. -/
theorem updateLive_of_selected {table : Table Spec Status} {key : Key}
    {row : Object Spec Status}
    (assign : Object Spec Status → Object Spec Status)
    (keepsKey : ∀ stored, (assign stored).key = stored.key)
    (selected : selectLive table key = some row) :
    ∃ result,
      updateLive table key (fun _ => true) assign keepsKey = some result := by
  rcases (selectLive_eq_some_iff table key row).mp selected with ⟨found, live⟩
  cases updated : updateLive table key (fun _ => true) assign keepsKey with
  | none => cases updateLive_eq_none_iff.mp updated row found live
  | some result => exact ⟨result, rfl⟩

/-- The row an insert stores: hooks applied and unset times filled in. -/
def Object.prepareInsert (now : Time) (object : Object Spec Status) :
    Object Spec Status :=
  let hooked := object.resource.beforeCreate
  { object with
    resource := { hooked with
      createdAt := if hooked.createdAt = 0 then now else hooked.createdAt
      updatedAt := if hooked.updatedAt = 0 then now else hooked.updatedAt } }

@[simp]
theorem Object.key_prepareInsert (now : Time) (object : Object Spec Status) :
    (object.prepareInsert now).key = object.key :=
  rfl

/-- `INSERT`; `none` is a violation of the primary key. -/
def insertRow (now : Time) (table : Table Spec Status)
    (object : Object Spec Status) : Option (Table Spec Status) :=
  table.insert? (object.prepareInsert now)

theorem replaces_of_insertRow
    {now : Time} {before after : Table Spec Status}
    {object : Object Spec Status}
    (inserted : insertRow now before object = some after) :
    Replaces before after object.key (object.prepareInsert now) := by
  intro wanted
  rw [KeyedTable.find_insert? inserted wanted, Object.key_prepareInsert]
  by_cases same : object.key = wanted
  · simp [same]
  · simp [same, Ne.symm same]

/-- What `Select("*").Updates(res)` writes over a row: all but its key. -/
def Object.overwrite (now : Time) (object row : Object Spec Status) :
    Object Spec Status :=
  { object with
    resource := { object.resource with
      orgID := row.resource.orgID
      name := row.resource.name
      updatedAt := now } }

/-- The update guarded by the version the client read. -/
def updateGuarded (now : Time) (table : Table Spec Status)
    (object : Object Spec Status) (clientVersion : Int64) :
    Option (Table Spec Status) :=
  updateLive table object.key
    (fun row => decide (row.resource.resourceVersion = clientVersion))
    (fun row => object.overwrite now row)
    (fun _ => rfl)

/-- The columns `Delete` sets on a row with finalizers. -/
def Object.markDeletion (now : Time) (row : Object Spec Status) :
    Object Spec Status :=
  { row with
    resource := { row.resource with
      deletionTimestamp := some now
      updatedAt := now } }

/-- The column `Delete` sets on a row without finalizers. -/
def Object.softDelete (now : Time) (row : Object Spec Status) :
    Object Spec Status :=
  { row with resource := { row.resource with deletedAt := some now } }

/-- The columns a status update sets. -/
def Object.setStatus (now : Time) (status : Status)
    (row : Object Spec Status) : Object Spec Status :=
  { row with
    resource := { row.resource with updatedAt := now }
    status := status }

/-- `UPDATE ... SET deletion_timestamp = now, updated_at = now`. -/
def markDeletion (now : Time) (table : Table Spec Status) (key : Key) :
    Option (Table Spec Status) :=
  updateLive table key (fun _ => true) (Object.markDeletion now) (fun _ => rfl)

/-- `UPDATE ... SET deleted_at = now`. -/
def softDelete (now : Time) (table : Table Spec Status) (key : Key) :
    Option (Table Spec Status) :=
  updateLive table key (fun _ => true) (Object.softDelete now) (fun _ => rfl)

/-- `UPDATE ... SET status = ?, updated_at = now`. -/
def writeStatus (now : Time) (table : Table Spec Status) (key : Key)
    (status : Status) : Option (Table Spec Status) :=
  updateLive table key (fun _ => true) (Object.setStatus now status)
    (fun _ => rfl)

/-! ## Partial updates -/

/--
A map from column names to values, as `PartialUpdate` receives it.  A column
without a value is absent from the map.  The entries for `resource_version`
and `updated_at` are missing here because the store overwrites them.
`malformed` stands for a map the database refuses: a key that names no column
or names one twice, or a value of the wrong type.
-/
structure FieldMap (Spec Status : Type) where
  orgID : Option UUID := none
  name : Option String := none
  parent : Option (Option String) := none
  labels : Option JSONMap := none
  annotations : Option JSONMap := none
  finalizers : Option JSONArray := none
  generation : Option Int64 := none
  owner : Option (Option String) := none
  creator : Option String := none
  createdAt : Option Time := none
  deletionTimestamp : Option (Option Time) := none
  deletedAt : Option (Option Time) := none
  spec : Option Spec := none
  status : Option Status := none
  malformed : Bool := false

namespace FieldMap

/-- The row after the columns of the map have been assigned. -/
def assign (fields : FieldMap Spec Status) (now : Time) (version : Int64)
    (row : Object Spec Status) : Object Spec Status where
  resource := {
    orgID := fields.orgID.getD row.resource.orgID
    name := fields.name.getD row.resource.name
    parent := fields.parent.getD row.resource.parent
    labels := fields.labels.getD row.resource.labels
    annotations := fields.annotations.getD row.resource.annotations
    finalizers := fields.finalizers.getD row.resource.finalizers
    generation := fields.generation.getD row.resource.generation
    resourceVersion := version
    owner := fields.owner.getD row.resource.owner
    creator := fields.creator.getD row.resource.creator
    createdAt := fields.createdAt.getD row.resource.createdAt
    updatedAt := now
    deletionTimestamp :=
      fields.deletionTimestamp.getD row.resource.deletionTimestamp
    deletedAt := fields.deletedAt.getD row.resource.deletedAt }
  spec := fields.spec.getD row.spec
  status := fields.status.getD row.status

/-- The key of a row after the assignment. -/
def renamed (fields : FieldMap Spec Status) (key : Key) : Key :=
  ⟨fields.orgID.getD key.org, fields.name.getD key.name⟩

@[simp]
theorem key_assign (fields : FieldMap Spec Status) (now : Time)
    (version : Int64) (row : Object Spec Status) :
    (fields.assign now version row).key = fields.renamed row.key :=
  rfl

end FieldMap

/-- The rows the guarded partial update selects: at most one. -/
def isVersionOf (key : Key) (version : Int64) (row : Object Spec Status) :
    Bool :=
  decide (row.key = key) &&
    (row.live && decide (row.resource.resourceVersion = version))

/--
`UPDATE ... SET <fields>, resource_version = v + 1, updated_at = now` guarded
by version `v`.  The inner `none` is a statement that matched no row, the
outer one a statement the database refused.
-/
def updateFields (now : Time) (table : Table Spec Status) (key : Key)
    (version : Int64) (fields : FieldMap Spec Status) :
    Option (Option (Table Spec Status)) :=
  if fields.malformed then
    none
  else if table.rows.any (isVersionOf key version) then
    (table.rewrite? (isVersionOf key version)
      (fields.assign now (version + 1))).map some
  else
    some none

theorem any_isVersionOf_iff
    (table : Table Spec Status) (key : Key) (version : Int64) :
    table.rows.any (isVersionOf key version) = true ↔
      ∃ row, selectLive table key = some row ∧
        row.resource.resourceVersion = version := by
  simp only [List.any_eq_true, isVersionOf, Bool.and_eq_true,
    decide_eq_true_eq, selectLive_eq_some_iff, KeyedTable.find_eq_some_iff]
  constructor
  · rintro ⟨row, member, keyEq, live, versionEq⟩
    exact ⟨row, ⟨⟨member, keyEq⟩, live⟩, versionEq⟩
  · rintro ⟨row, ⟨⟨member, keyEq⟩, live⟩, versionEq⟩
    exact ⟨row, member, keyEq, live, versionEq⟩

/-- The guarded partial update selects the live row under its key alone. -/
theorem isVersionOf_only
    {table : Table Spec Status} {key : Key} {version : Int64}
    {row : Object Spec Status}
    (found : table.find key = some row) (live : row.live = true)
    (versionEq : row.resource.resourceVersion = version) :
    ∀ other ∈ table.rows, isVersionOf key version other = true ↔ other = row := by
  have rowKey := KeyedTable.key_of_find found
  intro other member
  constructor
  · intro chosen
    simp only [isVersionOf, Bool.and_eq_true, decide_eq_true_eq] at chosen
    exact table.eq_of_key_eq member (KeyedTable.find_mem found)
      (chosen.1.trans rowKey.symm)
  · rintro rfl
    simp [isVersionOf, rowKey, live, versionEq]

/--
The state in which a partial update writes: the database takes the map, the
row is live at the expected version, and its new key is its own or free.
-/
def acceptsFields (table : Table Spec Status) (key : Key) (version : Int64)
    (fields : FieldMap Spec Status) : Bool :=
  !fields.malformed &&
    ((selectLive table key).any (fun row =>
        decide (row.resource.resourceVersion = version)) &&
      (decide (fields.renamed key = key) ||
        (table.find (fields.renamed key)).isNone))

theorem updateFields_rows
    {now : Time} {table result : Table Spec Status} {key : Key}
    {version : Int64} {fields : FieldMap Spec Status}
    (done : updateFields now table key version fields = some (some result)) :
    result.rows =
      table.rows.map (fun row =>
        if isVersionOf key version row then
          fields.assign now (version + 1) row
        else
          row) := by
  unfold updateFields at done
  split at done
  · cases done
  · split at done
    · rcases Option.map_eq_some_iff.mp done with ⟨rewritten, rewriting, equal⟩
      cases equal
      exact KeyedTable.rewrite?_rows rewriting
    · cases done

/-- A partial update that renames no row replaces the row under its key. -/
theorem updateFields_spec
    {now : Time} {table result : Table Spec Status} {key : Key}
    {version : Int64} {fields : FieldMap Spec Status}
    (keepsKey : fields.renamed key = key)
    (done : updateFields now table key version fields = some (some result)) :
    ∃ row, table.find key = some row ∧ row.live = true ∧
      row.resource.resourceVersion = version ∧
      Replaces table result key (fields.assign now (version + 1) row) := by
  have rowsEq := updateFields_rows done
  have matched : table.rows.any (isVersionOf key version) = true := by
    unfold updateFields at done
    split at done
    · cases done
    · split at done
      · next matched => exact matched
      · cases done
  rcases (any_isVersionOf_iff table key version).mp matched with
    ⟨row, selected, versionEq⟩
  rcases (selectLive_eq_some_iff table key row).mp selected with ⟨found, live⟩
  refine ⟨row, found, live, versionEq, ?_⟩
  intro wanted
  rw [KeyedTable.find_of_rows_eq_map rowsEq]
  · split
    · next same =>
        subst same
        simp [found, isVersionOf, KeyedTable.key_of_find found, live, versionEq]
    · next different =>
        cases stored : table.find wanted with
        | none => rfl
        | some other =>
            have otherKey := KeyedTable.key_of_find stored
            simp [isVersionOf, otherKey, different]
  · intro other _
    split
    · next chosen =>
        simp only [isVersionOf, Bool.and_eq_true, decide_eq_true_eq] at chosen
        rw [FieldMap.key_assign, chosen.1, keepsKey]
    · rfl

theorem updateFields_accepted_iff
    (now : Time) (table : Table Spec Status) (key : Key) (version : Int64)
    (fields : FieldMap Spec Status) :
    (∃ result, updateFields now table key version fields = some (some result)) ↔
      acceptsFields table key version fields = true := by
  unfold updateFields acceptsFields
  cases malformed : fields.malformed with
  | true => simp
  | false =>
      simp only [Bool.false_eq_true, if_false, Bool.not_false, Bool.true_and,
        Bool.and_eq_true, Option.any_eq_true, decide_eq_true_eq]
      rw [← any_isVersionOf_iff]
      split
      · next matched =>
          rcases (any_isVersionOf_iff table key version).mp matched with
            ⟨row, selected, versionEq⟩
          rcases (selectLive_eq_some_iff table key row).mp selected with
            ⟨found, live⟩
          have rowKey := KeyedTable.key_of_find found
          have only := isVersionOf_only found live versionEq
          have refusedIff :=
            table.rewrite?_isSome_iff (fields.assign now (version + 1))
              (KeyedTable.find_mem found) only
          simp only [FieldMap.key_assign, rowKey] at refusedIff
          rw [Option.isSome_iff_exists] at refusedIff
          simp only [Option.map_eq_some_iff, Option.some.injEq,
            exists_eq_right, matched, true_and, refusedIff, Bool.or_eq_true,
            decide_eq_true_eq, Option.isNone_iff_eq_none,
            KeyedTable.find_eq_none_iff, List.mem_map, not_exists, not_and]
          constructor
          · intro unused
            by_cases same : fields.renamed key = key
            · exact Or.inl same
            · apply Or.inr
              intro other member otherKey
              refine unused other member ?_ otherKey
              rintro rfl
              exact same (otherKey.symm.trans rowKey)
          · rintro (same | free) other member different otherKey
            · exact different
                (table.eq_of_key_eq member (KeyedTable.find_mem found)
                  (otherKey.trans (same.trans rowKey.symm)))
            · exact free other member otherKey
      · next unmatched => simp [unmatched]

end Infractl.Store
