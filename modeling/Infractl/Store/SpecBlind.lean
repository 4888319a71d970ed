import Infractl.Store.GenericStore
import Infractl.Store.Listing

/-!
# What the store does not look at

The store reads the base record of a row.  It carries the spec along, and looks
into it in two places only: an update of a tracked kind compares the marshalled
specs, and a filter may name the column.

A table is seen through a map of specs.  Every call that keeps away from these
two places does the same to the image of a table as to the table itself.
-/

namespace Infractl.Store

open Infractl.Lib

variable {Spec Image Status : Type} (view : Spec → Image)

/-- A row with the image of its spec. -/
def Object.mapSpec (object : Object Spec Status) : Object Image Status where
  resource := object.resource
  spec := view object.spec
  status := object.status

@[simp]
theorem Object.key_mapSpec (object : Object Spec Status) :
    (object.mapSpec view).key = object.key :=
  rfl

@[simp]
theorem Object.resource_mapSpec (object : Object Spec Status) :
    (object.mapSpec view).resource = object.resource :=
  rfl

/-- A table with the images of the specs. -/
def mapSpecs (table : Table Spec Status) : Table Image Status :=
  table.map (Object.mapSpec view) (Object.key_mapSpec view)

/-! ## Statements -/

section Statements

variable (table : Table Spec Status)

@[simp]
theorem selectLive_mapSpecs (key : Key) :
    selectLive (mapSpecs view table) key =
      (selectLive table key).map (Object.mapSpec view) := by
  rw [selectLive, mapSpecs, KeyedTable.find_map, selectLive]
  cases table.find key with
  | none => rfl
  | some row =>
      have same : (row.mapSpec view).live = row.live := rfl
      by_cases live : row.live = true
      · simp [Option.filter, same, live]
      · simp [Option.filter, same, live]

@[simp]
theorem liveExists_mapSpecs (key : Key) :
    liveExists (mapSpecs view table) key = liveExists table key := by
  simp [liveExists]

@[simp]
theorem selectParent_mapSpecs (org : UUID) (name : String) :
    selectParent (mapSpecs view table) org name = selectParent table org name := by
  rw [selectParent, selectLive_mapSpecs, Option.bind_map, selectParent]
  rfl

@[simp]
theorem hasChildren_mapSpecs (org : UUID) (name : String) :
    hasChildren (mapSpecs view table) org name = hasChildren table org name := by
  simp only [hasChildren, countChildren, mapSpecs, KeyedTable.map, List.countP_map]
  rfl

@[simp]
theorem walkAncestors_mapSpecs (org : UUID) (fuel : Nat) (visited : List String)
    (current : String) :
    walkAncestors (mapSpecs view table) org fuel visited current =
      walkAncestors table org fuel visited current := by
  induction fuel generalizing visited current with
  | zero => rfl
  | succ fuel ih =>
      simp [walkAncestors, ih]

@[simp]
theorem validateParent_mapSpecs (org : UUID) (name parentName : String) :
    validateParent (mapSpecs view table) org name parentName =
      validateParent table org name parentName := by
  have sameFuel : walkFuel (mapSpecs view table) = walkFuel table := by
    simp [walkFuel, mapSpecs, KeyedTable.map]
  simp [validateParent, sameFuel]

theorem updateLive_mapSpecs (key : Key)
    {guard : Object Spec Status → Bool}
    {assign : Object Spec Status → Object Spec Status}
    (keepsKey : ∀ row, (assign row).key = row.key)
    {imageGuard : Object Image Status → Bool}
    {imageAssign : Object Image Status → Object Image Status}
    (imageKeepsKey : ∀ row, (imageAssign row).key = row.key)
    (guards : ∀ row, imageGuard (row.mapSpec view) = guard row)
    (assigns : ∀ row, imageAssign (row.mapSpec view) = (assign row).mapSpec view) :
    updateLive (mapSpecs view table) key imageGuard imageAssign imageKeepsKey =
      (updateLive table key guard assign keepsKey).map (mapSpecs view) := by
  refine KeyedTable.update?_map _ _ table key keepsKey imageKeepsKey ?_ assigns
  intro row
  rw [guards row]
  rfl

@[simp]
theorem markDeletion_mapSpecs (now : Time) (key : Key) :
    markDeletion now (mapSpecs view table) key =
      (markDeletion now table key).map (mapSpecs view) :=
  updateLive_mapSpecs view table key _ _ (fun _ => rfl) (fun _ => rfl)

@[simp]
theorem softDelete_mapSpecs (now : Time) (key : Key) :
    softDelete now (mapSpecs view table) key =
      (softDelete now table key).map (mapSpecs view) :=
  updateLive_mapSpecs view table key _ _ (fun _ => rfl) (fun _ => rfl)

@[simp]
theorem updateGuarded_mapSpecs (now : Time) (object : Object Spec Status)
    (version : Int64) :
    updateGuarded now (mapSpecs view table) (object.mapSpec view) version =
      (updateGuarded now table object version).map (mapSpecs view) :=
  updateLive_mapSpecs view table object.key _ _ (fun _ => rfl) (fun _ => rfl)

@[simp]
theorem insertRow_mapSpecs (now : Time) (object : Object Spec Status) :
    insertRow now (mapSpecs view table) (object.mapSpec view) =
      (insertRow now table object).map (mapSpecs view) :=
  KeyedTable.insert?_map _ _ table (object.prepareInsert now)

end Statements

/-! ## Calls -/

/-- What a call left behind, with the images of the specs. -/
def Outcome.mapSpec (outcome : Outcome Spec Status) : Outcome Image Status where
  table := mapSpecs view outcome.table
  object := outcome.object.mapSpec view
  error := outcome.error

namespace GenericStore

section Calls

variable (table : Table Spec Status)

@[simp]
theorem validateParent_mapSpec (object : Object Spec Status) :
    validateParent (mapSpecs view table) (object.mapSpec view) =
      validateParent table object := by
  simp [validateParent]

@[simp]
theorem create_mapSpecs (now : Time) (object : Object Spec Status) :
    create now (mapSpecs view table) (object.mapSpec view) =
      (create now table object).mapSpec view := by
  rw [create, validateParent_mapSpec, insertRow_mapSpecs, create]
  cases validateParent table object with
  | some error => rfl
  | none =>
      cases insertRow now table object with
      | none => rfl
      | some inserted => rfl

@[simp]
theorem delete_mapSpecs (now : Time) (key : Key) :
    delete now (mapSpecs view table) key =
      ((delete now table key).1 |> mapSpecs view, (delete now table key).2) := by
  rw [delete, selectLive_mapSpecs, hasChildren_mapSpecs, markDeletion_mapSpecs,
    softDelete_mapSpecs, delete]
  cases selectLive table key with
  | none => rfl
  | some existing =>
      simp only [Option.map_some, Object.mapSpec]
      split
      · rfl
      · split
        · cases markDeletion now table key with
          | none => rfl
          | some marked => rfl
        · cases softDelete now table key with
          | none => rfl
          | some deleted => rfl

/--
An object whose marshalled spec is the one stored under its key, so that an
update does not move its generation.
-/
def KeepsSpec (kind : Kind Spec Status) (object : Object Spec Status) : Prop :=
  ∀ specBytes, kind.specBytes = some specBytes →
    ∀ existing, selectLive table object.key = some existing →
      specBytes existing = specBytes object

variable {table}

theorem trackGeneration_of_keepsSpec {kind : Kind Spec Status}
    {object : Object Spec Status} (keeps : KeepsSpec table kind object) :
    trackGeneration kind table object =
      if kind.specBytes.isSome && !liveExists table object.key then .error .notFound
      else .ok object := by
  rw [trackGeneration, liveExists]
  cases tracked : kind.specBytes with
  | none => rfl
  | some specBytes =>
      cases selected : selectLive table object.key with
      | none => rfl
      | some existing =>
          have same := keeps specBytes tracked existing selected
          simp only [bumpGeneration, same]
          cases specBytes object with
          | none => rfl
          | some bytes => simp

@[simp]
theorem stamp_mapSpec (now : Time) (version : Int64) (object : Object Spec Status) :
    stamp now version (object.mapSpec view) = (stamp now version object).mapSpec view :=
  rfl

theorem update_mapSpecs {kind : Kind Spec Status} {imageKind : Kind Image Status}
    {object : Object Spec Status} (now : Time)
    (tracked : imageKind.specBytes.isSome = kind.specBytes.isSome)
    (keeps : KeepsSpec table kind object)
    (imageKeeps : KeepsSpec (mapSpecs view table) imageKind (object.mapSpec view)) :
    update imageKind now (mapSpecs view table) (object.mapSpec view) =
      (update kind now table object).mapSpec view := by
  rw [update, update, validateParent_mapSpec, trackGeneration_of_keepsSpec keeps,
    trackGeneration_of_keepsSpec imageKeeps, tracked, Object.key_mapSpec,
    liveExists_mapSpecs]
  cases validateParent table object with
  | some error => rfl
  | none =>
      by_cases missing :
          (kind.specBytes.isSome && !liveExists table object.key) = true
      · rw [if_pos missing, if_pos missing]
        rfl
      · rw [if_neg missing, if_neg missing]
        simp only [Object.resource_mapSpec, stamp_mapSpec, updateGuarded_mapSpecs]
        cases updateGuarded now table
            (stamp now object.resource.resourceVersion object)
            object.resource.resourceVersion with
        | none => rfl
        | some updated => rfl

end Calls

end GenericStore

/-! ## Listing -/

def Listed.mapSpec (listed : Listed Spec Status) : Listed Image Status where
  items := listed.items.map (Object.mapSpec view)
  continueToken := listed.continueToken
  total := listed.total

section Listing

variable (hide : Spec → Spec) {database : Database Spec Status}

/-- A filter whose terms do not tell a row from its image. -/
def BlindTo (database : Database Spec Status) (filter : String) : Prop :=
  ∀ condition, parseFilter filter = .ok condition →
    ∀ row, database.selects condition (row.mapSpec hide) =
      database.selects condition row

theorem matching_mapSpecs {filter : String} {condition : Condition}
    (blind : BlindTo hide database filter)
    (parsed : parseFilter filter = .ok condition)
    (table : Table Spec Status) (org : UUID) :
    matching database (mapSpecs hide table) org condition =
      (matching database table org condition).map (Object.mapSpec hide) := by
  simp only [matching, mapSpecs, KeyedTable.map, List.filter_map]
  congr 1
  apply List.filter_congr
  intro row _
  simp only [Function.comp_apply, blind condition parsed row]
  rfl

@[simp]
theorem sort_mapSpec (collation : Collation) (rows : List (Object Spec Status)) :
    collation.sort (rows.map (Object.mapSpec view)) =
      (collation.sort rows).map (Object.mapSpec view) := by
  symm
  apply List.map_mergeSort
  intro left _ right _
  rfl

theorem list_mapSpecs {options : ListOptions}
    (unsorted : options.sort = "") (blind : BlindTo hide database options.filter)
    (table : Table Spec Status) (org : UUID) :
    list database (mapSpecs hide table) org options =
      (list database table org options).map (Listed.mapSpec hide) := by
  have ordered : orderBy options.sort = defaultOrder := by rw [orderBy, if_pos unsorted]
  simp only [list, ordered]
  cases parsed : parseFilter options.filter with
  | error error => rfl
  | ok condition =>
      dsimp only
      cases database.rejects condition with
      | some reason => rfl
      | none =>
          cases startOffset options.continueToken with
          | error error => rfl
          | ok offset =>
              have names : ((matching database (mapSpecs hide table) org condition).map
                  Object.name).Nodup := matching_names_nodup
              have plainNames : ((matching database table org condition).map
                  Object.name).Nodup := matching_names_nodup
              dsimp only
              rw [database.answer_defaultOrder _ _ _ _ names,
                database.answer_defaultOrder _ _ _ _ plainNames,
                matching_mapSpecs hide blind parsed, sort_mapSpec]
              simp only [pageOf, Except.map, Listed.mapSpec, ← List.map_drop,
                ← List.map_take, List.length_map]

end Listing

end Infractl.Store
