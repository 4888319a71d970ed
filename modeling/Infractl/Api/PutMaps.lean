import Infractl.Api.SystemColumns
import Infractl.Lib.FiniteMap

/-!
# Labels and annotations in a PUT

A PUT is documented as a full update, so that a body with a `labels` object is
expected to replace the stored labels.  The generic route decodes the body into
a zero value and does so.  The handlers that read the row first decode into
the stored map, and the decoder adds to a map that is there: a stored entry
whose key the body does not name stays.

The labels of the body are stored exactly when the body names every stored
key, or also has a null for the map, which drops what was stored.
-/

namespace Infractl.Api

open Infractl.Lib
open Infractl.Store

variable {Spec Status : Type}

/-! ## The maps of a body -/

/-- The columns that hold a map. -/
inductive MapColumn where
  | labels
  | annotations

namespace MapColumn

def get (column : MapColumn) (object : Object Spec Status) : JSONMap :=
  match column with
  | .labels => object.resource.labels
  | .annotations => object.resource.annotations

/-- The value that a member of a body has for a column, if it names it. -/
def value (column : MapColumn) (member : Member Spec Status) : Option JSONMap :=
  match column, member with
  | .labels, .labels value => some value
  | .annotations, .annotations value => some value
  | _, _ => none

/-- All values a body has for a column, in their order. -/
def values (column : MapColumn) (list : List (Member Spec Status)) :
    List JSONMap :=
  list.filterMap column.value

theorem get_decode (column : MapColumn) (member : Member Spec Status)
    (object : Object Spec Status) :
    column.get (member.decode object) =
      match column.value member with
      | some value => decodeMap value (column.get object)
      | none => column.get object := by
  cases column <;> cases member <;> rfl

end MapColumn

/-- Decoding the values of a column one after the other. -/
def decodeMaps (values : List JSONMap) (stored : JSONMap) : JSONMap :=
  values.foldl (fun decoded value => decodeMap value decoded) stored

/-- The map of a body: what its values leave in a map that was nil. -/
def givenMap (column : MapColumn) (list : List (Member Spec Status)) : JSONMap :=
  decodeMaps (column.values list) none

theorem MapColumn.get_body_decode (column : MapColumn)
    {list : List (Member Spec Status)} {base object : Object Spec Status}
    (decoded : (Body.members list).decode base = .ok object) :
    column.get object = decodeMaps (column.values list) (column.get base) := by
  cases decoded
  -- The object decoded so far changes along the list.
  induction list generalizing base with
  | nil => rfl
  | cons member rest ih =>
      rw [List.foldl_cons, ih, column.get_decode]
      cases named : column.value member with
      | none => rw [values, values, List.filterMap_cons_none named]
      | some value =>
          rw [values, values, List.filterMap_cons_some named]
          rfl

/-! ## Decoding into a stored map -/

/-- What lies under a map stays under it, unless a null drops it. -/
theorem decodeMaps_over (values : List JSONMap)
    (upper lower : Finmap (fun _ : String => String)) :
    decodeMaps values (some (upper ∪ lower)) =
      if none ∈ values then decodeMaps values (some upper)
      else (decodeMaps values (some upper)).map (fun entries => entries ∪ lower) := by
  induction values generalizing upper with
  | nil => rfl
  | cons value rest ih =>
      cases value with
      | none =>
          rw [if_pos (List.mem_cons_self ..)]
          rfl
      | some entries =>
          have next :
              decodeMaps (some entries :: rest) (some (upper ∪ lower)) =
                decodeMaps rest (some ((entries ∪ upper) ∪ lower)) := by
            rw [Finmap.union_assoc]
            rfl
          have passed : none ∈ some entries :: rest ↔ none ∈ rest := by simp
          rw [next, ih]
          simp only [passed]
          rfl

/-- The stored map shows through under the one of the body. -/
theorem decodeMaps_stored {values : List JSONMap} (named : values ≠ [])
    (stored : JSONMap) :
    decodeMaps values stored =
      if none ∈ values then decodeMaps values none
      else (decodeMaps values none).map (fun entries => entries ∪ stored.getD ∅) := by
  cases values with
  | nil => exact absurd rfl named
  | cons value rest =>
      cases value with
      | none =>
          rw [if_pos (List.mem_cons_self ..)]
          rfl
      | some entries =>
          have first (base : JSONMap) :
              decodeMaps (some entries :: rest) base =
                decodeMaps rest (some (entries ∪ base.getD ∅)) :=
            rfl
          have passed : none ∈ some entries :: rest ↔ none ∈ rest := by simp
          rw [first, first, decodeMaps_over, Option.getD_none, Finmap.union_empty]
          simp only [passed]

/-- A body with an object for the column, and no null, leaves a map. -/
theorem decodeMaps_isSome {values : List JSONMap} (unnulled : none ∉ values)
    {entries : Finmap (fun _ : String => String)} (named : some entries ∈ values)
    (stored : JSONMap) :
    ∃ given, decodeMaps values stored = some given := by
  rcases List.eq_nil_or_concat values with rfl | ⟨earlier, last, rfl⟩
  · cases named
  · -- The last value is an object, and what it is decoded into does not matter.
    cases last with
    | none => exact absurd (by simp) unnulled
    | some added =>
        rw [decodeMaps, List.concat_eq_append, List.foldl_append]
        exact ⟨_, rfl⟩

/-- The keys of a map; a nil map has none. -/
def HasKey (map : JSONMap) (key : String) : Prop :=
  ∃ entries, map = some entries ∧ key ∈ entries

/--
Nothing of the stored map is left beside the map of the body: the body names
every stored key, or has a null for the map as well.
-/
def Covers (column : MapColumn) (list : List (Member Spec Status))
    (stored : JSONMap) : Prop :=
  none ∈ column.values list ∨
    ∀ key, HasKey stored key → HasKey (givenMap column list) key

theorem hasKey_getD_iff (map : JSONMap) (key : String) :
    HasKey map key ↔ key ∈ map.getD ∅ := by
  cases map with
  | none =>
      refine iff_of_false ?_ Finmap.notMem_empty
      rintro ⟨entries, impossible, _⟩
      cases impossible
  | some entries => simp [HasKey]

/-- The map of the body is what is stored exactly when it covers the old one. -/
theorem decodeMaps_eq_given_iff (column : MapColumn)
    {list : List (Member Spec Status)}
    {entries : Finmap (fun _ : String => String)}
    (named : some entries ∈ column.values list) (stored : JSONMap) :
    decodeMaps (column.values list) stored = givenMap column list ↔
      Covers column list stored := by
  rw [decodeMaps_stored (List.ne_nil_of_mem named), Covers]
  by_cases nulled : none ∈ column.values list
  · rw [if_pos nulled]
    exact iff_of_true rfl (Or.inl nulled)
  · rcases decodeMaps_isSome nulled named none with ⟨given, isGiven⟩
    rw [if_neg nulled, or_iff_right nulled, givenMap, isGiven, Option.map_some,
      Option.some.injEq, FiniteMap.union_eq_left_iff]
    simp only [hasKey_getD_iff, Option.getD_some]

/-! ## The handlers -/

/-- A successful `Update` writes the maps of its object. -/
theorem MapColumn.get_of_update (column : MapColumn) {kind : Kind Spec Status}
    {now : Time} {table : Table Spec Status} {object : Object Spec Status}
    (succeeded : (GenericStore.update kind now table object).error = none) :
    ∃ after,
      (GenericStore.update kind now table object).table.find object.key =
          some after ∧
        column.get after = column.get object := by
  have accepted := (GenericStore.update_error_eq_none_iff ..).mp succeeded
  rcases (GenericStore.update_accepted kind now accepted).2 with
    ⟨generation, _, replaces⟩
  refine ⟨_, replaces.find_self, ?_⟩
  cases column <;> rfl

/-- A request answered with a resource has read a row and stored the update. -/
theorem Platform.getDecodeUpdate_succeeded
    {kind : Kind Spec Status} {missing : String}
    {shown : Object Spec Status → Object Spec Status}
    {org : Except String UUID} {now : Time} {table : Table Spec Status}
    {request : Request Spec Status} {reply : Object Spec Status}
    (answered : (getDecodeUpdate kind missing shown org now table request).2 =
      .json 200 reply) :
    ∃ orgID row object, org = .ok orgID ∧
      selectLive table ⟨orgID, request.name⟩ = some row ∧
      request.body.decode row = .ok object ∧
      (GenericStore.update kind now table object).error = none := by
  cases org with
  | error reason => cases answered
  | ok orgID =>
      cases selected : selectLive table ⟨orgID, request.name⟩ with
      | none => simp [getDecodeUpdate, GenericStore.get, selected] at answered
      | some row =>
          cases decoded : request.body.decode row with
          | error reason =>
              simp [getDecodeUpdate, GenericStore.get, selected, decoded]
                at answered
          | ok object =>
              simp only [getDecodeUpdate, GenericStore.get, selected, decoded]
                at answered
              split at answered
              · cases answered
              · cases answered
              · next succeeded => exact ⟨orgID, row, object, rfl, selected, decoded, succeeded⟩

/--
After a PUT whose body has an object for the labels, or for the annotations,
the generic route has stored the map of the body.  A handler that reads the
row first has done so exactly when that map covers the one it read.
-/
theorem put_replaces_map_iff [Inhabited Spec] [Inhabited Status]
    (kind : Kind Spec Status) (resourceName missing : String)
    (shown : Object Spec Status → Object Spec Status)
    (org : Except String UUID) (now : Time) (table : Table Spec Status)
    (request : Request Spec Status) (list : List (Member Spec Status))
    (column : MapColumn) (entries : Finmap (fun _ : String => String))
    (body : request.body = .members list)
    (named : some entries ∈ column.values list) :
    (∀ reply,
      (CrudHandler.update kind resourceName now table request).2 =
          .json 200 reply →
        ∃ object after, request.body.decode CrudHandler.zero = .ok object ∧
          (CrudHandler.update kind resourceName now table request).1.find
              object.key = some after ∧
          column.get after = givenMap column list) ∧
      ∀ reply,
        (Platform.getDecodeUpdate kind missing shown org now table request).2 =
            .json 200 reply →
          ∃ orgID row object after, org = .ok orgID ∧
            selectLive table ⟨orgID, request.name⟩ = some row ∧
            request.body.decode row = .ok object ∧
            (Platform.getDecodeUpdate kind missing shown org now table
              request).1.find object.key = some after ∧
            (column.get after = givenMap column list ↔
              Covers column list (column.get row)) := by
  constructor
  · intro reply answered
    have decoded : ∃ object, request.body.decode CrudHandler.zero = .ok object := by
      rw [body]
      exact ⟨_, rfl⟩
    rcases decoded with ⟨object, decoded⟩
    have succeeded := CrudHandler.update_succeeded decoded answered
    rcases column.get_of_update succeeded with ⟨after, found, written⟩
    refine ⟨object, after, decoded, ?_, ?_⟩
    · rw [CrudHandler.update_table, decoded]
      exact found
    · rw [body] at decoded
      rw [written, column.get_body_decode decoded]
      cases column <;> rfl
  · intro reply answered
    rcases Platform.getDecodeUpdate_succeeded answered with
      ⟨orgID, row, object, rfl, selected, decoded, succeeded⟩
    rcases column.get_of_update succeeded with ⟨after, found, written⟩
    refine ⟨orgID, row, object, after, rfl, selected, decoded, ?_, ?_⟩
    · rw [Platform.getDecodeUpdate_table, selected]
      simp only [decoded]
      exact found
    · rw [body] at decoded
      rw [written, column.get_body_decode decoded]
      exact decodeMaps_eq_given_iff column named (column.get row)

/-- A policy with one label. -/
def labelledPolicy : Object Unit Unit :=
  ⟨{ orgID := 1, name := "a", resourceVersion := 1,
     labels := some (Finmap.singleton "env" "prod") }, (), ()⟩

def labelledTable : Table Unit Unit :=
  ⟨[labelledPolicy], by decide⟩

/-- The request that sets the labels to the given ones. -/
def putLabels (entries : Finmap (fun _ : String => String)) : Request Unit Unit :=
  ⟨some 1, "a", .members [.orgID 1, .name "a", .resourceVersion 1,
    .labels (some entries)]⟩

/-- A PUT that names the stored label replaces its value. -/
theorem put_of_same_label_replaces :
    ∃ after,
      (Platform.updatePolicy ⟨none⟩ 9 labelledTable
          (putLabels (Finmap.singleton "env" "test"))).1.find ⟨1, "a"⟩ =
        some after ∧
      after.resource.labels = some (Finmap.singleton "env" "test") := by
  rcases (put_replaces_map_iff ⟨none⟩ "policy" "policy not found" id (.ok 1) 9
    labelledTable (putLabels (Finmap.singleton "env" "test")) _ .labels
    (Finmap.singleton "env" "test") rfl (List.mem_singleton_self _)).2 _ rfl with
    ⟨orgID, row, object, after, isOrg, selected, decoded, found, replaced⟩
  cases isOrg
  cases selected
  cases decoded
  refine ⟨after, found, replaced.mpr (Or.inr ?_)⟩
  rintro key ⟨stored, ⟨⟩, member⟩
  exact ⟨_, rfl, member⟩

/-- A PUT without the stored label leaves it there; the generic route drops it. -/
theorem put_keeps_removed_label :
    (∃ reply after,
      Platform.updatePolicy ⟨none⟩ 9 labelledTable (putLabels ∅) =
          (after, .json 200 reply) ∧
        (after.find ⟨1, "a"⟩).map (fun row => row.resource.labels) =
          some (some (Finmap.singleton "env" "prod"))) ∧
      ∃ reply after,
        CrudHandler.update ⟨none⟩ "policy" 9 labelledTable (putLabels ∅) =
            (after, .json 200 reply) ∧
          (after.find ⟨1, "a"⟩).map (fun row => row.resource.labels) =
            some (some ∅) :=
  ⟨⟨_, _, rfl, rfl⟩, _, _, rfl, rfl⟩

end Infractl.Api
