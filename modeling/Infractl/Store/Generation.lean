import Infractl.Store.GenericStore

/-!
# Generations

The generation of a row should move by one with every write that changes its
spec, and with no other.  `Update` compares the marshalled spec of its object
with that of the stored row, but adds to the generation the object carries, so
that a copy with another generation (the zero of a freshly decoded struct, say)
replaces the count.  `PartialUpdate` compares nothing.

As in the module on deletion protection, a row is identified by its position in
the table.
-/

namespace Infractl.Store.GenericStore

open Infractl.Lib
open Infractl.Lib.Run

variable {Spec Status : Type}

/-- The generation moved by one if the spec changed, and not otherwise. -/
def Counted (old new : Object Spec Status) : Prop :=
  (new.spec = old.spec → new.resource.generation = old.resource.generation) ∧
    (new.spec ≠ old.spec →
      new.resource.generation = old.resource.generation + 1)

/-- Every row stored before the call has its spec changes counted. -/
def CountsSpecChanges (before : Table Spec Status)
    (_ : Time × Call Spec Status) (after : Table Spec Status) : Prop :=
  ∀ (position : Nat) (old new : Object Spec Status),
    before.rows[position]? = some old → after.rows[position]? = some new →
    Counted old new

theorem counted_of_same {old new : Object Spec Status}
    (sameSpec : new.spec = old.spec)
    (sameGeneration : new.resource.generation = old.resource.generation) :
    Counted old new :=
  ⟨fun _ => sameGeneration, fun changed => absurd sameSpec changed⟩

theorem counted_refl (row : Object Spec Status) : Counted row row :=
  counted_of_same rfl rfl

variable (specBytes : Object Spec Status → Option (List UInt8)) (now : Time)
variable (table : Table Spec Status)

theorem counts_refl (label : Time × Call Spec Status) :
    CountsSpecChanges table label table :=
  KeyedTable.rowWise_refl counted_refl table

/-! ## What the tracker sees -/

/-- The test of `Update`: both specs can be marshalled, to different bytes. -/
def seesChange (specBytes : Object Spec Status → Option (List UInt8))
    (existing object : Object Spec Status) : Bool :=
  match specBytes existing, specBytes object with
  | some oldSpec, some newSpec => decide (oldSpec ≠ newSpec)
  | _, _ => false

theorem bumpGeneration_eq_setGeneration (existing object : Object Spec Status) :
    bumpGeneration specBytes existing object =
      object.setGeneration
        (if seesChange specBytes existing object then
          object.resource.generation + 1
        else
          object.resource.generation) := by
  have unchanged :
      object.setGeneration object.resource.generation = object := rfl
  cases oldBytes : specBytes existing with
  | none => simp [bumpGeneration, seesChange, oldBytes, unchanged]
  | some oldSpec =>
      cases newBytes : specBytes object with
      | none => simp [bumpGeneration, seesChange, oldBytes, newBytes, unchanged]
      | some newSpec =>
          by_cases same : oldSpec = newSpec
          · simp [bumpGeneration, seesChange, oldBytes, newBytes, same, unchanged]
          · simp [bumpGeneration, seesChange, oldBytes, newBytes, same]

/--
The generation an object has to carry for its `Update` to count the spec: that
of the stored row, unless the tracker misses a change or sees one where there
is none.
-/
def Carries (specBytes : Object Spec Status → Option (List UInt8))
    (existing object : Object Spec Status) : Prop :=
  ((seesChange specBytes existing object = true ↔
      object.spec ≠ existing.spec) ∧
    object.resource.generation = existing.resource.generation) ∨
  (seesChange specBytes existing object = false ∧
    object.spec ≠ existing.spec ∧
    object.resource.generation = existing.resource.generation + 1) ∨
  (seesChange specBytes existing object = true ∧
    object.spec = existing.spec ∧
    object.resource.generation + 1 = existing.resource.generation)

theorem carries_iff (existing object : Object Spec Status) :
    Counted existing
        (updated now
          (if seesChange specBytes existing object then
            object.resource.generation + 1
          else
            object.resource.generation) object) ↔
      Carries specBytes existing object := by
  have sameSpec : ∀ generation,
      (updated now generation object).spec = object.spec := fun _ => rfl
  have generationEq : ∀ generation,
      (updated now generation object).resource.generation = generation :=
    fun _ => rfl
  simp only [Counted, Carries, sameSpec, generationEq]
  cases seen : seesChange specBytes existing object with
  | true =>
      by_cases same : object.spec = existing.spec
      · simp [same]
      · simp [same]
  | false =>
      by_cases same : object.spec = existing.spec
      · simp [same]
      · simp [same]

/-! ## The calls -/

/--
An accepted `Update` carries the generation it has to, and an accepted
`PartialUpdate` sets spec and generation together, or neither.
-/
def KeepsCount (specBytes : Object Spec Status → Option (List UInt8))
    (table : Table Spec Status) : Call Spec Status → Prop
  | .create _ => True
  | .update object =>
      acceptsUpdate table object = true →
        ∀ existing, table.find object.key = some existing →
          Carries specBytes existing object
  | .partialUpdate key version fields =>
      acceptsFields table key version fields = true →
        ∀ row, table.find key = some row →
          (fields.spec.getD row.spec = row.spec →
            fields.generation.getD row.resource.generation =
              row.resource.generation) ∧
          (fields.spec.getD row.spec ≠ row.spec →
            fields.generation.getD row.resource.generation =
              row.resource.generation + 1)
  | .delete _ => True

theorem create_counts (object : Object Spec Status) :
    CountsSpecChanges table (now, .create object)
      (create now table object).table := by
  rcases create_table now table object with unchanged | ⟨_, inserted⟩
  · rw [unchanged]
    exact counts_refl table _
  · exact KeyedTable.rowWise_of_append counted_refl
      ((table.insert?_eq_some_iff ..).mp inserted).2

theorem update_counts_iff (object : Object Spec Status) :
    CountsSpecChanges table (now, .update object)
        (update ⟨some specBytes⟩ now table object).table ↔
      KeepsCount specBytes table (.update object) := by
  cases accepted : acceptsUpdate table object with
  | false =>
      rw [(update_refused _ now accepted).1]
      simp [KeepsCount, accepted, counts_refl]
  | true =>
      rcases (update_tracked ⟨some specBytes⟩ now accepted).2 with
        ⟨generation, tracked, guarded⟩
      rcases updateLive_spec guarded with ⟨row, stored, live, matched, _⟩
      have found : table.find object.key = some row := stored
      have versionEq :
          row.resource.resourceVersion = object.resource.resourceVersion := by
        simpa using matched
      have selected : selectLive table object.key = some row :=
        (selectLive_eq_some_iff ..).mpr ⟨found, live⟩
      have generationEq :
          generation =
            if seesChange specBytes row object then
              object.resource.generation + 1
            else
              object.resource.generation := by
        simp only [trackGeneration, selected, Except.ok.injEq,
          bumpGeneration_eq_setGeneration] at tracked
        exact (congrArg (fun bumped => bumped.resource.generation) tracked).symm
      have rowKey : row.key = object.key := KeyedTable.key_of_find found
      refine (KeyedTable.rowWise_iff_of_rewritten counted_refl
        (updateLive_rows guarded) (KeyedTable.find_mem found)
        (isVersionOf_only found live versionEq)).trans ?_
      rw [overwrite_updated now generation rowKey, generationEq, carries_iff]
      simp [KeepsCount, accepted, found]

theorem partialUpdate_counts_iff
    (key : Key) (version : Int64) (fields : FieldMap Spec Status) :
    CountsSpecChanges table (now, .partialUpdate key version fields)
        (partialUpdate now table key version fields).1 ↔
      KeepsCount specBytes table (.partialUpdate key version fields) := by
  cases accepted : acceptsFields table key version fields with
  | false =>
      rw [partialUpdate_refused now accepted]
      simp [KeepsCount, accepted, counts_refl]
  | true =>
      rcases partialUpdate_accepted now accepted with
        ⟨done, row, found, live, versionEq, _⟩
      refine (KeyedTable.rowWise_iff_of_rewritten counted_refl
        (updateFields_rows done) (KeyedTable.find_mem found)
        (isVersionOf_only found live versionEq)).trans ?_
      simp only [KeepsCount, accepted, found, Option.some.injEq, true_implies,
        forall_eq']
      rfl

theorem delete_counts (key : Key) :
    CountsSpecChanges table (now, .delete key) (delete now table key).1 := by
  rcases delete_table now table key with
    unchanged | marked | ⟨_, _, _, _, deleted⟩
  · rw [unchanged]
    exact counts_refl table _
  · refine KeyedTable.rowWise_of_map (updateLive_rows marked) fun row _ => ?_
    split
    · exact counted_of_same rfl rfl
    · exact counted_of_same rfl rfl
  · refine KeyedTable.rowWise_of_map (updateLive_rows deleted) fun row _ => ?_
    split
    · exact counted_of_same rfl rfl
    · exact counted_of_same rfl rfl

theorem execute_counts_iff (label : Time × Call Spec Status) :
    CountsSpecChanges table label
        (execute ⟨some specBytes⟩ table label.1 label.2) ↔
      KeepsCount specBytes table label.2 := by
  rcases label with ⟨now, call⟩
  cases call with
  | create object => exact iff_of_true (create_counts now table object) trivial
  | update object => exact update_counts_iff specBytes now table object
  | partialUpdate key version fields =>
      exact partialUpdate_counts_iff specBytes now table key version fields
  | delete key => exact iff_of_true (delete_counts now table key) trivial

/-! ## Sequential runs -/

/--
Every call of a sequential run counts the spec changes of a tracked kind
exactly when every accepted update of the run keeps the count.
-/
theorem run_generation_iff
    (specBytes : Object Spec Status → Option (List UInt8))
    (table : Table Spec Status) (calls : List (Time × Call Spec Status)) :
    AllSteps (callStep ⟨some specBytes⟩) CountsSpecChanges table calls ↔
      AllSteps (callStep ⟨some specBytes⟩)
        (fun before label _ => KeepsCount specBytes before label.2)
        table calls := by
  refine allSteps_congr (fun _ => True) (fun _ _ _ _ _ _ => trivial) ?_ trivial
    calls
  intro before label after _ stepped
  cases stepped
  exact execute_counts_iff specBytes before label

/-- A spec marshalled as the single byte it is. -/
def byteSpec (object : Object UInt8 Unit) : Option (List UInt8) :=
  some [object.spec]

/--
An `Update` decoded into a fresh struct carries generation zero: the spec
changes and the generation stays one.
-/
theorem fresh_copy_resets_generation :
    ∃ before after : Table UInt8 Unit,
      run (callStep ⟨some byteSpec⟩) KeyedTable.empty
          [(1, .create ⟨{ name := "a" }, 0, ()⟩)] = some before ∧
        callStep ⟨some byteSpec⟩ before
          (2, .update ⟨{ name := "a", resourceVersion := 1 }, 7, ()⟩) =
            some after ∧
        (before.find ⟨0, "a"⟩).map
            (fun row => (row.spec, row.resource.generation)) = some (0, 1) ∧
        (after.find ⟨0, "a"⟩).map
            (fun row => (row.spec, row.resource.generation)) = some (7, 1) ∧
        ¬ CountsSpecChanges before
            (2, .update ⟨{ name := "a", resourceVersion := 1 }, 7, ()⟩)
            after := by
  refine ⟨_, _, rfl, rfl, rfl, rfl, ?_⟩
  intro counts
  have counted := (counts 0 _ _ rfl rfl).2 (by decide)
  revert counted
  decide

end Infractl.Store.GenericStore
