import Infractl.Store.GenericStore

/-!
# Deletion protection

A live row should become soft-deleted only by a `Delete` of that row, made
while the row has no finalizers and no live row of its tenant names it as
parent.  `Delete` itself keeps to this.  The two other paths to the
`deleted_at` column do not check anything: an accepted `Update` writes the
value its object carries, and an accepted `PartialUpdate` the one in its map.

A run is protected exactly when none of its accepted updates sets
`deleted_at`.  A row is identified by its position in the table, which no
statement changes, since a partial update may rename it.
-/

namespace Infractl.Store.GenericStore

open Infractl.Lib
open Infractl.Lib.Run

variable {Spec Status : Type}

/--
Every live row that the call leaves soft-deleted is the row of a `Delete`,
without finalizers and without live children.
-/
def Protected (before : Table Spec Status) (label : Time × Call Spec Status)
    (after : Table Spec Status) : Prop :=
  ∀ (position : Nat) (row new : Object Spec Status),
    before.rows[position]? = some row → row.live = true →
    after.rows[position]? = some new → new.live = false →
    label.2 = .delete row.key ∧
      row.resource.getFinalizers = [] ∧
      ∀ child ∈ before.rows, child.live = true →
        child.resource.orgID = row.resource.orgID →
        child.resource.parent ≠ some row.resource.name

/-- The call is no accepted update that sets `deleted_at`. -/
def LeavesDeletedAt (table : Table Spec Status) : Call Spec Status → Prop
  | .create _ => True
  | .update object =>
      acceptsUpdate table object = true → object.resource.deletedAt = none
  | .partialUpdate key version fields =>
      acceptsFields table key version fields = true →
        fields.deletedAt.getD none = none
  | .delete _ => True

/-- The row stays live, or the call is a `Delete` that may delete it. -/
def Spares (before : Table Spec Status) (call : Call Spec Status)
    (row new : Object Spec Status) : Prop :=
  row.live = true → new.live = false →
    call = .delete row.key ∧
      row.resource.getFinalizers = [] ∧
      ∀ child ∈ before.rows, child.live = true →
        child.resource.orgID = row.resource.orgID →
        child.resource.parent ≠ some row.resource.name

theorem protected_iff_rowWise {before after : Table Spec Status}
    {label : Time × Call Spec Status} :
    Protected before label after ↔
      KeyedTable.RowWise (Spares before label.2) before after :=
  ⟨fun guarded position row new stored found live =>
      guarded position row new stored live found,
    fun spares position row new stored live found =>
      spares position row new stored found live⟩

theorem spares_of_live {before : Table Spec Status} {call : Call Spec Status}
    {row new : Object Spec Status} (stays : row.live = true → new.live = true) :
    Spares before call row new := by
  intro live dead
  cases (stays live).symm.trans dead

theorem spares_refl (before : Table Spec Status) (call : Call Spec Status)
    (row : Object Spec Status) : Spares before call row row :=
  spares_of_live id

/-- A call other than `Delete` spares a live row exactly when it stays live. -/
theorem spares_iff_live {before : Table Spec Status} {call : Call Spec Status}
    {row new : Object Spec Status} (notDelete : ∀ key, call ≠ .delete key)
    (live : row.live = true) : Spares before call row new ↔ new.live = true := by
  refine ⟨fun spares => ?_, fun stays => spares_of_live fun _ => stays⟩
  by_contra dead
  exact notDelete row.key (spares live (by simpa using dead)).1

theorem protected_refl (table : Table Spec Status)
    (label : Time × Call Spec Status) :
    Protected table label table :=
  protected_iff_rowWise.mpr (KeyedTable.rowWise_refl (spares_refl table _) table)

theorem create_protected
    (now : Time) (table : Table Spec Status) (object : Object Spec Status) :
    Protected table (now, .create object) (create now table object).table := by
  rcases create_table now table object with unchanged | ⟨_, inserted⟩
  · rw [unchanged]
    exact protected_refl table _
  · exact protected_iff_rowWise.mpr (KeyedTable.rowWise_of_append (spares_refl table _)
      ((table.insert?_eq_some_iff ..).mp inserted).2)

theorem update_protected_iff
    (kind : Kind Spec Status) (now : Time) (table : Table Spec Status)
    (object : Object Spec Status) :
    Protected table (now, .update object) (update kind now table object).table ↔
      LeavesDeletedAt table (.update object) := by
  cases accepted : acceptsUpdate table object with
  | false =>
      rw [(update_refused kind now accepted).1]
      simp only [LeavesDeletedAt, accepted, Bool.false_eq_true, false_implies,
        iff_true]
      exact protected_refl table _
  | true =>
      rcases (update_accepted kind now accepted).2 with
        ⟨generation, guarded, _⟩
      rcases updateLive_spec guarded with ⟨row, found, live, matched, _⟩
      have versionEq :
          row.resource.resourceVersion = object.resource.resourceVersion := by
        simpa using matched
      simp only [LeavesDeletedAt, accepted, true_implies]
      rw [protected_iff_rowWise, KeyedTable.rowWise_iff_of_rewritten
        (spares_refl table _) (updateLive_rows guarded) (KeyedTable.find_mem found)
        (isVersionOf_only found live versionEq), spares_iff_live (by simp) live]
      exact Object.live_iff _

theorem partialUpdate_protected_iff
    (now : Time) (table : Table Spec Status) (key : Key) (version : Int64)
    (fields : FieldMap Spec Status) :
    Protected table (now, .partialUpdate key version fields)
        (partialUpdate now table key version fields).1 ↔
      LeavesDeletedAt table (.partialUpdate key version fields) := by
  cases accepted : acceptsFields table key version fields with
  | false =>
      rw [partialUpdate_refused now accepted]
      simp only [LeavesDeletedAt, accepted, Bool.false_eq_true, false_implies,
        iff_true]
      exact protected_refl table _
  | true =>
      rcases partialUpdate_accepted now accepted with
        ⟨done, row, found, live, versionEq, _⟩
      have deletedAtEq :
          (fields.assign now (version + 1) row).resource.deletedAt =
            fields.deletedAt.getD none := by
        simp [FieldMap.assign, row.live_iff.mp live]
      simp only [LeavesDeletedAt, accepted, true_implies]
      rw [protected_iff_rowWise, KeyedTable.rowWise_iff_of_rewritten
        (spares_refl table _) (updateFields_rows done) (KeyedTable.find_mem found)
        (isVersionOf_only found live versionEq), spares_iff_live (by simp) live,
        Object.live_iff, deletedAtEq]

theorem delete_protected
    (now : Time) (table : Table Spec Status) (key : Key) :
    Protected table (now, .delete key) (delete now table key).1 := by
  rcases delete_table now table key with
    unchanged | marked | ⟨existing, selected, childless, unfinalized, deleted⟩
  · rw [unchanged]
    exact protected_refl table _
  · refine protected_iff_rowWise.mpr (KeyedTable.rowWise_of_map
      (updateLive_rows marked) fun row _ => spares_of_live fun live => ?_)
    split
    · exact live
    · exact live
  · intro position row new stored live found dead
    rw [updateLive_rows deleted, List.getElem?_map, stored] at found
    simp only [Option.map_some, Option.some.injEq] at found
    split at found
    · next chosen =>
        simp only [Bool.and_eq_true, decide_eq_true_eq] at chosen
        have member := List.mem_of_getElem? stored
        have rowFound : table.find key = some row := by
          rw [← chosen.1]
          exact KeyedTable.find_key member
        have rowEq : existing = row := by
          rw [selectLive_eq_some_iff, rowFound] at selected
          exact (Option.some.inj selected.1).symm
        subst rowEq
        refine ⟨by rw [chosen.1], unfinalized, ?_⟩
        intro child childMember childLive sameOrg parentEq
        have orgEq : existing.resource.orgID = key.org :=
          congrArg Key.org chosen.1
        have nameEq : existing.resource.name = key.name :=
          congrArg Key.name chosen.1
        have nonempty : hasChildren table key.org key.name = true :=
          (hasChildren_iff table key.org key.name).mpr
            ⟨child, childMember, childLive, sameOrg.trans orgEq,
              nameEq ▸ parentEq⟩
        rw [childless] at nonempty
        cases nonempty
    · rw [← found, live] at dead
      cases dead

theorem execute_protected_iff
    (kind : Kind Spec Status) (table : Table Spec Status)
    (label : Time × Call Spec Status) :
    Protected table label (execute kind table label.1 label.2) ↔
      LeavesDeletedAt table label.2 := by
  rcases label with ⟨now, call⟩
  cases call with
  | create object =>
      exact iff_of_true (create_protected now table object) trivial
  | update object => exact update_protected_iff kind now table object
  | partialUpdate key version fields =>
      exact partialUpdate_protected_iff now table key version fields
  | delete key => exact iff_of_true (delete_protected now table key) trivial

/--
A sequential run soft-deletes rows only by protected `Delete` calls exactly
when no accepted `Update` or `PartialUpdate` of the run sets `deleted_at`.
-/
theorem run_protected_iff
    (kind : Kind Spec Status) (table : Table Spec Status)
    (calls : List (Time × Call Spec Status)) :
    AllSteps (callStep kind) Protected table calls ↔
      AllSteps (callStep kind)
        (fun before label _ => LeavesDeletedAt before label.2) table calls := by
  apply allSteps_congr (fun _ => True) (fun _ _ _ _ _ _ => trivial) _ trivial
  intro before label after _ stepped
  cases stepped
  exact execute_protected_iff kind before label

/-- An `Update` carrying `deleted_at` soft-deletes a row with a finalizer. -/
theorem update_softDeletes_finalized_row :
    ∃ before after : Table Unit Unit,
      callStep ⟨none⟩ before
          (5, .update ⟨{ name := "a", resourceVersion := 1,
                         finalizers := some ["cleanup"],
                         deletedAt := some 5 }, (), ()⟩) = some after ∧
        liveExists before ⟨0, "a"⟩ = true ∧
        liveExists after ⟨0, "a"⟩ = false ∧
        ¬ AllSteps (callStep ⟨none⟩) Protected before
          [(5, .update ⟨{ name := "a", resourceVersion := 1,
                          finalizers := some ["cleanup"],
                          deletedAt := some 5 }, (), ()⟩)] := by
  refine ⟨⟨[⟨{ name := "a", resourceVersion := 1,
               finalizers := some ["cleanup"] }, (), ()⟩],
    List.nodup_singleton _⟩, _, rfl, rfl, rfl, ?_⟩
  intro steps
  have guarded := (steps _ rfl).1 0 _ _ rfl rfl rfl rfl
  cases guarded.1

end Infractl.Store.GenericStore
