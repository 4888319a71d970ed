import Infractl.Store.Forest

/-!
# Dangling parents

A parent column should name a live row of the same tenant, and not its own row.
`Create` and `Update` check the parent they store, and `Delete` checks that
nothing refers to the row it removes.  A reference can still come to dangle in
two ways.  An accepted `Update` that carries `deleted_at` removes a row without
looking for its children.  An accepted `PartialUpdate` looks at nothing: it may
store any parent, and it may rename a row, move it to another tenant or
soft-delete it while other rows refer to it.

All four calls rewrite a single row.  `Rewrites` says so for a row that may
change its key, and `Rewrites.references_iff` says when this leaves a reference
dangling.
-/

namespace Infractl.Store

open Infractl.Lib
open Infractl.Lib.Run
open Relation

variable {Spec Status : Type}

/-- Every parent of a live row is a live row of its tenant, and another row. -/
def References (table : Table Spec Status) : Prop :=
  ∀ org child parent, ParentEdge table org child parent →
    parent ≠ child ∧ liveExists table ⟨org, parent⟩ = true

/-- Some live row of the tenant has this name as its parent. -/
def Referenced (table : Table Spec Status) (key : Key) : Prop :=
  ∃ child, ParentEdge table key.org child key.name

/-! ## Rewriting one row -/

/-- `after` is `before` with `row` stored under its own key, and not under `key`. -/
def Rewrites (before after : Table Spec Status) (key : Key)
    (row : Object Spec Status) : Prop :=
  ∀ wanted, after.find wanted =
    if wanted = row.key then some row
    else if wanted = key then none
    else before.find wanted

theorem Replaces.rewrites
    {before after : Table Spec Status} {key : Key} {row : Object Spec Status}
    (replaces : Replaces before after key row)
    (sameKey : row.key = key) :
    Rewrites before after key row := by
  intro wanted
  rw [replaces wanted, sameKey]
  split
  · rfl
  · rfl

/-- The parent of a row, if it is live, is another live row. -/
def ParentStored (table : Table Spec Status) (key : Key)
    (row : Object Spec Status) : Prop :=
  ∀ parent, row.parentName = some parent →
    parent ≠ row.resource.name ∧ ⟨row.resource.orgID, parent⟩ ≠ key ∧
      liveExists table ⟨row.resource.orgID, parent⟩ = true

namespace Rewrites

variable {before after : Table Spec Status} {key : Key}
variable {row : Object Spec Status}

theorem liveExists_new (rewrites : Rewrites before after key row) :
    liveExists after row.key = row.live := by
  simp only [liveExists, selectLive, rewrites row.key, if_pos]
  cases live : row.live with
  | false => simp [live]
  | true => simp [live]

theorem liveExists_old (rewrites : Rewrites before after key row)
    (moved : row.key ≠ key) :
    liveExists after key = false := by
  simp [liveExists, selectLive, rewrites key, Ne.symm moved]

theorem liveExists_other (rewrites : Rewrites before after key row)
    {wanted : Key} (notNew : wanted ≠ row.key) (notOld : wanted ≠ key) :
    liveExists after wanted = liveExists before wanted := by
  simp only [liveExists, selectLive, rewrites wanted, if_neg notNew, if_neg notOld]

/-- The parent edges after the rewriting. -/
theorem parentEdge_iff (rewrites : Rewrites before after key row)
    (org : UUID) (child parent : String) :
    ParentEdge after org child parent ↔
      (⟨org, child⟩ = row.key ∧ row.live = true ∧ row.parentName = some parent) ∨
        (⟨org, child⟩ ≠ row.key ∧ ⟨org, child⟩ ≠ key ∧
          ParentEdge before org child parent) := by
  rw [Store.parentEdge_iff, Store.parentEdge_iff, rewrites ⟨org, child⟩]
  by_cases isNew : (⟨org, child⟩ : Key) = row.key
  · simp [isNew]
  · by_cases isOld : (⟨org, child⟩ : Key) = key
    · simp [isOld]
    · simp [isNew, isOld]

/-- If the references still hold, the parent the new row names is stored. -/
theorem parentStored_of_references
    (rewrites : Rewrites before after key row)
    (kept : References after) (live : row.live = true) :
    ParentStored before key row := by
  intro parent parentEq
  have edge : ParentEdge after row.resource.orgID row.resource.name parent :=
    (rewrites.parentEdge_iff ..).mpr (Or.inl ⟨rfl, live, parentEq⟩)
  rcases kept _ _ _ edge with ⟨different, stored⟩
  have notNew : (⟨row.resource.orgID, parent⟩ : Key) ≠ row.key := by
    intro same
    exact different (congrArg Key.name same)
  have notOld : (⟨row.resource.orgID, parent⟩ : Key) ≠ key := by
    rintro rfl
    rw [rewrites.liveExists_old (Ne.symm notNew)] at stored
    cases stored
  rw [rewrites.liveExists_other notNew notOld] at stored
  exact ⟨different, notOld, stored⟩

/-- A child of the rewritten row is still its child afterwards. -/
theorem parentEdge_child
    (rewrites : Rewrites before after key row)
    (free : row.key = key ∨ before.find row.key = none)
    (references : References before) {child : String}
    (edge : ParentEdge before key.org child key.name) :
    ParentEdge after key.org child key.name := by
  refine (rewrites.parentEdge_iff ..).mpr (Or.inr ⟨?_, ?_, edge⟩)
  · intro isNew
    rcases (Store.parentEdge_iff ..).mp edge with ⟨stored, found, _⟩
    rcases free with same | absent
    · exact (references _ _ _ edge).1
        (congrArg Key.name (same.symm.trans isNew.symm))
    · rw [isNew, absent] at found
      cases found
  · intro isOld
    exact (references _ _ _ edge).1 (congrArg Key.name isOld.symm)

/-- If the references still hold, a row that went away had no children. -/
theorem not_referenced_of_references
    (rewrites : Rewrites before after key row)
    (free : row.key = key ∨ before.find row.key = none)
    (references : References before) (kept : References after)
    (gone : row.live = false ∨ row.key ≠ key) :
    ¬ Referenced before key := by
  rintro ⟨child, edge⟩
  have live : liveExists after key = true :=
    (kept _ _ _ (rewrites.parentEdge_child free references edge)).2
  by_cases moved : row.key = key
  · rcases gone with dead | different
    · rw [← moved, rewrites.liveExists_new, dead] at live
      cases live
    · exact different moved
  · rw [rewrites.liveExists_old moved] at live
    cases live

/-- A stored key stays stored when the rewritten row lives on under its own. -/
theorem liveExists_after
    (rewrites : Rewrites before after key row)
    (free : row.key = key ∨ before.find row.key = none)
    {wanted : Key} (stored : liveExists before wanted = true)
    (remains : wanted = key → row.live = true ∧ row.key = key) :
    liveExists after wanted = true := by
  by_cases target : wanted = key
  · rcases remains target with ⟨live, same⟩
    rw [target, ← same, rewrites.liveExists_new]
    exact live
  · by_cases isNew : wanted = row.key
    · rcases free with same | absent
      · exact absurd (isNew.trans same) target
      · rcases (liveExists_iff ..).mp stored with ⟨_, found, _⟩
        rw [isNew, absent] at found
        cases found
    · rw [rewrites.liveExists_other isNew target]
      exact stored

/--
A rewriting of one row keeps all references exactly when the new row, if it is
live, refers to another live row, and no row refers to one that went away.
-/
theorem references_iff
    (rewrites : Rewrites before after key row)
    (free : row.key = key ∨ before.find row.key = none)
    (references : References before) :
    References after ↔
      (row.live = true → ParentStored before key row) ∧
        (row.live = false ∨ row.key ≠ key → ¬ Referenced before key) := by
  constructor
  · intro kept
    exact
      ⟨rewrites.parentStored_of_references kept,
        rewrites.not_referenced_of_references free references kept⟩
  · rintro ⟨parentStored, unreferenced⟩ org child parent edge
    rcases (rewrites.parentEdge_iff ..).mp edge with
      ⟨isNew, live, parentEq⟩ | ⟨_, _, old⟩
    · rcases parentStored live parent parentEq with ⟨different, notOld, stored⟩
      cases isNew
      refine ⟨different, ?_⟩
      rw [rewrites.liveExists_other _ notOld]
      · exact stored
      · intro same
        exact different (congrArg Key.name same)
    · rcases references org child parent old with ⟨different, stored⟩
      refine ⟨different, rewrites.liveExists_after free stored ?_⟩
      rintro rfl
      have remains : ¬ (row.live = false ∨ row.key ≠ ⟨org, parent⟩) :=
        fun gone => unreferenced gone ⟨child, old⟩
      simpa only [not_or, Bool.not_eq_false, not_not] using remains

end Rewrites

/-- A partial update that is carried out rewrites the row under its key. -/
theorem updateFields_rewrites
    {now : Time} {table result : Table Spec Status} {key : Key}
    {version : Int64} {fields : FieldMap Spec Status}
    {row : Object Spec Status}
    (done : updateFields now table key version fields = some (some result))
    (found : table.find key = some row) (live : row.live = true)
    (versionEq : row.resource.resourceVersion = version) :
    Rewrites table result key (fields.assign now (version + 1) row) := by
  intro wanted
  have rowKey := KeyedTable.key_of_find found
  rw [KeyedTable.find_of_rewritten (updateFields_rows done)
    (KeyedTable.find_mem found) (isVersionOf_only found live versionEq), rowKey]

theorem parentStored_of_validateParent
    {table : Table Spec Status} {object : Object Spec Status}
    (accepted : GenericStore.validateParent table object = none) :
    ParentStored table object.key object := by
  intro parent parentEq
  rcases parentAllowed_of_validateParent accepted parent parentEq with
    ⟨stored, unreachable⟩
  have different : parent ≠ object.resource.name := by
    rintro rfl
    exact unreachable ReflTransGen.refl
  exact ⟨different, fun same => different (congrArg Key.name same), stored⟩

theorem References.parentStored
    {table : Table Spec Status} {key : Key} {row : Object Spec Status}
    (references : References table)
    (found : table.find key = some row) (live : row.live = true) :
    ParentStored table key row := by
  intro parent parentEq
  have rowKey : row.key = key := KeyedTable.key_of_find found
  subst rowKey
  have edge : ParentEdge table row.resource.orgID row.resource.name parent :=
    (parentEdge_iff ..).mpr ⟨row, found, live, parentEq⟩
  rcases references _ _ _ edge with ⟨different, stored⟩
  exact ⟨different, fun same => different (congrArg Key.name same), stored⟩

theorem References.not_referenced_of_absent
    {table : Table Spec Status} {key : Key}
    (references : References table)
    (absent : table.find key = none) :
    ¬ Referenced table key := by
  rintro ⟨child, edge⟩
  rcases (liveExists_iff ..).mp (references _ _ _ edge).2 with ⟨_, found, _⟩
  cases absent.symm.trans found

theorem not_referenced_of_childless
    {table : Table Spec Status} {key : Key}
    (childless : hasChildren table key.org key.name = false) :
    ¬ Referenced table key := by
  rintro ⟨child, edge⟩
  rcases (parentEdge_iff ..).mp edge with ⟨row, found, live, parentEq⟩
  have hasChild : hasChildren table key.org key.name = true :=
    (hasChildren_iff ..).mpr
      ⟨row, KeyedTable.find_mem found, live,
        congrArg Key.org (KeyedTable.key_of_find found),
        ((row.parentName_eq_some_iff _).mp parentEq).1⟩
  cases childless.symm.trans hasChild

namespace GenericStore

/-! ## The calls -/

/--
What a call would have to respect.  An accepted `Update` that soft-deletes its
row finds no reference to it.  An accepted `PartialUpdate` that leaves its row
live leaves it with the name of another live row of its tenant as parent, and
one that renames, moves or soft-deletes the row finds no reference to it.  The
time and the version it writes play no role here.
-/
def RespectsReferences (table : Table Spec Status) : Call Spec Status → Prop
  | .create _ => True
  | .update object =>
      acceptsUpdate table object = true → object.live = false →
        ¬ Referenced table object.key
  | .partialUpdate key version fields =>
      acceptsFields table key version fields = true →
        ∀ row, table.find key = some row →
          ((fields.assign 0 0 row).live = true →
            ParentStored table key (fields.assign 0 0 row)) ∧
          ((fields.assign 0 0 row).live = false ∨ fields.renamed key ≠ key →
            ¬ Referenced table key)
  | .delete _ => True

theorem create_references
    (now : Time) {table : Table Spec Status} (object : Object Spec Status)
    (references : References table) :
    References (create now table object).table := by
  rcases create_table now table object with unchanged | ⟨accepted, inserted⟩
  · rw [unchanged]
    exact references
  · have absent : table.find object.key = none :=
      ((table.insert?_eq_some_iff ..).mp inserted).1
    have rewrites := (replaces_of_insertRow inserted).rewrites
      (object.key_prepareInsert now)
    exact (rewrites.references_iff (Or.inl rfl) references).mpr
      ⟨fun _ => parentStored_of_validateParent accepted,
        fun _ => references.not_referenced_of_absent absent⟩

theorem update_references_iff
    (kind : Kind Spec Status) (now : Time) {table : Table Spec Status}
    (object : Object Spec Status)
    (references : References table) :
    References (update kind now table object).table ↔
      RespectsReferences table (.update object) := by
  cases accepted : acceptsUpdate table object with
  | false =>
      rw [(update_refused kind now accepted).1]
      simp [RespectsReferences, accepted, references]
  | true =>
      rcases (update_accepted kind now accepted).2 with ⟨generation, _, replaces⟩
      have parentAccepted : validateParent table object = none := by
        simp only [acceptsUpdate, Bool.and_eq_true,
          Option.isNone_iff_eq_none] at accepted
        exact accepted.1
      have sameKey : (updated now generation object).key = object.key := rfl
      have sameLive : (updated now generation object).live = object.live := rfl
      have parentStored :
          ParentStored table object.key (updated now generation object) :=
        parentStored_of_validateParent parentAccepted
      rw [(replaces.rewrites sameKey).references_iff (Or.inl sameKey) references]
      simp [RespectsReferences, accepted, sameKey, sameLive, parentStored]

theorem partialUpdate_references_iff
    (now : Time) {table : Table Spec Status} (key : Key) (version : Int64)
    (fields : FieldMap Spec Status)
    (references : References table) :
    References (partialUpdate now table key version fields).1 ↔
      RespectsReferences table (.partialUpdate key version fields) := by
  cases accepted : acceptsFields table key version fields with
  | false =>
      rw [partialUpdate_refused now accepted]
      simp [RespectsReferences, accepted, references]
  | true =>
      rcases partialUpdate_accepted now accepted with
        ⟨done, row, found, live, versionEq, free⟩
      have newKey :
          (fields.assign now (version + 1) row).key = fields.renamed key := by
        rw [FieldMap.key_assign, KeyedTable.key_of_find found]
      rw [(updateFields_rewrites done found live versionEq).references_iff
        (newKey ▸ free) references, newKey]
      simp only [RespectsReferences, accepted, found, Option.some.injEq,
        true_implies, forall_eq']
      rfl

theorem delete_references
    (now : Time) {table : Table Spec Status} (key : Key)
    (references : References table) :
    References (delete now table key).1 := by
  rcases delete_table now table key with
    unchanged | marked | ⟨_, _, childless, _, deleted⟩
  · rw [unchanged]
    exact references
  · rcases updateLive_spec marked with ⟨row, found, live, _, replaces⟩
    have rowKey : row.key = key := KeyedTable.key_of_find found
    have sameKey : (row.markDeletion now).key = key := rowKey
    have parentStored : ParentStored table key row :=
      references.parentStored found live
    refine ((replaces.rewrites sameKey).references_iff (Or.inl sameKey)
      references).mpr ⟨fun _ => parentStored, ?_⟩
    rintro (dead | moved)
    · cases dead.symm.trans live
    · exact absurd sameKey moved
  · rcases updateLive_spec deleted with ⟨row, found, live, _, replaces⟩
    have rowKey : row.key = key := KeyedTable.key_of_find found
    have sameKey : (row.softDelete now).key = key := rowKey
    refine ((replaces.rewrites sameKey).references_iff (Or.inl sameKey)
      references).mpr ⟨?_, fun _ => not_referenced_of_childless childless⟩
    intro impossible
    cases impossible

theorem execute_references_iff
    (kind : Kind Spec Status) {table : Table Spec Status}
    (label : Time × Call Spec Status)
    (references : References table) :
    References (execute kind table label.1 label.2) ↔
      RespectsReferences table label.2 := by
  rcases label with ⟨now, call⟩
  cases call with
  | create object =>
      exact iff_of_true (create_references now object references) trivial
  | update object => exact update_references_iff kind now object references
  | partialUpdate key version fields =>
      exact partialUpdate_references_iff now key version fields references
  | delete key =>
      exact iff_of_true (delete_references now key references) trivial

/-! ## Sequential runs -/

theorem references_empty :
    References (KeyedTable.empty : Table Spec Status) := by
  intro org child parent edge
  rcases (parentEdge_iff ..).mp edge with ⟨_, found, _⟩
  simp at found

/--
From the empty table, every table a sequential run passes through is without a
dangling parent exactly when every call of the run respects the references.
-/
theorem run_references_iff
    (kind : Kind Spec Status) (calls : List (Time × Call Spec Status)) :
    AllSteps (callStep kind) (fun _ _ after => References after)
        KeyedTable.empty calls ↔
      AllSteps (callStep kind)
        (fun before label _ => RespectsReferences before label.2)
        KeyedTable.empty calls := by
  refine allSteps_congr References ?_ ?_ references_empty calls
  · intro before label after references stepped respects
    cases stepped
    exact (execute_references_iff kind label references).mpr respects
  · intro before label after references stepped
    cases stepped
    exact execute_references_iff kind label references

/-- A partial update stores the name of no row as a parent. -/
theorem partialUpdate_stores_missing_parent :
    ∃ table : Table Unit Unit,
      run (callStep ⟨none⟩) KeyedTable.empty
          [(1, .create ⟨{ name := "a" }, (), ()⟩),
            (2, .partialUpdate ⟨0, "a"⟩ 1 { parent := some (some "b") })] =
          some table ∧
        ParentEdge table 0 "a" "b" ∧
        liveExists table ⟨0, "b"⟩ = false ∧
        ¬ References table := by
  refine ⟨_, rfl, ⟨rfl, by decide⟩, rfl, ?_⟩
  intro references
  cases (references 0 "a" "b" ⟨rfl, by decide⟩).2

end GenericStore

end Infractl.Store
