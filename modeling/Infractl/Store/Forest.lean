import Infractl.Store.GenericStore

/-!
# The parent forest

The parent graph of a tenant stays acyclic under every sequential run of
`Create`, `Update` and `Delete`.  The invariant speaks about all parent edges,
also those whose target is no live row: a row may come to be soft-deleted by an
`Update` that carries `deleted_at`, and its children then point at a name that
no later call brings back to life.

A write replaces one row.  When the parent of the new row passed the check on
the table it replaces a row of, the graph gains at most one edge, and the
check says that this edge closes no cycle.  `Forest` adds that every parent is
a live row, for the calls that keep this too.
-/

namespace Infractl.Store

open Infractl.Lib
open Infractl.Lib.Run
open Relation

variable {Spec Status : Type}

variable {before after : Table Spec Status} {row : Object Spec Status} {key : Key}

theorem Replaces.parentEdge
    (replaces : Replaces before after key row) {org : UUID} {child parent : String}
    (edge : ParentEdge after org child parent) :
    (⟨org, child⟩ = key ∧ row.live = true ∧ row.parentName = some parent) ∨
      (⟨org, child⟩ ≠ key ∧ ParentEdge before org child parent) := by
  rcases (parentEdge_iff after org child parent).mp edge with
    ⟨stored, found, live, parentEq⟩
  rw [replaces ⟨org, child⟩] at found
  split at found
  · next same =>
      cases found
      exact Or.inl ⟨same, live, parentEq⟩
  · next different =>
      exact Or.inr ⟨different,
        (parentEdge_iff before org child parent).mpr
          ⟨stored, found, live, parentEq⟩⟩

/-- The parent of a row may be stored in a table without closing a cycle. -/
def ParentAllowed (table : Table Spec Status) (key : Key)
    (row : Object Spec Status) : Prop :=
  ∀ parent, row.parentName = some parent →
    liveExists table ⟨key.org, parent⟩ = true ∧
      ¬ ReflTransGen (ParentEdge table key.org) parent key.name

theorem parentAllowed_of_validateParent
    {table : Table Spec Status} {object : Object Spec Status}
    (accepted : GenericStore.validateParent table object = none) :
    ParentAllowed table object.key object := by
  intro parent parentEq
  rcases (object.parentName_eq_some_iff parent).mp parentEq with
    ⟨columnEq, nonempty⟩
  simp only [GenericStore.validateParent, columnEq, if_neg nonempty] at accepted
  exact validateParent_eq_none nonempty accepted

theorem acyclic_of_replaces
    (replaces : Replaces before after key row)
    (allowed : row.live = true → ParentAllowed before key row)
    (acyclic : ∀ org, Acyclic (ParentEdge before org)) (org : UUID) :
    Acyclic (ParentEdge after org) := by
  by_cases newEdge :
      org = key.org ∧ row.live = true ∧ ∃ parent, row.parentName = some parent
  · rcases newEdge with ⟨rfl, live, parent, parentEq⟩
    have added :
        ∀ child target, ParentEdge after key.org child target →
          ParentEdge before key.org child target ∨
            (child = key.name ∧ target = parent) := by
      intro child target edge
      rcases replaces.parentEdge edge with ⟨same, _, targetEq⟩ | ⟨_, old⟩
      · exact Or.inr
          ⟨congrArg Key.name same,
            Option.some.inj (targetEq.symm.trans parentEq)⟩
      · exact Or.inl old
    exact (acyclic key.org).add_edge added (allowed live parent parentEq).2
  · apply (acyclic org).mono
    intro child target edge
    rcases replaces.parentEdge edge with ⟨same, live, targetEq⟩ | ⟨_, old⟩
    · exact absurd ⟨congrArg Key.org same, live, target, targetEq⟩ newEdge
    · exact old

/-- A rewritten row that keeps its parent column adds no edge. -/
theorem Replaces.parentEdge_of_same_parent
    {old new : Object Spec Status} (replaces : Replaces before after key new)
    (stored : before.find key = some old) (oldLive : old.live = true)
    (sameParent : new.resource.parent = old.resource.parent) (org : UUID)
    (child parent : String) (edge : ParentEdge after org child parent) :
    ParentEdge before org child parent := by
  rcases replaces.parentEdge edge with ⟨same, _, parentEq⟩ | ⟨_, kept⟩
  · refine (parentEdge_iff before org child parent).mpr
      ⟨old, same ▸ stored, oldLive, ?_⟩
    simpa only [Object.parentName, sameParent] using parentEq
  · exact kept

/-! ## Forests of live rows -/

/-- No parent cycle, and every non-empty parent of a live row is a live row. -/
structure Forest (table : Table Spec Status) : Prop where
  acyclic : ∀ org, Acyclic (ParentEdge table org)
  parentsLive : ∀ org child parent, ParentEdge table org child parent →
    liveExists table ⟨org, parent⟩ = true

theorem Replaces.liveExists_self
    (replaces : Replaces before after key row) (live : row.live = true) :
    liveExists after key = true :=
  (liveExists_iff after key).mpr ⟨row, replaces.find_self, live⟩

theorem Replaces.liveExists_other
    {key wanted : Key} (replaces : Replaces before after key row)
    (different : wanted ≠ key) :
    liveExists after wanted = liveExists before wanted := by
  simp only [liveExists, selectLive, replaces.find_other different]

/-- Storing a live row keeps every live row alive. -/
theorem Replaces.liveExists_mono
    {key wanted : Key} (replaces : Replaces before after key row)
    (live : row.live = true) (stored : liveExists before wanted = true) :
    liveExists after wanted = true := by
  by_cases same : wanted = key
  · subst same
    exact replaces.liveExists_self live
  · rw [replaces.liveExists_other same]
    exact stored

namespace Forest

variable {before after : Table Spec Status} {key : Key}

/-- A live row may be stored when its parent is allowed. -/
theorem store {row : Object Spec Status}
    (forest : Forest before)
    (replaces : Replaces before after key row)
    (live : row.live = true)
    (allowed : ParentAllowed before key row) :
    Forest after where
  acyclic := acyclic_of_replaces replaces (fun _ => allowed) forest.acyclic
  parentsLive := by
    intro org child parent edge
    apply replaces.liveExists_mono live
    rcases replaces.parentEdge edge with ⟨same, _, parentEq⟩ | ⟨_, old⟩
    · cases same
      exact (allowed parent parentEq).1
    · exact forest.parentsLive org child parent old

/-- A row may be rewritten in its other columns. -/
theorem keep {old new : Object Spec Status}
    (forest : Forest before)
    (stored : before.find key = some old)
    (oldLive : old.live = true)
    (replaces : Replaces before after key new)
    (live : new.live = true)
    (sameParent : new.resource.parent = old.resource.parent) :
    Forest after where
  acyclic org := (forest.acyclic org).mono
    (replaces.parentEdge_of_same_parent stored oldLive sameParent org)
  parentsLive := by
    intro org child parent edge
    apply replaces.liveExists_mono live
    apply forest.parentsLive org child parent
    exact replaces.parentEdge_of_same_parent stored oldLive sameParent org child
      parent edge

/-- A row without live children may be soft-deleted. -/
theorem remove {row : Object Spec Status}
    (forest : Forest before)
    (replaces : Replaces before after key row)
    (dead : row.live = false)
    (childless : hasChildren before key.org key.name = false) :
    Forest after := by
  have kept :
      ∀ org child parent, ParentEdge after org child parent →
        ParentEdge before org child parent := by
    intro org child parent edge
    rcases replaces.parentEdge edge with ⟨_, live, _⟩ | ⟨_, old⟩
    · cases dead.symm.trans live
    · exact old
  refine ⟨fun org => (forest.acyclic org).mono (kept org), ?_⟩
  intro org child parent edge
  have old := kept org child parent edge
  rw [replaces.liveExists_other]
  · exact forest.parentsLive org child parent old
  · rintro rfl
    rcases (parentEdge_iff before org child parent).mp old with
      ⟨row, found, live, parentEq⟩
    have hasChild : hasChildren before org parent = true :=
      (hasChildren_iff before org parent).mpr
        ⟨row, KeyedTable.find_mem found, live,
          congrArg Key.org (KeyedTable.key_of_find found),
          ((row.parentName_eq_some_iff parent).mp parentEq).1⟩
    cases childless.symm.trans hasChild

end Forest

/-! ## Sequential runs -/

namespace GenericStore

/-- The calls that check a parent before they write one. -/
def Call.checksParent : Call Spec Status → Bool
  | .partialUpdate _ _ _ => false
  | _ => true

theorem execute_acyclic
    (kind : Kind Spec Status) (table : Table Spec Status) (now : Time)
    (call : Call Spec Status)
    (checked : call.checksParent = true)
    (acyclic : ∀ org, Acyclic (ParentEdge table org)) :
    ∀ org, Acyclic (ParentEdge (execute kind table now call) org) := by
  cases call with
  | create object =>
      rcases create_table now table object with unchanged | ⟨accepted, inserted⟩
      · simpa only [execute, unchanged] using acyclic
      · apply acyclic_of_replaces (replaces_of_insertRow inserted) _ acyclic
        intro _ parent parentEq
        exact parentAllowed_of_validateParent accepted parent parentEq
  | update object =>
      cases accepted : acceptsUpdate table object with
      | false =>
          simpa only [execute, (update_refused kind now accepted).1] using acyclic
      | true =>
          rcases (update_accepted kind now accepted).2 with
            ⟨generation, _, replaces⟩
          have parentAccepted : validateParent table object = none := by
            simp only [acceptsUpdate, Bool.and_eq_true,
              Option.isNone_iff_eq_none] at accepted
            exact accepted.1
          apply acyclic_of_replaces replaces _ acyclic
          intro _ parent parentEq
          exact parentAllowed_of_validateParent parentAccepted parent parentEq
  | partialUpdate key version fields => simp [Call.checksParent] at checked
  | delete key =>
      rcases delete_table now table key with
        unchanged | marked | ⟨_, _, _, _, deleted⟩
      · simpa only [execute, unchanged] using acyclic
      · rcases updateLive_spec marked with ⟨row, stored, live, _, replaces⟩
        exact fun org => (acyclic org).mono
          (replaces.parentEdge_of_same_parent stored live rfl org)
      · rcases updateLive_spec deleted with ⟨row, stored, live, _, replaces⟩
        exact fun org => (acyclic org).mono
          (replaces.parentEdge_of_same_parent stored live rfl org)

/--
From the empty table, every sequential run of `Create`, `Update` and `Delete`
leaves the parent graph on live rows of every tenant without a cycle.
-/
theorem sequential_run_acyclic
    (kind : Kind Spec Status)
    (calls : List (Time × Call Spec Status))
    (checked : ∀ call ∈ calls, call.2.checksParent = true)
    (table : Table Spec Status)
    (reached : run (callStep kind) KeyedTable.empty calls = some table)
    (org : UUID) :
    Acyclic (LiveParentEdge table org) := by
  have initial :
      ∀ org, Acyclic (ParentEdge (KeyedTable.empty : Table Spec Status) org) := by
    intro org element cycle
    rcases TransGen.head'_iff.mp cycle with ⟨_, edge, _⟩
    rcases (parentEdge_iff _ _ _ _).mp edge with ⟨_, found, _⟩
    simp at found
  have invariant : ∀ org, Acyclic (ParentEdge table org) := by
    refine run_induction (callStep kind)
      (motive := fun labels state =>
        (∀ call ∈ labels, call.2.checksParent = true) →
          ∀ org, Acyclic (ParentEdge state org))
      (fun _ => initial) ?_ reached checked
    intro labels label state next _ holds stepped checkedSoFar
    have acyclic := holds (fun call member =>
      checkedSoFar call (List.mem_append_left _ member))
    have labelChecked := checkedSoFar label (by simp)
    cases stepped
    exact execute_acyclic kind state label.1 label.2 labelChecked acyclic
  exact (invariant org).mono (fun _ _ edge => edge.1)

/-- A child is created under a parent, which then can neither move nor go. -/
theorem nested_rows_acyclic :
    ∃ table,
      run (callStep ⟨none⟩) KeyedTable.empty
          [(1, .create ⟨{ name := "a" }, (), ()⟩),
            (2, .create ⟨{ name := "b", parent := some "a" }, (), ()⟩),
            (3, .update
              ⟨{ name := "a", parent := some "b", resourceVersion := 1 },
                (), ()⟩),
            (4, .delete ⟨0, "a"⟩)] = some table ∧
        LiveParentEdge table 0 "b" "a" ∧
        Acyclic (LiveParentEdge table 0) :=
  ⟨_, rfl, ⟨⟨rfl, by decide⟩, rfl⟩,
    sequential_run_acyclic ⟨none⟩
      [(1, .create ⟨{ name := "a" }, (), ()⟩),
        (2, .create ⟨{ name := "b", parent := some "a" }, (), ()⟩),
        (3, .update
          ⟨{ name := "a", parent := some "b", resourceVersion := 1 }, (), ()⟩),
        (4, .delete ⟨0, "a"⟩)]
      (by decide) _ rfl 0⟩

end GenericStore

end Infractl.Store
