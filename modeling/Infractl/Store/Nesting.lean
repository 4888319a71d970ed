import Infractl.Lib.Acyclic
import Infractl.Store.Statements

/-!
# Parent references

`validateParent` accepts a parent that is stored as a live row of the tenant
and from which following parent columns never meets the child.  The walk is a
loop over the current table with a set of visited names; it is given fuel
here, and `walkAncestors_isSome` shows that one unit per row and one more is
always enough, so that `validateParent` is a total function.

The graph behind these checks has an edge from every live row to its
non-empty parent column.  An accepted parent does not reach the child in that
graph, which is what keeps it acyclic when the edge is added.
-/

namespace Infractl.Store

open Infractl.Lib
open Relation

variable {Spec Status : Type}

/-! ## The parent graph -/

/-- A live row and the non-empty name in its parent column. -/
def ParentEdge (table : Table Spec Status) (org : UUID)
    (child parent : String) : Prop :=
  selectParent table org child = some parent ∧ parent ≠ ""

/-- A parent edge whose target is again a live row. -/
def LiveParentEdge (table : Table Spec Status) (org : UUID)
    (child parent : String) : Prop :=
  ParentEdge table org child parent ∧
    liveExists table ⟨org, parent⟩ = true

theorem parentEdge_iff
    (table : Table Spec Status) (org : UUID) (child parent : String) :
    ParentEdge table org child parent ↔
      ∃ row, table.find ⟨org, child⟩ = some row ∧ row.live = true ∧
        row.parentName = some parent := by
  simp only [ParentEdge, selectParent, Option.bind_eq_some_iff,
    selectLive_eq_some_iff, Object.parentName_eq_some_iff]
  constructor
  · rintro ⟨⟨row, ⟨found, live⟩, parentEq⟩, nonempty⟩
    exact ⟨row, found, live, parentEq, nonempty⟩
  · rintro ⟨row, found, live, parentEq, nonempty⟩
    exact ⟨⟨row, ⟨found, live⟩, parentEq⟩, nonempty⟩

/-! ## The ancestor walk -/

/--
The loop of `ValidateParent`.  The outer `none` means that the fuel ran out;
otherwise the answer is the error returned, or `none` for a clean walk.
-/
def walkAncestors (table : Table Spec Status) (org : UUID) :
    Nat → List String → String → Option (Option StoreError)
  | 0, _, _ => none
  | fuel + 1, visited, current =>
      if current = "" then
        some none
      else if current ∈ visited then
        some (some .circularParent)
      else
        match selectParent table org current with
        | none => some none
        | some parent => walkAncestors table org fuel (current :: visited) parent

theorem selectParent_name_mem
    {table : Table Spec Status} {org : UUID} {name parent : String}
    (selected : selectParent table org name = some parent) :
    name ∈ table.rows.map (fun row => row.resource.name) := by
  simp only [selectParent, Option.bind_eq_some_iff,
    selectLive_eq_some_iff] at selected
  rcases selected with ⟨row, ⟨found, _⟩, _⟩
  refine List.mem_map.mpr ⟨row, KeyedTable.find_mem found, ?_⟩
  exact congrArg Key.name (KeyedTable.key_of_find found)

/-- The names walked so far are distinct rows, which bounds the iterations. -/
theorem walkAncestors_isSome
    (table : Table Spec Status) (org : UUID)
    (fuel : Nat) (walked visited : List String) (current : String)
    (stored : walked ⊆ table.rows.map (fun row => row.resource.name))
    (distinct : walked.Nodup)
    (remembered : walked ⊆ visited)
    (enough : table.rows.length < fuel + walked.length) :
    (walkAncestors table org fuel visited current).isSome = true := by
  induction fuel generalizing walked visited current with
  | zero =>
      have bounded : walked.length ≤ table.rows.length := by
        simpa using (distinct.subperm stored).length_le
      omega
  | succ fuel ih =>
      rw [walkAncestors]
      split
      · rfl
      · split
        · rfl
        · next fresh =>
            cases selected : selectParent table org current with
            | none => rfl
            | some parent =>
                apply ih (current :: walked)
                · intro name member
                  rcases List.mem_cons.mp member with rfl | old
                  · exact selectParent_name_mem selected
                  · exact stored old
                · exact List.nodup_cons.mpr
                    ⟨fun member => fresh (remembered member), distinct⟩
                · exact List.cons_subset_cons current remembered
                · simp only [List.length_cons]
                  omega

/-- The fuel with which the walk of a table always ends. -/
def walkFuel (table : Table Spec Status) : Nat :=
  table.rows.length + 1

theorem walkAncestors_walkFuel_isSome
    (table : Table Spec Status) (org : UUID)
    (visited : List String) (current : String) :
    (walkAncestors table org (walkFuel table) visited current).isSome = true :=
  walkAncestors_isSome table org (walkFuel table) [] visited current
    (List.nil_subset _) List.nodup_nil (List.nil_subset _)
    (by simp [walkFuel])

/-- A clean walk meets no visited name, however far the chain is followed. -/
theorem walkAncestors_clean
    {table : Table Spec Status} {org : UUID}
    {fuel : Nat} {visited : List String} {current : String}
    (clean : walkAncestors table org fuel visited current = some none)
    (nonempty : current ≠ "")
    {reached : String}
    (path : ReflTransGen (ParentEdge table org) current reached) :
    reached ∉ visited := by
  induction fuel generalizing visited current with
  | zero => simp [walkAncestors] at clean
  | succ fuel ih =>
      rw [walkAncestors, if_neg nonempty] at clean
      split at clean
      · cases clean
      · next fresh =>
          rcases ReflTransGen.cases_head path with rfl | ⟨next, edge, rest⟩
          · exact fresh
          · rw [edge.1] at clean
            have unseen := ih clean edge.2 rest
            intro member
            exact unseen (List.mem_cons_of_mem current member)

/-! ## Validation -/

/--
`ValidateParent`: the parent differs from the child, is a live row, and the
walk from it meets neither the child nor a name twice.
-/
def validateParent (table : Table Spec Status) (org : UUID)
    (name parentName : String) : Option StoreError :=
  if parentName = name then
    some .circularParent
  else if liveExists table ⟨org, parentName⟩ then
    (walkAncestors table org (walkFuel table) [name] parentName).get
      (walkAncestors_walkFuel_isSome table org [name] parentName)
  else
    some .parentNotFound

/-- An accepted parent is live and does not reach the child. -/
theorem validateParent_eq_none
    {table : Table Spec Status} {org : UUID} {name parentName : String}
    (nonempty : parentName ≠ "")
    (accepted : validateParent table org name parentName = none) :
    liveExists table ⟨org, parentName⟩ = true ∧
      ¬ ReflTransGen (ParentEdge table org) parentName name := by
  unfold validateParent at accepted
  split at accepted
  · cases accepted
  · split at accepted
    · next live =>
        refine ⟨live, ?_⟩
        intro path
        have clean :
            walkAncestors table org (walkFuel table) [name] parentName =
              some none := by
          rw [← accepted, Option.some_get]
        exact walkAncestors_clean clean nonempty path (List.mem_singleton.mpr rfl)
    · cases accepted

/-- `HasChildren`: some live row of the tenant names this one as its parent. -/
def hasChildren (table : Table Spec Status) (org : UUID) (name : String) :
    Bool :=
  decide (countChildren table org name > 0)

theorem hasChildren_iff
    (table : Table Spec Status) (org : UUID) (name : String) :
    hasChildren table org name = true ↔
      ∃ row ∈ table.rows, row.live = true ∧ row.resource.orgID = org ∧
        row.resource.parent = some name := by
  simp [hasChildren, countChildren, List.countP_pos_iff, isChildOf, and_assoc]

end Infractl.Store
