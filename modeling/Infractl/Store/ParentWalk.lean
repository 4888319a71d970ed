import Infractl.Store.Nesting

/-!
# What the parent check decides

`ValidateParent` walks along parent columns with a set of visited names.  The
walk ends on every table, cyclic ones included, and more fuel than it needs
never changes its answer.

`Climbs` is the walk without fuel and without a visited set: the names met on
the way up from a row, to the first one without a parent.  A parent is accepted
exactly when it is a live row other than the child from which such a way leads
up that meets neither the child nor a name twice.
-/

namespace Infractl.Store

open Infractl.Lib

variable {Spec Status : Type}

/--
The names met when parent columns are followed from a name until one is nil or
empty or names a row that is not there.
-/
inductive Climbs (table : Table Spec Status) (org : UUID) :
    String → List String → Prop where
  | top {name : String}
      (ends : ∀ parent, ¬ ParentEdge table org name parent) :
      Climbs table org name [name]
  | up {name parent : String} {path : List String}
      (edge : ParentEdge table org name parent)
      (rest : Climbs table org parent path) :
      Climbs table org name (name :: path)

section Walk

variable {table : Table Spec Status} {org : UUID}

theorem not_parentEdge_of_selectParent_eq_none {name : String}
    (missing : selectParent table org name = none) (parent : String) :
    ¬ ParentEdge table org name parent := by
  intro edge
  cases missing.symm.trans edge.1

theorem not_parentEdge_of_selectParent_eq_empty {name : String}
    (isEmpty : selectParent table org name = some "") (parent : String) :
    ¬ ParentEdge table org name parent := by
  intro edge
  exact edge.2 (Option.some.inj (edge.1.symm.trans isEmpty))

/-- An answer of the walk is its answer with more fuel as well. -/
theorem walkAncestors_mono {fuel more : Nat} {visited : List String}
    {current : String} {answer : Option StoreError}
    (walked : walkAncestors table org fuel visited current = some answer)
    (enough : fuel ≤ more) :
    walkAncestors table org more visited current = some answer := by
  induction fuel generalizing more visited current with
  | zero => cases walked
  | succ fuel ih =>
      cases more with
      | zero => exact absurd enough (Nat.not_succ_le_zero fuel)
      | succ more =>
          rw [walkAncestors] at walked ⊢
          split
          · next isEmpty => rwa [if_pos isEmpty] at walked
          · next nonempty =>
              rw [if_neg nonempty] at walked
              split
              · next seen => rwa [if_pos seen] at walked
              · next fresh =>
                  rw [if_neg fresh] at walked
                  cases selected : selectParent table org current with
                  | none => rwa [selected] at walked
                  | some parent =>
                      rw [selected] at walked
                      exact ih walked (Nat.le_of_succ_le_succ enough)

/-- The walk ends: from some fuel on, it has one answer. -/
theorem walkAncestors_ends (table : Table Spec Status) (org : UUID)
    (visited : List String) (current : String) :
    ∃ answer, ∀ fuel, walkFuel table ≤ fuel →
      walkAncestors table org fuel visited current = some answer := by
  rcases Option.isSome_iff_exists.mp
      (walkAncestors_walkFuel_isSome table org visited current) with
    ⟨answer, walked⟩
  exact ⟨answer, fun _ enough => walkAncestors_mono walked enough⟩

/-- The only error of the walk. -/
theorem walkAncestors_error {fuel : Nat} {visited : List String}
    {current : String} {error : StoreError}
    (walked : walkAncestors table org fuel visited current = some (some error)) :
    error = .circularParent := by
  induction fuel generalizing visited current with
  | zero => cases walked
  | succ fuel ih =>
      rw [walkAncestors] at walked
      split at walked
      · cases walked
      · split at walked
        · cases walked
          rfl
        · split at walked
          · cases walked
          · exact ih walked

/-- A clean walk has climbed past names that it had not visited. -/
theorem climbs_of_clean {fuel : Nat} {visited : List String} {current : String}
    (clean : walkAncestors table org fuel visited current = some none)
    (nonempty : current ≠ "") :
    ∃ path, Climbs table org current path ∧ path.Nodup ∧
      ∀ name ∈ path, name ∉ visited := by
  induction fuel generalizing visited current with
  | zero => cases clean
  | succ fuel ih =>
      rw [walkAncestors, if_neg nonempty] at clean
      split at clean
      · cases clean
      · next fresh =>
          have alone : ∀ name ∈ [current], name ∉ visited := by
            intro name member
            rw [List.mem_singleton.mp member]
            exact fresh
          cases selected : selectParent table org current with
          | none =>
              exact ⟨[current],
                .top (not_parentEdge_of_selectParent_eq_none selected),
                List.nodup_singleton current, alone⟩
          | some parent =>
              rw [selected] at clean
              by_cases isEmpty : parent = ""
              · subst isEmpty
                exact ⟨[current],
                  .top (not_parentEdge_of_selectParent_eq_empty selected),
                  List.nodup_singleton current, alone⟩
              · rcases ih clean isEmpty with ⟨path, climbs, distinct, unseen⟩
                refine ⟨current :: path, .up ⟨selected, isEmpty⟩ climbs, ?_, ?_⟩
                · refine List.nodup_cons.mpr ⟨?_, distinct⟩
                  intro member
                  exact unseen current member (List.mem_cons_self ..)
                · intro name member
                  rcases List.mem_cons.mp member with rfl | later
                  · exact fresh
                  · intro seen
                    exact unseen name later (List.mem_cons_of_mem _ seen)

/-- A way up past names not visited is walked cleanly. -/
theorem Climbs.clean {current : String} {path : List String}
    (climbs : Climbs table org current path) (distinct : path.Nodup)
    (nonempty : current ≠ "") {visited : List String}
    (unseen : ∀ name ∈ path, name ∉ visited) :
    walkAncestors table org (path.length + 1) visited current = some none := by
  induction climbs generalizing visited with
  | @top name ends =>
      have fresh := unseen name (List.mem_singleton_self name)
      rw [walkAncestors, if_neg nonempty, if_neg fresh]
      cases selected : selectParent table org name with
      | none => rfl
      | some parent =>
          -- Only an empty parent column leads to no edge.
          have isEmpty : parent = "" := by
            by_contra isName
            exact ends parent ⟨selected, isName⟩
          rw [isEmpty]
          rfl
  | @up name parent path edge rest ih =>
      rw [List.nodup_cons] at distinct
      have fresh := unseen name (List.mem_cons_self ..)
      rw [walkAncestors, if_neg nonempty, if_neg fresh, edge.1]
      apply ih distinct.2 edge.2
      intro other member seen
      rcases List.mem_cons.mp seen with rfl | older
      · exact distinct.1 member
      · exact unseen other (List.mem_cons_of_mem _ member) older

end Walk

/-- The walk of an accepted parent, as the check reads its answer. -/
theorem validateParent_of_live {table : Table Spec Status} {org : UUID}
    {name parentName : String} (different : parentName ≠ name)
    (live : liveExists table ⟨org, parentName⟩ = true) :
    walkAncestors table org (walkFuel table) [name] parentName =
      some (validateParent table org name parentName) := by
  rw [validateParent, if_neg different, if_pos live, Option.some_get]

theorem validateParent_of_missing {table : Table Spec Status} {org : UUID}
    {name parentName : String} (different : parentName ≠ name)
    (missing : liveExists table ⟨org, parentName⟩ = false) :
    validateParent table org name parentName = some .parentNotFound := by
  rw [validateParent, if_neg different, missing]
  rfl

theorem validateParent_self (table : Table Spec Status) (org : UUID)
    (name : String) :
    validateParent table org name name = some .circularParent :=
  if_pos rfl

/-- A live parent is accepted exactly when a way leads up past the child. -/
theorem validateParent_eq_none_iff {table : Table Spec Status} {org : UUID}
    {name parentName : String} (nonempty : parentName ≠ "")
    (different : parentName ≠ name)
    (live : liveExists table ⟨org, parentName⟩ = true) :
    validateParent table org name parentName = none ↔
      ∃ path, Climbs table org parentName path ∧ path.Nodup ∧ name ∉ path := by
  have walked := validateParent_of_live different live
  constructor
  · intro accepted
    rw [accepted] at walked
    rcases climbs_of_clean walked nonempty with ⟨path, climbs, distinct, unseen⟩
    exact ⟨path, climbs, distinct,
      fun member => unseen name member (List.mem_singleton_self name)⟩
  · rintro ⟨path, climbs, distinct, avoided⟩
    have unseen : ∀ other ∈ path, other ∉ [name] := by
      intro other member same
      rw [List.mem_singleton.mp same] at member
      exact avoided member
    have clean := climbs.clean distinct nonempty unseen
    -- Both fuels give an answer, hence the same one.
    have left := walkAncestors_mono walked (Nat.le_max_left _ (path.length + 1))
    have right := walkAncestors_mono clean (Nat.le_max_right (walkFuel table) _)
    exact Option.some.inj (left.symm.trans right)

/--
The check ends on every table, and its three answers are these: the parent is
not there; it is there and leads up past the child; anything else is a cycle.
-/
theorem validateParent_decides
    (table : Table Spec Status) (org : UUID) (name parentName : String)
    (nonempty : parentName ≠ "") :
    (∃ answer, ∀ fuel, table.rows.length + 1 ≤ fuel →
      walkAncestors table org fuel [name] parentName = some answer) ∧
    (validateParent table org name parentName = some .parentNotFound ↔
      parentName ≠ name ∧ liveExists table ⟨org, parentName⟩ = false) ∧
    (validateParent table org name parentName = none ↔
      parentName ≠ name ∧ liveExists table ⟨org, parentName⟩ = true ∧
        ∃ path, Climbs table org parentName path ∧ path.Nodup ∧ name ∉ path) ∧
    (validateParent table org name parentName ≠ some .parentNotFound →
      validateParent table org name parentName ≠ none →
        validateParent table org name parentName = some .circularParent) := by
  refine ⟨walkAncestors_ends table org [name] parentName, ?_⟩
  by_cases different : parentName = name
  · subst different
    simp [validateParent_self]
  · cases live : liveExists table ⟨org, parentName⟩ with
    | false => simp [validateParent_of_missing different live, different]
    | true =>
        have accepted := validateParent_eq_none_iff nonempty different live
        have walked := validateParent_of_live different live
        cases answer : validateParent table org name parentName with
        | none =>
            rw [answer] at accepted
            simpa [different] using accepted
        | some error =>
            rw [answer] at accepted walked
            rw [walkAncestors_error walked]
            simpa [different] using accepted

/-- Machine `c` under `b` under `a`, and a cycle of `x` and `y`. -/
def nestedMachines : Table Unit Unit where
  rows :=
    [⟨{ orgID := 1, name := "a" }, (), ()⟩,
      ⟨{ orgID := 1, name := "b", parent := some "a" }, (), ()⟩,
      ⟨{ orgID := 1, name := "c", parent := some "b" }, (), ()⟩,
      ⟨{ orgID := 1, name := "x", parent := some "y" }, (), ()⟩,
      ⟨{ orgID := 1, name := "y", parent := some "x" }, (), ()⟩]
  distinct := by decide

theorem nested_parents_decided :
    validateParent nestedMachines 1 "d" "c" = none ∧
      (∃ path, Climbs nestedMachines 1 "c" path ∧ path.Nodup ∧ "d" ∉ path) ∧
      validateParent nestedMachines 1 "a" "c" = some .circularParent ∧
      validateParent nestedMachines 1 "d" "x" = some .circularParent ∧
      validateParent nestedMachines 1 "d" "e" = some .parentNotFound := by
  have decided := validateParent_decides nestedMachines 1 "d" "c" (by decide)
  have accepted : validateParent nestedMachines 1 "d" "c" = none := by decide
  exact ⟨accepted, (decided.2.2.1.mp accepted).2.2, by decide, by decide,
    by decide⟩

end Infractl.Store
