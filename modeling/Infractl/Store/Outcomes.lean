import Infractl.Store.Existence

/-!
# What the writing calls answer

`Update` and `PartialUpdate` write a row that is live and has the version of
the caller.  A row that is missing and a row with another version are two
errors, and the two calls tell them apart by different means: `PartialUpdate`
counts the rows under the key once its statement has matched none, `Update`
relies on the read that only the tracked kinds get.

`Delete` reads the row, counts its children and looks at its finalizers, in
this order.  Each of its four answers goes with one thing done to the row, and
nothing is done to the others.
-/

namespace Infractl.Store.GenericStore

open Infractl.Lib

variable {Spec Status : Type}

/-! ## Missing and stale rows -/

/--
An answer to a write of a version under a key says whether no live row is
stored there, one with another version, or one with this version.
-/
structure TellsApart (table : Table Spec Status) (key : Key) (version : Int64)
    (answer : Option StoreError) : Prop where
  missing : answer = some .notFound ↔ selectLive table key = none
  stale : answer = some .conflict ↔
    ∃ row, selectLive table key = some row ∧
      row.resource.resourceVersion ≠ version
  current : answer = none ↔
    ∃ row, selectLive table key = some row ∧
      row.resource.resourceVersion = version

/-- The one answer that tells the three apart. -/
def verdict (table : Table Spec Status) (key : Key) (version : Int64) :
    Option StoreError :=
  match selectLive table key with
  | none => some .notFound
  | some row =>
      if row.resource.resourceVersion = version then none else some .conflict

section Verdict

variable {table : Table Spec Status} {key : Key} {version : Int64}

theorem verdict_tellsApart :
    TellsApart table key version (verdict table key version) := by
  unfold verdict
  cases selected : selectLive table key with
  | none => exact ⟨by simp [selected], by simp [selected], by simp [selected]⟩
  | some row =>
      by_cases same : row.resource.resourceVersion = version
      · exact ⟨by simp [same, selected], by simp [same, selected],
          by simp [same, selected]⟩
      · exact ⟨by simp [same, selected], by simp [same, selected],
          by simp [same, selected]⟩

theorem tellsApart_iff (answer : Option StoreError) :
    TellsApart table key version answer ↔
      answer = verdict table key version := by
  constructor
  · intro apart
    unfold verdict
    cases selected : selectLive table key with
    | none => exact apart.missing.mpr selected
    | some row =>
        dsimp only
        split
        · next same => exact apart.current.mpr ⟨row, selected, same⟩
        · next other => exact apart.stale.mpr ⟨row, selected, other⟩
  · rintro rfl
    exact verdict_tellsApart

theorem verdict_eq_none_iff :
    verdict table key version = none ↔
      ∃ row, selectLive table key = some row ∧
        row.resource.resourceVersion = version :=
  verdict_tellsApart.current

theorem verdict_of_missing (missing : liveExists table key = false) :
    verdict table key version = some .notFound := by
  rw [liveExists, Option.isSome_eq_false_iff, Option.isNone_iff_eq_none] at missing
  exact verdict_tellsApart.missing.mpr missing

theorem verdict_of_live (live : liveExists table key = true)
    (refused : verdict table key version ≠ none) :
    verdict table key version = some .conflict := by
  rcases Option.isSome_iff_exists.mp live with ⟨row, selected⟩
  refine verdict_tellsApart.stale.mpr ⟨row, selected, ?_⟩
  intro same
  exact refused (verdict_eq_none_iff.mpr ⟨row, selected, same⟩)

end Verdict

/-! ### Update -/

section Update

variable {kind : Kind Spec Status} {now : Time} {table : Table Spec Status}
variable {object : Object Spec Status}

theorem update_table_of_error
    (failed : (update kind now table object).error ≠ none) :
    (update kind now table object).table = table := by
  rw [Ne, update_error_eq_none_iff, Bool.not_eq_true] at failed
  exact (update_refused kind now failed).1

theorem validateParent_of_parentless (table : Table Spec Status)
    (parentless : object.resource.parent = none) :
    validateParent table object = none := by
  rw [validateParent, parentless]

/-- Without a parent, the row alone decides whether an `Update` is accepted. -/
theorem acceptsUpdate_of_parentless
    (parentless : object.resource.parent = none) :
    acceptsUpdate table object = true ↔
      verdict table object.key object.resource.resourceVersion = none := by
  rw [verdict_eq_none_iff, acceptsUpdate,
    validateParent_of_parentless table parentless]
  simp only [Option.isNone_none, Bool.true_and, Option.any_eq_true,
    decide_eq_true_eq]

/-- A refused `Update` knows of a missing row only from the tracking read. -/
theorem update_error_of_refused
    (parentless : object.resource.parent = none)
    (refused : acceptsUpdate table object = false) :
    (update kind now table object).error =
      if kind.specBytes.isSome ∧ liveExists table object.key = false then
        some .notFound
      else
        some .conflict := by
  have failed := (update_refused kind now refused).2
  have accepted := validateParent_of_parentless table parentless
  rcases kind with ⟨_ | specBytes⟩
  · simp only [update, accepted, trackGeneration] at failed ⊢
    split at failed
    · simp
    · exact absurd rfl failed
  · cases selected : selectLive table object.key with
    | none => simp [update, accepted, trackGeneration, liveExists, selected]
    | some existing =>
        simp only [update, accepted, trackGeneration, selected] at failed ⊢
        split at failed
        · simp [liveExists, selected]
        · exact absurd rfl failed

/-- An `Update` without a parent tells the rows apart if it reads the row. -/
theorem update_tellsApart_iff (parentless : object.resource.parent = none) :
    TellsApart table object.key object.resource.resourceVersion
        (update kind now table object).error ↔
      kind.specBytes.isSome = true ∨ liveExists table object.key = true := by
  rw [tellsApart_iff]
  cases accepted : acceptsUpdate table object with
  | true =>
      have current := (acceptsUpdate_of_parentless parentless).mp accepted
      rcases verdict_eq_none_iff.mp current with ⟨row, selected, _⟩
      rw [(update_accepted kind now accepted).1, current]
      exact iff_of_true rfl (Or.inr (by simp [liveExists, selected]))
  | false =>
      rw [update_error_of_refused parentless accepted]
      cases live : liveExists table object.key with
      | true =>
          have refused : verdict table object.key
              object.resource.resourceVersion ≠ none := by
            rw [Ne, ← acceptsUpdate_of_parentless parentless, accepted]
            exact Bool.false_ne_true
          rw [verdict_of_live live refused]
          simp
      | false =>
          rw [verdict_of_missing live]
          cases kind.specBytes <;> simp

end Update

/-! ### PartialUpdate -/

/--
The database takes the map: every entry names a column and fits it, and the
row, if it is written, keeps its key or gets one that is free.
-/
def DatabaseTakes (table : Table Spec Status) (key : Key) (version : Int64)
    (fields : FieldMap Spec Status) : Prop :=
  fields.malformed = false ∧
    (verdict table key version = none →
      fields.renamed key = key ∨ table.find (fields.renamed key) = none)

section PartialUpdate

variable {now : Time} {table : Table Spec Status} {key : Key}
variable {version : Int64} {fields : FieldMap Spec Status}

theorem acceptsFields_iff :
    acceptsFields table key version fields = true ↔
      DatabaseTakes table key version fields ∧
        verdict table key version = none := by
  simp only [acceptsFields, DatabaseTakes, verdict_eq_none_iff,
    Bool.and_eq_true, Bool.not_eq_true', Bool.or_eq_true, Option.any_eq_true,
    decide_eq_true_eq, Option.isNone_iff_eq_none]
  constructor
  · rintro ⟨wellFormed, current, free⟩
    exact ⟨⟨wellFormed, fun _ => free⟩, current⟩
  · rintro ⟨⟨wellFormed, free⟩, current⟩
    exact ⟨wellFormed, current, free current⟩

theorem updateFields_unmatched_iff :
    updateFields now table key version fields = some none ↔
      fields.malformed = false ∧ verdict table key version ≠ none := by
  rw [Ne, verdict_eq_none_iff, ← any_isVersionOf_iff]
  unfold updateFields
  cases fields.malformed with
  | true => simp
  | false => simp

theorem partialUpdate_table_of_error
    (failed : (partialUpdate now table key version fields).2 ≠ none) :
    (partialUpdate now table key version fields).1 = table := by
  unfold partialUpdate at failed ⊢
  split
  · rfl
  · next result done =>
      rw [done] at failed
      exact absurd rfl failed
  · split <;> rfl

theorem partialUpdate_tellsApart_iff :
    TellsApart table key version
        (partialUpdate now table key version fields).2 ↔
      DatabaseTakes table key version fields := by
  rw [tellsApart_iff]
  cases answer : updateFields now table key version fields with
  | none =>
      have untaken : ¬ DatabaseTakes table key version fields := by
        intro taken
        by_cases current : verdict table key version = none
        · have accepted := acceptsFields_iff.mpr ⟨taken, current⟩
          rcases (updateFields_accepted_iff now table key version fields).mpr
            accepted with ⟨result, done⟩
          cases answer.symm.trans done
        · cases answer.symm.trans
            (updateFields_unmatched_iff.mpr ⟨taken.1, current⟩)
      refine iff_of_false ?_ untaken
      simp only [partialUpdate, answer, verdict]
      split
      · simp
      · split <;> simp
  | some matched =>
      cases matched with
      | none =>
          rcases updateFields_unmatched_iff.mp answer with
            ⟨wellFormed, refused⟩
          refine iff_of_true ?_ ⟨wellFormed, fun current => absurd current refused⟩
          simp only [partialUpdate, answer]
          cases live : liveExists table key with
          | true => simp [verdict_of_live live refused]
          | false => simp [verdict_of_missing live]
      | some result =>
          have accepted :=
            (updateFields_accepted_iff now table key version fields).mp
              ⟨result, answer⟩
          rcases acceptsFields_iff.mp accepted with ⟨taken, current⟩
          refine iff_of_true ?_ taken
          simp only [partialUpdate, answer, current]

end PartialUpdate

/--
Neither call changes the table when it fails.  A `PartialUpdate` tells a
missing row from a stale one whenever the database takes its map; an `Update`
without a parent does so exactly when its kind is tracked or the row is there.
-/
theorem missing_told_from_stale_iff
    (kind : Kind Spec Status) (now : Time) (table : Table Spec Status)
    (object : Object Spec Status) (parentless : object.resource.parent = none)
    (key : Key) (version : Int64) (fields : FieldMap Spec Status) :
    ((update kind now table object).error ≠ none →
      (update kind now table object).table = table) ∧
    ((partialUpdate now table key version fields).2 ≠ none →
      (partialUpdate now table key version fields).1 = table) ∧
    (TellsApart table object.key object.resource.resourceVersion
        (update kind now table object).error ↔
      kind.specBytes.isSome = true ∨ liveExists table object.key = true) ∧
    (TellsApart table key version
        (partialUpdate now table key version fields).2 ↔
      DatabaseTakes table key version fields) :=
  ⟨update_table_of_error, partialUpdate_table_of_error,
    update_tellsApart_iff parentless, partialUpdate_tellsApart_iff⟩

/-- A machine at version three, and one that was deleted. -/
def twoMachines : Table Unit Unit :=
  (KeyedTable.empty.put
    ⟨{ orgID := 1, name := "a", resourceVersion := 3 }, (), ()⟩).put
    ⟨{ orgID := 1, name := "b", deletedAt := some 4 }, (), ()⟩

/-- A tracked kind: the machine that was deleted is missing, the other stale. -/
theorem tracked_update_tells_missing :
    (update ⟨some (fun _ => some [])⟩ 5 twoMachines (plainMachine "a")).error =
        some .conflict ∧
      (update ⟨some (fun _ => some [])⟩ 5 twoMachines (plainMachine "b")).error =
        some .notFound ∧
      (partialUpdate 5 twoMachines ⟨1, "a"⟩ 3 {}).2 = none ∧
      (partialUpdate 5 twoMachines ⟨1, "b"⟩ 0 {}).2 = some .notFound := by
  have told (object : Object Unit Unit) (parentless : object.resource.parent = none)
      (key : Key) (version : Int64) :=
    missing_told_from_stale_iff ⟨some (fun _ => some [])⟩ 5 twoMachines object
      parentless key version {}
  rcases told (plainMachine "a") rfl ⟨1, "a"⟩ 3 with ⟨_, _, updated, mapped⟩
  rcases told (plainMachine "b") rfl ⟨1, "b"⟩ 0 with ⟨_, _, sought, missed⟩
  refine ⟨(updated.mpr (.inl rfl)).stale.mpr ⟨_, rfl, by decide⟩,
    (sought.mpr (.inl rfl)).missing.mpr rfl, ?_, ?_⟩
  · exact (mapped.mpr ⟨rfl, fun _ => .inl rfl⟩).current.mpr ⟨_, rfl, rfl⟩
  · exact (missed.mpr ⟨rfl, fun _ => .inl rfl⟩).missing.mpr rfl

/-- An untracked kind: the update of a missing row reports a conflict. -/
theorem untracked_update_reports_conflict :
    (update ⟨none⟩ 5 (KeyedTable.empty : Table Unit Unit)
        (plainMachine "a")).error = some .conflict ∧
      (partialUpdate 5 (KeyedTable.empty : Table Unit Unit) ⟨1, "a"⟩ 0 {}).2 =
        some .notFound ∧
      ¬ TellsApart (KeyedTable.empty : Table Unit Unit) ⟨1, "a"⟩ 0
        (update ⟨none⟩ 5 (KeyedTable.empty : Table Unit Unit)
          (plainMachine "a")).error := by
  refine ⟨rfl, rfl, ?_⟩
  intro apart
  cases apart.missing.mpr rfl

/-! ## Delete -/

/-- A live row of the tenant names the row as its parent. -/
def HasLiveChild (table : Table Spec Status) (key : Key) : Prop :=
  ∃ child ∈ table.rows, child.live = true ∧
    child.resource.orgID = key.org ∧ child.resource.parent = some key.name

/--
`Delete`, end to end.  It answers by the first of three questions that fails:
whether the row is live, whether it has no live children, and whether it has no
finalizers.  Besides `updated_at`, a row with finalizers changes in its
deletion timestamp only, and a deleted row changes in `deleted_at` only.
-/
theorem delete_end_to_end
    (now : Time) (table : Table Spec Status) (key : Key) :
    ((delete now table key).2 = some .notFound ↔ selectLive table key = none) ∧
    (∀ row, selectLive table key = some row →
      ((delete now table key).2 = some .hasChildren ↔ HasLiveChild table key) ∧
      (¬ HasLiveChild table key →
        ((delete now table key).2 = some .finalizersPending ↔
          row.resource.getFinalizers ≠ []) ∧
        (row.resource.getFinalizers ≠ [] →
          (delete now table key).1.find key =
            some { row with
              resource := { row.resource with
                deletionTimestamp := some now
                updatedAt := now } }) ∧
        (row.resource.getFinalizers = [] →
          (delete now table key).2 = none ∧
            (delete now table key).1.find key =
              some { row with
                resource := { row.resource with deletedAt := some now } }))) ∧
    ((delete now table key).2 = some .notFound ∨
        (delete now table key).2 = some .hasChildren →
      (delete now table key).1 = table) ∧
    (∀ other, other ≠ key →
      (delete now table key).1.find other = table.find other) ∧
    ((delete now table key).2 = none →
      get (delete now table key).1 key.org key.name = .error .notFound) := by
  have childEq : hasChildren table key.org key.name = true ↔
      HasLiveChild table key :=
    hasChildren_iff table key.org key.name
  rcases delete_cases now table key with
    ⟨missing, answer⟩ | ⟨existing, selected, ⟨counted, answer⟩ |
      ⟨childless, finalizers, marked, updated, answer⟩ |
      ⟨childless, unfinalized, deleted, updated, answer⟩⟩
  · rw [answer]
    simp [missing]
  · rw [answer]
    simp [selected, childEq.mp counted]
  · have replaces := replaces_of_selected selected updated
    have childless : ¬ HasLiveChild table key := by simp [← childEq, childless]
    rw [answer]
    refine ⟨by simp [selected], ?_, by simp,
      fun other different => replaces.find_other different, by simp⟩
    intro row selectedRow
    cases selected.symm.trans selectedRow
    refine ⟨by simp [childless], fun _ => ⟨by simp [finalizers], ?_, ?_⟩⟩
    · exact fun _ => replaces.find_self
    · exact fun unfinalized => absurd unfinalized finalizers
  · have replaces := replaces_of_selected selected updated
    have childless : ¬ HasLiveChild table key := by simp [← childEq, childless]
    rw [answer]
    refine ⟨by simp [selected], ?_, by simp,
      fun other different => replaces.find_other different, ?_⟩
    · intro row selectedRow
      cases selected.symm.trans selectedRow
      refine ⟨by simp [childless], fun _ => ⟨by simp [unfinalized], ?_, ?_⟩⟩
      · exact fun finalizers => absurd unfinalized finalizers
      · exact fun _ => ⟨rfl, replaces.find_self⟩
    · intro _
      rw [get, selectLive, replaces.find_self]
      rfl

end Infractl.Store.GenericStore
