import Infractl.Store.Interleaving
import Infractl.Store.ListIsolation
import Infractl.Store.References

/-!
# Statements that keep to one tenant

Every statement of a call names the tenant it is for.  On two tables that agree
on this tenant, a read returns the same, and a write succeeds on both or on
neither and leaves tables that agree.  A write leaves every other tenant as it
was.
-/

namespace Infractl.Store

open Infractl.Lib

variable {Spec Status : Type}

theorem AgreeOn.refl (org : UUID) (table : Table Spec Status) :
    AgreeOn org table table :=
  fun _ => rfl

theorem AgreeOn.trans {org : UUID} {first second third : Table Spec Status}
    (left : AgreeOn org first second) (right : AgreeOn org second third) :
    AgreeOn org first third :=
  fun name => (left name).trans (right name)

/-! ## Reads -/

section Reads

variable {org : UUID} {left right : Table Spec Status}
variable (agree : AgreeOn org left right) {key : Key} (own : key.org = org)

include agree

theorem AgreeOn.hasChildren_eq (name : String) :
    hasChildren left org name = hasChildren right org name := by
  rw [Bool.eq_iff_iff, hasChildren_iff, hasChildren_iff]
  constructor
  · rintro ⟨row, member, live, ofTenant, child⟩
    exact ⟨row, agree.mem member ofTenant, live, ofTenant, child⟩
  · rintro ⟨row, member, live, ofTenant, child⟩
    exact ⟨row, agree.symm.mem member ofTenant, live, ofTenant, child⟩

include own

theorem AgreeOn.find_eq : left.find key = right.find key := by
  subst own
  exact agree key.name

theorem AgreeOn.selectLive_eq : selectLive left key = selectLive right key := by
  rw [selectLive, agree.find_eq own, selectLive]

theorem AgreeOn.liveExists_eq : liveExists left key = liveExists right key := by
  rw [liveExists, agree.selectLive_eq own, liveExists]

end Reads

theorem AgreeOn.selectParent_eq {org : UUID} {left right : Table Spec Status}
    (agree : AgreeOn org left right) (name : String) :
    selectParent left org name = selectParent right org name := by
  have same := agree.selectLive_eq (rfl : (⟨org, name⟩ : Key).org = org)
  rw [selectParent, same, selectParent]

/-! ## Writes -/

theorem updateFields_eq_some_none_iff {now : Time} {table : Table Spec Status}
    {key : Key} {version : Int64} {fields : FieldMap Spec Status} :
    updateFields now table key version fields = some none ↔
      fields.malformed = false ∧
        ¬ ∃ row, selectLive table key = some row ∧
          row.resource.resourceVersion = version := by
  rw [← any_isVersionOf_iff, updateFields]
  split
  · next refused => simp [refused]
  · next taken =>
      split
      · next matched => simp [matched]
      · next unmatched => simp [taken, unmatched]

/-- A partial update that writes has found a live row at its version. -/
theorem updateFields_reads {now : Time} {table written : Table Spec Status}
    {key : Key} {version : Int64} {fields : FieldMap Spec Status}
    (done : updateFields now table key version fields = some (some written)) :
    ∃ row, selectLive table key = some row ∧
      row.resource.resourceVersion = version := by
  have accepted := (updateFields_accepted_iff now table key version fields).mp ⟨_, done⟩
  simp only [acceptsFields, Bool.and_eq_true, Option.any_eq_true,
    decide_eq_true_eq] at accepted
  exact accepted.2.1

section Writes

variable {org : UUID} {left right written other : Table Spec Status}
variable {key : Key} {row : Object Spec Status}

theorem AgreeOn.replaces (agree : AgreeOn org left right)
    (first : Replaces left written key row)
    (second : Replaces right other key row) :
    AgreeOn org written other := by
  intro name
  rw [first, second, agree]

theorem AgreeOn.rewrites (agree : AgreeOn org left right)
    (first : Rewrites left written key row)
    (second : Rewrites right other key row) :
    AgreeOn org written other := by
  intro name
  rw [first, second, agree]

/-- A row written for another tenant. -/
theorem Replaces.agreeOn (replaces : Replaces left written key row)
    (foreign : key.org ≠ org) :
    AgreeOn org written left := by
  intro name
  apply replaces.find_other
  rintro rfl
  exact foreign rfl

theorem Rewrites.agreeOn (rewrites : Rewrites left written key row)
    (foreign : key.org ≠ org) (foreignRow : row.key.org ≠ org) :
    AgreeOn org written left := by
  intro name
  rw [rewrites]
  split
  · next same => exact absurd (congrArg Key.org same.symm) foreignRow
  · split
    · next same => exact absurd (congrArg Key.org same.symm) foreign
    · rfl

variable (agree : AgreeOn org left right)

include agree

theorem AgreeOn.updateLive_rel (own : key.org = org)
    (guard : Object Spec Status → Bool)
    (assign : Object Spec Status → Object Spec Status)
    (keepsKey : ∀ row, (assign row).key = row.key) :
    Option.Rel (AgreeOn org) (updateLive left key guard assign keepsKey)
      (updateLive right key guard assign keepsKey) := by
  have sameRow := agree.find_eq own
  cases first : updateLive left key guard assign keepsKey with
  | none =>
      rw [updateLive_eq_none_iff, sameRow] at first
      rw [updateLive_eq_none_iff.mpr first]
      exact .none
  | some written =>
      rcases updateLive_spec first with ⟨row, found, live, chosen, replaces⟩
      rw [sameRow] at found
      cases second : updateLive right key guard assign keepsKey with
      | none =>
          cases (updateLive_eq_none_iff.mp second row found live).symm.trans chosen
      | some other =>
          rcases updateLive_spec second with ⟨_, foundRight, _, _, replacesRight⟩
          cases found.symm.trans foundRight
          exact .some (agree.replaces replaces replacesRight)

theorem AgreeOn.insertRow_rel {object : Object Spec Status}
    (own : object.key.org = org) (now : Time) :
    Option.Rel (AgreeOn org) (insertRow now left object)
      (insertRow now right object) := by
  have sameRow : left.find (object.prepareInsert now).key =
      right.find (object.prepareInsert now).key :=
    agree.find_eq own
  cases first : insertRow now left object with
  | none =>
      rw [insertRow, KeyedTable.insert?_eq_none_iff, sameRow,
        ← KeyedTable.insert?_eq_none_iff] at first
      rw [insertRow, first]
      exact .none
  | some written =>
      cases second : insertRow now right object with
      | none =>
          rw [insertRow, KeyedTable.insert?_eq_none_iff, ← sameRow,
            ← KeyedTable.insert?_eq_none_iff] at second
          cases second.symm.trans first
      | some other =>
          exact .some (agree.replaces (replaces_of_insertRow first)
            (replaces_of_insertRow second))

theorem AgreeOn.acceptsFields_eq (own : key.org = org)
    {fields : FieldMap Spec Status} (stays : (fields.renamed key).org = org)
    (version : Int64) :
    acceptsFields left key version fields = acceptsFields right key version fields := by
  rw [acceptsFields, agree.selectLive_eq own, agree.find_eq stays, acceptsFields]

/-- A partial update is refused, finds no row or writes on both tables. -/
theorem AgreeOn.updateFields_rel (own : key.org = org)
    {fields : FieldMap Spec Status} (stays : (fields.renamed key).org = org)
    (now : Time) (version : Int64) :
    Option.Rel (Option.Rel (AgreeOn org))
      (updateFields now left key version fields)
      (updateFields now right key version fields) := by
  have sameMiss : updateFields now left key version fields = some none ↔
      updateFields now right key version fields = some none := by
    rw [updateFields_eq_some_none_iff, updateFields_eq_some_none_iff,
      agree.selectLive_eq own]
  have sameWrite :
      (∃ written, updateFields now left key version fields = some (some written)) ↔
        ∃ other, updateFields now right key version fields = some (some other) := by
    rw [updateFields_accepted_iff, updateFields_accepted_iff,
      agree.acceptsFields_eq own stays]
  rcases first : updateFields now left key version fields with _ | _ | written
  · rcases second : updateFields now right key version fields with _ | _ | other
    · exact .none
    · simp [first, second] at sameMiss
    · simp [first, second] at sameWrite
  · rw [sameMiss.mp first]
    exact .some .none
  · rcases sameWrite.mp ⟨written, first⟩ with ⟨other, second⟩
    rcases updateFields_reads first with ⟨row, selected, versionEq⟩
    rcases (selectLive_eq_some_iff left key row).mp selected with ⟨found, live⟩
    have foundRight := found
    rw [agree.find_eq own] at foundRight
    rw [second]
    exact .some (.some (agree.rewrites
      (updateFields_rewrites first found live versionEq)
      (updateFields_rewrites second foundRight live versionEq)))

end Writes

end Infractl.Store
