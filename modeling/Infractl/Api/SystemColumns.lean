import Infractl.Api.Handler

/-!
# Columns the system manages

`created_at`, `creator` and `deletion_timestamp` are set by the system and are
not meant to be changed by an update.  `Update` writes every column from the
object it is given, so that a successful call keeps them exactly when that
object carries the stored values.

What the object carries depends on the handler.  The generic route decodes the
body into a zero value, so that the columns a body does not name are erased.
The handlers that read the row first keep the columns a body does not name.
-/

namespace Infractl.Api

open Infractl.Lib
open Infractl.Store

variable {Spec Status : Type}

/-- The values of the three columns. -/
structure SystemColumns where
  createdAt : Time
  creator : String
  deletionTimestamp : Option Time
deriving DecidableEq

/-- The three columns of an object. -/
def systemColumns (object : Object Spec Status) : SystemColumns :=
  ⟨object.resource.createdAt, object.resource.creator,
    object.resource.deletionTimestamp⟩

/-! ## The store -/

/-- A successful `Update` writes the columns of its object. -/
theorem systemColumns_of_update {kind : Kind Spec Status} {now : Time}
    {table : Table Spec Status} {object : Object Spec Status}
    (succeeded : (GenericStore.update kind now table object).error = none) :
    ∃ after,
      (GenericStore.update kind now table object).table.find object.key =
          some after ∧
        systemColumns after = systemColumns object := by
  have accepted := (GenericStore.update_error_eq_none_iff ..).mp succeeded
  rcases (GenericStore.update_accepted kind now accepted).2 with
    ⟨generation, _, replaces⟩
  exact ⟨_, replaces.find_self, rfl⟩

/--
A successful `Update` has found a live row, and it keeps the system columns of
that row exactly when the object it is given carries their stored values.
-/
theorem update_keeps_systemColumns_iff (kind : Kind Spec Status) (now : Time)
    (table : Table Spec Status) (object : Object Spec Status)
    (succeeded : (GenericStore.update kind now table object).error = none) :
    ∃ row, selectLive table object.key = some row ∧
      ((∃ after,
        (GenericStore.update kind now table object).table.find object.key =
            some after ∧
          systemColumns after = systemColumns row) ↔
        systemColumns object = systemColumns row) := by
  have accepted := (GenericStore.update_error_eq_none_iff ..).mp succeeded
  simp only [GenericStore.acceptsUpdate, Bool.and_eq_true, Option.any_eq_true]
    at accepted
  rcases accepted.2 with ⟨row, selected, _⟩
  rcases systemColumns_of_update succeeded with ⟨after, found, written⟩
  refine ⟨row, selected, ?_⟩
  constructor
  · rintro ⟨again, foundAgain, kept⟩
    cases found.symm.trans foundAgain
    exact written.symm.trans kept
  · intro carried
    exact ⟨after, found, written.trans carried⟩

/-- A machine under deletion, created by a user. -/
def doomedMachine : Object Unit Unit :=
  ⟨{ orgID := 1, name := "a", resourceVersion := 1, creator := "user-1",
     createdAt := 5, deletionTimestamp := some 7,
     finalizers := some ["cleanup"] }, (), ()⟩

def doomedTable : Table Unit Unit :=
  ⟨[doomedMachine], by decide⟩

/-- An update with the object as it was read keeps the columns. -/
theorem update_of_read_machine_keeps :
    (GenericStore.update ⟨none⟩ 9 doomedTable doomedMachine).error = none ∧
      ∃ after,
        (GenericStore.update ⟨none⟩ 9 doomedTable doomedMachine).table.find
            ⟨1, "a"⟩ = some after ∧
          systemColumns after = systemColumns doomedMachine := by
  refine ⟨rfl, ?_⟩
  rcases update_keeps_systemColumns_iff ⟨none⟩ 9 doomedTable doomedMachine rfl
    with ⟨row, selected, keeps⟩
  cases selected
  exact keeps.mpr rfl

/-- A PUT of the labels alone cancels the pending deletion. -/
theorem put_of_labels_cancels_deletion :
    ∃ reply after,
      CrudHandler.update ⟨none⟩ "machine" 9 doomedTable
          ⟨some 1, "a", .members [.orgID 1, .name "a", .resourceVersion 1,
            .labels (some ∅)]⟩ = (after, .json 200 reply) ∧
        (doomedTable.find ⟨1, "a"⟩).map systemColumns =
          some ⟨5, "user-1", some 7⟩ ∧
        (after.find ⟨1, "a"⟩).map systemColumns = some ⟨0, "", none⟩ :=
  ⟨_, _, rfl, rfl, rfl⟩

/-! ## The bodies -/

/-- The members that name one of the three columns. -/
def Member.namesSystemColumn : Member Spec Status → Bool
  | .creator _ => true
  | .createdAt _ => true
  | .deletionTimestamp _ => true
  | _ => false

theorem Member.systemColumns_decode {member : Member Spec Status}
    (silent : member.namesSystemColumn = false)
    (object : Object Spec Status) :
    systemColumns (member.decode object) = systemColumns object := by
  cases member with
  | creator value => cases silent
  | createdAt value => cases silent
  | deletionTimestamp value => cases silent
  | _ => rfl

/-- Decoding keeps the columns that no member of the body names. -/
theorem Body.systemColumns_decode {list : List (Member Spec Status)}
    (silent : ∀ member ∈ list, member.namesSystemColumn = false)
    {base object : Object Spec Status}
    (decoded : (Body.members list).decode base = .ok object) :
    systemColumns object = systemColumns base := by
  cases decoded
  -- The object decoded so far changes along the list.
  induction list generalizing base with
  | nil => rfl
  | cons member rest ih =>
      rw [List.forall_mem_cons] at silent
      exact (ih silent.2).trans (member.systemColumns_decode silent.1 base)

/-! ## The handlers -/

/-- A request the generic route answers with a resource has been stored. -/
theorem CrudHandler.update_succeeded [Inhabited Spec] [Inhabited Status]
    {kind : Kind Spec Status} {resourceName : String} {now : Time}
    {table : Table Spec Status} {request : Request Spec Status}
    {object reply : Object Spec Status}
    (decoded : request.body.decode CrudHandler.zero = .ok object)
    (answered : (CrudHandler.update kind resourceName now table request).2 =
      .json 200 reply) :
    (GenericStore.update kind now table object).error = none := by
  simp only [CrudHandler.update, decoded] at answered
  split at answered
  · cases answered
  · cases answered
  · cases answered
  · next succeeded => exact succeeded

/--
On the generic route, a body that names none of the columns erases them all
from the row it updates.
-/
theorem CrudHandler.update_erases_systemColumns
    [Inhabited Spec] [Inhabited Status]
    (kind : Kind Spec Status) (resourceName : String) (now : Time)
    (table : Table Spec Status) (request : Request Spec Status)
    {list : List (Member Spec Status)} {object reply : Object Spec Status}
    (body : request.body = .members list)
    (silent : ∀ member ∈ list, member.namesSystemColumn = false)
    (decoded : request.body.decode CrudHandler.zero = .ok object)
    (answered : (CrudHandler.update kind resourceName now table request).2 =
      .json 200 reply) :
    ∃ after,
      (CrudHandler.update kind resourceName now table request).1.find
          object.key = some after ∧
        systemColumns after = ⟨0, "", none⟩ := by
  have succeeded := CrudHandler.update_succeeded decoded answered
  rcases systemColumns_of_update succeeded with ⟨after, found, written⟩
  refine ⟨after, ?_, ?_⟩
  · rw [CrudHandler.update_table, decoded]
    exact found
  · rw [body] at decoded
    exact written.trans (Body.systemColumns_decode silent decoded)

/--
In the handlers that read the row first, a body that names none of the columns
keeps them, whatever the answer is.
-/
theorem Platform.getDecodeUpdate_keeps_systemColumns
    (kind : Kind Spec Status) (missing : String)
    (shown : Object Spec Status → Object Spec Status)
    (org : UUID) (now : Time) (table : Table Spec Status)
    (request : Request Spec Status)
    {list : List (Member Spec Status)} {row object : Object Spec Status}
    (body : request.body = .members list)
    (silent : ∀ member ∈ list, member.namesSystemColumn = false)
    (selected : selectLive table ⟨org, request.name⟩ = some row)
    (decoded : request.body.decode row = .ok object) :
    ∃ after,
      (getDecodeUpdate kind missing shown (.ok org) now table request).1.find
          row.key = some after ∧
        systemColumns after = systemColumns row := by
  rw [getDecodeUpdate_table, selected]
  simp only [decoded]
  rcases (selectLive_eq_some_iff ..).mp selected with ⟨found, _⟩
  have rowKey := KeyedTable.key_of_find found
  cases accepted : GenericStore.acceptsUpdate table object with
  | false =>
      rw [(GenericStore.update_refused kind now accepted).1, rowKey]
      exact ⟨row, found, rfl⟩
  | true =>
      by_cases sameKey : object.key = row.key
      · have succeeded := (GenericStore.update_accepted kind now accepted).1
        rcases systemColumns_of_update succeeded with ⟨after, stored, written⟩
        rw [body] at decoded
        rw [sameKey] at stored
        exact ⟨after, stored,
          written.trans (Body.systemColumns_decode silent decoded)⟩
      · -- The body redirects the write to another row.
        rcases (GenericStore.update_accepted kind now accepted).2 with
          ⟨generation, _, replaces⟩
        refine ⟨row, ?_, rfl⟩
        rw [replaces.find_other (Ne.symm sameKey), rowKey]
        exact found

end Infractl.Api
