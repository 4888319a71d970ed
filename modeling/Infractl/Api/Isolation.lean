import Infractl.Api.Handler

/-!
# Tenant isolation of the write handlers

A write handler should leave alone every row other than the one named by the
tenant of the request and the name in its path.  The store takes the row to
write from the decoded resource, so that this holds exactly when the body does
not redirect the write: when the resource it decodes to is refused, or still
has that tenant and name.

Creation never changes a stored row.  It plants a row under another tenant
exactly when the body says so and the store takes the row.
-/

namespace Infractl.Api

open Infractl.Lib
open Infractl.Store

variable {Spec Status : Type}

/-- Every row is as it was, except possibly the one under `key`. -/
def OnlyTouches (key : Key) (before after : Table Spec Status) : Prop :=
  ∀ other, other ≠ key → after.find other = before.find other

/-- Every row of another tenant is as it was, and none has been added. -/
def OnlyTouchesOrg (org : UUID) (before after : Table Spec Status) : Prop :=
  ∀ other, other.org ≠ org → after.find other = before.find other

/-- Every row stored before is stored after, unchanged. -/
def KeepsStored (before after : Table Spec Status) : Prop :=
  ∀ key row, before.find key = some row → after.find key = some row

/-- The resource a body decodes to is not accepted under another key. -/
def StaysAt (key : Key) (table : Table Spec Status)
    (base : Object Spec Status) (body : Body Spec Status) : Prop :=
  ∀ object, body.decode base = .ok object →
    GenericStore.acceptsUpdate table object = true → object.key = key

variable (kind : Kind Spec Status) (now : Time) (table : Table Spec Status)
variable (object : Object Spec Status) (key : Key)

theorem OnlyTouches.refl (table : Table Spec Status) :
    OnlyTouches key table table :=
  fun _ _ => rfl

/-- An accepted update always changes its row: it moves the version. -/
theorem update_changes
    {table : Table Spec Status} {object : Object Spec Status}
    (accepted : GenericStore.acceptsUpdate table object = true) :
    (GenericStore.update kind now table object).table.find object.key ≠
      table.find object.key := by
  intro unchanged
  rcases (GenericStore.update_accepted kind now accepted).2 with
    ⟨generation, _, replaces⟩
  rw [replaces.find_self] at unchanged
  simp only [GenericStore.acceptsUpdate, Bool.and_eq_true, Option.any_eq_true,
    decide_eq_true_eq] at accepted
  rcases accepted.2 with ⟨row, selected, versionEq⟩
  have found := ((selectLive_eq_some_iff _ _ _).mp selected).1
  rw [found] at unchanged
  have bumped :
      object.resource.resourceVersion + 1 = row.resource.resourceVersion :=
    congrArg (fun stored => stored.resource.resourceVersion)
      (Option.some.inj unchanged)
  exact version_ne_succ _ (versionEq.symm.trans bumped.symm)

/-- An update stays within a set of keys if the key it is accepted under does. -/
theorem update_stays_iff (within : Key → Prop) :
    (∀ other, ¬ within other →
      (GenericStore.update kind now table object).table.find other =
        table.find other) ↔
      (GenericStore.acceptsUpdate table object = true → within object.key) := by
  cases accepted : GenericStore.acceptsUpdate table object with
  | false =>
      rw [(GenericStore.update_refused kind now accepted).1]
      exact iff_of_true (fun _ _ => rfl) (fun impossible => by cases impossible)
  | true =>
      rcases (GenericStore.update_accepted kind now accepted).2 with
        ⟨generation, _, replaces⟩
      simp only [true_implies]
      constructor
      · intro untouched
        by_contra outside
        exact update_changes kind now accepted (untouched object.key outside)
      · intro inside other outside
        apply replaces.find_other
        rintro rfl
        exact outside inside

theorem update_onlyTouches_iff :
    OnlyTouches key table (GenericStore.update kind now table object).table ↔
      (GenericStore.acceptsUpdate table object = true → object.key = key) :=
  update_stays_iff kind now table object (fun other => other = key)

/-- The same for a tenant in place of a key. -/
theorem update_onlyTouchesOrg_iff (org : UUID) :
    OnlyTouchesOrg org table (GenericStore.update kind now table object).table ↔
      (GenericStore.acceptsUpdate table object = true → object.key.org = org) :=
  update_stays_iff kind now table object (fun other => other.org = org)

/-- An insert that is not refused adds a row to its tenant. -/
theorem store_create_onlyTouchesOrg_iff (org : UUID) :
    OnlyTouchesOrg org table (GenericStore.create now table object).table ↔
      (GenericStore.validateParent table object = none →
        table.find object.key = none → object.key.org = org) := by
  constructor
  · intro untouched accepted absent
    by_cases same : object.key.org = org
    · exact same
    · have unchanged := untouched object.key same
      rcases stored : insertRow now table object with _ | inserted
      · rcases (KeyedTable.insert?_eq_none_iff _ _).mp stored with ⟨row, found⟩
        rw [Object.key_prepareInsert, absent] at found
        cases found
      · simp only [GenericStore.create, accepted, stored] at unchanged
        rw [(replaces_of_insertRow stored).find_self, absent] at unchanged
        cases unchanged
  · intro stays other different
    rcases GenericStore.create_table now table object with
      unchanged | ⟨accepted, inserted⟩
    · exact congrArg (fun result => KeyedTable.find result other) unchanged
    · have absent := ((KeyedTable.insert?_eq_some_iff _ _ _).mp inserted).1
      have sameOrg := stays accepted absent
      apply (replaces_of_insertRow inserted).find_other
      rintro rfl
      exact different sameOrg

theorem delete_onlyTouches :
    OnlyTouches key table (GenericStore.delete now table key).1 := by
  rcases GenericStore.delete_table now table key with
    same | marked | ⟨_, _, _, _, deleted⟩
  · rw [same]
    exact .refl key table
  · rcases updateLive_spec marked with ⟨_, _, _, _, replaces⟩
    exact fun _ => replaces.find_other
  · rcases updateLive_spec deleted with ⟨_, _, _, _, replaces⟩
    exact fun _ => replaces.find_other

theorem onlyTouches_decode_iff
    (base : Object Spec Status) (body : Body Spec Status) (key : Key) :
    OnlyTouches key table
        (match body.decode base with
        | .error _ => table
        | .ok object => (GenericStore.update kind now table object).table) ↔
      StaysAt key table base body := by
  unfold StaysAt
  cases decoded : body.decode base with
  | error reason =>
      exact iff_of_true (.refl key table) (fun _ impossible => by cases impossible)
  | ok object =>
      apply (update_onlyTouches_iff kind now table object key).trans
      constructor
      · intro stays other same
        cases same
        exact stays
      · intro stays
        exact stays object rfl

theorem getDecodeUpdate_onlyTouches_iff
    (missing : String) (shown : Object Spec Status → Object Spec Status)
    (scope : UUID) (now : Time) (table : Table Spec Status)
    (request : Request Spec Status) (key : Key) :
    OnlyTouches key table
        (Platform.getDecodeUpdate kind missing shown (.ok scope) now table
          request).1 ↔
      ∀ existing, selectLive table ⟨scope, request.name⟩ = some existing →
        StaysAt key table existing request.body := by
  rw [Platform.getDecodeUpdate_table]
  cases selectLive table ⟨scope, request.name⟩ with
  | none =>
      exact iff_of_true (.refl key table) (fun _ impossible => by cases impossible)
  | some existing =>
      apply (onlyTouches_decode_iff kind now table existing request.body key).trans
      constructor
      · intro stays other same
        cases same
        exact stays
      · intro stays
        exact stays existing rfl

/-- `get` answers with the row of the request, and `delete` changes no other. -/
theorem crudHandler_stays_at_key (resourceName : String) (now : Time)
    (table : Table Spec Status) (org : UUID) (name : String) :
    (∀ row, CrudHandler.get resourceName table (some org) name = .json 200 row ↔
      name ≠ "" ∧ selectLive table ⟨org, name⟩ = some row) ∧
    OnlyTouches ⟨org, name⟩ table
      (CrudHandler.delete resourceName now table (some org) name).1 := by
  simp only [CrudHandler.get, CrudHandler.delete, orgIDFromContext]
  split
  · next unnamed => simp [unnamed, OnlyTouches]
  · next named =>
    refine ⟨?_, delete_onlyTouches now table ⟨org, name⟩⟩
    intro row
    cases selected : selectLive table ⟨org, name⟩ with
    | none => simp [GenericStore.get, selected]
    | some stored => simp [GenericStore.get, selected, named]

section GenericRoutes

variable [Inhabited Spec] [Inhabited Status]

theorem crudUpdate_onlyTouches_iff
    (kind : Kind Spec Status) (resourceName : String) (now : Time)
    (table : Table Spec Status) (request : Request Spec Status) (key : Key) :
    OnlyTouches key table
        (CrudHandler.update kind resourceName now table request).1 ↔
      StaysAt key table CrudHandler.zero request.body := by
  rw [CrudHandler.update_table]
  exact onlyTouches_decode_iff kind now table CrudHandler.zero request.body key

theorem create_keepsStored
    (resourceName : String) (now : Time) (table : Table Spec Status)
    (request : Request Spec Status) :
    KeepsStored table
      (CrudHandler.create resourceName now table request).1 := by
  rw [CrudHandler.create_table]
  intro key row stored
  split
  · exact stored
  · next object _ =>
      rcases GenericStore.create_table now table object with
        unchanged | ⟨_, inserted⟩
      · rw [unchanged]
        exact stored
      · have absent := ((KeyedTable.insert?_eq_some_iff _ _ _).mp inserted).1
        rw [(replaces_of_insertRow inserted).find_other, stored]
        rintro rfl
        rw [Object.key_prepareInsert, stored] at absent
        cases absent

/-- The insert a creation issues is refused or stays with the tenant. -/
def CreatesIn (org : UUID) (table : Table Spec Status)
    (body : Body Spec Status) : Prop :=
  ∀ object, body.decode CrudHandler.zero = .ok object →
    GenericStore.validateParent table object = none →
    table.find object.key = none → object.key.org = org

theorem create_onlyTouchesOrg_iff
    (resourceName : String) (now : Time) (table : Table Spec Status)
    (request : Request Spec Status) (org : UUID) :
    OnlyTouchesOrg org table
        (CrudHandler.create resourceName now table request).1 ↔
      CreatesIn org table request.body := by
  rw [CrudHandler.create_table]
  unfold CreatesIn
  cases decoded : request.body.decode CrudHandler.zero with
  | error reason =>
      exact iff_of_true (fun _ _ => rfl) (fun _ impossible => by cases impossible)
  | ok object =>
      apply (store_create_onlyTouchesOrg_iff now table object org).trans
      constructor
      · rintro stays other ⟨⟩
        exact stays
      · intro stays
        exact stays object rfl

end GenericRoutes

/-! ## All write handlers -/

/--
For the tenant of a request and the name in its path, each update handler
leaves every other row alone exactly when its body does not redirect the
write.  Creation leaves every stored row alone, and adds rows of the tenant
only exactly when its body names the tenant or is refused.
-/
theorem write_handlers_isolated_iff
    [Inhabited Spec] [Inhabited Status]
    (kind : Kind Spec Status)
    (secretKind : Kind Platform.SecretSpec Platform.SecretStatus)
    (resourceName : String) (now : Time)
    (table : Table Spec Status)
    (secrets : Table Platform.SecretSpec Platform.SecretStatus)
    (org : UUID) (name : String)
    (body : Body Spec Status)
    (secretBody : Body Platform.SecretSpec Platform.SecretStatus) :
    (KeepsStored table
        (CrudHandler.create resourceName now table ⟨some org, name, body⟩).1 ∧
      (OnlyTouchesOrg org table
          (CrudHandler.create resourceName now table ⟨some org, name, body⟩).1 ↔
        CreatesIn org table body)) ∧
    (OnlyTouches ⟨org, name⟩ table
        (CrudHandler.update kind resourceName now table
          ⟨some org, name, body⟩).1 ↔
      StaysAt ⟨org, name⟩ table CrudHandler.zero body) ∧
    (OnlyTouches ⟨org, name⟩ secrets
        (Platform.updateSecret secretKind now secrets
          ⟨some org, name, secretBody⟩).1 ↔
      ∀ existing, selectLive secrets ⟨org, name⟩ = some existing →
        StaysAt ⟨org, name⟩ secrets existing secretBody) ∧
    ∀ route ∈
      [(org, Platform.updateWebhook kind), (org, Platform.updatePolicy kind),
        (org, Platform.updateCatalogItem kind),
        (Platform.systemTenantID, Platform.updateTenant kind),
        (Platform.systemTenantID, Platform.updateOrganization kind)],
      OnlyTouches ⟨org, name⟩ table
          (route.2 now table ⟨some org, name, body⟩).1 ↔
        ∀ existing, selectLive table ⟨route.1, name⟩ = some existing →
          StaysAt ⟨org, name⟩ table existing body := by
  refine ⟨⟨create_keepsStored _ _ _ _, create_onlyTouchesOrg_iff _ _ _ _ _⟩,
    crudUpdate_onlyTouches_iff _ _ _ _ _ _,
    getDecodeUpdate_onlyTouches_iff _ _ _ _ _ _ _ _, ?_⟩
  intro route member
  simp only [List.mem_cons, List.not_mem_nil, or_false] at member
  rcases member with rfl | rfl | rfl | rfl | rfl
  all_goals exact getDecodeUpdate_onlyTouches_iff _ _ _ _ _ _ _ _

/-- A secret of a tenant at its first version. -/
def firstSecret (org : UUID) (name : String) :
    Object Platform.SecretSpec Platform.SecretStatus where
  resource :=
    { orgID := org
      name := name
      resourceVersion := 1 }
  spec := ⟨"opaque", none⟩
  status := ⟨"Active"⟩

/--
A request of tenant 2 on its own secret `b`, with a body that names the secret
`a` of tenant 1, writes the latter; and so does an update on a generic route.
-/
theorem body_redirects_update :
    (∃ secrets : Table Platform.SecretSpec Platform.SecretStatus,
      secrets.rows = [firstSecret 1 "a", firstSecret 2 "b"] ∧
        ¬ OnlyTouches ⟨2, "b"⟩ secrets
          (Platform.updateSecret
            ⟨some (fun secret => some secret.spec.type.toUTF8.toList)⟩ 5 secrets
            ⟨some 2, "b",
              .members [.orgID 1, .name "a", .resourceVersion 1]⟩).1) ∧
    ∃ table : Table Unit Unit,
      table.rows =
          [⟨{ orgID := 1, name := "a", resourceVersion := 1 }, (), ()⟩] ∧
        ¬ OnlyTouches ⟨2, "b"⟩ table
          (CrudHandler.update ⟨none⟩ "machines" 5 table
            ⟨some 2, "b",
              .members [.orgID 1, .name "a", .resourceVersion 1]⟩).1 := by
  refine ⟨⟨⟨[firstSecret 1 "a", firstSecret 2 "b"], by decide⟩, rfl, ?_⟩,
    ⟨⟨[⟨{ orgID := 1, name := "a", resourceVersion := 1 }, (), ()⟩],
      by decide⟩, rfl, ?_⟩⟩
  · intro untouched
    have stays := (getDecodeUpdate_onlyTouches_iff _ _ _ _ _ _ _ _).mp untouched
      (firstSecret 2 "b") rfl _ rfl rfl
    exact absurd stays (by decide)
  · intro untouched
    have stays := (crudUpdate_onlyTouches_iff _ _ _ _ _ _).mp untouched _ rfl rfl
    exact absurd stays (by decide)

end Infractl.Api
