import Infractl.Store.GenericStore

/-!
# The HTTP write handlers

A request reaches a handler with the tenant resolved by the tenancy
middleware, the name in its path and a body.  The body is decoded into a
resource, and the store picks the row it writes from that resource.

Decoding overwrites the fields the body names, in the order of its members,
and leaves the others as they were: at their zero values in `Create` and
`Update` of the generic routes, at the stored values in the handlers that read
the row first.  A body that does not decode is answered before the store is
called.
-/

namespace Infractl.Api

open Infractl.Lib
open Infractl.Store

variable {Spec Status : Type}

/-! ## Request bodies -/

/--
A member of a JSON object decoded into a resource.  A null sets a pointer, map,
slice or `deleted_at` to nil and does nothing to the other fields; a member of
that kind, or of an unknown name, is `ignored`.  The `spec` and `status`
objects are decoded into the values already there.
-/
inductive Member (Spec Status : Type) where
  | orgID (value : UUID)
  | name (value : String)
  | parent (value : Option String)
  | labels (value : JSONMap)
  | annotations (value : JSONMap)
  | finalizers (value : JSONArray)
  | generation (value : Int64)
  | resourceVersion (value : Int64)
  | owner (value : Option String)
  | creator (value : String)
  | createdAt (value : Time)
  | updatedAt (value : Time)
  | deletionTimestamp (value : Option Time)
  | deletedAt (value : Option Time)
  | spec (decode : Spec → Spec)
  | status (decode : Status → Status)
  | ignored

/-- Decoding into a map keeps the entries it already has under other keys. -/
def decodeMap (value stored : JSONMap) : JSONMap :=
  value.map (fun entries => entries ∪ stored.getD ∅)

/-- Decode one member into an object. -/
def Member.decode (member : Member Spec Status) (object : Object Spec Status) :
    Object Spec Status :=
  let resource := object.resource
  match member with
  | .orgID value => { object with resource := { resource with orgID := value } }
  | .name value => { object with resource := { resource with name := value } }
  | .parent value => { object with resource := { resource with parent := value } }
  | .labels value =>
      { object with resource := { resource with
        labels := decodeMap value resource.labels } }
  | .annotations value =>
      { object with resource := { resource with
        annotations := decodeMap value resource.annotations } }
  | .finalizers value =>
      { object with resource := { resource with finalizers := value } }
  | .generation value =>
      { object with resource := { resource with generation := value } }
  | .resourceVersion value =>
      { object with resource := { resource with resourceVersion := value } }
  | .owner value => { object with resource := { resource with owner := value } }
  | .creator value =>
      { object with resource := { resource with creator := value } }
  | .createdAt value =>
      { object with resource := { resource with createdAt := value } }
  | .updatedAt value =>
      { object with resource := { resource with updatedAt := value } }
  | .deletionTimestamp value =>
      { object with resource := { resource with deletionTimestamp := value } }
  | .deletedAt value =>
      { object with resource := { resource with deletedAt := value } }
  | .spec decode => { object with spec := decode object.spec }
  | .status decode => { object with status := decode object.status }
  | .ignored => object

/-- A body the decoder refuses, with its reason, or the members it decodes. -/
inductive Body (Spec Status : Type) where
  | malformed (reason : String)
  | members (list : List (Member Spec Status))

/-- `json.NewDecoder(r.Body).Decode`, into a resource that may hold values. -/
def Body.decode (body : Body Spec Status) (object : Object Spec Status) :
    Except String (Object Spec Status) :=
  match body with
  | .malformed reason => .error reason
  | .members list =>
      .ok (list.foldl (fun decoded member => member.decode decoded) object)

/-! ## Requests and replies -/

/-- The parts of a request that a handler reads. -/
structure Request (Spec Status : Type) where
  org : Option UUID
  name : String
  body : Body Spec Status

/-- What a handler writes back: a status code with a resource or an error. -/
inductive Reply (Spec Status : Type) where
  | json (code : Nat) (object : Object Spec Status)
  | error (code : Nat) (message : String)

/-- `OrgIDFromContext`. -/
def orgIDFromContext (org : Option UUID) : Except String UUID :=
  match org with
  | some id => .ok id
  | none => .error "no org ID in context (Tenancy middleware not configured?)"

/-! ## The generic routes -/

namespace CrudHandler

variable [Inhabited Spec] [Inhabited Status]

/-- The zero value that a new resource is decoded into. -/
def zero : Object Spec Status :=
  ⟨{}, default, default⟩

/-- `crudHandler.create`. -/
def create (resourceName : String) (now : Time) (table : Table Spec Status)
    (request : Request Spec Status) :
    Table Spec Status × Reply Spec Status :=
  match request.body.decode zero with
  | .error reason => (table, .error 400 ("invalid request body: " ++ reason))
  | .ok object =>
      let outcome := GenericStore.create now table object
      match outcome.error with
      | some .alreadyExists =>
          (outcome.table, .error 409 (resourceName ++ " already exists"))
      | some error => (outcome.table, .error 500 error.message)
      | none => (outcome.table, .json 201 outcome.object)

/-- `crudHandler.update`. -/
def update (kind : Kind Spec Status) (resourceName : String) (now : Time)
    (table : Table Spec Status) (request : Request Spec Status) :
    Table Spec Status × Reply Spec Status :=
  match request.body.decode zero with
  | .error reason => (table, .error 400 ("invalid request body: " ++ reason))
  | .ok object =>
      let outcome := GenericStore.update kind now table object
      match outcome.error with
      | some .notFound =>
          (outcome.table, .error 404 (resourceName ++ " not found"))
      | some .conflict =>
          (outcome.table, .error 409 "resource version conflict")
      | some error => (outcome.table, .error 500 error.message)
      | none => (outcome.table, .json 200 outcome.object)

/-- `crudHandler.get`. -/
def get (resourceName : String) (table : Table Spec Status) (org : Option UUID)
    (name : String) : Reply Spec Status :=
  match orgIDFromContext org with
  | .error reason => .error 500 reason
  | .ok orgID =>
      if name = "" then .error 400 "name is required"
      else
        match GenericStore.get table orgID name with
        | .error .notFound => .error 404 (resourceName ++ " not found")
        | .error error => .error 500 error.message
        | .ok row => .json 200 row

/-- `crudHandler.delete`, with the error it answers, where none is a 204. -/
def delete (resourceName : String) (now : Time) (table : Table Spec Status)
    (org : Option UUID) (name : String) :
    Table Spec Status × Option (Nat × String) :=
  match orgIDFromContext org with
  | .error reason => (table, some (500, reason))
  | .ok orgID =>
      if name = "" then (table, some (400, "name is required"))
      else
        let outcome := GenericStore.delete now table ⟨orgID, name⟩
        (outcome.1, outcome.2.map fun error =>
          if error = .notFound then (404, resourceName ++ " not found")
          else (500, error.message))

end CrudHandler

/-! ## The handlers that read the row first -/

namespace Platform

/-- The tenant under which tenants and organizations are stored. -/
def systemTenantID : UUID := 0

/--
Read the row of a tenant under the name in the path, decode the body into it
and update it.  The handlers differ in the tenant, in what they call their
resource and in how they show it.
-/
def getDecodeUpdate (kind : Kind Spec Status) (missing : String)
    (shown : Object Spec Status → Object Spec Status)
    (org : Except String UUID) (now : Time) (table : Table Spec Status)
    (request : Request Spec Status) :
    Table Spec Status × Reply Spec Status :=
  match org with
  | .error reason => (table, .error 500 reason)
  | .ok orgID =>
      match GenericStore.get table orgID request.name with
      | .error .notFound => (table, .error 404 missing)
      | .error error => (table, .error 500 error.message)
      | .ok existing =>
          match request.body.decode existing with
          | .error reason => (table, .error 400 reason)
          | .ok object =>
              let outcome := GenericStore.update kind now table object
              match outcome.error with
              | some .conflict =>
                  (outcome.table, .error 409 "resource version conflict")
              | some error => (outcome.table, .error 500 error.message)
              | none => (outcome.table, .json 200 (shown outcome.object))

/-- `updateWebhook`. -/
def updateWebhook (kind : Kind Spec Status) (now : Time)
    (table : Table Spec Status) (request : Request Spec Status) :
    Table Spec Status × Reply Spec Status :=
  getDecodeUpdate kind "webhook not found" id (orgIDFromContext request.org)
    now table request

/-- `updatePolicy`. -/
def updatePolicy (kind : Kind Spec Status) (now : Time)
    (table : Table Spec Status) (request : Request Spec Status) :
    Table Spec Status × Reply Spec Status :=
  getDecodeUpdate kind "policy not found" id (orgIDFromContext request.org)
    now table request

/-- `updateCatalogItem`. -/
def updateCatalogItem (kind : Kind Spec Status) (now : Time)
    (table : Table Spec Status) (request : Request Spec Status) :
    Table Spec Status × Reply Spec Status :=
  getDecodeUpdate kind "catalog item not found" id
    (orgIDFromContext request.org) now table request

/-- `updateTenant`, which does not look at the tenant of the request. -/
def updateTenant (kind : Kind Spec Status) (now : Time)
    (table : Table Spec Status) (request : Request Spec Status) :
    Table Spec Status × Reply Spec Status :=
  getDecodeUpdate kind "tenant not found" id (.ok systemTenantID)
    now table request

/-- `updateOrganization`, which does not look at the tenant of the request. -/
def updateOrganization (kind : Kind Spec Status) (now : Time)
    (table : Table Spec Status) (request : Request Spec Status) :
    Table Spec Status × Reply Spec Status :=
  getDecodeUpdate kind "organization not found" id (.ok systemTenantID)
    now table request

/-- The spec of a secret; its data is what a reply must not show. -/
structure SecretSpec where
  type : String
  data : JSONMap

/-- `SecretStatus`. -/
structure SecretStatus where
  phase : String

/-- The keys of a map, each with its value hidden. -/
def hideValues (data : Finmap (fun _ : String => String)) :
    Finmap (fun _ : String => String) where
  entries := data.entries.map (fun entry => ⟨entry.1, "***"⟩)
  nodupKeys := by
    rw [← Multiset.nodup_keys, Multiset.keys, Multiset.map_map]
    exact Multiset.nodup_keys.mpr data.nodupKeys

/-- `Redacted`. -/
def redacted (secret : Object SecretSpec SecretStatus) :
    Object SecretSpec SecretStatus :=
  { secret with
    spec := { secret.spec with data := secret.spec.data.map hideValues } }

/-- `updateSecret`. -/
def updateSecret (kind : Kind SecretSpec SecretStatus) (now : Time)
    (table : Table SecretSpec SecretStatus)
    (request : Request SecretSpec SecretStatus) :
    Table SecretSpec SecretStatus × Reply SecretSpec SecretStatus :=
  getDecodeUpdate kind "secret not found" redacted
    (orgIDFromContext request.org) now table request

end Platform

/-! ## What the handlers do to the table -/

theorem CrudHandler.create_table [Inhabited Spec] [Inhabited Status]
    (resourceName : String) (now : Time) (table : Table Spec Status)
    (request : Request Spec Status) :
    (create resourceName now table request).1 =
      match request.body.decode CrudHandler.zero with
      | .error _ => table
      | .ok object => (GenericStore.create now table object).table := by
  unfold create
  split
  · rfl
  · dsimp only
    split
    · rfl
    · rfl
    · rfl

theorem CrudHandler.update_table [Inhabited Spec] [Inhabited Status]
    (kind : Kind Spec Status) (resourceName : String) (now : Time)
    (table : Table Spec Status) (request : Request Spec Status) :
    (update kind resourceName now table request).1 =
      match request.body.decode CrudHandler.zero with
      | .error _ => table
      | .ok object => (GenericStore.update kind now table object).table := by
  unfold update
  split
  · rfl
  · dsimp only
    split
    · rfl
    · rfl
    · rfl
    · rfl

theorem Platform.getDecodeUpdate_table
    (kind : Kind Spec Status) (missing : String)
    (shown : Object Spec Status → Object Spec Status)
    (org : UUID) (now : Time) (table : Table Spec Status)
    (request : Request Spec Status) :
    (getDecodeUpdate kind missing shown (.ok org) now table request).1 =
      match selectLive table ⟨org, request.name⟩ with
      | none => table
      | some existing =>
          match request.body.decode existing with
          | .error _ => table
          | .ok object => (GenericStore.update kind now table object).table := by
  unfold getDecodeUpdate GenericStore.get
  dsimp only
  cases selectLive table ⟨org, request.name⟩ with
  | none => rfl
  | some existing =>
      dsimp only
      split
      · rfl
      · split
        · rfl
        · rfl
        · rfl

end Infractl.Api
