import Mathlib.Data.List.Dedup
import Infractl.Auth.UUIDText

/-!
# The HTTP middleware

A request passes authentication, which puts a subject into its context, the
tenancy middleware, which resolves the tenant and puts it there too, and
authorization, which asks about the resource and the action it reads off the
path and the method.  Each middleware either calls the next handler with a
context or answers with an error.

A path is a list of bytes, since the code measures segments in bytes.  A tenant
set is a map with empty values; the order in which its keys are listed is
chosen anew at every call, and is a parameter here.
-/

namespace Infractl.Auth

open Infractl.Store (UUID)

/-! ## Subjects and their tenants -/

/-- A set of tenant identifiers; a universal set contains every identifier. -/
structure TenantSet where
  universal : Bool := false
  tenants : List String := []
  distinct : tenants.Nodup := by simp

/-- `NewTenantSet`. -/
def newTenantSet (ids : List String) : TenantSet where
  tenants := ids.dedup
  distinct := List.nodup_dedup ids

/-- `UniversalTenantSet`. -/
def universalTenantSet : TenantSet where
  universal := true

/-- An order in which the keys of a map may be listed. -/
structure MapOrder where
  list : List String → List String
  perm : ∀ keys, (list keys).Perm keys

namespace TenantSet

/-- `Contains`. -/
def contains (set : TenantSet) (id : String) : Bool :=
  set.universal || decide (id ∈ set.tenants)

/-- `Values`: nil for a universal set. -/
def values (set : TenantSet) (order : MapOrder) : List String :=
  if set.universal then [] else order.list set.tenants

@[simp]
theorem mem_values_iff (set : TenantSet) (order : MapOrder) (id : String) :
    id ∈ set.values order ↔ set.universal = false ∧ id ∈ set.tenants := by
  unfold values
  split
  · next universal => simp [universal]
  · next listed => simp [listed, (order.perm set.tenants).mem_iff]

/-- A set with one value lists it in every order. -/
@[simp]
theorem values_eq_singleton_iff (set : TenantSet) (order : MapOrder)
    (id : String) :
    set.values order = [id] ↔ set.universal = false ∧ set.tenants = [id] := by
  unfold values
  split
  · next universal => simp [universal]
  · next listed =>
      simp only [listed, true_and]
      constructor
      · intro single
        have perm := order.perm set.tenants
        rw [single] at perm
        exact List.singleton_perm.mp perm |>.symm
      · intro single
        have perm := order.perm set.tenants
        rw [single] at perm ⊢
        exact List.perm_singleton.mp perm

theorem values_eq_nil_iff (set : TenantSet) (order : MapOrder) :
    set.values order = [] ↔ set.universal = true ∨ set.tenants = [] := by
  unfold values
  split
  · next universal => simp [universal]
  · next listed =>
      have perm := order.perm set.tenants
      simp only [listed, Bool.false_eq_true, false_or]
      constructor
      · intro empty
        rw [empty] at perm
        exact List.nil_perm.mp perm
      · intro empty
        rw [empty] at perm ⊢
        exact List.perm_nil.mp perm

end TenantSet

/-- Who sends a request. -/
structure Subject where
  user : String
  tenants : TenantSet

/-- What the middleware keeps in the context of a request. -/
structure Context where
  subject : Option Subject := none
  orgID : Option UUID := none

/-- `SubjectFromContext`. -/
def subjectFromContext (context : Context) : Except String Subject :=
  match context.subject with
  | some subject => .ok subject
  | none => .error "no authenticated subject in context"

/-- The three questions of `TenancyLogic`. -/
structure TenancyLogic where
  determineAssignableTenants : Context → Except String TenantSet
  determineDefaultTenants : Context → Except String TenantSet
  determineVisibleTenants : Context → Except String TenantSet

/-- The tenants of the subject, whatever the question. -/
def subjectTenants (context : Context) : Except String TenantSet :=
  (subjectFromContext context).map Subject.tenants

/-- `DefaultTenancyLogic`. -/
def defaultTenancyLogic : TenancyLogic where
  determineAssignableTenants := subjectTenants
  determineDefaultTenants := subjectTenants
  determineVisibleTenants := subjectTenants

/-- The fixed tenant, whatever the question. -/
def guestTenants (defaultTenant : String) (_ : Context) :
    Except String TenantSet :=
  if defaultTenant = "" then
    .error "guest tenancy: no default tenant configured"
  else
    .ok (newTenantSet [defaultTenant])

/-- `GuestTenancyLogic`. -/
def guestTenancyLogic (defaultTenant : String) : TenancyLogic where
  determineAssignableTenants := guestTenants defaultTenant
  determineDefaultTenants := guestTenants defaultTenant
  determineVisibleTenants := guestTenants defaultTenant

/-! ## Requests -/

/-- The parts of a request the middleware reads. -/
structure HTTPRequest where
  method : String
  path : List UInt8
  /-- The value of `X-Org-ID`, empty when the header is absent. -/
  orgIDHeader : String := ""
  context : Context := {}

/-- A middleware calls the next handler, or writes an error. -/
inductive Served where
  | next (context : Context)
  | error (code : Nat) (message : String)

/-- `AuthN`. -/
def authN (authenticate : HTTPRequest → Except String Subject)
    (request : HTTPRequest) : Served :=
  match authenticate request with
  | .error reason => .error 401 ("Unauthorized: " ++ reason)
  | .ok subject => .next { request.context with subject := some subject }

/-- The branch of `Tenancy` for a request that names its tenant. -/
def explicitTenant (text : UUIDText) (logic : TenancyLogic)
    (request : HTTPRequest) : Served :=
  match text.parse request.orgIDHeader with
  | .error reason => .error 400 ("Bad Request: invalid X-Org-ID: " ++ reason)
  | .ok parsed =>
      match logic.determineVisibleTenants request.context with
      | .error reason => .error 500 ("Internal Server Error: " ++ reason)
      | .ok visible =>
          if !visible.universal && !visible.contains (text.format parsed) then
            .error 403 "Forbidden: tenant not accessible"
          else
            .next { request.context with orgID := some parsed }

/-- The branch of `Tenancy` for a request without the header. -/
def defaultTenant (text : UUIDText) (order : MapOrder) (logic : TenancyLogic)
    (request : HTTPRequest) : Served :=
  match logic.determineDefaultTenants request.context with
  | .error reason => .error 500 ("Internal Server Error: " ++ reason)
  | .ok defaults =>
      match defaults.values order with
      | [id] =>
          match text.parse id with
          | .error _ =>
              .error 500
                "Internal Server Error: default tenant is not a valid UUID"
          | .ok parsed => .next { request.context with orgID := some parsed }
      | _ => .error 400 "Bad Request: X-Org-ID header required"

/-- `Tenancy`. -/
def tenancy (text : UUIDText) (order : MapOrder) (logic : TenancyLogic)
    (request : HTTPRequest) : Served :=
  if request.orgIDHeader ≠ "" then
    explicitTenant text logic request
  else
    defaultTenant text order logic request

/-! ## Authorization -/

/-- `Authorize`, which returns the reason of a refusal. -/
abbrev Authorizer :=
  Context → Subject → List UInt8 → String → Option String

/-- `methodToAction`. -/
def methodToAction (method : String) : String :=
  match method with
  | "GET" => "read"
  | "POST" => "create"
  | "PUT" => "update"
  | "PATCH" => "update"
  | "DELETE" => "delete"
  | _ => "unknown"

def slash : UInt8 := 47

/-- The bytes of `api`. -/
def apiSegment : List UInt8 := [97, 112, 105]

/-- The byte of the letter v. -/
def letterV : UInt8 := 118

/-- What the loop of `splitPath` appends at the end of a segment. -/
def segmentEnd (segment : List UInt8) : List (List UInt8) :=
  if segment = [] then [] else [segment]

/-- The loop of `splitPath`; `segment` is the text from `start` to `i`. -/
def splitFrom (segment : List UInt8) : List UInt8 → List (List UInt8)
  | [] => segmentEnd segment
  | byte :: rest =>
      if byte = slash then
        segmentEnd segment ++ splitFrom [] rest
      else
        splitFrom (segment ++ [byte]) rest

/-- `splitPath`. -/
def splitPath (path : List UInt8) : List (List UInt8) :=
  splitFrom [] path

/-- The segments `extractResource` takes for a part of the base path. -/
def isBaseSegment (segment : List UInt8) : Bool :=
  segment = apiSegment || segment = [] ||
    (segment.head? = some letterV && decide (segment.length ≤ 3))

/-- `extractResource`. -/
def extractResource (path : List UInt8) : List UInt8 :=
  let segments := splitPath path
  match segments.find? (fun segment => !isBaseSegment segment) with
  | some segment => segment
  | none => segments.getLast?.getD []

/-- `AuthZ`. -/
def authZ (authorize : Authorizer) (request : HTTPRequest) : Served :=
  match subjectFromContext request.context with
  | .error reason => .error 403 ("Forbidden: " ++ reason)
  | .ok subject =>
      match authorize request.context subject (extractResource request.path)
          (methodToAction request.method) with
      | some reason => .error 403 ("Forbidden: " ++ reason)
      | none => .next request.context

end Infractl.Auth
