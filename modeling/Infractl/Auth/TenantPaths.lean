import Infractl.Auth.Tenancy

/-!
# Naming the default tenant

A subject with one tenant may name it in `X-Org-ID` or leave the header out.
The two requests take different paths: a named tenant is parsed, printed and
looked up among the tenants of the subject as they were written, whereas the
default tenant is parsed as it was written.

They agree exactly when the tenant is written as it is printed, or cannot be
parsed at all.  A tenant in capital letters, in braces or as a URN is served by
default and refused when it is named.
-/

namespace Infractl.Auth

open Infractl.Store (UUID)

/-- Both requests are served for one tenant, or both are rejected. -/
def ServedAlike (left right : Served) : Prop :=
  (∃ org, ServedFor left org ∧ ServedFor right org) ∨
    (∃ code message, left = .error code message) ∧
      ∃ code message, right = .error code message

/-- `Tenancy` puts a tenant into every context that it passes on. -/
theorem tenancy_cases (text : UUIDText) (order : MapOrder)
    (logic : TenancyLogic) (request : HTTPRequest) :
    (∃ org, ServedFor (tenancy text order logic request) org) ∨
      ∃ code message, tenancy text order logic request = .error code message := by
  cases served : tenancy text order logic request with
  | error code message => exact Or.inr ⟨code, message, rfl⟩
  | next context =>
      refine Or.inl ?_
      unfold tenancy explicitTenant defaultTenant at served
      split at served
      · split at served
        · cases served
        · next parsed _ =>
            split at served
            · cases served
            · split at served
              · cases served
              · cases served
                exact ⟨parsed, _, rfl, rfl⟩
      · split at served
        · cases served
        · split at served
          · split at served
            · cases served
            · next parsed _ =>
                cases served
                exact ⟨parsed, _, rfl, rfl⟩
          · cases served

theorem ServedFor.unique {served : Served} {first second : UUID}
    (servedFirst : ServedFor served first)
    (servedSecond : ServedFor served second) :
    first = second := by
  rcases servedFirst with ⟨context, rfl, firstOrg⟩
  rcases servedSecond with ⟨other, same, secondOrg⟩
  cases same
  exact Option.some.inj (firstOrg.symm.trans secondOrg)

theorem not_servedFor_error {code : Nat} {message : String} {org : UUID} :
    ¬ ServedFor (.error code message) org := by
  rintro ⟨context, same, _⟩
  cases same

/-- Requests are served alike when they are served for the same tenants. -/
theorem servedAlike_iff (text : UUIDText) (order : MapOrder)
    (logic : TenancyLogic) (first second : HTTPRequest) :
    ServedAlike (tenancy text order logic first)
        (tenancy text order logic second) ↔
      ∀ org, ServedFor (tenancy text order logic first) org ↔
        ServedFor (tenancy text order logic second) org := by
  constructor
  · rintro (⟨org, servedFirst, servedSecond⟩ |
      ⟨⟨_, _, rejectedFirst⟩, _, _, rejectedSecond⟩) other
    · constructor
      · intro served
        rwa [served.unique servedFirst]
      · intro served
        rwa [served.unique servedSecond]
    · rw [rejectedFirst, rejectedSecond]
      exact iff_of_false not_servedFor_error not_servedFor_error
  · intro same
    rcases tenancy_cases text order logic first with
      ⟨org, served⟩ | ⟨code, message, rejected⟩
    · exact Or.inl ⟨org, served, (same org).mp served⟩
    · refine Or.inr ⟨⟨code, message, rejected⟩, ?_⟩
      rcases tenancy_cases text order logic second with ⟨org, served⟩ | answered
      · have impossible := (same org).mpr served
        rw [rejected] at impossible
        exact absurd impossible not_servedFor_error
      · exact answered

section Single

variable (text : UUIDText) (order : MapOrder) {request : HTTPRequest}
variable {subject : Subject} {tenant : String}

theorem subjectTenants_of_subject
    (authenticated : request.context.subject = some subject) :
    subjectTenants request.context = .ok subject.tenants := by
  rw [subjectTenants, subjectFromContext, authenticated]
  rfl

/-- A named tenant is served when its print is the tenant as it was written. -/
theorem named_servedFor_iff
    (authenticated : request.context.subject = some subject)
    (listed : subject.tenants.universal = false)
    (single : subject.tenants.tenants = [tenant])
    (nonempty : tenant ≠ "") (org : UUID) :
    ServedFor (tenancy text order defaultTenancyLogic
        { request with orgIDHeader := tenant }) org ↔
      text.parse tenant = .ok org ∧ text.format org = tenant := by
  have tenants := subjectTenants_of_subject authenticated
  rw [tenancy_servedFor_iff]
  change (tenant ≠ "" ∧ text.parse tenant = .ok org ∧
      ∃ visible, subjectTenants request.context = .ok visible ∧
        visible.contains (text.format org) = true) ∨
    (tenant = "" ∧ _) ↔ _
  simp [tenants, nonempty, TenantSet.contains, listed, single]

/-- Without the header the tenant is served when it can be parsed. -/
theorem unnamed_servedFor_iff
    (authenticated : request.context.subject = some subject)
    (listed : subject.tenants.universal = false)
    (single : subject.tenants.tenants = [tenant]) (org : UUID) :
    ServedFor (tenancy text order defaultTenancyLogic
        { request with orgIDHeader := "" }) org ↔
      text.parse tenant = .ok org := by
  have tenants := subjectTenants_of_subject authenticated
  rw [tenancy_servedFor_iff]
  change ("" ≠ "" ∧ _) ∨ ("" = "" ∧ ∃ defaults id,
      subjectTenants request.context = .ok defaults ∧
        defaults.universal = false ∧ defaults.tenants = [id] ∧
        text.parse id = .ok org) ↔ _
  simp [tenants, listed, single]

end Single

/--
For a subject with a single tenant, a request that names it and one that leaves
the header out are served alike exactly when the tenant is empty, cannot be
parsed, or is written as it is printed.
-/
theorem tenant_paths_agree_iff (text : UUIDText) (order : MapOrder)
    (request : HTTPRequest) (subject : Subject) (tenant : String)
    (authenticated : request.context.subject = some subject)
    (listed : subject.tenants.universal = false)
    (single : subject.tenants.tenants = [tenant]) :
    ServedAlike
        (tenancy text order defaultTenancyLogic
          { request with orgIDHeader := tenant })
        (tenancy text order defaultTenancyLogic
          { request with orgIDHeader := "" }) ↔
      tenant = "" ∨ (∃ reason, text.parse tenant = .error reason) ∨
        ∃ org, text.parse tenant = .ok org ∧ text.format org = tenant := by
  rw [servedAlike_iff]
  by_cases empty : tenant = ""
  · -- An empty header is no header.
    rw [empty]
    exact iff_of_true (fun _ => Iff.rfl) (Or.inl rfl)
  · simp only [named_servedFor_iff text order authenticated listed single empty,
      unnamed_servedFor_iff text order authenticated listed single, empty,
      false_or, and_iff_left_iff_imp]
    cases parsed : text.parse tenant with
    | error reason => simp
    | ok org => simp

/-- A subject of one tenant, written in canonical form or not. -/
def memberContext (tenant : String) : Context where
  subject := some ⟨"member", newTenantSet [tenant]⟩

def memberRequest (tenant header : String) : HTTPRequest where
  method := "GET"
  path := []
  orgIDHeader := header
  context := memberContext tenant

/-- A tenant in canonical form is served alike. -/
theorem canonical_tenant_served_alike :
    ServedAlike
      (tenancy libraryText storedOrder defaultTenancyLogic
        (memberRequest firstTenant firstTenant))
      (tenancy libraryText storedOrder defaultTenancyLogic
        (memberRequest firstTenant "")) :=
  (tenant_paths_agree_iff libraryText storedOrder (memberRequest firstTenant "")
    ⟨"member", newTenantSet [firstTenant]⟩ firstTenant rfl rfl rfl).mpr
    (Or.inr (Or.inr ⟨1, rfl, rfl⟩))

def capitalTenant : String := "00000000-0000-0000-0000-00000000000A"

/-- A tenant in capital letters is served by default, and refused by its name. -/
theorem capital_tenant_refused :
    ServedFor
        (tenancy libraryText storedOrder defaultTenancyLogic
          (memberRequest capitalTenant "")) 10 ∧
      tenancy libraryText storedOrder defaultTenancyLogic
          (memberRequest capitalTenant capitalTenant) =
        .error 403 "Forbidden: tenant not accessible" :=
  ⟨⟨_, rfl, rfl⟩, rfl⟩

end Infractl.Auth
