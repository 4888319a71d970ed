import Infractl.Auth.Middleware

/-!
# Tenants a request may write to

`TenancyLogic` tells the tenants a subject may write to from those it may read
and those used by default.  The tenancy middleware asks for the visible tenants
when a request names one and for the default tenants otherwise, and never for
the assignable ones.  A request that writes is served for an assignable tenant
exactly when the set that was asked happens to lead to one.

A tenant belongs to a set when the set contains its printed identifier, which
is how the middleware itself looks a tenant up.
-/

namespace Infractl.Auth

open Infractl.Store (UUID)

/-- The subject of the context may write to the tenant. -/
def Assignable (text : UUIDText) (logic : TenancyLogic) (context : Context)
    (org : UUID) : Prop :=
  ∃ assignable, logic.determineAssignableTenants context = .ok assignable ∧
    assignable.contains (text.format org) = true

/-- The next handler is called with this tenant. -/
def ServedFor (served : Served) (org : UUID) : Prop :=
  ∃ context, served = .next context ∧ context.orgID = some org

/-! ## What the middleware resolves -/

variable (text : UUIDText) (order : MapOrder) (logic : TenancyLogic)
variable (request : HTTPRequest) (org : UUID)

/-- A named tenant is served when it parses and is visible. -/
theorem explicitTenant_servedFor_iff :
    ServedFor (explicitTenant text logic request) org ↔
      text.parse request.orgIDHeader = .ok org ∧
        ∃ visible, logic.determineVisibleTenants request.context = .ok visible ∧
          visible.contains (text.format org) = true := by
  unfold explicitTenant ServedFor
  cases text.parse request.orgIDHeader with
  | error reason => simp
  | ok parsed =>
      cases logic.determineVisibleTenants request.context with
      | error reason => simp
      | ok visible =>
          cases universal : visible.universal with
          | true => simp [TenantSet.contains, universal]
          | false =>
              cases contained : visible.contains (text.format parsed) with
              | true =>
                  simp only [universal, contained, Bool.not_true, Bool.and_false,
                    Bool.false_eq_true, if_false, Except.ok.injEq, exists_eq_left']
                  constructor
                  · rintro ⟨context, ⟨⟩, same⟩
                    cases same
                    exact ⟨rfl, contained⟩
                  · rintro ⟨rfl, _⟩
                    exact ⟨_, rfl, rfl⟩
              | false =>
                  simp only [universal, contained, Bool.not_false, Bool.and_self,
                    if_true, reduceCtorEq, false_and, exists_false,
                    Except.ok.injEq, exists_eq_left', false_iff]
                  rintro ⟨rfl, visibleOrg⟩
                  cases contained.symm.trans visibleOrg

/-- The default tenant is served when there is exactly one and it parses. -/
theorem defaultTenant_servedFor_iff :
    ServedFor (defaultTenant text order logic request) org ↔
      ∃ defaults id,
        logic.determineDefaultTenants request.context = .ok defaults ∧
          defaults.universal = false ∧ defaults.tenants = [id] ∧
          text.parse id = .ok org := by
  unfold defaultTenant ServedFor
  cases logic.determineDefaultTenants request.context with
  | error reason => simp
  | ok defaults =>
      simp only [Except.ok.injEq, exists_and_left, exists_eq_left']
      constructor
      · rintro ⟨context, served, sameOrg⟩
        split at served
        · next id single =>
            rcases (defaults.values_eq_singleton_iff order id).mp single with
              ⟨listed, only⟩
            cases parsed : text.parse id with
            | error reason =>
                rw [parsed] at served
                cases served
            | ok resolved =>
                rw [parsed] at served
                cases served
                cases sameOrg
                exact ⟨listed, id, only, parsed⟩
        · cases served
      · rintro ⟨listed, id, only, parsed⟩
        rw [(defaults.values_eq_singleton_iff order id).mpr ⟨listed, only⟩]
        simp only [parsed]
        exact ⟨_, rfl, rfl⟩

/-- The two ways in which `Tenancy` comes to a tenant. -/
theorem tenancy_servedFor_iff :
    ServedFor (tenancy text order logic request) org ↔
      (request.orgIDHeader ≠ "" ∧ text.parse request.orgIDHeader = .ok org ∧
        ∃ visible, logic.determineVisibleTenants request.context = .ok visible ∧
          visible.contains (text.format org) = true) ∨
      (request.orgIDHeader = "" ∧ ∃ defaults id,
        logic.determineDefaultTenants request.context = .ok defaults ∧
          defaults.universal = false ∧ defaults.tenants = [id] ∧
          text.parse id = .ok org) := by
  unfold tenancy
  by_cases absent : request.orgIDHeader = ""
  · simp [absent, defaultTenant_servedFor_iff]
  · simp [absent, explicitTenant_servedFor_iff]

/-! ## Writes -/

/--
The tenant the request leads to, if there is one, is assignable: the visible
one that its header names, or the only default one.
-/
def LeadsToAssignable (text : UUIDText) (logic : TenancyLogic)
    (request : HTTPRequest) : Prop :=
  (request.orgIDHeader ≠ "" →
    ∀ org visible, text.parse request.orgIDHeader = .ok org →
      logic.determineVisibleTenants request.context = .ok visible →
      visible.contains (text.format org) = true →
      Assignable text logic request.context org) ∧
  (request.orgIDHeader = "" →
    ∀ defaults id org,
      logic.determineDefaultTenants request.context = .ok defaults →
      defaults.universal = false → defaults.tenants = [id] →
      text.parse id = .ok org →
      Assignable text logic request.context org)

/--
A request is served only for a tenant its subject may write to exactly when
the tenant it leads to is assignable.  The method plays no role, so that this
holds of the requests that write.
-/
theorem tenancy_assignable_iff (text : UUIDText) (order : MapOrder)
    (logic : TenancyLogic) (request : HTTPRequest) :
    (∀ org, ServedFor (tenancy text order logic request) org →
      Assignable text logic request.context org) ↔
      LeadsToAssignable text logic request := by
  simp only [tenancy_servedFor_iff]
  constructor
  · intro holds
    constructor
    · intro named org visible parsed determined contained
      exact holds org (Or.inl ⟨named, parsed, visible, determined, contained⟩)
    · intro absent defaults id org determined listed only parsed
      exact holds org
        (Or.inr ⟨absent, defaults, id, determined, listed, only, parsed⟩)
  · rintro ⟨named, defaulted⟩ org
      (⟨present, parsed, visible, determined, contained⟩ |
        ⟨absent, defaults, id, determined, listed, only, parsed⟩)
    · exact named present org visible parsed determined contained
    · exact defaulted absent defaults id org determined listed only parsed

/-! ## A tenant that may only be read -/

/-- The order in which the keys are stored. -/
def storedOrder : MapOrder where
  list keys := keys
  perm _ := List.Perm.refl _

def firstTenant : String := "00000000-0000-0000-0000-000000000001"

def secondTenant : String := "00000000-0000-0000-0000-000000000002"

/-- A subject that reads two tenants and writes to the first. -/
def readerLogic : TenancyLogic where
  determineAssignableTenants _ := .ok (newTenantSet [firstTenant])
  determineDefaultTenants _ := .ok (newTenantSet [firstTenant])
  determineVisibleTenants _ := .ok (newTenantSet [firstTenant, secondTenant])

/-- The context of an authenticated request. -/
def readerContext : Context where
  subject := some ⟨"reader", newTenantSet [firstTenant, secondTenant]⟩

/-- A POST that names the visible tenant is served for it. -/
theorem post_to_visible_tenant :
    ServedFor
        (tenancy canonicalText storedOrder readerLogic
          { method := "POST", path := [], orgIDHeader := secondTenant,
            context := readerContext }) 2 ∧
      ¬ Assignable canonicalText readerLogic readerContext 2 := by
  constructor
  · exact ⟨_, rfl, rfl⟩
  · rintro ⟨assignable, determined, contained⟩
    cases determined
    revert contained
    decide

end Infractl.Auth
