import Infractl.Auth.Tenancy

/-!
# The gRPC interceptors

The interceptors repeat the decisions of the HTTP middleware for calls that
arrive over gRPC.  A call names no tenant, so it should run for the tenant for
which the tenancy middleware would serve a request without the header, and be
refused where that middleware refuses.  The code takes the first of the default
tenants, in whatever order the map lists them, and goes on without a tenant
when there is none.
-/

namespace Infractl.Grpc

open Infractl.Store (UUID)
open Infractl.Auth

/-! ## The interceptors -/

/-- The codes of a refusal. -/
inductive Code where
  | unauthenticated
  | internal
  | permissionDenied
deriving DecidableEq

/-- The handler is run with an argument, or the call ends with a status. -/
inductive Called (Argument : Type) where
  | handled (argument : Argument)
  | refused (code : Code) (message : String)

/-- The parts an interceptor is made of. -/
structure Interceptor where
  authenticateContext : Context → Except String Subject
  logic : TenancyLogic
  authorize : Authorizer

/-- What both interceptors do before they run the handler. -/
def Interceptor.admit (interceptor : Interceptor) (text : UUIDText)
    (order : MapOrder) (fullMethod : List UInt8) (context : Context) :
    Called Context :=
  match interceptor.authenticateContext context with
  | .error reason =>
      .refused .unauthenticated ("authentication failed: " ++ reason)
  | .ok subject =>
      let authenticated := { context with subject := some subject }
      match interceptor.logic.determineDefaultTenants authenticated with
      | .error reason =>
          .refused .internal ("default tenant resolution failed: " ++ reason)
      | .ok defaults =>
          let authorized (resolved : Context) : Called Context :=
            match interceptor.authorize resolved subject fullMethod "invoke" with
            | some reason =>
                .refused .permissionDenied ("access denied: " ++ reason)
            | none => .handled resolved
          match defaults.values order with
          | [] => authorized authenticated
          | first :: _ =>
              match text.parse first with
              | .error reason =>
                  .refused .internal ("invalid tenant UUID: " ++ reason)
              | .ok parsed =>
                  authorized { authenticated with orgID := some parsed }

/-- `AuthInterceptor`, whose handler is given the context. -/
def authInterceptor (interceptor : Interceptor) (text : UUIDText)
    (order : MapOrder) (fullMethod : List UInt8) (context : Context) :
    Called Context :=
  interceptor.admit text order fullMethod context

/-- A server stream, as far as its context goes. -/
structure ServerStream where
  context : Context

/-- `StreamAuthInterceptor`, whose handler is given the wrapped stream. -/
def streamAuthInterceptor (interceptor : Interceptor) (text : UUIDText)
    (order : MapOrder) (fullMethod : List UInt8) (stream : ServerStream) :
    Called ServerStream :=
  match interceptor.admit text order fullMethod stream.context with
  | .refused code message => .refused code message
  | .handled context => .handled { stream with context := context }

/-! ## Agreement with the HTTP middleware -/

/-- The handler is run with this tenant in the context it is given. -/
def RunsFor (called : Called Context) (org : UUID) : Prop :=
  ∃ context, called = .handled context ∧ context.orgID = some org

def StreamsFor (called : Called ServerStream) (org : UUID) : Prop :=
  ∃ stream, called = .handled stream ∧ stream.context.orgID = some org

def Refused {Argument : Type} (called : Called Argument) : Prop :=
  ∃ code message, called = .refused code message

def Rejected (served : Served) : Prop :=
  ∃ code message, served = .error code message

/-- Both interceptors come to the tenant the middleware comes to, if any. -/
structure SameTenant (served : Served) (unary : Called Context)
    (streaming : Called ServerStream) : Prop where
  unaryRuns : ∀ org, RunsFor unary org ↔ ServedFor served org
  unaryRefused : Rejected served → Refused unary
  streamingRuns : ∀ org, StreamsFor streaming org ↔ ServedFor served org
  streamingRefused : Rejected served → Refused streaming

/-- The same for the unary interceptor alone. -/
def UnaryAgrees (served : Served) (unary : Called Context) : Prop :=
  (∀ org, RunsFor unary org ↔ ServedFor served org) ∧
    (Rejected served → Refused unary)

section Stream

variable (interceptor : Interceptor) (text : UUIDText) (order : MapOrder)
variable (fullMethod : List UInt8) (stream : ServerStream)

theorem streamsFor_iff (org : UUID) :
    StreamsFor (streamAuthInterceptor interceptor text order fullMethod stream)
        org ↔
      RunsFor (authInterceptor interceptor text order fullMethod stream.context)
        org := by
  unfold StreamsFor RunsFor streamAuthInterceptor authInterceptor
  cases interceptor.admit text order fullMethod stream.context with
  | handled context => simp
  | refused code message => simp

theorem streamRefused_iff :
    Refused (streamAuthInterceptor interceptor text order fullMethod stream) ↔
      Refused
        (authInterceptor interceptor text order fullMethod stream.context) := by
  unfold Refused streamAuthInterceptor authInterceptor
  cases interceptor.admit text order fullMethod stream.context with
  | handled context => simp
  | refused code message => simp

/-- The stream interceptor follows the unary one. -/
theorem sameTenant_iff (served : Served) :
    SameTenant served
        (authInterceptor interceptor text order fullMethod stream.context)
        (streamAuthInterceptor interceptor text order fullMethod stream) ↔
      UnaryAgrees served
        (authInterceptor interceptor text order fullMethod stream.context) := by
  constructor
  · intro same
    exact ⟨same.unaryRuns, same.unaryRefused⟩
  · rintro ⟨runs, refused⟩
    refine ⟨runs, refused, ?_, ?_⟩
    · intro org
      rw [streamsFor_iff, runs]
    · intro rejected
      rw [streamRefused_iff]
      exact refused rejected

end Stream

/-! ## What each side decides -/

section Decisions

variable {interceptor : Interceptor} {fullMethod : List UInt8}
variable {subject : Subject}

/-- The context of a request or call once its subject is known. -/
def authenticated (subject : Subject) : Context where
  subject := some subject

/-- The decision of an interceptor that admits the subject, by its tenants. -/
theorem authInterceptor_eq (text : UUIDText)
    (known : interceptor.authenticateContext {} = .ok subject)
    (permitted : ∀ context,
      interceptor.authorize context subject fullMethod "invoke" = none)
    (order : MapOrder) :
    authInterceptor interceptor text order fullMethod {} =
      match interceptor.logic.determineDefaultTenants (authenticated subject) with
      | .error reason =>
          .refused .internal ("default tenant resolution failed: " ++ reason)
      | .ok defaults =>
          match defaults.values order with
          | [] => .handled (authenticated subject)
          | first :: _ =>
              match text.parse first with
              | .error reason =>
                  .refused .internal ("invalid tenant UUID: " ++ reason)
              | .ok parsed =>
                  .handled { authenticated subject with orgID := some parsed } := by
  simp only [authInterceptor, Interceptor.admit, known, permitted]
  rfl

/-- A request without the header from the same subject. -/
def plainRequest (subject : Subject) (method : String) (path : List UInt8) :
    HTTPRequest where
  method := method
  path := path
  context := authenticated subject

theorem tenancy_plainRequest (text : UUIDText) (order : MapOrder)
    (logic : TenancyLogic) (subject : Subject) (method : String)
    (path : List UInt8) :
    tenancy text order logic (plainRequest subject method path) =
      defaultTenant text order logic (plainRequest subject method path) := by
  simp [tenancy, plainRequest]

/-- Without exactly one default tenant a request is rejected. -/
theorem rejected_of_not_single (text : UUIDText) (order : MapOrder)
    {logic : TenancyLogic} {request : HTTPRequest} {defaults : TenantSet}
    (determined : logic.determineDefaultTenants request.context = .ok defaults)
    (several : ∀ id, ¬ (defaults.universal = false ∧ defaults.tenants = [id])) :
    Rejected (defaultTenant text order logic request) := by
  simp only [defaultTenant, determined]
  split
  · next id single =>
      exact absurd ((defaults.values_eq_singleton_iff order id).mp single)
        (several id)
  · exact ⟨_, _, rfl⟩

/-- With default tenants none of which can be parsed a request is rejected. -/
theorem rejected_of_unreadable {text : UUIDText} (order : MapOrder)
    {logic : TenancyLogic} {request : HTTPRequest} {defaults : TenantSet}
    (determined : logic.determineDefaultTenants request.context = .ok defaults)
    (unreadable :
      ∀ id ∈ defaults.tenants, ∃ reason, text.parse id = .error reason) :
    Rejected (defaultTenant text order logic request) := by
  simp only [defaultTenant, determined]
  split
  · next id single =>
      rcases (defaults.values_eq_singleton_iff order id).mp single with
        ⟨_, only⟩
      rcases unreadable id (by simp [only]) with ⟨reason, unparsed⟩
      simp only [unparsed]
      exact ⟨_, _, rfl⟩
  · exact ⟨_, _, rfl⟩

/-- With such default tenants, at least one of them, a call is refused. -/
theorem refused_of_unreadable {text : UUIDText} (order : MapOrder)
    (known : interceptor.authenticateContext {} = .ok subject)
    (permitted : ∀ context,
      interceptor.authorize context subject fullMethod "invoke" = none)
    {defaults : TenantSet}
    (determined :
      interceptor.logic.determineDefaultTenants (authenticated subject) =
        .ok defaults)
    (listed : defaults.universal = false) (nonempty : defaults.tenants ≠ [])
    (unreadable :
      ∀ id ∈ defaults.tenants, ∃ reason, text.parse id = .error reason) :
    Refused (authInterceptor interceptor text order fullMethod {}) := by
  rw [authInterceptor_eq text known permitted]
  simp only [determined]
  cases values : defaults.values order with
  | nil =>
      rcases (defaults.values_eq_nil_iff order).mp values with
        universal | empty
      · cases listed.symm.trans universal
      · exact absurd empty nonempty
  | cons first rest =>
      have member : first ∈ defaults.values order := by simp [values]
      rcases unreadable first
        ((defaults.mem_values_iff order first).mp member).2 with
        ⟨reason, unparsed⟩
      simp only [unparsed]
      exact ⟨_, _, rfl⟩

/-- Two sides that both turn a call down agree. -/
theorem unaryAgrees_of_refused {served : Served} {unary : Called Context}
    (rejected : Rejected served) (refused : Refused unary) :
    UnaryAgrees served unary := by
  rcases rejected with ⟨code, message, rfl⟩
  rcases refused with ⟨status, reason, rfl⟩
  refine ⟨fun org => iff_of_false ?_ ?_, fun _ => ⟨status, reason, rfl⟩⟩
  · rintro ⟨context, impossible, _⟩
    cases impossible
  · rintro ⟨context, impossible, _⟩
    cases impossible

/-- A call that runs where the request is rejected is a disagreement. -/
theorem not_unaryAgrees_of_handled {served : Served} {unary : Called Context}
    {context : Context}
    (rejected : Rejected served) (handled : unary = .handled context) :
    ¬ UnaryAgrees served unary := by
  intro agrees
  rcases agrees.2 rejected with ⟨code, message, refused⟩
  cases handled.symm.trans refused

/-- An order that lists the given key first. -/
def listFirst (key : String) : MapOrder where
  list keys := if key ∈ keys then key :: keys.erase key else keys
  perm keys := by
    split
    · next member => exact (List.perm_cons_erase member).symm
    · exact List.Perm.refl keys

theorem values_listFirst {defaults : TenantSet} {id : String}
    (listed : defaults.universal = false) (member : id ∈ defaults.tenants) :
    defaults.values (listFirst id) = id :: defaults.tenants.erase id := by
  simp [TenantSet.values, listed, listFirst, member]

/--
The default tenants on which the two sides agree: they cannot be determined, or
there is exactly one, or there are several of which none can be parsed.
-/
def DefaultsAgree (text : UUIDText) (logic : TenancyLogic)
    (subject : Subject) : Prop :=
  (∃ reason,
    logic.determineDefaultTenants (authenticated subject) = .error reason) ∨
  ∃ defaults,
    logic.determineDefaultTenants (authenticated subject) = .ok defaults ∧
      defaults.universal = false ∧
      ((∃ id, defaults.tenants = [id]) ∨
        (defaults.tenants ≠ [] ∧
          ∀ id ∈ defaults.tenants, ∀ org, text.parse id ≠ .ok org))

theorem defaultsAgree_of_unaryAgrees {text : UUIDText}
    (method : String) (path : List UInt8)
    (known : interceptor.authenticateContext {} = .ok subject)
    (permitted : ∀ context,
      interceptor.authorize context subject fullMethod "invoke" = none)
    (agrees : ∀ httpOrder grpcOrder,
      UnaryAgrees
        (defaultTenant text httpOrder interceptor.logic
          (plainRequest subject method path))
        (authInterceptor interceptor text grpcOrder fullMethod {})) :
    DefaultsAgree text interceptor.logic subject := by
  cases determined :
      interceptor.logic.determineDefaultTenants (authenticated subject) with
  | error reason => exact Or.inl ⟨reason, determined⟩
  | ok defaults =>
      refine Or.inr ⟨defaults, determined, ?_⟩
      by_cases single :
          ∃ id, defaults.universal = false ∧ defaults.tenants = [id]
      · rcases single with ⟨id, listed, only⟩
        exact ⟨listed, Or.inl ⟨id, only⟩⟩
      · have rejected :
            Rejected (defaultTenant text storedOrder interceptor.logic
              (plainRequest subject method path)) :=
          rejected_of_not_single text storedOrder determined
            (not_exists.mp single)
        have refusing : ∀ order context,
            authInterceptor interceptor text order fullMethod {} ≠
              .handled context :=
          fun order _ handled =>
            not_unaryAgrees_of_handled rejected handled (agrees storedOrder order)
        have listsSome : defaults.values storedOrder ≠ [] := by
          intro empty
          apply refusing storedOrder (authenticated subject)
          rw [authInterceptor_eq text known permitted]
          simp only [determined, empty]
        rw [ne_eq, TenantSet.values_eq_nil_iff, not_or, Bool.not_eq_true]
          at listsSome
        refine ⟨listsSome.1, Or.inr ⟨listsSome.2, ?_⟩⟩
        intro id member org parsed
        apply refusing (listFirst id)
          { authenticated subject with orgID := some org }
        rw [authInterceptor_eq text known permitted]
        simp only [determined, values_listFirst listsSome.1 member, parsed]

theorem unaryAgrees_of_defaultsAgree {text : UUIDText}
    (method : String) (path : List UInt8)
    (known : interceptor.authenticateContext {} = .ok subject)
    (permitted : ∀ context,
      interceptor.authorize context subject fullMethod "invoke" = none)
    (agree : DefaultsAgree text interceptor.logic subject)
    (httpOrder grpcOrder : MapOrder) :
    UnaryAgrees
      (defaultTenant text httpOrder interceptor.logic
        (plainRequest subject method path))
      (authInterceptor interceptor text grpcOrder fullMethod {}) := by
  rcases agree with ⟨reason, determined⟩ |
    ⟨defaults, determined, listed, ⟨id, only⟩ | ⟨nonempty, unreadable⟩⟩
  · rw [authInterceptor_eq text known permitted]
    simp only [defaultTenant, plainRequest, determined]
    exact unaryAgrees_of_refused ⟨_, _, rfl⟩ ⟨_, _, rfl⟩
  · have single := fun order =>
      (defaults.values_eq_singleton_iff order id).mpr ⟨listed, only⟩
    rw [authInterceptor_eq text known permitted]
    simp only [defaultTenant, plainRequest, determined, single]
    cases text.parse id with
    | error reason => exact unaryAgrees_of_refused ⟨_, _, rfl⟩ ⟨_, _, rfl⟩
    | ok parsed =>
        constructor
        · intro org
          simp [RunsFor, ServedFor]
        · rintro ⟨code, message, impossible⟩
          cases impossible
  · have refused : ∀ id ∈ defaults.tenants, ∃ reason,
        text.parse id = .error reason := by
      intro id member
      cases parsed : text.parse id with
      | error reason => exact ⟨reason, rfl⟩
      | ok org => exact absurd parsed (unreadable id member org)
    exact unaryAgrees_of_refused
      (rejected_of_unreadable httpOrder determined refused)
      (refused_of_unreadable grpcOrder known permitted determined listed
        nonempty refused)

end Decisions

/--
For a subject that is authenticated and allowed to make the call, the
interceptors come to the tenant of the HTTP middleware in all orders of the
default tenants exactly when `DefaultsAgree`.
-/
theorem interceptors_match_tenancy_iff
    {interceptor : Interceptor} {text : UUIDText} {fullMethod : List UInt8}
    {subject : Subject}
    (known : interceptor.authenticateContext {} = .ok subject)
    (permitted : ∀ context,
      interceptor.authorize context subject fullMethod "invoke" = none)
    (method : String) (path : List UInt8) :
    (∀ httpOrder grpcOrder : MapOrder,
      SameTenant
        (tenancy text httpOrder interceptor.logic
          (plainRequest subject method path))
        (authInterceptor interceptor text grpcOrder fullMethod {})
        (streamAuthInterceptor interceptor text grpcOrder fullMethod ⟨{}⟩)) ↔
      DefaultsAgree text interceptor.logic subject := by
  constructor
  · intro same
    refine defaultsAgree_of_unaryAgrees method path known permitted ?_
    intro httpOrder grpcOrder
    rw [← tenancy_plainRequest]
    exact (sameTenant_iff interceptor text grpcOrder fullMethod ⟨{}⟩ _).mp
      (same httpOrder grpcOrder)
  · intro agree httpOrder grpcOrder
    apply (sameTenant_iff interceptor text grpcOrder fullMethod ⟨{}⟩ _).mpr
    rw [tenancy_plainRequest]
    exact unaryAgrees_of_defaultsAgree method path known permitted agree
      httpOrder grpcOrder

/-- The interceptor that lets one subject make every call. -/
def allowingInterceptor (subject : Subject) : Interceptor where
  authenticateContext _ := .ok subject
  logic := defaultTenancyLogic
  authorize _ _ _ _ := none

/-- A subject of one tenant reaches it over both transports. -/
theorem single_tenant_matches :
    SameTenant
      (tenancy canonicalText storedOrder defaultTenancyLogic
        (plainRequest ⟨"user", newTenantSet [firstTenant]⟩ "GET" []))
      (authInterceptor
        (allowingInterceptor ⟨"user", newTenantSet [firstTenant]⟩)
        canonicalText storedOrder [] {})
      (streamAuthInterceptor
        (allowingInterceptor ⟨"user", newTenantSet [firstTenant]⟩)
        canonicalText storedOrder [] ⟨{}⟩) := by
  have known :
      (allowingInterceptor
        ⟨"user", newTenantSet [firstTenant]⟩).authenticateContext {} =
        .ok ⟨"user", newTenantSet [firstTenant]⟩ := rfl
  have agree : DefaultsAgree canonicalText defaultTenancyLogic
      ⟨"user", newTenantSet [firstTenant]⟩ :=
    Or.inr ⟨_, rfl, rfl, Or.inl ⟨firstTenant, rfl⟩⟩
  have permitted : ∀ context,
      (allowingInterceptor ⟨"user", newTenantSet [firstTenant]⟩).authorize
        context ⟨"user", newTenantSet [firstTenant]⟩ [] "invoke" = none :=
    fun _ => rfl
  exact (interceptors_match_tenancy_iff known permitted "GET" []).mpr agree
    storedOrder storedOrder

/--
A subject of two tenants is asked for the header over HTTP, and over gRPC runs
in the tenant that happens to be listed first.
-/
theorem first_listed_tenant_runs :
    tenancy canonicalText storedOrder defaultTenancyLogic
        (plainRequest ⟨"user", newTenantSet [firstTenant, secondTenant]⟩ "GET"
          []) = .error 400 "Bad Request: X-Org-ID header required" ∧
      RunsFor
        (authInterceptor
          (allowingInterceptor
            ⟨"user", newTenantSet [firstTenant, secondTenant]⟩)
          canonicalText storedOrder [] {}) 1 ∧
      RunsFor
        (authInterceptor
          (allowingInterceptor
            ⟨"user", newTenantSet [firstTenant, secondTenant]⟩)
          canonicalText (listFirst secondTenant) [] {}) 2 :=
  ⟨rfl, ⟨_, rfl, rfl⟩, ⟨_, rfl, rfl⟩⟩

end Infractl.Grpc
