import Mathlib.Data.Rat.Defs
import Infractl.Auth.Middleware

/-!
# The claims of a token

A payload is decoded into a map from claim names to JSON values of any shape.
The checks below ask for a value of the right shape, say so when it is not
there, and otherwise compare it.

Numbers are decoded as floating-point numbers, which are rational.  Times are
compared after a conversion to a 64-bit integer, which drops the fraction.  For
a number whose whole part does not fit, the result of the conversion is not
specified by the language; it is a parameter.
-/

namespace Infractl.Auth

/-! ## Values -/

/-- A decoded JSON value; nothing looks inside an object. -/
inductive JSONValue where
  | null
  | bool (value : Bool)
  | number (value : Rat)
  | string (value : String)
  | array (items : List JSONValue)
  | object

/-- `map[string]interface{}`. -/
abbrev Claims := String → Option JSONValue

/-- The whole part of a number, towards zero. -/
def truncated (value : Rat) : Int :=
  value.num.tdiv value.den

/-- The whole part fits a 64-bit integer. -/
def Representable (value : Rat) : Prop :=
  -2 ^ 63 ≤ truncated value ∧ truncated value < 2 ^ 63

instance (value : Rat) : Decidable (Representable value) :=
  inferInstanceAs (Decidable (_ ∧ _))

/-- `int64(value)`. -/
def toInt64 (unrepresentable : Rat → Int64) (value : Rat) : Int64 :=
  if Representable value then
    Int64.ofInt (truncated value)
  else
    unrepresentable value

@[simp]
theorem toInt_toInt64 {unrepresentable : Rat → Int64} {value : Rat}
    (fits : Representable value) :
    (toInt64 unrepresentable value).toInt = truncated value := by
  rw [toInt64, if_pos fits]
  exact Int64.toInt_ofInt_of_le fits.1 fits.2

/-! ## The checks -/

/-- Why a request is not authenticated. -/
inductive AuthError where
  | missingHeader
  | notBearer
  | emptyToken
  | malformedToken
  | malformedHeader (reason : String)
  | missingKid
  | unsupportedAlgorithm (alg : String)
  | keyLookup (reason : String)
  | keyNotFound (kid : String)
  | badSignature (reason : String)
  | malformedPayload (reason : String)
  | expired
  | missingExp
  | issuedInFuture
  | invalidIssuer (got : String)
  | missingIssuer
  | missingAudience
  | invalidAudience (got : String)
  | notInAudience
  | audienceType
  | userNotFound (claim : String)
  | noUser
  | tenantNotFound (claim : String)
  | tenantEmpty (claim : String)
  | noTenants (claim : String)
  | tenantType (claim : String)

/-- The configuration of an authenticator. -/
structure KeycloakConfig where
  realmURL : String
  clientID : String := ""
  tenantClaim : String := ""
  userClaim : String := ""
  /-- In nanoseconds. -/
  jwksCacheTTL : Int64 := 0

/-- The value of a claim that is a string. -/
def Claims.string? (claims : Claims) (name : String) : Option String :=
  match claims name with
  | some (.string value) => some value
  | _ => none

/-- The value of a claim that is a number. -/
def Claims.number? (claims : Claims) (name : String) : Option Rat :=
  match claims name with
  | some (.number value) => some value
  | _ => none

theorem Claims.string?_eq_some_iff (claims : Claims) (name value : String) :
    claims.string? name = some value ↔ claims name = some (.string value) := by
  unfold Claims.string?
  split
  · next found => simp [found]
  · next other =>
      simp only [reduceCtorEq, false_iff]
      exact other value

theorem Claims.number?_eq_some_iff (claims : Claims) (name : String)
    (value : Rat) :
    claims.number? name = some value ↔ claims name = some (.number value) := by
  unfold Claims.number?
  split
  · next found => simp [found]
  · next other =>
      simp only [reduceCtorEq, false_iff]
      exact other value

/-- The string in an item of an array, if it is one. -/
def JSONValue.asString : JSONValue → Option String
  | .string value => some value
  | _ => none

/-- `validateAudience`. -/
def validateAudience (claims : Claims) (clientID : String) :
    Except AuthError Unit :=
  match claims "aud" with
  | none => .error .missingAudience
  | some (.string value) =>
      if value ≠ clientID then .error (.invalidAudience value) else .ok ()
  | some (.array items) =>
      if items.any (fun item => item.asString = some clientID) then
        .ok ()
      else
        .error .notInAudience
  | some _ => .error .audienceType

/-- `validateStandardClaims`, at a time in seconds. -/
def validateStandardClaims (unrepresentable : Rat → Int64)
    (config : KeycloakConfig) (now : Int64) (claims : Claims) :
    Except AuthError Unit :=
  match claims.number? "exp" with
  | none => .error .missingExp
  | some exp =>
      if toInt64 unrepresentable exp < now then
        .error .expired
      else if (claims.number? "iat").any
          (fun iat => decide (now + 60 < toInt64 unrepresentable iat)) then
        .error .issuedInFuture
      else
        match claims.string? "iss" with
        | none => .error .missingIssuer
        | some iss =>
            if iss ≠ config.realmURL then
              .error (.invalidIssuer iss)
            else if config.clientID ≠ "" then
              validateAudience claims config.clientID
            else
              .ok ()

/-- The fallback of `extractUser`, for the claim used by default. -/
def extractSubject (claims : Claims) : Except AuthError String :=
  match claims.string? "sub" with
  | some sub => if sub ≠ "" then .ok sub else .error .noUser
  | none => .error .noUser

/-- `extractUser`. -/
def extractUser (config : KeycloakConfig) (claims : Claims) :
    Except AuthError String :=
  match (claims.string? config.userClaim).filter (fun user => user ≠ "") with
  | some user => .ok user
  | none =>
      if config.userClaim ≠ "preferred_username" then
        .error (.userNotFound config.userClaim)
      else
        extractSubject claims

/-- The strings of an array that are not empty. -/
def nonemptyStrings (items : List JSONValue) : List String :=
  (items.filterMap JSONValue.asString).filter (fun value => value ≠ "")

/-- `extractTenants`. -/
def extractTenants (config : KeycloakConfig) (claims : Claims) :
    Except AuthError (List String) :=
  match claims config.tenantClaim with
  | none => .error (.tenantNotFound config.tenantClaim)
  | some (.string value) =>
      if value = "" then
        .error (.tenantEmpty config.tenantClaim)
      else
        .ok [value]
  | some (.array items) =>
      let tenants := nonemptyStrings items
      if tenants = [] then
        .error (.noTenants config.tenantClaim)
      else
        .ok tenants
  | some _ => .error (.tenantType config.tenantClaim)

/-! ## What the checks establish -/

/-- The audience is the client, or has it among its strings. -/
def HasAudience (claims : Claims) (clientID : String) : Prop :=
  claims "aud" = some (.string clientID) ∨
    ∃ items, claims "aud" = some (.array items) ∧
      JSONValue.string clientID ∈ items

@[simp]
theorem asString_eq_some_iff (item : JSONValue) (value : String) :
    item.asString = some value ↔ item = .string value := by
  cases item with
  | string content => simp [JSONValue.asString]
  | _ => simp [JSONValue.asString]

theorem validateAudience_eq_ok_iff (claims : Claims) (clientID : String) :
    validateAudience claims clientID = .ok () ↔ HasAudience claims clientID := by
  unfold validateAudience HasAudience
  cases claims "aud" with
  | none => simp
  | some value =>
      cases value with
      | string content =>
          by_cases same : content = clientID
          · simp [same]
          · simp [same]
      | array items =>
          have anyIff :
              items.any (fun item => item.asString = some clientID) = true ↔
                JSONValue.string clientID ∈ items := by
            simp [List.any_eq_true]
          by_cases member : JSONValue.string clientID ∈ items
          · simp [anyIff.mpr member, member]
          · have absent :
                items.any (fun item => item.asString = some clientID) = false := by
              rw [← Bool.not_eq_true, anyIff]
              exact member
            simp [absent, member]
      | _ => simp

/-- The sum of a 64-bit time and the leeway wraps downwards, if at all. -/
theorem toInt_add_leeway_le (now : Int64) :
    (now + 60).toInt ≤ now.toInt + 60 := by
  have lower := now.le_toInt
  have upper := now.toInt_lt
  have sixty : (60 : Int64).toInt = 60 := by decide
  rw [Int64.toInt_add, sixty, Int.bmod_def]
  split
  · omega
  · omega

/-- The times of a token, cut to whole seconds and as far as these fit. -/
structure InTime (now : Int64) (claims : Claims) : Prop where
  unexpired : ∃ exp, claims "exp" = some (.number exp) ∧
    (Representable exp → now.toInt ≤ truncated exp)
  issued : ∀ iat, claims "iat" = some (.number iat) → Representable iat →
    truncated iat ≤ now.toInt + 60

/-- What `validateStandardClaims` has checked. -/
theorem validateStandardClaims_ok
    {unrepresentable : Rat → Int64} {config : KeycloakConfig} {now : Int64}
    {claims : Claims}
    (valid : validateStandardClaims unrepresentable config now claims = .ok ()) :
    InTime now claims ∧ claims "iss" = some (.string config.realmURL) ∧
      (config.clientID ≠ "" → HasAudience claims config.clientID) := by
  unfold validateStandardClaims at valid
  split at valid
  · cases valid
  · next exp expFound =>
      split at valid
      · cases valid
      · next unexpired =>
          split at valid
          · cases valid
          · next issued =>
              have inTime : InTime now claims := by
                constructor
                · refine ⟨exp, (claims.number?_eq_some_iff _ _).mp expFound, ?_⟩
                  intro fits
                  rw [Int64.not_lt, Int64.le_iff_toInt_le, toInt_toInt64 fits]
                    at unexpired
                  exact unexpired
                · intro iat found fits
                  rw [← claims.number?_eq_some_iff] at found
                  simp only [found, Option.any_some, decide_eq_true_eq,
                    Int64.not_lt, Int64.le_iff_toInt_le, toInt_toInt64 fits]
                    at issued
                  exact issued.trans (toInt_add_leeway_le now)
              split at valid
              · cases valid
              · next iss issFound =>
                  split at valid
                  · cases valid
                  · next sameIssuer =>
                      rw [not_not] at sameIssuer
                      subst sameIssuer
                      refine ⟨inTime,
                        (claims.string?_eq_some_iff _ _).mp issFound, ?_⟩
                      intro configured
                      rw [if_pos configured] at valid
                      exact (validateAudience_eq_ok_iff ..).mp valid

/-- The user is the claim asked for, or by default the subject. -/
theorem extractUser_ok {config : KeycloakConfig} {claims : Claims}
    {user : String}
    (extracted : extractUser config claims = .ok user) :
    user ≠ "" ∧
      (claims config.userClaim = some (.string user) ∨
        (config.userClaim = "preferred_username" ∧
          claims "sub" = some (.string user))) := by
  unfold extractUser at extracted
  split at extracted
  · next found named =>
      cases extracted
      rcases Option.filter_eq_some_iff.mp named with ⟨read, nonempty⟩
      exact ⟨by simpa using nonempty,
        Or.inl ((claims.string?_eq_some_iff _ _).mp read)⟩
  · split at extracted
    · cases extracted
    · next byDefault =>
        unfold extractSubject at extracted
        split at extracted
        · next sub read =>
            split at extracted
            · next nonempty =>
                cases extracted
                exact ⟨nonempty, Or.inr ⟨not_not.mp byDefault,
                  (claims.string?_eq_some_iff _ _).mp read⟩⟩
            · cases extracted
        · cases extracted

/-- The strings of a tenant claim that are not empty. -/
def tenantStrings : JSONValue → List String
  | .string value => if value = "" then [] else [value]
  | .array items => nonemptyStrings items
  | _ => []

theorem extractTenants_ok {config : KeycloakConfig} {claims : Claims}
    {tenants : List String}
    (extracted : extractTenants config claims = .ok tenants) :
    ∃ value, claims config.tenantClaim = some value ∧
      tenants = tenantStrings value ∧ tenants ≠ [] := by
  unfold extractTenants at extracted
  split at extracted
  · cases extracted
  · next value found =>
      split at extracted
      · cases extracted
      · next nonempty =>
          cases extracted
          exact ⟨_, found, by simp [tenantStrings, nonempty], by simp⟩
  · next items found =>
      dsimp only at extracted
      split at extracted
      · cases extracted
      · next nonempty =>
          cases extracted
          exact ⟨_, found, rfl, nonempty⟩
  · cases extracted

end Infractl.Auth
