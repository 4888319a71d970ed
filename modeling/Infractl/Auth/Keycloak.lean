import Infractl.Auth.TokenClaims
import Infractl.Lib.Run

/-!
# Bearer tokens of a Keycloak realm

`Authenticate` takes a token apart, looks up the key its header names, verifies
the signature and then the claims of the payload.  Keys come from the documents
the realm serves.  The last document is kept for a while, and fetched again
when it is too old or lacks the key.

Decoding base64 and JSON and verifying a signature are functions from outside.
A call comes with everything it may read from its surroundings: its header, the
clock each time it is read, and what the realm answers if it is asked.  The
documents fetched so far are recorded in the state; no transition reads them.
-/

namespace Infractl.Auth

open Infractl.Lib.Run
open Infractl.Store (Time)

/-! ## Configuration -/

/-- `strings.TrimRight(text, "/")`. -/
def trimRightSlashes (text : String) : String :=
  String.ofList (text.toList.reverse.dropWhile (fun char => char = '/')).reverse

/-- The defaults `NewKeycloakAuthenticator` fills in. -/
def newKeycloakConfig (config : KeycloakConfig) : KeycloakConfig where
  realmURL := trimRightSlashes config.realmURL
  clientID := config.clientID
  tenantClaim :=
    if config.tenantClaim = "" then "org_id" else config.tenantClaim
  userClaim :=
    if config.userClaim = "" then "preferred_username" else config.userClaim
  jwksCacheTTL :=
    if config.jwksCacheTTL = 0 then 900000000000 else config.jwksCacheTTL

/-! ## Keys -/

/-- A key of a document; `n` and `e` are the bytes of its base64 texts. -/
structure JWK where
  kid : String
  kty : String
  alg : String := ""
  use : String := ""
  n : List UInt8
  e : List UInt8

/-- An RSA public key. -/
structure PublicKey where
  n : Nat
  e : Nat
deriving DecidableEq

/-- The header of a token. -/
structure TokenHeader where
  kid : String
  alg : String

/-- The functions from outside. -/
structure Decoding where
  base64URLDecode : List UInt8 → Except String (List UInt8)
  decodeHeader : List UInt8 → Except String TokenHeader
  decodeClaims : List UInt8 → Except String Claims
  decodeJWKS : List UInt8 → Except String (List JWK)
  /-- The key, the signed bytes and the signature; `none` is acceptance. -/
  verifyPKCS1v15 : PublicKey → List UInt8 → List UInt8 → Option String
  unrepresentable : Rat → Int64

/-- `big.Int.SetBytes`. -/
def bigEndian (bytes : List UInt8) : Nat :=
  bytes.foldl (fun value byte => value * 256 + byte.toNat) 0

/-- `parseRSAPublicKey`. -/
def parseRSAPublicKey (decoding : Decoding) (n e : List UInt8) :
    Except String PublicKey :=
  match decoding.base64URLDecode n with
  | .error reason => .error ("decoding modulus: " ++ reason)
  | .ok nBytes =>
      match decoding.base64URLDecode e with
      | .error reason => .error ("decoding exponent: " ++ reason)
      | .ok eBytes =>
          if bigEndian eBytes < 2 ^ 63 then
            .ok ⟨bigEndian nBytes, bigEndian eBytes⟩
          else
            .error "exponent too large"

/-- The key a document entry gives, unless `fetchJWKS` skips it. -/
def usableKey (decoding : Decoding) (jwk : JWK) : Option PublicKey :=
  if jwk.kty ≠ "RSA" then
    none
  else if jwk.use ≠ "" ∧ jwk.use ≠ "sig" then
    none
  else
    (parseRSAPublicKey decoding jwk.n jwk.e).toOption

/-- The map `fetchJWKS` builds; a later entry replaces an earlier one. -/
def keyMap (decoding : Decoding) (jwks : List JWK) : String → Option PublicKey :=
  jwks.foldl
    (fun keys jwk =>
      match usableKey decoding jwk with
      | none => keys
      | some key => Function.update keys jwk.kid (some key))
    (fun _ => none)

/-- The keys of the last fetch. -/
structure JWKSCache where
  keys : String → Option PublicKey
  fetchedAt : Time

/-! ## Calls -/

/-- What the realm answers: a status and a body that may fail to be read. -/
structure Answer where
  status : Nat
  body : Except String (List UInt8)

/-- One call of `Authenticate` with what it may read. -/
structure AuthCall where
  /-- The `Authorization` header, empty when it is absent. -/
  authorization : List UInt8
  firstCheck : Time
  secondCheck : Time
  answer : Except String Answer
  fetchedAt : Time
  /-- In seconds. -/
  now : Int64

/-- A document that was fetched, and when. -/
structure Fetch where
  jwks : List JWK
  fetchedAt : Time

/-- The cache and the fetches so far. -/
structure Authenticator where
  jwks : Option JWKSCache := none
  fetches : List Fetch := []

/-- The request of `fetchJWKS` and the decoding of its answer. -/
def servedJWKS (decoding : Decoding) (config : KeycloakConfig)
    (answer : Except String Answer) : Except String (List JWK) :=
  match answer with
  | .error reason =>
      .error ("fetching JWKS from " ++ config.realmURL ++
        "/protocol/openid-connect/certs: " ++ reason)
  | .ok response =>
      if response.status ≠ 200 then
        .error ("JWKS endpoint returned status " ++ toString response.status)
      else
        match response.body with
        | .error reason => .error ("reading JWKS response: " ++ reason)
        | .ok body =>
            match decoding.decodeJWKS (body.take (2 ^ 20)) with
            | .error reason => .error ("parsing JWKS response: " ++ reason)
            | .ok jwks => .ok jwks

/-- `time.Since`, which saturates. -/
def since (now earlier : Time) : Int :=
  max (-2 ^ 63) (min (2 ^ 63 - 1) (now - earlier))

/-- The key in a cache that is not too old. -/
def cachedKey (config : KeycloakConfig) (cache : Option JWKSCache)
    (now : Time) (kid : String) : Option PublicKey :=
  match cache with
  | none => none
  | some cached =>
      if since now cached.fetchedAt < config.jwksCacheTTL.toInt then
        cached.keys kid
      else
        none

/-- `getSigningKey`, in a run without other calls in between. -/
def getSigningKey (decoding : Decoding) (config : KeycloakConfig)
    (state : Authenticator) (call : AuthCall) (kid : String) :
    Authenticator × Except AuthError PublicKey :=
  match cachedKey config state.jwks call.firstCheck kid with
  | some key => (state, .ok key)
  | none =>
      match cachedKey config state.jwks call.secondCheck kid with
      | some key => (state, .ok key)
      | none =>
          match servedJWKS decoding config call.answer with
          | .error reason => (state, .error (.keyLookup reason))
          | .ok jwks =>
              let keys := keyMap decoding jwks
              let refreshed : Authenticator :=
                { jwks := some ⟨keys, call.fetchedAt⟩
                  fetches := state.fetches ++ [⟨jwks, call.fetchedAt⟩] }
              match keys kid with
              | none => (refreshed, .error (.keyNotFound kid))
              | some key => (refreshed, .ok key)

/-! ## Tokens -/

/-- The bytes of the scheme and the blank after it. -/
def bearerScheme : List UInt8 :=
  [66, 101, 97, 114, 101, 114, 32]

def dot : UInt8 := 46

/-- `extractBearerToken`. -/
def extractBearerToken (authorization : List UInt8) :
    Except AuthError (List UInt8) :=
  if authorization = [] then
    .error .missingHeader
  else if bearerScheme.isPrefixOf authorization then
    let token := authorization.drop bearerScheme.length
    if token = [] then .error .emptyToken else .ok token
  else
    .error .notBearer

/-- `verifyRS256`. -/
def verifyRS256 (decoding : Decoding) (signingInput signature : List UInt8)
    (key : PublicKey) : Except AuthError Unit :=
  match decoding.base64URLDecode signature with
  | .error reason => .error (.badSignature ("decoding signature: " ++ reason))
  | .ok bytes =>
      match decoding.verifyPKCS1v15 key signingInput bytes with
      | some reason => .error (.badSignature reason)
      | none => .ok ()

/-- The header of a token, decoded and checked. -/
def tokenHeader (decoding : Decoding) (part : List UInt8) :
    Except AuthError TokenHeader :=
  match decoding.base64URLDecode part with
  | .error reason => .error (.malformedHeader reason)
  | .ok json =>
      match decoding.decodeHeader json with
      | .error reason => .error (.malformedHeader reason)
      | .ok header =>
          if header.kid = "" then
            .error .missingKid
          else if header.alg ≠ "RS256" then
            .error (.unsupportedAlgorithm header.alg)
          else
            .ok header

/-- The claims of a token, decoded. -/
def tokenClaims (decoding : Decoding) (part : List UInt8) :
    Except AuthError Claims :=
  match decoding.base64URLDecode part with
  | .error reason => .error (.malformedPayload reason)
  | .ok json =>
      match decoding.decodeClaims json with
      | .error reason => .error (.malformedPayload reason)
      | .ok claims => .ok claims

/-- The part of `Authenticate` after the signature has been verified. -/
def subjectOfClaims (decoding : Decoding) (config : KeycloakConfig)
    (now : Int64) (payload : List UInt8) : Except AuthError Subject := do
  let claims ← tokenClaims decoding payload
  validateStandardClaims decoding.unrepresentable config now claims
  let user ← extractUser config claims
  let tenants ← extractTenants config claims
  return ⟨user, newTenantSet tenants⟩

/-- `Authenticate`. -/
def authenticate (decoding : Decoding) (config : KeycloakConfig)
    (state : Authenticator) (call : AuthCall) :
    Authenticator × Except AuthError Subject :=
  match extractBearerToken call.authorization with
  | .error error => (state, .error error)
  | .ok token =>
      match token.splitOn dot with
      | [headerPart, payload, signature] =>
          match tokenHeader decoding headerPart with
          | .error error => (state, .error error)
          | .ok header =>
              match getSigningKey decoding config state call header.kid with
              | (looked, .error error) => (looked, .error error)
              | (looked, .ok key) =>
                  match verifyRS256 decoding
                      (headerPart ++ dot :: payload) signature key with
                  | .error error => (looked, .error error)
                  | .ok () =>
                      (looked, subjectOfClaims decoding config call.now payload)
      | _ => (state, .error .malformedToken)

/-- One call of a sequence. -/
def authStep (decoding : Decoding) (config : KeycloakConfig)
    (state : Authenticator) (call : AuthCall) : Option Authenticator :=
  some (authenticate decoding config state call).1

end Infractl.Auth
