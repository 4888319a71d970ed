import Infractl.Auth.Keycloak

/-!
# What an authenticated subject stands for

A subject is returned for a token of three parts whose header names a key of a
document of the realm, fetched by this call or not too long before it, whose
signature that key verifies, and whose payload holds the claims that were
checked and the user and the tenants of the subject.

The cache is what ties a key to a document: it always holds the keys of a
document that was fetched, and the time of the fetch.
-/

namespace Infractl.Auth

open Infractl.Lib.Run
open Infractl.Store (Time)

/-! ## Parts of a token -/

theorem separator_not_mem_splitOn {α : Type} [DecidableEq α] (separator : α)
    (list : List α) :
    ∀ part ∈ list.splitOn separator, separator ∉ part := by
  induction list with
  | nil => simp
  | cons element rest ih =>
      rw [List.splitOn_cons_eq_if_modifyHead]
      split
      · intro part member
        rcases List.mem_cons.mp member with rfl | later
        · simp
        · exact ih part later
      · next different =>
          cases parts : rest.splitOn separator with
          | nil => simp
          | cons first others =>
              rw [parts] at ih
              intro part member
              rcases List.mem_cons.mp member with rfl | later
              · have firstClean := ih first List.mem_cons_self
                simp only [List.mem_cons, not_or]
                refine ⟨?_, firstClean⟩
                rintro rfl
                simp at different
              · exact ih part (List.mem_cons_of_mem first later)

/-- A header with the scheme and three parts. -/
structure BearerToken (authorization headerPart payload signature : List UInt8) :
    Prop where
  authorization_eq :
    authorization =
      bearerScheme ++ (headerPart ++ dot :: (payload ++ dot :: signature))
  header_whole : dot ∉ headerPart
  payload_whole : dot ∉ payload
  signature_whole : dot ∉ signature

theorem extractBearerToken_ok {authorization token : List UInt8}
    (extracted : extractBearerToken authorization = .ok token) :
    authorization = bearerScheme ++ token := by
  unfold extractBearerToken at extracted
  split at extracted
  · cases extracted
  · split at extracted
    · next isBearer =>
        dsimp only at extracted
        split at extracted
        · cases extracted
        · cases extracted
          rcases List.isPrefixOf_iff_prefix.mp isBearer with ⟨rest, rfl⟩
          simp
    · cases extracted

theorem bearerToken_of_split
    {authorization token headerPart payload signature : List UInt8}
    (extracted : extractBearerToken authorization = .ok token)
    (split : token.splitOn dot = [headerPart, payload, signature]) :
    BearerToken authorization headerPart payload signature := by
  have clean := separator_not_mem_splitOn dot token
  rw [split] at clean
  have joined : [dot].intercalate (token.splitOn dot) = token :=
    List.intercalate_splitOn dot
  rw [split] at joined
  refine ⟨?_, clean _ (by simp), clean _ (by simp), clean _ (by simp)⟩
  rw [extractBearerToken_ok extracted, ← joined]
  simp [List.intercalate]

/-! ## Keys and documents -/

/-- The entry of a document that gives a key under an identifier. -/
structure Provides (decoding : Decoding) (jwks : List JWK) (kid : String)
    (key : PublicKey) (jwk : JWK) : Prop where
  member : jwk ∈ jwks
  kid_eq : jwk.kid = kid
  kty_eq : jwk.kty = "RSA"
  use_eq : jwk.use = "" ∨ jwk.use = "sig"
  parsed : parseRSAPublicKey decoding jwk.n jwk.e = .ok key

variable {decoding : Decoding} {config : KeycloakConfig} {key : PublicKey}
variable {state : Authenticator} {kid : String}

theorem usableKey_eq_some {jwk : JWK} (usable : usableKey decoding jwk = some key) :
    jwk.kty = "RSA" ∧ (jwk.use = "" ∨ jwk.use = "sig") ∧
      parseRSAPublicKey decoding jwk.n jwk.e = .ok key := by
  unfold usableKey at usable
  split at usable
  · cases usable
  · next isRSA =>
      split at usable
      · cases usable
      · next forSigning =>
          refine ⟨not_not.mp isRSA, ?_, ?_⟩
          · by_cases empty : jwk.use = ""
            · exact Or.inl empty
            · exact Or.inr (not_not.mp (fun other => forSigning ⟨empty, other⟩))
          · cases parsed : parseRSAPublicKey decoding jwk.n jwk.e with
            | error reason =>
                rw [parsed] at usable
                cases usable
            | ok found =>
                rw [parsed] at usable
                cases usable
                rfl

/-- Every key of the map comes from an entry of the document. -/
theorem keyMap_eq_some {jwks : List JWK}
    (found : keyMap decoding jwks kid = some key) :
    ∃ jwk, Provides decoding jwks kid key jwk := by
  induction jwks using List.reverseRecOn with
  | nil => cases found
  | append_singleton earlier last ih =>
      have provided (old : keyMap decoding earlier kid = some key) :
          ∃ jwk, Provides decoding (earlier ++ [last]) kid key jwk := by
        rcases ih old with ⟨jwk, provides⟩
        exact ⟨jwk, { provides with
          member := List.mem_append_left _ provides.member }⟩
      rw [keyMap, List.foldl_append, List.foldl_cons, List.foldl_nil] at found
      cases usable : usableKey decoding last with
      | none =>
          rw [usable] at found
          exact provided found
      | some added =>
          rw [usable] at found
          by_cases same : kid = last.kid
          · subst same
            have newest := Function.update_self last.kid (some added)
              (keyMap decoding earlier)
            cases newest.symm.trans found
            rcases usableKey_eq_some usable with ⟨kty, use, parsed⟩
            exact ⟨last, by simp, rfl, kty, use, parsed⟩
          · have older := Function.update_of_ne same (some added)
              (keyMap decoding earlier)
            exact provided (older.symm.trans found)

/-- The cache holds the keys of a document that was fetched. -/
def CacheFetched (decoding : Decoding) (state : Authenticator) : Prop :=
  ∀ cache, state.jwks = some cache →
    ∃ fetch ∈ state.fetches,
      cache.keys = keyMap decoding fetch.jwks ∧
        cache.fetchedAt = fetch.fetchedAt

/-- The document is what the realm served to the call. -/
def ServedTo (decoding : Decoding) (config : KeycloakConfig) (call : AuthCall)
    (fetch : Fetch) : Prop :=
  servedJWKS decoding config call.answer = .ok fetch.jwks ∧
    fetch.fetchedAt = call.fetchedAt

/--
The document was fetched by this call, or before it and less than the time for
which documents are kept.
-/
def Current (decoding : Decoding) (config : KeycloakConfig)
    (state next : Authenticator) (call : AuthCall) (fetch : Fetch) : Prop :=
  (fetch ∈ state.fetches ∧
    (call.firstCheck - fetch.fetchedAt < config.jwksCacheTTL.toInt ∨
      call.secondCheck - fetch.fetchedAt < config.jwksCacheTTL.toInt)) ∨
  (next.fetches = state.fetches ++ [fetch] ∧
    ServedTo decoding config call fetch)

theorem sub_lt_of_since_lt {now earlier : Int} {ttl : Int64}
    (recent : since now earlier < ttl.toInt) :
    now - earlier < ttl.toInt := by
  have upper := ttl.toInt_lt
  unfold since at recent
  omega

theorem cachedKey_eq_some
    {now : Time} (cacheFetched : CacheFetched decoding state)
    (found : cachedKey config state.jwks now kid = some key) :
    ∃ fetch ∈ state.fetches, now - fetch.fetchedAt < config.jwksCacheTTL.toInt ∧
      ∃ jwk, Provides decoding fetch.jwks kid key jwk := by
  unfold cachedKey at found
  split at found
  · cases found
  · next cached stored =>
      split at found
      · next recent =>
          rcases cacheFetched cached stored with
            ⟨fetch, member, keysEq, timeEq⟩
          rw [timeEq] at recent
          rw [keysEq] at found
          exact ⟨fetch, member, sub_lt_of_since_lt recent,
            keyMap_eq_some found⟩
      · cases found

/-- A key that is returned comes from a current document. -/
theorem getSigningKey_ok
    {state next : Authenticator} {call : AuthCall}
    (cacheFetched : CacheFetched decoding state)
    (returned : getSigningKey decoding config state call kid = (next, .ok key)) :
    ∃ fetch jwk, Current decoding config state next call fetch ∧
      Provides decoding fetch.jwks kid key jwk := by
  unfold getSigningKey at returned
  split at returned
  · next found =>
      cases returned
      rcases cachedKey_eq_some cacheFetched found with
        ⟨fetch, member, recent, jwk, provides⟩
      exact ⟨fetch, jwk, Or.inl ⟨member, Or.inl recent⟩, provides⟩
  · split at returned
    · next found =>
        cases returned
        rcases cachedKey_eq_some cacheFetched found with
          ⟨fetch, member, recent, jwk, provides⟩
        exact ⟨fetch, jwk, Or.inl ⟨member, Or.inr recent⟩, provides⟩
    · split at returned
      · cases returned
      · next jwks served =>
          dsimp only at returned
          split at returned
          · cases returned
          · next found =>
              cases returned
              rcases keyMap_eq_some found with ⟨jwk, provides⟩
              exact ⟨⟨jwks, call.fetchedAt⟩, jwk, Or.inr ⟨rfl, served, rfl⟩, provides⟩

/-- What a call does to the state: nothing, or it keeps what it fetched. -/
theorem getSigningKey_state (decoding : Decoding) (config : KeycloakConfig)
    (state : Authenticator) (call : AuthCall) (kid : String) :
    (getSigningKey decoding config state call kid).1 = state ∨
      ∃ fetch, ServedTo decoding config call fetch ∧
        (getSigningKey decoding config state call kid).1 =
          { jwks := some ⟨keyMap decoding fetch.jwks, fetch.fetchedAt⟩
            fetches := state.fetches ++ [fetch] } := by
  unfold getSigningKey
  split
  · exact Or.inl rfl
  · split
    · exact Or.inl rfl
    · split
      · exact Or.inl rfl
      · next jwks served =>
          have refreshed : ServedTo decoding config call ⟨jwks, call.fetchedAt⟩ :=
            ⟨served, rfl⟩
          dsimp only
          split
          · exact Or.inr ⟨_, refreshed, rfl⟩
          · exact Or.inr ⟨_, refreshed, rfl⟩

theorem authenticate_state (decoding : Decoding) (config : KeycloakConfig)
    (state : Authenticator) (call : AuthCall) :
    (authenticate decoding config state call).1 = state ∨
      ∃ fetch, ServedTo decoding config call fetch ∧
        (authenticate decoding config state call).1 =
          { jwks := some ⟨keyMap decoding fetch.jwks, fetch.fetchedAt⟩
            fetches := state.fetches ++ [fetch] } := by
  unfold authenticate
  split
  · exact Or.inl rfl
  · split
    · split
      · exact Or.inl rfl
      · next header _ =>
          have looked := getSigningKey_state decoding config state call header.kid
          split
          · next stateEq =>
              rw [stateEq] at looked
              exact looked
          · next stateEq =>
              rw [stateEq] at looked
              split
              · exact looked
              · exact looked
    · exact Or.inl rfl

/-- The cache and the record of fetches, after a sequence of calls. -/
structure Recorded (decoding : Decoding) (config : KeycloakConfig)
    (calls : List AuthCall) (state : Authenticator) : Prop where
  cacheFetched : CacheFetched decoding state
  served : ∀ fetch ∈ state.fetches,
    ∃ call ∈ calls, ServedTo decoding config call fetch

theorem Recorded.step
    {calls : List AuthCall} (recorded : Recorded decoding config calls state)
    (call : AuthCall) :
    Recorded decoding config (calls ++ [call])
      (authenticate decoding config state call).1 := by
  have earlier : ∀ fetch ∈ state.fetches,
      ∃ past ∈ calls ++ [call], ServedTo decoding config past fetch := by
    intro fetch member
    rcases recorded.served fetch member with ⟨past, pastMember, served⟩
    exact ⟨past, List.mem_append_left _ pastMember, served⟩
  rcases authenticate_state decoding config state call with
    unchanged | ⟨fetch, served, refreshed⟩
  · rw [unchanged]
    exact ⟨recorded.cacheFetched, earlier⟩
  · rw [refreshed]
    constructor
    · rintro cache ⟨⟩
      exact ⟨fetch, by simp, rfl, rfl⟩
    · intro other member
      rcases List.mem_append.mp member with old | new
      · exact earlier other old
      · cases List.mem_singleton.mp new
        exact ⟨call, by simp, served⟩

/-- The record is kept along every sequence of calls. -/
theorem run_recorded
    {calls : List AuthCall}
    (reached : run (authStep decoding config) {} calls = some state) :
    Recorded decoding config calls state := by
  refine run_induction (authStep decoding config)
    (motive := fun taken now => Recorded decoding config taken now) ?_ ?_ reached
  · constructor
    · intro cache impossible
      cases impossible
    · intro fetch member
      cases member
  · intro taken call before after _ recorded stepped
    cases stepped
    exact recorded.step call

/-! ## Subjects -/

theorem tokenHeader_ok {part : List UInt8} {header : TokenHeader}
    (read : tokenHeader decoding part = .ok header) :
    (∃ json, decoding.base64URLDecode part = .ok json ∧
      decoding.decodeHeader json = .ok header) ∧
      header.kid ≠ "" ∧ header.alg = "RS256" := by
  unfold tokenHeader at read
  split at read
  · cases read
  · next json decoded =>
      split at read
      · cases read
      · next parsed =>
          split at read
          · cases read
          · next named =>
              split at read
              · cases read
              · next isRS256 =>
                  cases read
                  exact ⟨⟨json, decoded, parsed⟩, named, not_not.mp isRS256⟩

theorem tokenClaims_ok {part : List UInt8} {claims : Claims}
    (read : tokenClaims decoding part = .ok claims) :
    ∃ json, decoding.base64URLDecode part = .ok json ∧
      decoding.decodeClaims json = .ok claims := by
  unfold tokenClaims at read
  split at read
  · cases read
  · next json decoded =>
      split at read
      · cases read
      · next parsed =>
          cases read
          exact ⟨json, decoded, parsed⟩

/-- A non-empty string of a claim: its value, or an item of it. -/
def StringOf (claims : Claims) (name id : String) : Prop :=
  id ≠ "" ∧
    (claims name = some (.string id) ∨
      ∃ items, claims name = some (.array items) ∧ JSONValue.string id ∈ items)

theorem mem_tenantStrings_iff {claims : Claims} {name : String}
    {value : JSONValue} (found : claims name = some value) (id : String) :
    id ∈ tenantStrings value ↔ StringOf claims name id := by
  unfold StringOf
  rw [found]
  cases value with
  | string content =>
      by_cases empty : content = ""
      · simp only [tenantStrings, empty, if_pos, List.not_mem_nil, false_iff]
        rintro ⟨nonempty, same | ⟨items, impossible, _⟩⟩
        · cases same
          exact nonempty rfl
        · cases impossible
      · simp only [tenantStrings, empty, if_false, List.mem_singleton]
        constructor
        · rintro rfl
          exact ⟨empty, Or.inl rfl⟩
        · rintro ⟨_, same | ⟨items, impossible, _⟩⟩
          · cases same
            rfl
          · cases impossible
  | array items =>
      simp [tenantStrings, nonemptyStrings, and_comm]
  | _ => simp [tenantStrings]

/-- What the claims of a payload say about a subject. -/
structure ClaimsHold (config : KeycloakConfig) (now : Int64) (claims : Claims)
    (subject : Subject) : Prop where
  inTime : InTime now claims
  issuer : claims "iss" = some (.string config.realmURL)
  audience : config.clientID ≠ "" → HasAudience claims config.clientID
  named : subject.user ≠ ""
  user : claims config.userClaim = some (.string subject.user) ∨
    (config.userClaim = "preferred_username" ∧
      claims "sub" = some (.string subject.user))
  tenants : ∀ id, subject.tenants.contains id = true ↔
    StringOf claims config.tenantClaim id
  someTenant : ∃ id, StringOf claims config.tenantClaim id

theorem exists_of_bind_eq_ok {Error Value Result : Type}
    {first : Except Error Value} {rest : Value → Except Error Result}
    {result : Result}
    (succeeded : (first >>= rest) = .ok result) :
    ∃ value, first = .ok value ∧ rest value = .ok result := by
  cases first with
  | error error => cases succeeded
  | ok value => exact ⟨value, rfl, succeeded⟩

theorem subjectOfClaims_ok
    {now : Int64} {payload : List UInt8} {subject : Subject}
    (returned : subjectOfClaims decoding config now payload = .ok subject) :
    ∃ json claims, decoding.base64URLDecode payload = .ok json ∧
      decoding.decodeClaims json = .ok claims ∧
      ClaimsHold config now claims subject := by
  rcases exists_of_bind_eq_ok returned with ⟨claims, read, checkedLater⟩
  rcases exists_of_bind_eq_ok checkedLater with ⟨_, valid, userLater⟩
  rcases exists_of_bind_eq_ok userLater with ⟨user, extractedUser, tenantsLater⟩
  rcases exists_of_bind_eq_ok tenantsLater with
    ⟨tenants, extractedTenants, subjectEq⟩
  cases subjectEq
  rcases tokenClaims_ok read with ⟨json, decoded, parsed⟩
  rcases validateStandardClaims_ok valid with ⟨inTime, issuer, audience⟩
  rcases extractUser_ok extractedUser with ⟨named, origin⟩
  rcases extractTenants_ok extractedTenants with ⟨value, found, rfl, nonempty⟩
  have tenantsIff := mem_tenantStrings_iff found
  refine ⟨json, claims, decoded, parsed, inTime, issuer, audience, named, origin,
    ?_, ?_⟩
  · intro id
    rw [← tenantsIff]
    simp [TenantSet.contains, newTenantSet]
  · rcases List.exists_mem_of_ne_nil _ nonempty with ⟨id, member⟩
    exact ⟨id, (tenantsIff id).mp member⟩

/--
A subject and the token it was returned for: the parts of the header, the key
that verified them, the document it comes from and the claims.
-/
structure Authentic (decoding : Decoding) (config : KeycloakConfig)
    (calls : List AuthCall) (state next : Authenticator) (call : AuthCall)
    (subject : Subject) : Prop where
  token : ∃ headerPart payload signature,
    BearerToken call.authorization headerPart payload signature ∧
      (∃ json header, decoding.base64URLDecode headerPart = .ok json ∧
        decoding.decodeHeader json = .ok header ∧ header.alg = "RS256" ∧
        header.kid ≠ "" ∧
        ∃ fetch jwk key, Current decoding config state next call fetch ∧
          (∃ past ∈ calls ++ [call], ServedTo decoding config past fetch) ∧
          Provides decoding fetch.jwks header.kid key jwk ∧
          verifyRS256 decoding (headerPart ++ dot :: payload) signature key =
            .ok ()) ∧
      ∃ json claims, decoding.base64URLDecode payload = .ok json ∧
        decoding.decodeClaims json = .ok claims ∧
        ClaimsHold config call.now claims subject

theorem authenticate_ok
    {state next : Authenticator} {call : AuthCall} {subject : Subject}
    (returned :
      authenticate decoding config state call = (next, .ok subject)) :
    ∃ token headerPart payload signature header key,
      extractBearerToken call.authorization = .ok token ∧
        token.splitOn dot = [headerPart, payload, signature] ∧
        tokenHeader decoding headerPart = .ok header ∧
        getSigningKey decoding config state call header.kid =
          (next, .ok key) ∧
        verifyRS256 decoding (headerPart ++ dot :: payload) signature key =
          .ok () ∧
        subjectOfClaims decoding config call.now payload = .ok subject := by
  unfold authenticate at returned
  split at returned
  · cases returned
  · next token extracted =>
      split at returned
      · next headerPart payload signature threeParts =>
          split at returned
          · cases returned
          · next header readHeader =>
              split at returned
              · cases returned
              · next looked key keyReturned =>
                  split at returned
                  · cases returned
                  · next verified =>
                      rw [Prod.mk.injEq] at returned
                      rcases returned with ⟨rfl, subjectEq⟩
                      exact ⟨token, headerPart, payload, signature, header,
                        key, extracted, threeParts, readHeader, keyReturned,
                        verified, subjectEq⟩
      · cases returned

/--
After any sequence of calls, a subject is returned only for a token that is
authentic.  Its times are those of the token in whole seconds.
-/
theorem authenticate_sound (decoding : Decoding) (given : KeycloakConfig)
    (calls : List AuthCall) {state next : Authenticator} {call : AuthCall}
    {subject : Subject}
    (reached :
      run (authStep decoding (newKeycloakConfig given)) {} calls = some state)
    (returned :
      authenticate decoding (newKeycloakConfig given) state call =
        (next, .ok subject)) :
    Authentic decoding (newKeycloakConfig given) calls state next call
      subject := by
  have recorded := run_recorded reached
  rcases authenticate_ok returned with
    ⟨token, headerPart, payload, signature, header, key, extracted, threeParts,
      readHeader, keyReturned, verified, subjectEq⟩
  rcases tokenHeader_ok readHeader with
    ⟨⟨json, decoded, parsed⟩, named, isRS256⟩
  rcases getSigningKey_ok recorded.cacheFetched keyReturned with
    ⟨fetch, jwk, current, provides⟩
  have served :
      ∃ past ∈ calls ++ [call],
        ServedTo decoding (newKeycloakConfig given) past fetch := by
    rcases current with ⟨member, _⟩ | ⟨_, servedNow⟩
    · rcases recorded.served fetch member with ⟨past, pastMember, servedPast⟩
      exact ⟨past, List.mem_append_left _ pastMember, servedPast⟩
    · exact ⟨call, by simp, servedNow⟩
  exact
    ⟨headerPart, payload, signature, bearerToken_of_split extracted threeParts,
      ⟨json, header, decoded, parsed, isRS256, named, fetch, jwk, key, current,
        served, provides, verified⟩,
      subjectOfClaims_ok subjectEq⟩

/-! ## A token issued half a second too late -/

/-- The bytes of a text of ASCII characters. -/
def textBytes (text : String) : List UInt8 :=
  text.toList.map (fun char => UInt8.ofNat char.toNat)

def sampleHeader : List UInt8 :=
  textBytes "eyJhbGciOiJSUzI1NiIsImtpZCI6ImsifQ"

def samplePayload : List UInt8 :=
  textBytes "eyJleHAiOjIwMDAsImlhdCI6MTA2MC41LCJpc3MiOiJodHRwczovL2lkcC9yZWFsbXMvciIsInN1YiI6InUiLCJvcmdfaWQiOiJ0In0"

/-- The claims of the sample payload: `exp` 2000 and `iat` 1060.5. -/
def sampleClaims : Claims
  | "exp" => some (.number 2000)
  | "iat" => some (.number ⟨2121, 2, by decide, by decide⟩)
  | "iss" => some (.string "https://idp/realms/r")
  | "sub" => some (.string "u")
  | "org_id" => some (.string "t")
  | _ => none

def sampleKey : JWK where
  kid := "k"
  kty := "RSA"
  use := "sig"
  n := textBytes "AQAB"
  e := textBytes "AQAB"

/-- The document with the sample key. -/
def sampleDocument : List UInt8 :=
  textBytes
    "\x7b\"keys\":[\x7b\"kid\":\"k\",\"kty\":\"RSA\",\"use\":\"sig\",\"n\":\"AQAB\",\"e\":\"AQAB\"\x7d]\x7d"

/-- The functions from outside, as they are on the sample. -/
def sampleDecoding : Decoding where
  base64URLDecode part :=
    if part = sampleHeader then
      .ok (textBytes "\x7b\"alg\":\"RS256\",\"kid\":\"k\"\x7d")
    else if part = samplePayload then
      .ok (textBytes "\x7b\"exp\":2000,\"iat\":1060.5,\"iss\":\"https://idp/realms/r\",\"sub\":\"u\",\"org_id\":\"t\"\x7d")
    else
      .ok [1, 0, 1]
  decodeHeader _ := .ok ⟨"k", "RS256"⟩
  decodeClaims _ := .ok sampleClaims
  decodeJWKS _ := .ok [sampleKey]
  verifyPKCS1v15 _ _ _ := none
  unrepresentable _ := Int64.minValue

def sampleConfig : KeycloakConfig where
  realmURL := "https://idp/realms/r/"

/-- A call with the sample token, at second 1000. -/
def sampleCall : AuthCall where
  authorization := bearerScheme ++ (sampleHeader ++ dot :: (samplePayload ++
    dot :: textBytes "AQAB"))
  firstCheck := 0
  secondCheck := 0
  answer := .ok ⟨200, .ok sampleDocument⟩
  fetchedAt := 0
  now := 1000

/-- Two calls with the sample token, evaluated for the results below. -/
theorem sample_calls :
    ∃ state next first second,
      authenticate sampleDecoding (newKeycloakConfig sampleConfig) {}
          sampleCall = (state, .ok first) ∧
        first.user = "u" ∧
        authenticate sampleDecoding (newKeycloakConfig sampleConfig) state
          sampleCall = (next, .ok second) ∧
        next.fetches = state.fetches :=
  ⟨_, _, _, _, rfl, rfl, rfl, rfl⟩

/-- The second call is answered with the key the first one fetched. -/
theorem sample_authentic :
    ∃ state next subject,
      run (authStep sampleDecoding (newKeycloakConfig sampleConfig)) {}
          [sampleCall] = some state ∧
        authenticate sampleDecoding (newKeycloakConfig sampleConfig) state
          sampleCall = (next, .ok subject) ∧
        next.fetches = state.fetches ∧
        Authentic sampleDecoding (newKeycloakConfig sampleConfig) [sampleCall]
          state next sampleCall subject := by
  rcases sample_calls with ⟨state, next, _, subject, fetched, _, returned, kept⟩
  have reached :
      run (authStep sampleDecoding (newKeycloakConfig sampleConfig)) {}
        [sampleCall] = some state := by
    rw [run_cons_eq_some_iff]
    exact ⟨state, by rw [authStep, fetched], rfl⟩
  exact ⟨state, next, subject, reached, returned, kept,
    authenticate_sound sampleDecoding sampleConfig [sampleCall] reached
      returned⟩

/-- A subject is returned although `iat` is later than the leeway allows. -/
theorem fractional_iat_accepted :
    ∃ next subject,
      authenticate sampleDecoding (newKeycloakConfig sampleConfig) {}
          sampleCall = (next, .ok subject) ∧
        subject.user = "u" ∧
        ∃ iat : Rat, sampleClaims "iat" = some (.number iat) ∧
          (sampleCall.now.toInt + 60 : Int) < iat := by
  rcases sample_calls with ⟨state, _, subject, _, returned, user, _, _⟩
  exact ⟨state, subject, returned, user, _, rfl, by decide⟩

end Infractl.Auth
