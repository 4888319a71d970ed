import Infractl.Auth.Keycloak
import Infractl.Lib.Linearize

/-!
# Signing keys under concurrent requests

Requests are authenticated concurrently.  `getSigningKey` looks into the cache
under a read lock; a call that misses takes the write lock, looks again, and
keeps the lock while it asks the realm for the document.

The machine below has any number of calls of `Authenticate` under way.  The
check under the read lock is one step, since nothing is written meanwhile.  What
a call does before its lookup and after it reads nothing that other calls
write: it is part of the step in which the call starts, and of the step that
ends the lookup, which carries the clock that the claims are checked against.

`authentications_linearizable` says that the calls answer as if they ran one
after the other.  `one_document_serves_all` says that the second look spares
requests to the realm.
-/

namespace Infractl.Auth

open Infractl.Lib
open Infractl.Lib.Run
open Infractl.Store (Time)

/-! ## The two ends of a call -/

/-- What `Authenticate` has of a token when it looks up the key. -/
structure ParsedToken where
  headerPart : List UInt8
  payload : List UInt8
  signature : List UInt8
  kid : String

/-- `Authenticate` up to the lookup of the key. -/
def parseToken (decoding : Decoding) (authorization : List UInt8) :
    Except AuthError ParsedToken :=
  match extractBearerToken authorization with
  | .error error => .error error
  | .ok token =>
      match token.splitOn dot with
      | [headerPart, payload, signature] =>
          match tokenHeader decoding headerPart with
          | .error error => .error error
          | .ok header => .ok ⟨headerPart, payload, signature, header.kid⟩
      | _ => .error .malformedToken

/-- `Authenticate` after the lookup of the key. -/
def concludeToken (decoding : Decoding) (config : KeycloakConfig)
    (parsed : ParsedToken) (now : Int64) (key : PublicKey) :
    Except AuthError Subject :=
  match verifyRS256 decoding (parsed.headerPart ++ dot :: parsed.payload)
      parsed.signature key with
  | .error error => .error error
  | .ok () => subjectOfClaims decoding config now parsed.payload

/-- A call is its two ends with a lookup between them. -/
theorem authenticate_eq (decoding : Decoding) (config : KeycloakConfig)
    (state : Authenticator) (call : AuthCall) :
    authenticate decoding config state call =
      match parseToken decoding call.authorization with
      | .error error => (state, .error error)
      | .ok parsed =>
          ((getSigningKey decoding config state call parsed.kid).1,
            (getSigningKey decoding config state call parsed.kid).2.bind
              (concludeToken decoding config parsed call.now)) := by
  unfold authenticate parseToken
  cases extractBearerToken call.authorization with
  | error error => rfl
  | ok token =>
      dsimp only
      rcases token.splitOn dot with
        _ | ⟨headerPart, _ | ⟨payload, _ | ⟨signature, _ | ⟨fourth, rest⟩⟩⟩⟩
      · rfl
      · rfl
      · rfl
      · dsimp only
        cases tokenHeader decoding headerPart with
        | error error => rfl
        | ok header =>
            dsimp only
            rcases getSigningKey decoding config state call header.kid with
              ⟨looked, error | key⟩
            · rfl
            · simp only [Except.bind, concludeToken]
              cases verifyRS256 decoding (headerPart ++ dot :: payload) signature
                key with
              | error error => rfl
              | ok _ => rfl
      · rfl

/-! ## The machine -/

/-- A token whose key is being looked up. -/
structure Pending (decoding : Decoding) where
  authorization : List UInt8
  parsed : ParsedToken
  parses : parseToken decoding authorization = .ok parsed

namespace KeyService

/-- Where a call is. -/
inductive Progress (decoding : Decoding) where
  | idle
  | looking (pending : Pending decoding)
  /-- The check under the read lock has missed. -/
  | missed (pending : Pending decoding)
  /-- The check under the write lock has missed as well. -/
  | fetching (pending : Pending decoding) (secondCheck : Time)

end KeyService

/-- An authenticator shared by concurrent calls. -/
structure KeyService (decoding : Decoding) (ι : Type) where
  authenticator : Authenticator
  /-- The call that holds the write lock across steps. -/
  writer : Option ι
  progress : ι → KeyService.Progress decoding
  /-- The calls that took effect, with their answers. -/
  log : List (AuthCall × Except AuthError Subject)

namespace KeyService

/-- What a call can do. -/
inductive Label (ι : Type) where
  | start (client : ι) (authorization : List UInt8)
  | check (client : ι) (firstCheck : Time) (now : Int64)
  | recheck (client : ι) (secondCheck : Time) (now : Int64)
  | answer (client : ι) (answer : Except String Answer) (fetchedAt : Time)
      (now : Int64)

variable {decoding : Decoding} {ι : Type} [DecidableEq ι]

def become (service : KeyService decoding ι) (client : ι)
    (progress : Progress decoding) : KeyService decoding ι :=
  { service with progress := Function.update service.progress client progress }

/-- The call takes effect. -/
def respond (service : KeyService decoding ι) (client : ι) (call : AuthCall)
    (result : Except AuthError Subject) : KeyService decoding ι :=
  { service.become client .idle with log := service.log ++ [(call, result)] }

/-- A call that reads one clock for the cache and does not ask the realm. -/
def cachedCall (authorization : List UInt8) (checked : Time) (now : Int64) :
    AuthCall where
  authorization := authorization
  firstCheck := checked
  secondCheck := checked
  answer := .error ""
  fetchedAt := checked
  now := now

/-- A call that reads one clock for the cache and asks the realm. -/
def fetchingCall (authorization : List UInt8) (checked : Time)
    (answer : Except String Answer) (fetchedAt : Time) (now : Int64) :
    AuthCall where
  authorization := authorization
  firstCheck := checked
  secondCheck := checked
  answer := answer
  fetchedAt := fetchedAt
  now := now

/-- The cache after a document has been fetched. -/
def refresh (decoding : Decoding) (state : Authenticator) (jwks : List JWK)
    (fetchedAt : Time) : Authenticator where
  jwks := some ⟨keyMap decoding jwks, fetchedAt⟩
  fetches := state.fetches ++ [⟨jwks, fetchedAt⟩]

/-- What `getSigningKey` returns from a fetched document. -/
def lookUp (keys : String → Option PublicKey) (kid : String) :
    Except AuthError PublicKey :=
  match keys kid with
  | none => .error (.keyNotFound kid)
  | some key => .ok key

variable (config : KeycloakConfig)

/-- One step of one call. -/
def step (service : KeyService decoding ι) :
    Label ι → Option (KeyService decoding ι)
  | .start client authorization =>
      match service.progress client with
      | .idle =>
          match parses : parseToken decoding authorization with
          | .error error =>
              some (service.respond client (cachedCall authorization 0 0)
                (.error error))
          | .ok parsed =>
              some (service.become client
                (.looking ⟨authorization, parsed, parses⟩))
      | _ => none
  | .check client firstCheck now =>
      match service.progress client, service.writer with
      | .looking pending, none =>
          match cachedKey config service.authenticator.jwks firstCheck
              pending.parsed.kid with
          | some key =>
              some (service.respond client
                (cachedCall pending.authorization firstCheck now)
                (concludeToken decoding config pending.parsed now key))
          | none => some (service.become client (.missed pending))
      | _, _ => none
  | .recheck client secondCheck now =>
      match service.progress client, service.writer with
      | .missed pending, none =>
          match cachedKey config service.authenticator.jwks secondCheck
              pending.parsed.kid with
          | some key =>
              some (service.respond client
                (cachedCall pending.authorization secondCheck now)
                (concludeToken decoding config pending.parsed now key))
          | none =>
              some { service.become client (.fetching pending secondCheck) with
                writer := some client }
      | _, _ => none
  | .answer client answer fetchedAt now =>
      match service.progress client with
      | .fetching pending secondCheck =>
          let call := fetchingCall pending.authorization secondCheck answer
            fetchedAt now
          match servedJWKS decoding config answer with
          | .error reason =>
              some { service.respond client call (.error (.keyLookup reason)) with
                writer := none }
          | .ok jwks =>
              some { service.respond client call
                  ((lookUp (keyMap decoding jwks) pending.parsed.kid).bind
                    (concludeToken decoding config pending.parsed now)) with
                authenticator :=
                  refresh decoding service.authenticator jwks fetchedAt
                writer := none }
      | _ => none

/-- What a step can do. -/
inductive Moves (service : KeyService decoding ι) :
    Label ι → KeyService decoding ι → Prop where
  | rejected {client : ι} {authorization : List UInt8} {error : AuthError}
      (malformed : parseToken decoding authorization = .error error) :
      Moves service (.start client authorization)
        (service.respond client (cachedCall authorization 0 0) (.error error))
  | started {client : ι} (pending : Pending decoding) :
      Moves service (.start client pending.authorization)
        (service.become client (.looking pending))
  | hit {client : ι} {checked : Time} {now : Int64} {label : Label ι}
      (pending : Pending decoding) {key : PublicKey}
      (found : cachedKey config service.authenticator.jwks checked
        pending.parsed.kid = some key) :
      Moves service label
        (service.respond client (cachedCall pending.authorization checked now)
          (concludeToken decoding config pending.parsed now key))
  | missed {client : ι} {checked : Time} {now : Int64}
      {pending : Pending decoding}
      (looking : service.progress client = .looking pending) :
      Moves service (.check client checked now)
        (service.become client (.missed pending))
  | locked {client : ι} {checked : Time} {now : Int64}
      {pending : Pending decoding}
      (waiting : service.progress client = .missed pending)
      (free : service.writer = none)
      (absent : cachedKey config service.authenticator.jwks checked
        pending.parsed.kid = none) :
      Moves service (.recheck client checked now)
        { service.become client (.fetching pending checked) with
          writer := some client }
  | failed {client : ι} {answer : Except String Answer} {fetchedAt : Time}
      {now : Int64} {pending : Pending decoding} {checked : Time}
      {reason : String}
      (fetching : service.progress client = .fetching pending checked)
      (unserved : servedJWKS decoding config answer = .error reason) :
      Moves service (.answer client answer fetchedAt now)
        { service.respond client
            (fetchingCall pending.authorization checked answer fetchedAt now)
            (.error (.keyLookup reason)) with
          writer := none }
  | fetched {client : ι} {answer : Except String Answer} {fetchedAt : Time}
      {now : Int64} {pending : Pending decoding} {checked : Time}
      {jwks : List JWK}
      (fetching : service.progress client = .fetching pending checked)
      (served : servedJWKS decoding config answer = .ok jwks) :
      Moves service (.answer client answer fetchedAt now)
        { service.respond client
            (fetchingCall pending.authorization checked answer fetchedAt now)
            ((lookUp (keyMap decoding jwks) pending.parsed.kid).bind
              (concludeToken decoding config pending.parsed now)) with
          authenticator := refresh decoding service.authenticator jwks fetchedAt
          writer := none }

variable {config}

theorem moves_of_step {service next : KeyService decoding ι} {label : Label ι}
    (stepped : service.step config label = some next) :
    Moves config service label next := by
  cases label with
  | start client authorization =>
      simp only [step] at stepped
      split at stepped
      · split at stepped
        · next malformed =>
            cases stepped
            exact .rejected malformed
        · next parsed parses =>
            cases stepped
            exact .started ⟨authorization, parsed, parses⟩
      · cases stepped
  | check client firstCheck now =>
      simp only [step] at stepped
      split at stepped
      · next pending looking _ =>
          split at stepped
          · next found =>
              cases stepped
              exact .hit pending found
          · cases stepped
            exact .missed looking
      · cases stepped
  | recheck client secondCheck now =>
      simp only [step] at stepped
      split at stepped
      · next pending waiting free =>
          split at stepped
          · next found =>
              cases stepped
              exact .hit pending found
          · next absent =>
              cases stepped
              exact .locked waiting free absent
      · cases stepped
  | answer client answer fetchedAt now =>
      simp only [step] at stepped
      split at stepped
      · next pending checked fetching =>
          split at stepped
          · next unserved =>
              cases stepped
              exact .failed fetching unserved
          · next served =>
              cases stepped
              exact .fetched fetching served
      · cases stepped

/-! ## The lock -/

/-- A call that asks the realm holds the lock, and the cache still misses. -/
def Guarded (config : KeycloakConfig) (service : KeyService decoding ι) : Prop :=
  ∀ client pending checked,
    service.progress client = .fetching pending checked →
    service.writer = some client ∧
      cachedKey config service.authenticator.jwks checked pending.parsed.kid = none

omit [DecidableEq ι] in
theorem guarded_of_idle {service : KeyService decoding ι}
    (idle : ∀ client, service.progress client = .idle) :
    Guarded config service := by
  intro client pending checked fetching
  cases (idle client).symm.trans fetching

/-- A call that starts, stops or waits without the lock disturbs no other. -/
theorem Guarded.become {service : KeyService decoding ι}
    (guarded : Guarded config service) (client : ι)
    {progress : Progress decoding}
    (unlocked : ∀ pending checked, progress ≠ .fetching pending checked) :
    Guarded config (service.become client progress) := by
  intro other pending checked fetching
  by_cases same : other = client
  · subst same
    simp only [KeyService.become, Function.update_self] at fetching
    exact absurd fetching (unlocked pending checked)
  · simp only [KeyService.become, Function.update_of_ne same] at fetching
    exact guarded other pending checked fetching

/-- Once the call with the lock is done, no call asks the realm. -/
theorem Guarded.unlock {service next : KeyService decoding ι}
    (guarded : Guarded config service) {client : ι} {pending : Pending decoding}
    {checked : Time}
    (fetching : service.progress client = .fetching pending checked)
    (done : next.progress = Function.update service.progress client .idle) :
    ∀ other waiting since, next.progress other ≠ .fetching waiting since := by
  intro other waiting since still
  rw [done] at still
  by_cases same : other = client
  · subst same
    rw [Function.update_self] at still
    cases still
  · rw [Function.update_of_ne same] at still
    have holder := (guarded client pending checked fetching).1
    have otherHolder := (guarded other waiting since still).1
    exact same (Option.some.inj (otherHolder.symm.trans holder))

omit [DecidableEq ι] in
theorem guarded_of_none_fetching {service : KeyService decoding ι}
    (none : ∀ client pending checked,
      service.progress client ≠ .fetching pending checked) :
    Guarded config service :=
  fun client pending checked fetching =>
    absurd fetching (none client pending checked)

theorem Moves.guarded {service next : KeyService decoding ι} {label : Label ι}
    (moves : Moves config service label next)
    (guarded : Guarded config service) :
    Guarded config next := by
  cases moves with
  | rejected => exact guarded.become _ (by simp)
  | started => exact guarded.become _ (by simp)
  | hit => exact guarded.become _ (by simp)
  | missed => exact guarded.become _ (by simp)
  | @locked client checked now pending waiting free absent =>
      intro other asking since fetching
      by_cases same : other = client
      · subst same
        simp only [KeyService.become, Function.update_self] at fetching
        cases fetching
        exact ⟨rfl, absent⟩
      · simp only [KeyService.become, Function.update_of_ne same] at fetching
        cases free.symm.trans (guarded other asking since fetching).1
  | failed fetching =>
      exact guarded_of_none_fetching (guarded.unlock fetching rfl)
  | fetched fetching =>
      exact guarded_of_none_fetching (guarded.unlock fetching rfl)

/-! ## The calls answer as if one ran after the other -/

/-- A call whose token parses is its lookup and what follows from the key. -/
theorem authenticate_of_lookup (pending : Pending decoding)
    {state next : Authenticator} {call : AuthCall} {key : Except AuthError PublicKey}
    (same : call.authorization = pending.authorization)
    (looked : getSigningKey decoding config state call pending.parsed.kid =
      (next, key)) :
    authenticate decoding config state call =
      (next, key.bind (concludeToken decoding config pending.parsed call.now)) := by
  have parses : parseToken decoding call.authorization = .ok pending.parsed :=
    same ▸ pending.parses
  simp only [authenticate_eq, parses, looked]

/-- A lookup in the cache. -/
theorem authenticate_cachedCall (pending : Pending decoding) {checked : Time}
    {state : Authenticator} {key : PublicKey} (now : Int64)
    (found : cachedKey config state.jwks checked pending.parsed.kid = some key) :
    authenticate decoding config state
        (cachedCall pending.authorization checked now) =
      (state, concludeToken decoding config pending.parsed now key) := by
  have looked : getSigningKey decoding config state
      (cachedCall pending.authorization checked now) pending.parsed.kid =
        (state, .ok key) := by
    simp only [getSigningKey, cachedCall, found]
  exact authenticate_of_lookup pending rfl looked

theorem authenticate_malformed {authorization : List UInt8} {error : AuthError}
    (malformed : parseToken decoding authorization = .error error)
    (state : Authenticator) (checked : Time) (now : Int64) :
    authenticate decoding config state (cachedCall authorization checked now) =
      (state, .error error) := by
  have parses : parseToken decoding
      (cachedCall authorization checked now).authorization = .error error :=
    malformed
  simp only [authenticate_eq, parses]

section Fetching

variable (pending : Pending decoding) {checked fetchedAt : Time}
variable {state : Authenticator} {answer : Except String Answer} (now : Int64)

/-- A lookup that misses and gets no document. -/
theorem authenticate_failed {reason : String}
    (absent : cachedKey config state.jwks checked pending.parsed.kid = none)
    (unserved : servedJWKS decoding config answer = .error reason) :
    authenticate decoding config state
        (fetchingCall pending.authorization checked answer fetchedAt now) =
      (state, .error (.keyLookup reason)) := by
  have looked : getSigningKey decoding config state
      (fetchingCall pending.authorization checked answer fetchedAt now)
        pending.parsed.kid = (state, .error (.keyLookup reason)) := by
    simp only [getSigningKey, fetchingCall, absent, unserved]
  exact authenticate_of_lookup pending rfl looked

/-- A lookup that misses and gets a document. -/
theorem authenticate_fetched {jwks : List JWK}
    (absent : cachedKey config state.jwks checked pending.parsed.kid = none)
    (served : servedJWKS decoding config answer = .ok jwks) :
    authenticate decoding config state
        (fetchingCall pending.authorization checked answer fetchedAt now) =
      (refresh decoding state jwks fetchedAt,
        (lookUp (keyMap decoding jwks) pending.parsed.kid).bind
          (concludeToken decoding config pending.parsed now)) := by
  have looked : getSigningKey decoding config state
      (fetchingCall pending.authorization checked answer fetchedAt now)
        pending.parsed.kid =
      (refresh decoding state jwks fetchedAt,
        lookUp (keyMap decoding jwks) pending.parsed.kid) := by
    simp only [getSigningKey, fetchingCall, absent, served, lookUp]
    cases keyMap decoding jwks pending.parsed.kid with
    | none => rfl
    | some key => rfl
  exact authenticate_of_lookup pending rfl looked

end Fetching

theorem Moves.commits {service next : KeyService decoding ι} {label : Label ι}
    (moves : Moves config service label next)
    (guarded : Guarded config service) :
    Linearize.Commits (authenticate decoding config) service.authenticator
      service.log next.authenticator next.log := by
  have takes (call : AuthCall) {state : Authenticator}
      {result : Except AuthError Subject}
      (alone : authenticate decoding config service.authenticator call =
        (state, result)) :
      Linearize.Commits (authenticate decoding config) service.authenticator
        service.log state (service.log ++ [(call, result)]) := by
    have commits : Linearize.Commits (authenticate decoding config)
        service.authenticator service.log _ _ := .takes call
    rw [alone] at commits
    exact commits
  cases moves with
  | rejected malformed => exact takes _ (authenticate_malformed malformed _ _ _)
  | started => exact .keeps
  | hit pending found => exact takes _ (authenticate_cachedCall pending _ found)
  | missed => exact .keeps
  | locked => exact .keeps
  | @failed client answer fetchedAt now pending checked reason fetching unserved =>
      have absent := (guarded client pending checked fetching).2
      exact takes _ (authenticate_failed pending now absent unserved)
  | @fetched client answer fetchedAt now pending checked jwks fetching served =>
      have absent := (guarded client pending checked fetching).2
      exact takes _ (authenticate_fetched pending now absent served)

/--
For every interleaving of calls of `Authenticate`, the calls that took effect,
in the order in which they did, get the answers that `authenticate` gives to
them one after the other, and leave the cache that it leaves.
-/
theorem authentications_linearizable
    (start finish : KeyService decoding ι) (labels : List (Label ι))
    (idle : ∀ client, start.progress client = .idle)
    (fresh : start.log = [])
    (reached : run (step config) start labels = some finish) :
    Linearize.Replays (authenticate decoding config) start.authenticator
      finish.log finish.authenticator :=
  Linearize.run_replays (authenticate decoding config)
    KeyService.authenticator KeyService.log (Guarded config)
    (fun _ _ _ guarded stepped => (moves_of_step stepped).guarded guarded)
    (fun _ _ _ guarded stepped => (moves_of_step stepped).commits guarded)
    (guarded_of_idle idle) fresh reached

/-- Functions from outside with one key, which accepts every signature. -/
def crowdDecoding : Decoding where
  base64URLDecode part := .ok part
  decodeHeader _ := .ok ⟨"k", "RS256"⟩
  decodeClaims _ := .ok (fun _ => none)
  decodeJWKS _ := .ok [⟨"k", "RSA", "", "sig", [3], [3]⟩]
  verifyPKCS1v15 _ _ _ := none
  unrepresentable _ := 0

def crowdConfig : KeycloakConfig where
  realmURL := "https://idp/realms/r"
  jwksCacheTTL := 100

def crowdToken : List UInt8 :=
  bearerScheme ++ [1, dot, 2, dot, 3]

/-- Two calls that both miss under the read lock. -/
def crowdLabels : List (Label Bool) :=
  [.start true crowdToken, .start false crowdToken, .check true 0 0,
    .check false 0 0, .recheck true 1 0,
    .answer true (.ok ⟨200, .ok []⟩) 2 0, .recheck false 3 0]

def crowdStart : KeyService crowdDecoding Bool :=
  ⟨{}, none, fun _ => .idle, []⟩

theorem crowd_run :
    ∃ finish, run (step crowdConfig) crowdStart crowdLabels = some finish ∧
      finish.log.length = 2 ∧ finish.authenticator.fetches.length = 1 :=
  ⟨_, rfl, rfl, rfl⟩

theorem crowd_linearizable :
    ∃ finish, run (step crowdConfig) crowdStart crowdLabels = some finish ∧
      finish.log.length = 2 ∧
      Linearize.Replays (authenticate crowdDecoding crowdConfig)
        crowdStart.authenticator finish.log finish.authenticator := by
  rcases crowd_run with ⟨finish, reached, both, _⟩
  exact ⟨finish, reached, both,
    authentications_linearizable crowdStart finish crowdLabels (fun _ => rfl) rfl
      reached⟩

/-! ## One document serves all calls -/

/--
The tokens ask for the keys `kids`, every document has all of them, and no clock
is read before `opened` or once a document of that time is too old.
-/
def Label.Within (decoding : Decoding) (config : KeycloakConfig)
    (kids : Set String) (opened : Time) : Label ι → Prop
  | .start _ authorization =>
      ∀ parsed, parseToken decoding authorization = .ok parsed → parsed.kid ∈ kids
  | .check _ _ _ => True
  | .recheck _ secondCheck _ =>
      opened ≤ secondCheck ∧ secondCheck < opened + config.jwksCacheTTL.toInt
  | .answer _ response fetchedAt _ =>
      opened ≤ fetchedAt ∧
        ∀ jwks, servedJWKS decoding config response = .ok jwks →
          ∀ kid ∈ kids, keyMap decoding jwks kid ≠ none

/-- The calls under way ask for the keys, and read their clocks in time. -/
def Progress.Within (config : KeycloakConfig) (kids : Set String)
    (opened : Time) : Progress decoding → Prop
  | .idle => True
  | .looking pending => pending.parsed.kid ∈ kids
  | .missed pending => pending.parsed.kid ∈ kids
  | .fetching pending checked =>
      pending.parsed.kid ∈ kids ∧ opened ≤ checked ∧
        checked < opened + config.jwksCacheTTL.toInt

/-- The cache has all keys, and is not too old yet. -/
def Stocked (decoding : Decoding) (kids : Set String) (opened : Time)
    (state : Authenticator) : Prop :=
  ∃ jwks fetchedAt, state.jwks = some ⟨keyMap decoding jwks, fetchedAt⟩ ∧
    opened ≤ fetchedAt ∧ ∀ kid ∈ kids, keyMap decoding jwks kid ≠ none

theorem since_lt_of_window {opened fetchedAt checked : Int} {ttl : Int64}
    (recent : opened ≤ fetchedAt) (after : opened ≤ checked)
    (before : checked < opened + ttl.toInt) :
    since checked fetchedAt < ttl.toInt := by
  have upper := ttl.toInt_lt
  unfold since
  omega

theorem Stocked.cachedKey_ne_none {kids : Set String} {opened checked : Time}
    {state : Authenticator} {kid : String}
    (stocked : Stocked decoding kids opened state)
    (member : kid ∈ kids)
    (after : opened ≤ checked)
    (before : checked < opened + config.jwksCacheTTL.toInt) :
    cachedKey config state.jwks checked kid ≠ none := by
  rcases stocked with ⟨jwks, fetchedAt, cached, recent, provides⟩
  have young := since_lt_of_window recent after before
  rw [cached]
  simp only [cachedKey, if_pos young]
  exact provides kid member

/-- At most one document more than at the start, and then the cache has it. -/
structure Spared (config : KeycloakConfig) (kids : Set String) (opened : Time)
    (before : Nat) (service : KeyService decoding ι) : Prop where
  guarded : Guarded config service
  within : ∀ client, (service.progress client).Within config kids opened
  fetched : service.authenticator.fetches.length = before ∨
    (service.authenticator.fetches.length = before + 1 ∧
      Stocked decoding kids opened service.authenticator)

theorem within_become {service : KeyService decoding ι} {kids : Set String}
    {opened : Time}
    (within : ∀ client, (service.progress client).Within config kids opened)
    (client : ι) {progress : Progress decoding}
    (next : progress.Within config kids opened) :
    ∀ other, ((service.become client progress).progress other).Within config kids
      opened := by
  intro other
  by_cases same : other = client
  · subst same
    simp only [become, Function.update_self]
    exact next
  · simp only [become, Function.update_of_ne same]
    exact within other

theorem Moves.spared {service next : KeyService decoding ι} {label : Label ι}
    {kids : Set String} {opened : Time} {before : Nat}
    (moves : Moves config service label next)
    (allowed : label.Within decoding config kids opened)
    (spared : Spared config kids opened before service) :
    Spared config kids opened before next := by
  have guardedNext := moves.guarded spared.guarded
  cases moves with
  | rejected =>
      exact ⟨guardedNext, within_become spared.within _ trivial, spared.fetched⟩
  | started pending =>
      exact ⟨guardedNext,
        within_become spared.within _ (allowed pending.parsed pending.parses),
        spared.fetched⟩
  | hit =>
      exact ⟨guardedNext, within_become spared.within _ trivial, spared.fetched⟩
  | @missed client _ _ pending looking =>
      have asked := spared.within client
      rw [looking] at asked
      exact ⟨guardedNext, within_become spared.within client asked,
        spared.fetched⟩
  | @locked client checked _ pending waiting free absent =>
      have asked := spared.within client
      rw [waiting] at asked
      exact ⟨guardedNext,
        within_become spared.within client ⟨asked, allowed.1, allowed.2⟩,
        spared.fetched⟩
  | failed =>
      exact ⟨guardedNext, within_become spared.within _ trivial, spared.fetched⟩
  | @fetched client answer fetchedAt now pending checked jwks fetching served =>
      have asked := spared.within client
      rw [fetching] at asked
      rcases asked with ⟨member, after, inTime⟩
      have absent := (spared.guarded client pending checked fetching).2
      -- A cache that had the keys would not have missed under the lock.
      have first : service.authenticator.fetches.length = before := by
        rcases spared.fetched with same | ⟨_, stocked⟩
        · exact same
        · exact absurd absent
            (stocked.cachedKey_ne_none member after inTime)
      refine ⟨guardedNext, within_become spared.within client trivial,
        Or.inr ⟨?_, jwks, fetchedAt, rfl, allowed.1, allowed.2 jwks served⟩⟩
      simp only [refresh, List.length_append, List.length_singleton, first]

/--
However many calls ask for keys at once, and however their checks interleave:
as long as every document has the keys and none is too old, the realm serves
one document at most.
-/
theorem one_document_serves_all
    (kids : Set String) (opened : Time)
    (start finish : KeyService decoding ι) (labels : List (Label ι))
    (idle : ∀ client, start.progress client = .idle)
    (within : ∀ label ∈ labels, label.Within decoding config kids opened)
    (reached : run (step config) start labels = some finish) :
    finish.authenticator.fetches.length ≤
      start.authenticator.fetches.length + 1 := by
  have initial : Spared config kids opened start.authenticator.fetches.length
      start := by
    refine ⟨guarded_of_idle idle, ?_, Or.inl rfl⟩
    intro client
    rw [idle client]
    trivial
  have spared := AllSteps.run_invariant
    (Spared config kids opened start.authenticator.fetches.length)
    (fun _ _ _ spared stepped allowed =>
      (moves_of_step stepped).spared allowed spared)
    initial (allSteps_of_forall_mem within start) reached
  rcases spared.fetched with same | ⟨more, _⟩
  · omega
  · omega

theorem crowdLabels_within :
    ∀ label ∈ crowdLabels,
      label.Within crowdDecoding crowdConfig {"k"} 0 := by
  have asks : ∀ parsed, parseToken crowdDecoding crowdToken = .ok parsed →
      parsed.kid ∈ ({"k"} : Set String) := by
    rintro parsed ⟨⟩
    rfl
  have serves : ∀ jwks, servedJWKS crowdDecoding crowdConfig
      (.ok ⟨200, .ok []⟩) = .ok jwks →
      ∀ kid ∈ ({"k"} : Set String), keyMap crowdDecoding jwks kid ≠ none := by
    rintro jwks ⟨⟩ kid ⟨⟩ missing
    cases missing
  simp only [crowdLabels, List.forall_mem_cons]
  exact ⟨asks, asks, trivial, trivial, ⟨by decide, by decide⟩,
    ⟨by decide, serves⟩, ⟨by decide, by decide⟩,
    fun _ member => by cases member⟩

theorem crowd_spared :
    ∃ finish, run (step crowdConfig) crowdStart crowdLabels = some finish ∧
      finish.authenticator.fetches.length ≤
        crowdStart.authenticator.fetches.length + 1 := by
  rcases crowd_run with ⟨finish, reached, _, _⟩
  exact ⟨finish, reached,
    one_document_serves_all {"k"} 0 crowdStart finish crowdLabels
      (fun _ => rfl) crowdLabels_within reached⟩

end KeyService

end Infractl.Auth
