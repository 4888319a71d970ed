import Infractl.Api.ListHandler
import Infractl.Api.SecretRoundTrip
import Infractl.Platform.SecretBytes
import Infractl.Store.SpecBlind

/-!
# The secrets API

Every route of the secrets provider but `reveal` answers with the keys of a
secret and hides its values.  What a client sees through these routes depends
on the values in one more way: the generation in a reply moves when an update
changes the spec.

A client whose updates leave the spec alone and write to the row they read
learns nothing about the values, whatever else it asks for and in whatever
order.  A client that writes a value is told by the generation whether it was
the one stored.
-/

namespace Infractl.Api.Platform

open Infractl.Lib
open Infractl.Store

/-! ## The handlers -/

/-- The kind of a secret, with its `SpecBytes`. -/
def secretKind : Kind SecretSpec SecretStatus :=
  ⟨some (fun secret => some (marshalSpec secret.spec))⟩

/-- The parameters of a list request, each empty when it is absent. -/
structure SecretQuery where
  limit : String := ""
  continueToken : String := ""
  filter : String := ""

/-- The options of a request. -/
def SecretQuery.options (query : SecretQuery) : ListOptions :=
  let limit := atoiValue query.limit
  { limit := if limit ≤ 0 then 100 else limit
    continueToken := query.continueToken
    filter := query.filter }

/-- `listSecrets`. -/
def listSecrets (quote : List Char → String)
    (database : Database SecretSpec SecretStatus)
    (table : Table SecretSpec SecretStatus) (org : Option UUID)
    (query : SecretQuery) : ListReply SecretSpec SecretStatus :=
  match orgIDFromContext org with
  | .error reason => .error 500 reason
  | .ok orgID =>
      match Store.list database table orgID query.options with
      | .error error => .error 500 (error.message quote)
      | .ok listed => .json 200 { listed with items := listed.items.map redacted }

/-- `revealSecret`. -/
def revealSecret (table : Table SecretSpec SecretStatus) (org : Option UUID)
    (name : String) : Reply SecretSpec SecretStatus :=
  match orgIDFromContext org with
  | .error reason => .error 500 reason
  | .ok orgID =>
      match GenericStore.get table orgID name with
      | .error .notFound => .error 404 "secret not found"
      | .error error => .error 500 error.message
      | .ok secret => .json 200 secret

/-- A decoded secret as it is handed to the store. -/
def newSecret (orgID : UUID) (decoded : Object SecretSpec SecretStatus) :
    Object SecretSpec SecretStatus where
  resource := { decoded.resource with orgID := orgID }
  spec :=
    if decoded.spec.type = "" then { decoded.spec with type := "opaque" }
    else decoded.spec
  status := ⟨"Active"⟩

/-- `createSecret`. -/
def createSecret (now : Time) (table : Table SecretSpec SecretStatus)
    (org : Option UUID) (body : Body SecretSpec SecretStatus) :
    Table SecretSpec SecretStatus × Reply SecretSpec SecretStatus :=
  match body.decode ⟨{}, ⟨"", none⟩, ⟨""⟩⟩ with
  | .error reason => (table, .error 400 reason)
  | .ok decoded =>
      match orgIDFromContext org with
      | .error reason => (table, .error 500 reason)
      | .ok orgID =>
          let outcome := GenericStore.create now table (newSecret orgID decoded)
          match outcome.error with
          | some .alreadyExists =>
              (outcome.table, .error 409 "secret already exists")
          | some error => (outcome.table, .error 500 error.message)
          | none => (outcome.table, .json 201 (redacted outcome.object))

/-- A reply of the provider: one secret, a page of them, or no content. -/
inductive SecretReply where
  | secret (reply : Reply SecretSpec SecretStatus)
  | page (reply : ListReply SecretSpec SecretStatus)
  | noContent

/-- `deleteSecret`. -/
def deleteSecret (now : Time) (table : Table SecretSpec SecretStatus)
    (org : Option UUID) (name : String) :
    Table SecretSpec SecretStatus × SecretReply :=
  match orgIDFromContext org with
  | .error reason => (table, .secret (.error 500 reason))
  | .ok orgID =>
      let outcome := GenericStore.delete now table ⟨orgID, name⟩
      match outcome.2 with
      | some .notFound => (outcome.1, .secret (.error 404 "secret not found"))
      | some error => (outcome.1, .secret (.error 500 error.message))
      | none => (outcome.1, .noContent)

/-! ## The routes -/

/-- The routes of `RegisterRoutes`. -/
inductive SecretRoute where
  | list (query : SecretQuery)
  | create (body : Body SecretSpec SecretStatus)
  | get (name : String)
  | update (name : String) (body : Body SecretSpec SecretStatus)
  | delete (name : String)
  | reveal (name : String)

/-- A request, when it is served and the tenant that its context holds. -/
structure SecretRequest where
  now : Time
  org : Option UUID
  route : SecretRoute

section Serving

variable (quote : List Char → String)
  (database : Database SecretSpec SecretStatus)

/-- Serve one request. -/
def serveSecret (table : Table SecretSpec SecretStatus) (request : SecretRequest) :
    Table SecretSpec SecretStatus × SecretReply :=
  match request.route with
  | .list query =>
      (table, .page (listSecrets quote database table request.org query))
  | .create body =>
      (createSecret request.now table request.org body).map id .secret
  | .get name => (table, .secret (getSecret table request.org name))
  | .update name body =>
      (updateSecret secretKind request.now table
        ⟨request.org, name, body⟩).map id .secret
  | .delete name => deleteSecret request.now table request.org name
  | .reveal name => (table, .secret (revealSecret table request.org name))

/-- The table and the replies after a sequence of requests. -/
def serveSecrets (table : Table SecretSpec SecretStatus) :
    List SecretRequest → Table SecretSpec SecretStatus × List SecretReply
  | [] => (table, [])
  | request :: rest =>
      let served := serveSecret quote database table request
      let following := serveSecrets served.1 rest
      (following.1, served.2 :: following.2)

end Serving

/-! ## What a client may see -/

/-- A spec with its values hidden. -/
def redactSpec (spec : SecretSpec) : SecretSpec :=
  { spec with data := spec.data.map hideValues }

/-- Two tables that differ in the values of secrets and in nothing else. -/
def Alike (left right : Table SecretSpec SecretStatus) : Prop :=
  mapSpecs redactSpec left = mapSpecs redactSpec right

/-- A member that leaves the spec alone, and names no key but the given one. -/
def SparesSpec (key : Key) : Member SecretSpec SecretStatus → Prop
  | .orgID value => value = key.org
  | .name value => value = key.name
  | .spec _ => False
  | _ => True

/--
A request that does not look at values: it does not reveal, its filter does
not tell them apart, and its update neither writes them nor moves what it has
read to another row.
-/
def Discreet (database : Database SecretSpec SecretStatus)
    (request : SecretRequest) : Prop :=
  match request.route with
  | .list query => BlindTo redactSpec database query.filter
  | .update name (.members members) =>
      ∀ org, request.org = some org →
        ∀ member ∈ members, SparesSpec ⟨org, name⟩ member
  | .reveal _ => False
  | _ => True

/-! ## Two runs over alike tables -/

section TwoRuns

variable {left right : Table SecretSpec SecretStatus} (alike : Alike left right)

include alike

/-- Both tables hold a live secret under a key or neither does. -/
theorem Alike.selectLive (key : Key) :
    (Store.selectLive left key = none ∧ Store.selectLive right key = none) ∨
      ∃ stored other, Store.selectLive left key = some stored ∧
        Store.selectLive right key = some other ∧
        redacted stored = redacted other := by
  have seen := selectLive_mapSpecs redactSpec left key
  rw [alike, selectLive_mapSpecs] at seen
  cases found : Store.selectLive left key with
  | none =>
      rw [found, Option.map_none, Option.map_eq_none_iff] at seen
      exact Or.inl ⟨rfl, seen⟩
  | some stored =>
      rw [found, Option.map_some, Option.map_eq_some_iff] at seen
      rcases seen with ⟨other, foundOther, same⟩
      exact Or.inr ⟨stored, other, rfl, foundOther, same.symm⟩

theorem Alike.create (now : Time) (secret : Object SecretSpec SecretStatus) :
    (GenericStore.create now left secret).mapSpec redactSpec =
      (GenericStore.create now right secret).mapSpec redactSpec := by
  rw [← GenericStore.create_mapSpecs, ← GenericStore.create_mapSpecs, alike]

theorem Alike.list {database : Database SecretSpec SecretStatus}
    {query : SecretQuery} (blind : BlindTo redactSpec database query.filter)
    (org : UUID) :
    (Store.list database left org query.options).map (Listed.mapSpec redactSpec) =
      (Store.list database right org query.options).map
        (Listed.mapSpec redactSpec) := by
  rw [← list_mapSpecs redactSpec rfl blind, ← list_mapSpecs redactSpec rfl blind,
    alike]

theorem Alike.delete (now : Time) (key : Key) :
    Alike (GenericStore.delete now left key).1 (GenericStore.delete now right key).1 ∧
      (GenericStore.delete now left key).2 = (GenericStore.delete now right key).2 := by
  have seen := GenericStore.delete_mapSpecs redactSpec left now key
  rw [alike, GenericStore.delete_mapSpecs] at seen
  exact ⟨(congrArg Prod.fst seen).symm, (congrArg Prod.snd seen).symm⟩

end TwoRuns

/-- What a store call leaves behind, seen by a client. -/
theorem outcome_alike {left right : Outcome SecretSpec SecretStatus}
    (seen : left.mapSpec redactSpec = right.mapSpec redactSpec) :
    Alike left.table right.table ∧ left.error = right.error ∧
      redacted left.object = redacted right.object := by
  simp only [Outcome.mapSpec, Outcome.mk.injEq] at seen
  exact ⟨seen.1, seen.2.2, seen.2.1⟩

theorem SparesSpec.decode {member : Member SecretSpec SecretStatus}
    {secret : Object SecretSpec SecretStatus}
    (spares : SparesSpec secret.key member) :
    (member.decode secret).spec = secret.spec ∧
      (member.decode secret).key = secret.key ∧
      redacted (member.decode secret) = member.decode (redacted secret) := by
  cases member with
  | orgID value =>
      cases spares
      exact ⟨rfl, rfl, rfl⟩
  | name value =>
      cases spares
      exact ⟨rfl, rfl, rfl⟩
  | spec decode => cases spares
  | _ => exact ⟨rfl, rfl, rfl⟩

theorem foldl_spares {members : List (Member SecretSpec SecretStatus)}
    {secret : Object SecretSpec SecretStatus}
    (spare : ∀ member ∈ members, SparesSpec secret.key member) :
    let decode := members.foldl (fun decoded member => member.decode decoded)
    (decode secret).spec = secret.spec ∧ (decode secret).key = secret.key ∧
      redacted (decode secret) = decode (redacted secret) := by
  induction members generalizing secret with
  | nil => exact ⟨rfl, rfl, rfl⟩
  | cons member rest ih =>
      rw [List.forall_mem_cons] at spare
      rcases spare.1.decode with ⟨specFirst, keyFirst, seenFirst⟩
      rw [← keyFirst] at spare
      rcases ih spare.2 with ⟨specRest, keyRest, seenRest⟩
      rw [seenFirst] at seenRest
      exact ⟨specRest.trans specFirst, keyRest.trans keyFirst, seenRest⟩

theorem key_of_selectLive {table : Table SecretSpec SecretStatus} {key : Key}
    {row : Object SecretSpec SecretStatus}
    (selected : selectLive table key = some row) : row.key = key :=
  KeyedTable.key_of_find ((selectLive_eq_some_iff table key row).mp selected).1

/-- A tracked kind whose specs marshal to nothing, so that no generation moves. -/
def unmarshalled : Kind SecretSpec SecretStatus :=
  ⟨some (fun _ => none)⟩

/-- An update that writes the spec it has read does not show it. -/
theorem update_seen {table : Table SecretSpec SecretStatus}
    {stored secret : Object SecretSpec SecretStatus}
    (selected : selectLive table secret.key = some stored) (sameSpec : secret.spec = stored.spec)
    (now : Time) :
    (GenericStore.update secretKind now table secret).mapSpec redactSpec =
      GenericStore.update unmarshalled now (mapSpecs redactSpec table)
        (redacted secret) := by
  have keeps : GenericStore.KeepsSpec table secretKind secret := by
    rintro specBytes ⟨⟩ existing found
    cases selected.symm.trans found
    exact congrArg (some ∘ marshalSpec) sameSpec.symm
  have imageKeeps : GenericStore.KeepsSpec (mapSpecs redactSpec table)
      unmarshalled (secret.mapSpec redactSpec) := by
    rintro specBytes ⟨⟩ existing found
    rfl
  have tracked : unmarshalled.specBytes.isSome = secretKind.specBytes.isSome := rfl
  exact (GenericStore.update_mapSpecs redactSpec now tracked keeps imageKeeps).symm

theorem Alike.updateSecret {left right : Table SecretSpec SecretStatus}
    (alike : Alike left right) (now : Time) (org : Option UUID) (name : String)
    {body : Body SecretSpec SecretStatus}
    (discreet : ∀ members orgID, body = .members members → org = some orgID →
      ∀ member ∈ members, SparesSpec ⟨orgID, name⟩ member) :
    let request : Request SecretSpec SecretStatus := ⟨org, name, body⟩
    Alike (Platform.updateSecret secretKind now left request).1
        (Platform.updateSecret secretKind now right request).1 ∧
      (Platform.updateSecret secretKind now left request).2 =
        (Platform.updateSecret secretKind now right request).2 := by
  intro request
  simp only [Platform.updateSecret, getDecodeUpdate]
  cases org with
  | none => exact ⟨alike, rfl⟩
  | some orgID =>
      rcases alike.selectLive ⟨orgID, name⟩ with ⟨missing, gone⟩ |
        ⟨stored, other, found, foundOther, same⟩
      · simp only [orgIDFromContext, GenericStore.get, request, missing, gone,
          and_true]
        exact alike
      · simp only [orgIDFromContext, GenericStore.get, request, found, foundOther]
        cases body with
        | malformed reason => exact ⟨alike, rfl⟩
        | members members =>
            have spare := discreet members orgID rfl rfl
            have spareOther := spare
            rw [← key_of_selectLive found] at spare
            rw [← key_of_selectLive foundOther] at spareOther
            rcases foldl_spares spare with ⟨spec, key, seen⟩
            rcases foldl_spares spareOther with ⟨otherSpec, otherKey, otherSeen⟩
            rw [← key.trans (key_of_selectLive found)] at found
            rw [← otherKey.trans (key_of_selectLive foundOther)] at foundOther
            have outcome := update_seen found spec now
            have otherOutcome := update_seen foundOther otherSpec now
            rw [seen, same, alike, ← otherSeen, ← otherOutcome] at outcome
            rcases outcome_alike outcome with ⟨tables, errors, objects⟩
            simp only [Body.decode, errors, objects]
            split
            · exact ⟨tables, rfl⟩
            · exact ⟨tables, rfl⟩
            · exact ⟨tables, rfl⟩

section Serving

variable (quote : List Char → String)
  {database : Database SecretSpec SecretStatus}
  {left right : Table SecretSpec SecretStatus}

theorem Alike.getSecret (alike : Alike left right) (org : Option UUID)
    (name : String) :
    Platform.getSecret left org name = Platform.getSecret right org name := by
  simp only [Platform.getSecret]
  cases orgIDFromContext org with
  | error reason => rfl
  | ok orgID =>
      rcases alike.selectLive ⟨orgID, name⟩ with ⟨missing, gone⟩ |
        ⟨stored, other, found, foundOther, same⟩
      · simp only [GenericStore.get, missing, gone]
      · simp only [GenericStore.get, found, foundOther, same]

/-- The reply is made of the page as a client may see it. -/
theorem listSecrets_seen (table : Table SecretSpec SecretStatus) (orgID : UUID)
    (query : SecretQuery) :
    Platform.listSecrets quote database table (some orgID) query =
      match (Store.list database table orgID query.options).map
          (Listed.mapSpec redactSpec) with
      | .error error => .error 500 (error.message quote)
      | .ok listed => .json 200 listed := by
  simp only [Platform.listSecrets, orgIDFromContext]
  cases Store.list database table orgID query.options with
  | error error => rfl
  | ok listed => rfl

theorem Alike.listSecrets (alike : Alike left right) (org : Option UUID)
    {query : SecretQuery} (blind : BlindTo redactSpec database query.filter) :
    Platform.listSecrets quote database left org query =
      Platform.listSecrets quote database right org query := by
  cases org with
  | none => rfl
  | some orgID => rw [listSecrets_seen, listSecrets_seen, alike.list blind]

theorem Alike.createSecret (alike : Alike left right) (now : Time)
    (org : Option UUID) (body : Body SecretSpec SecretStatus) :
    Alike (Platform.createSecret now left org body).1
        (Platform.createSecret now right org body).1 ∧
      (Platform.createSecret now left org body).2 =
        (Platform.createSecret now right org body).2 := by
  simp only [Platform.createSecret]
  cases body.decode ⟨{}, ⟨"", none⟩, ⟨""⟩⟩ with
  | error reason => exact ⟨alike, rfl⟩
  | ok decoded =>
      cases orgIDFromContext org with
      | error reason => exact ⟨alike, rfl⟩
      | ok orgID =>
          rcases outcome_alike (alike.create now (newSecret orgID decoded)) with
            ⟨tables, errors, objects⟩
          simp only [errors, objects]
          split
          · exact ⟨tables, rfl⟩
          · exact ⟨tables, rfl⟩
          · exact ⟨tables, rfl⟩

theorem Alike.deleteSecret (alike : Alike left right) (now : Time)
    (org : Option UUID) (name : String) :
    Alike (Platform.deleteSecret now left org name).1
        (Platform.deleteSecret now right org name).1 ∧
      (Platform.deleteSecret now left org name).2 =
        (Platform.deleteSecret now right org name).2 := by
  simp only [Platform.deleteSecret]
  cases orgIDFromContext org with
  | error reason => exact ⟨alike, rfl⟩
  | ok orgID =>
      rcases alike.delete now ⟨orgID, name⟩ with ⟨tables, errors⟩
      simp only [errors]
      split
      · exact ⟨tables, rfl⟩
      · exact ⟨tables, rfl⟩
      · exact ⟨tables, rfl⟩

/-- One discreet request is answered alike and leaves alike tables. -/
theorem serveSecret_alike (alike : Alike left right) {request : SecretRequest}
    (discreet : Discreet database request) :
    Alike (serveSecret quote database left request).1
        (serveSecret quote database right request).1 ∧
      (serveSecret quote database left request).2 =
        (serveSecret quote database right request).2 := by
  rcases request with ⟨now, org, route⟩
  cases route with
  | list query =>
      exact ⟨alike, congrArg SecretReply.page (alike.listSecrets quote org discreet)⟩
  | create body =>
      rcases alike.createSecret now org body with ⟨tables, replies⟩
      exact ⟨tables, congrArg SecretReply.secret replies⟩
  | get name => exact ⟨alike, congrArg SecretReply.secret (alike.getSecret org name)⟩
  | update name body =>
      have spare : ∀ members orgID, body = .members members → org = some orgID →
          ∀ member ∈ members, SparesSpec ⟨orgID, name⟩ member := by
        rintro members orgID rfl sameOrg
        exact discreet orgID sameOrg
      rcases alike.updateSecret now org name spare with ⟨tables, replies⟩
      exact ⟨tables, congrArg SecretReply.secret replies⟩
  | delete name => exact alike.deleteSecret now org name
  | reveal name => cases discreet

/--
Clients that neither reveal secrets nor write specs, neither of the row an
update reads nor of another one, cannot tell two tables apart that differ in the
values of secrets, however many requests they send, and the tables stay that way.
-/
theorem secret_values_not_observable (alike : Alike left right)
    {requests : List SecretRequest}
    (discreet : ∀ request ∈ requests, Discreet database request) :
    (serveSecrets quote database left requests).2 =
        (serveSecrets quote database right requests).2 ∧
      Alike (serveSecrets quote database left requests).1
        (serveSecrets quote database right requests).1 := by
  induction requests generalizing left right with
  | nil => exact ⟨rfl, alike⟩
  | cons request rest ih =>
      rw [List.forall_mem_cons] at discreet
      rcases serveSecret_alike quote alike discreet.1 with ⟨tables, reply⟩
      rcases ih tables discreet.2 with ⟨replies, last⟩
      exact ⟨congrArg₂ List.cons reply replies, last⟩

end Serving

/-! ## Two values of one token -/

/-- A database that orders by code points and takes no filter. -/
def secretDatabase : Database SecretSpec SecretStatus where
  rejects condition := if condition = [] then none else some "column does not exist"
  holds _ _ := false
  answer _ limit offset _ rows :=
    .ok (((codePointOrder.sort rows).drop offset).take limit)
  collation := codePointOrder
  answer_defaultOrder _ _ _ _ _ := rfl

def tokenRequests : List SecretRequest :=
  [⟨5, some 1, .list {}⟩, ⟨6, some 1, .get "token"⟩,
    ⟨7, some 1, .update "token"
      (.members [.name "token", .labels (some ∅), .finalizers none])⟩,
    ⟨8, some 1, .create (.members [.name "token"])⟩, ⟨9, some 1, .delete "token"⟩]

theorem tokenTable_alike (value other : String) :
    Alike (tokenTable value) (tokenTable other) :=
  KeyedTable.eq_of_rows_eq rfl

theorem blindTo_empty : BlindTo redactSpec secretDatabase "" := by
  rintro condition ⟨⟩ row
  rfl

theorem tokenRequests_discreet :
    ∀ request ∈ tokenRequests, Discreet secretDatabase request := by
  simp [tokenRequests, Discreet, SparesSpec, blindTo_empty]

theorem token_value_not_observable :
    (serveSecrets String.ofList secretDatabase (tokenTable "a")
        tokenRequests).2 =
      (serveSecrets String.ofList secretDatabase (tokenTable "b")
        tokenRequests).2 :=
  (secret_values_not_observable String.ofList
    (tokenTable_alike "a" "b") tokenRequests_discreet).1

/-! ## Guessing a value -/

/-- An update that writes one value. -/
def guessBody (key guess : String) : Body SecretSpec SecretStatus :=
  .members [.spec (fun stored =>
    { stored with data := decodeMap (some (Finmap.singleton key guess)) stored.data })]

/-- The secret that is written when a value is guessed. -/
def guessed (key guess : String) (secret : Object SecretSpec SecretStatus) :
    Object SecretSpec SecretStatus :=
  { secret with
    spec := { secret.spec with
      data := decodeMap (some (Finmap.singleton key guess)) secret.spec.data } }

theorem lookup_singleton_union (data : Finmap (fun _ : String => String))
    (key guess : String) :
    (Finmap.singleton key guess ∪ data).lookup key = some guess := by
  have mem : key ∈ (Finmap.singleton key guess : Finmap (fun _ : String => String)) :=
    (Finmap.mem_singleton key key guess).mpr rfl
  rw [Finmap.lookup_union_left mem, Finmap.lookup_singleton_eq]

/-- Writing an entry changes the map unless it has that entry. -/
theorem singleton_union_eq_iff (data : Finmap (fun _ : String => String))
    (key guess : String) :
    Finmap.singleton key guess ∪ data = data ↔ data.lookup key = some guess := by
  have written := lookup_singleton_union data key guess
  constructor
  · intro same
    rwa [same] at written
  · intro held
    apply Finmap.ext_lookup
    intro wanted
    by_cases here : wanted = key
    · rw [here, written, held]
    · have absent : wanted ∉
          (Finmap.singleton key guess : Finmap (fun _ : String => String)) :=
        mt (Finmap.mem_singleton wanted key guess).mp here
      rw [Finmap.lookup_union_right absent]

theorem lookup_guessed (key guess : String) (secret : Object SecretSpec SecretStatus) :
    (guessed key guess secret).spec.data.bind (Finmap.lookup key) = some guess :=
  lookup_singleton_union (secret.spec.data.getD ∅) key guess

theorem marshalSpec_guessed_iff (key guess : String)
    (secret : Object SecretSpec SecretStatus) :
    marshalSpec secret.spec = marshalSpec (guessed key guess secret).spec ↔
      secret.spec.data.bind (Finmap.lookup key) = some guess := by
  rw [marshalSpec_eq_iff]
  simp only [guessed, decodeMap, Option.map_some, Option.getD_some, true_and]
  rw [eq_comm, singleton_union_eq_iff]
  cases secret.spec.data with
  | none => simp
  | some data => rfl

section Guess

variable {table : Table SecretSpec SecretStatus} {org : UUID} {name : String}
  {secret : Object SecretSpec SecretStatus} (key guess : String)

theorem key_guessed (stored : selectLive table ⟨org, name⟩ = some secret) :
    (guessed key guess secret).key = ⟨org, name⟩ := by
  have storedKey := key_of_selectLive stored
  exact storedKey

theorem acceptsUpdate_guessed (stored : selectLive table ⟨org, name⟩ = some secret)
    (parent : GenericStore.validateParent table secret = none) :
    GenericStore.acceptsUpdate table (guessed key guess secret) = true := by
  have sameParent : GenericStore.validateParent table (guessed key guess secret) =
      none := parent
  rw [GenericStore.acceptsUpdate, sameParent, key_guessed key guess stored, stored]
  simp [guessed]

/-- The generation moves when the guess is wrong. -/
theorem tracked_guessed_iff (stored : selectLive table ⟨org, name⟩ = some secret)
    {generation : Int64}
    (tracked : GenericStore.trackGeneration secretKind table (guessed key guess secret) =
      .ok ((guessed key guess secret).setGeneration generation)) :
    generation = secret.resource.generation ↔
      secret.spec.data.bind (Finmap.lookup key) = some guess := by
  rw [← marshalSpec_guessed_iff]
  simp only [GenericStore.trackGeneration, secretKind, key_guessed key guess stored, stored,
    GenericStore.bumpGeneration, Except.ok.injEq] at tracked
  have generations := congrArg (fun object => object.resource.generation) tracked
  by_cases same : marshalSpec secret.spec = marshalSpec (guessed key guess secret).spec
  · rw [if_pos same] at generations
    exact iff_of_true generations.symm same
  · rw [if_neg same] at generations
    refine iff_of_false ?_ same
    intro unmoved
    exact version_ne_succ _ (unmoved.symm.trans generations.symm)

theorem update_guessed (stored : selectLive table ⟨org, name⟩ = some secret)
    (parent : GenericStore.validateParent table secret = none) (now : Time) :
    ∃ after generation,
      GenericStore.update secretKind now table (guessed key guess secret) =
          ⟨after, GenericStore.updated now generation (guessed key guess secret), none⟩ ∧
        (generation = secret.resource.generation ↔
          secret.spec.data.bind (Finmap.lookup key) = some guess) ∧
        selectLive after ⟨org, name⟩ =
          some (GenericStore.updated now generation (guessed key guess secret)) := by
  have accepted := acceptsUpdate_guessed key guess stored parent
  rcases GenericStore.update_tracked secretKind now accepted with
    ⟨_, generation, tracked, guarded⟩
  have sameParent : GenericStore.validateParent table (guessed key guess secret) =
      none := parent
  generalize (GenericStore.update secretKind now table (guessed key guess secret)).table =
    after at guarded
  refine ⟨after, generation, ?_, tracked_guessed_iff key guess stored tracked, ?_⟩
  · change updateGuarded now table (GenericStore.stamp now _
      ((guessed key guess secret).setGeneration generation)) _ = _ at guarded
    simp only [GenericStore.update, sameParent, tracked, guarded]
    rfl
  · have live := ((selectLive_eq_some_iff table _ _).mp stored).2
    rcases updateLive_spec guarded with ⟨matched, found, _, _, replaced⟩
    have matchedKey : matched.key = (guessed key guess secret).key :=
      KeyedTable.key_of_find found
    refine (selectLive_eq_some_iff after _ _).mpr ⟨?_, live⟩
    rw [replaced, GenericStore.overwrite_updated now generation matchedKey,
      ← key_guessed key guess stored]
    exact if_pos rfl

/--
An update that writes one value of a stored secret is answered with the
generation it had exactly when the value is the one it held.  The value is
stored in either case.
-/
theorem generation_confirms_guess
    (stored : selectLive table ⟨org, name⟩ = some secret)
    (parent : GenericStore.validateParent table secret = none) (now : Time) :
    ∃ after shown,
      updateSecret secretKind now table ⟨some org, name, guessBody key guess⟩ =
          (after, .json 200 shown) ∧
        (shown.resource.generation = secret.resource.generation ↔
          secret.spec.data.bind (Finmap.lookup key) = some guess) ∧
        ∃ row, selectLive after ⟨org, name⟩ = some row ∧
          row.spec.data.bind (Finmap.lookup key) = some guess := by
  rcases update_guessed key guess stored parent now with
    ⟨after, generation, outcome, moved, selected⟩
  refine ⟨after, redacted (GenericStore.updated now generation
    (guessed key guess secret)), ?_, moved, _, selected, lookup_guessed key guess secret⟩
  have decoded : (guessBody key guess).decode secret = .ok (guessed key guess secret) :=
    rfl
  simp only [updateSecret, getDecodeUpdate, orgIDFromContext, GenericStore.get, stored,
    decoded, outcome]

end Guess

/-- A guess at the token. -/
theorem token_guess_confirmed :
    ∃ after shown,
      updateSecret secretKind 5 (tokenTable "a")
          ⟨some 1, "token", guessBody "password" "b"⟩ = (after, .json 200 shown) ∧
        (shown.resource.generation = (tokenSecret "a").resource.generation ↔
          (tokenSecret "a").spec.data.bind (Finmap.lookup "password") = some "b") ∧
        ∃ row, selectLive after ⟨1, "token"⟩ = some row ∧
          row.spec.data.bind (Finmap.lookup "password") = some "b" := by
  have stored : selectLive (tokenTable "a") ⟨1, "token"⟩ = some (tokenSecret "a") := rfl
  exact generation_confirms_guess "password" "b" stored rfl 5

end Infractl.Api.Platform
