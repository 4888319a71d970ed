import Infractl.Api.Handler
import Infractl.Lib.FiniteMap

/-!
# Reading a secret and writing it back

`getSecret` answers with the secret, its values replaced by stars.  A client
that edits the labels of what it read and sends it back with a PUT sends the
stars as well.  `updateSecret` decodes them into the stored data, where every
key is present, so that they replace all of the values.

The data survives exactly when its values were stars already, or when the
parent check refuses the update.
-/

namespace Infractl.Api.Platform

open Infractl.Lib
open Infractl.Store

/-! ## Encoding -/

/-- `getSecret`. -/
def getSecret (table : Table SecretSpec SecretStatus) (org : Option UUID)
    (name : String) : Reply SecretSpec SecretStatus :=
  match orgIDFromContext org with
  | .error reason => .error 500 reason
  | .ok orgID =>
      match GenericStore.get table orgID name with
      | .error .notFound => .error 404 "secret not found"
      | .error error => .error 500 error.message
      | .ok secret => .json 200 (redacted secret)

/-- A member with `omitempty`, present or not. -/
def omitEmpty (present : Bool) (member : Member SecretSpec SecretStatus) :
    List (Member SecretSpec SecretStatus) :=
  if present then [member] else []

/-- A map without entries is left out of a JSON object. -/
def hasEntries (map : JSONMap) : Bool :=
  map.any (fun entries => decide (entries ≠ ∅))

/-- Decode the `spec` of an encoded secret into a stored one. -/
def decodeSpec (encoded stored : SecretSpec) : SecretSpec where
  type := encoded.type
  data :=
    if hasEntries encoded.data then decodeMap encoded.data stored.data
    else stored.data

/--
The members of the base record, with `labels` and `annotations` as the client
has left them: absent, or with some value.
-/
def encodeResource (labels annotations : Option JSONMap) (resource : Resource) :
    List (Member SecretSpec SecretStatus) :=
  [.orgID resource.orgID, .name resource.name] ++
    omitEmpty resource.parent.isSome (.parent resource.parent) ++
    labels.toList.map .labels ++ annotations.toList.map .annotations ++
    omitEmpty (resource.getFinalizers ≠ []) (.finalizers resource.finalizers) ++
    [.generation resource.generation,
      .resourceVersion resource.resourceVersion] ++
    omitEmpty resource.owner.isSome (.owner resource.owner) ++
    omitEmpty (resource.creator ≠ "") (.creator resource.creator) ++
    [.createdAt resource.createdAt, .updatedAt resource.updatedAt] ++
    omitEmpty resource.deletionTimestamp.isSome
      (.deletionTimestamp resource.deletionTimestamp) ++
    [.deletedAt resource.deletedAt]

/-- The JSON of a secret. -/
def encodeSecret (labels annotations : Option JSONMap)
    (secret : Object SecretSpec SecretStatus) :
    Body SecretSpec SecretStatus :=
  .members (encodeResource labels annotations secret.resource ++
    [.spec (decodeSpec secret.spec), .status (fun _ => secret.status)])

/-! ## Decoding what was encoded -/

/-- The record, but for labels and annotations. -/
def SameBut (resource : Resource) (object : Object SecretSpec SecretStatus) :
    Prop :=
  ∃ labels annotations,
    object.resource =
      { resource with labels := labels, annotations := annotations }

/-- The member says what the record has, or edits labels or annotations. -/
def Restates (resource : Resource) : Member SecretSpec SecretStatus → Prop
  | .orgID value => value = resource.orgID
  | .name value => value = resource.name
  | .parent value => value = resource.parent
  | .labels _ => True
  | .annotations _ => True
  | .finalizers value => value = resource.finalizers
  | .generation value => value = resource.generation
  | .resourceVersion value => value = resource.resourceVersion
  | .owner value => value = resource.owner
  | .creator value => value = resource.creator
  | .createdAt value => value = resource.createdAt
  | .updatedAt value => value = resource.updatedAt
  | .deletionTimestamp value => value = resource.deletionTimestamp
  | .deletedAt value => value = resource.deletedAt
  | .spec _ => False
  | .status _ => False
  | .ignored => True

theorem Restates.decode {resource : Resource}
    {member : Member SecretSpec SecretStatus}
    (restates : Restates resource member)
    {object : Object SecretSpec SecretStatus} (same : SameBut resource object) :
    SameBut resource (member.decode object) ∧
      (member.decode object).spec = object.spec := by
  rcases same with ⟨labels, annotations, equal⟩
  cases member with
  | labels value => exact ⟨⟨_, annotations, by rw [Member.decode, equal]⟩, rfl⟩
  | annotations value => exact ⟨⟨labels, _, by rw [Member.decode, equal]⟩, rfl⟩
  | spec decode => cases restates
  | status decode => cases restates
  | ignored => exact ⟨⟨labels, annotations, equal⟩, rfl⟩
  | _ =>
      cases restates
      exact ⟨⟨labels, annotations, by rw [Member.decode, equal]⟩, rfl⟩

/-- Decoding such members keeps the record and does not touch the spec. -/
theorem foldl_restates {resource : Resource}
    {members : List (Member SecretSpec SecretStatus)}
    (restates : ∀ member ∈ members, Restates resource member)
    {object : Object SecretSpec SecretStatus} (same : SameBut resource object) :
    SameBut resource
        (members.foldl (fun decoded member => member.decode decoded) object) ∧
      (members.foldl (fun decoded member => member.decode decoded)
        object).spec = object.spec := by
  induction members generalizing object with
  | nil => exact ⟨same, rfl⟩
  | cons member rest ih =>
      rw [List.forall_mem_cons] at restates
      rcases restates.1.decode same with ⟨sameNext, specNext⟩
      rcases ih restates.2 sameNext with ⟨sameLast, specLast⟩
      exact ⟨sameLast, specLast.trans specNext⟩

theorem forall_mem_omitEmpty {present : Bool}
    {member : Member SecretSpec SecretStatus}
    {holds : Member SecretSpec SecretStatus → Prop} (here : holds member) :
    ∀ entry ∈ omitEmpty present member, holds entry := by
  intro entry listed
  unfold omitEmpty at listed
  split at listed
  · rwa [List.mem_singleton.mp listed]
  · cases listed

theorem restates_encodeResource (labels annotations : Option JSONMap)
    (resource : Resource) :
    ∀ member ∈ encodeResource labels annotations resource,
      Restates resource member := by
  simp only [encodeResource, List.forall_mem_append]
  repeat' apply And.intro
  all_goals
    first
    | exact forall_mem_omitEmpty rfl
    | simp [Restates]

/-- The record is restated, and then the spec and the status are decoded. -/
theorem decode_restates {secret : Object SecretSpec SecretStatus}
    {members : List (Member SecretSpec SecretStatus)}
    (restates : ∀ member ∈ members, Restates secret.resource member)
    (encoded : SecretSpec) (status : SecretStatus) :
    ∃ object,
      (Body.members (members ++
          [.spec (decodeSpec encoded), .status (fun _ => status)])).decode
          secret = .ok object ∧
        SameBut secret.resource object ∧
        object.spec = decodeSpec encoded secret.spec := by
  have unread : SameBut secret.resource secret := ⟨_, _, rfl⟩
  rcases foldl_restates restates unread with ⟨same, spec⟩
  rw [Body.decode, List.foldl_append]
  exact ⟨_, rfl, same, congrArg (decodeSpec encoded) spec⟩

/-- What the PUT of a secret that was shown is decoded to. -/
theorem decode_encodeSecret (labels annotations : Option JSONMap)
    (secret : Object SecretSpec SecretStatus) :
    ∃ object,
      (encodeSecret labels annotations (redacted secret)).decode secret =
          .ok object ∧
        SameBut secret.resource object ∧
        object.spec = decodeSpec (redacted secret).spec secret.spec :=
  decode_restates (restates_encodeResource labels annotations secret.resource)
    (redacted secret).spec secret.status

/-! ## The data -/

theorem lookup_hideValues (data : Finmap (fun _ : String => String))
    (key : String) :
    (hideValues data).lookup key = (data.lookup key).map (fun _ => "***") := by
  ext value
  rw [Finmap.lookup_eq_some_iff, Option.map_eq_some_iff]
  simp only [hideValues, Multiset.mem_map, Finmap.lookup_eq_some_iff]
  constructor
  · rintro ⟨⟨stored, hidden⟩, member, equal⟩
    cases equal
    exact ⟨hidden, member, rfl⟩
  · rintro ⟨hidden, member, rfl⟩
    exact ⟨⟨key, hidden⟩, member, rfl⟩

/-- The stars replace every value they are merged with. -/
theorem hideValues_union (data : Finmap (fun _ : String => String)) :
    hideValues data ∪ data = hideValues data := by
  rw [FiniteMap.union_eq_left_iff]
  intro key member
  by_contra hidden
  have absent := Finmap.lookup_eq_none.mpr hidden
  rw [lookup_hideValues, Option.map_eq_none_iff] at absent
  exact Finmap.lookup_eq_none.mp absent member

/-- Every value is hidden already. -/
def AllHidden (data : JSONMap) : Prop :=
  ∀ entries, data = some entries →
    ∀ key value, entries.lookup key = some value → value = "***"

theorem hideValues_eq_iff (data : Finmap (fun _ : String => String)) :
    hideValues data = data ↔ AllHidden (some data) := by
  constructor
  · rintro same entries ⟨⟩ key value found
    have hidden := congrArg (Finmap.lookup key) same
    rw [lookup_hideValues, found, Option.map_some] at hidden
    exact (Option.some.inj hidden).symm
  · intro hidden
    apply Finmap.ext_lookup
    intro key
    rw [lookup_hideValues]
    cases found : data.lookup key with
    | none => rfl
    | some value => rw [hidden data rfl key value found, Option.map_some]

theorem hideValues_eq_empty_iff (data : Finmap (fun _ : String => String)) :
    hideValues data = ∅ ↔ data = ∅ := by
  constructor
  · intro hidden
    apply Finmap.ext_lookup
    intro key
    have absent := congrArg (Finmap.lookup key) hidden
    rw [lookup_hideValues, Finmap.lookup_empty, Option.map_eq_none_iff] at absent
    rw [absent, Finmap.lookup_empty]
  · rintro rfl
    apply Finmap.ext_lookup
    intro key
    rw [lookup_hideValues, Finmap.lookup_empty, Option.map_none]

/-- Decoding the shown data into the stored data hides every value. -/
@[simp]
theorem decodeSpec_redacted_data (secret : Object SecretSpec SecretStatus) :
    (decodeSpec (redacted secret).spec secret.spec).data =
      secret.spec.data.map hideValues := by
  cases stored : secret.spec.data with
  | none => simp [decodeSpec, redacted, stored, hasEntries]
  | some data =>
      by_cases empty : data = ∅
      · subst empty
        have hidden := (hideValues_eq_empty_iff ∅).mpr rfl
        simp [decodeSpec, redacted, stored, hasEntries, hidden]
      · have shown : hideValues data ≠ ∅ :=
          fun hidden => empty ((hideValues_eq_empty_iff data).mp hidden)
        simp [decodeSpec, redacted, stored, hasEntries, shown, decodeMap,
          hideValues_union]

theorem map_hideValues_eq_iff (data : JSONMap) :
    data.map hideValues = data ↔ AllHidden data := by
  cases data with
  | none => exact iff_of_true rfl (fun _ impossible => by cases impossible)
  | some entries => rw [Option.map_some, Option.some.injEq, hideValues_eq_iff]

/-! ## The round trip -/

section RoundTrip

variable {table : Table SecretSpec SecretStatus} {org : UUID} {name : String}
variable {secret object : Object SecretSpec SecretStatus}

theorem getSecret_shown {shown : Object SecretSpec SecretStatus}
    (read : getSecret table (some org) name = .json 200 shown) :
    ∃ secret, selectLive table ⟨org, name⟩ = some secret ∧
      shown = redacted secret := by
  unfold getSecret orgIDFromContext GenericStore.get at read
  dsimp only at read
  cases selected : selectLive table ⟨org, name⟩ with
  | none =>
      rw [selected] at read
      cases read
  | some secret =>
      rw [selected] at read
      cases read
      exact ⟨secret, rfl, rfl⟩

theorem SameBut.key_eq (selected : selectLive table ⟨org, name⟩ = some secret)
    (same : SameBut secret.resource object) :
    object.key = ⟨org, name⟩ := by
  rcases same with ⟨labels, annotations, equal⟩
  have stored := ((selectLive_eq_some_iff ..).mp selected).1
  rw [← KeyedTable.key_of_find stored, Object.key, Object.key, equal]
  rfl

/-- The restated record is accepted when its parent is. -/
theorem SameBut.accepted_iff
    (selected : selectLive table ⟨org, name⟩ = some secret)
    (same : SameBut secret.resource object) :
    GenericStore.acceptsUpdate table object = true ↔
      GenericStore.validateParent table secret = none := by
  have sameKey := same.key_eq selected
  rcases same with ⟨labels, annotations, equal⟩
  have sameParent : GenericStore.validateParent table object =
      GenericStore.validateParent table secret := by
    rw [GenericStore.validateParent, GenericStore.validateParent, equal]
  rw [GenericStore.acceptsUpdate, sameParent, sameKey, selected, equal]
  simp

/-- The row an accepted update of the restated record leaves. -/
theorem SameBut.selectLive_update (kind : Kind SecretSpec SecretStatus)
    (now : Time) (selected : selectLive table ⟨org, name⟩ = some secret)
    (same : SameBut secret.resource object)
    (accepted : GenericStore.acceptsUpdate table object = true) :
    ∃ after,
      selectLive (GenericStore.update kind now table object).table ⟨org, name⟩ =
          some after ∧
        after.spec = object.spec := by
  rcases (GenericStore.update_accepted kind now accepted).2 with
    ⟨generation, _, replaces⟩
  have found := replaces.find_self
  rw [same.key_eq selected] at found
  refine ⟨_, (selectLive_eq_some_iff ..).mpr ⟨found, ?_⟩, rfl⟩
  rcases same with ⟨labels, annotations, equal⟩
  have live := ((selectLive_eq_some_iff ..).mp selected).2
  rw [Object.live_iff] at live ⊢
  change object.resource.deletedAt = none
  rw [equal]
  exact live

end RoundTrip

/--
A PUT of the JSON that `getSecret` returned, with the labels and annotations
edited in any way, keeps the stored data exactly when all of its values are
stars already, or the parent check refuses the update.
-/
theorem put_of_shown_secret_keeps_data_iff
    (kind : Kind SecretSpec SecretStatus) (now : Time)
    (table : Table SecretSpec SecretStatus) (org : UUID) (name : String)
    (shown : Object SecretSpec SecretStatus)
    (labels annotations : Option JSONMap)
    (read : getSecret table (some org) name = .json 200 shown) :
    ∃ secret, selectLive table ⟨org, name⟩ = some secret ∧
      ((∃ after,
        selectLive (updateSecret kind now table
            ⟨some org, name, encodeSecret labels annotations shown⟩).1
            ⟨org, name⟩ = some after ∧
          after.spec.data = secret.spec.data) ↔
        AllHidden secret.spec.data ∨
          GenericStore.validateParent table secret ≠ none) := by
  rcases getSecret_shown read with ⟨secret, selected, rfl⟩
  refine ⟨secret, selected, ?_⟩
  rcases decode_encodeSecret labels annotations secret with
    ⟨object, decoded, same, spec⟩
  have accepts := same.accepted_iff selected
  have computed : (updateSecret kind now table
      ⟨some org, name, encodeSecret labels annotations (redacted secret)⟩).1 =
      (GenericStore.update kind now table object).table := by
    rw [updateSecret, orgIDFromContext, getDecodeUpdate_table, selected]
    simp only [decoded]
  rw [computed]
  cases accepted : GenericStore.acceptsUpdate table object with
  | false =>
      rw [accepted] at accepts
      rw [(GenericStore.update_refused kind now accepted).1]
      refine iff_of_true ⟨secret, selected, rfl⟩ (Or.inr ?_)
      exact fun passes => Bool.false_ne_true (accepts.mpr passes)
  | true =>
      have passes := accepts.mp accepted
      rcases same.selectLive_update kind now selected accepted with
        ⟨after, found, written⟩
      rw [spec] at written
      have data : after.spec.data = secret.spec.data.map hideValues := by
        rw [written, decodeSpec_redacted_data]
      rw [or_iff_left (not_not.mpr passes), ← map_hideValues_eq_iff, ← data]
      constructor
      · rintro ⟨again, foundAgain, kept⟩
        cases found.symm.trans foundAgain
        exact kept
      · intro kept
        exact ⟨after, found, kept⟩

/-- A secret with one value. -/
def tokenSecret (value : String) : Object SecretSpec SecretStatus :=
  ⟨{ orgID := 1, name := "token", generation := 1, resourceVersion := 1 },
    ⟨"opaque", some (Finmap.singleton "password" value)⟩, ⟨"Active"⟩⟩

def tokenTable (value : String) : Table SecretSpec SecretStatus :=
  ⟨[tokenSecret value], by simp⟩

/-- A secret whose value is written as stars survives. -/
theorem starred_secret_survives :
    ∃ secret, selectLive (tokenTable "***") ⟨1, "token"⟩ = some secret ∧
      ∃ after,
        selectLive (updateSecret ⟨none⟩ 5 (tokenTable "***")
            ⟨some 1, "token", encodeSecret (some (some ∅)) none
              (redacted (tokenSecret "***"))⟩).1 ⟨1, "token"⟩ = some after ∧
          after.spec.data = secret.spec.data := by
  rcases put_of_shown_secret_keeps_data_iff ⟨none⟩ 5 (tokenTable "***") 1 "token"
    (redacted (tokenSecret "***")) (some (some ∅)) none rfl with
    ⟨secret, selected, keeps⟩
  refine ⟨secret, selected, keeps.mpr (Or.inl ?_)⟩
  cases selected
  exact (map_hideValues_eq_iff _).mp rfl

/-- Reading a secret, editing its labels and writing it back loses the value. -/
theorem edited_secret_is_lost :
    getSecret (tokenTable "s3cret") (some 1) "token" =
        .json 200 (redacted (tokenSecret "s3cret")) ∧
      ∃ after,
        selectLive (updateSecret ⟨none⟩ 5 (tokenTable "s3cret")
            ⟨some 1, "token", encodeSecret (some (some ∅)) none
              (redacted (tokenSecret "s3cret"))⟩).1 ⟨1, "token"⟩ =
          some after ∧
        (after.spec.data.bind (Finmap.lookup "password")) = some "***" :=
  ⟨rfl, _, rfl, rfl⟩

end Infractl.Api.Platform
