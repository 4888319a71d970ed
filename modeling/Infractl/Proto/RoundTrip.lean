import Infractl.Proto.Adapter

/-!
# Metadata there and back

A message holds a time as a number of seconds since 1970 and a number of
nanoseconds.  Below are the two conversions with such times; read at the times
they stand for, the messages are those of `Proto.Adapter`.

Everything survives the way through a message but one value: the message has
no pointer for the owner, so that an owner that is the empty string comes back
as no owner at all.
-/

namespace Infractl.Proto

open Infractl.Auth
open Infractl.Store

/-! ## Times -/

/-- `timestamppb.Timestamp`. -/
structure Timestamp where
  seconds : Int64
  nanos : Int32
deriving DecidableEq

namespace Timestamp

def nanosPerSecond : Int := 1000000000

/-- The seconds from the zero time, in the year 1, to 1970. -/
def unixToInternal : Int64 := 62135596800

/-- `timestamppb.New`. -/
def new (time : Time) : Timestamp where
  seconds := Int64.ofInt (time / nanosPerSecond) - unixToInternal
  nanos := Int32.ofInt (time % nanosPerSecond)

/-- `AsTime`. -/
def asTime (stamp : Timestamp) : Time :=
  (stamp.seconds + unixToInternal).toInt * nanosPerSecond + stamp.nanos.toInt

/-- The times a message may hold: those of the years 1 to 9999. -/
def InRange (time : Time) : Prop :=
  0 ≤ time ∧ time < 315537897600 * nanosPerSecond

instance (time : Time) : Decidable (InRange time) :=
  inferInstanceAs (Decidable (_ ∧ _))

@[simp]
theorem asTime_new {time : Int} (inRange : InRange time) :
    (new time).asTime = time := by
  have lower : 0 ≤ time := inRange.1
  have upper : time < 315537897600 * 1000000000 := inRange.2
  have seconds :
      ((new time).seconds + unixToInternal).toInt = time / nanosPerSecond := by
    rw [new, Int64.sub_add_cancel]
    apply Int64.toInt_ofInt_of_le
    · unfold nanosPerSecond
      omega
    · unfold nanosPerSecond
      omega
  have nanos : (new time).nanos.toInt = time % nanosPerSecond := by
    apply Int32.toInt_ofInt_of_le
    · unfold nanosPerSecond
      omega
    · unfold nanosPerSecond
      omega
  rw [asTime, seconds, nanos, Int.mul_comm]
  exact Int.mul_ediv_add_emod time nanosPerSecond

end Timestamp

/-! ## Messages -/

namespace Message

/-- `resourcev1.Metadata`, with its times as the message has them. -/
structure Metadata where
  orgID : String := ""
  name : String := ""
  parent : Option String := none
  labels : JSONMap := none
  annotations : JSONMap := none
  finalizers : JSONArray := none
  generation : Int64 := 0
  resourceVersion : Int64 := 0
  owner : String := ""
  creator : String := ""
  createdAt : Option Timestamp := none
  updatedAt : Option Timestamp := none
  deletionTimestamp : Option Timestamp := none

/-- `MetadataToProto`. -/
def metadataToProto (text : UUIDText) (resource : Resource) : Metadata where
  orgID := text.format resource.orgID
  name := resource.name
  generation := resource.generation
  resourceVersion := resource.resourceVersion
  creator := resource.creator
  createdAt := some (.new resource.createdAt)
  updatedAt := some (.new resource.updatedAt)
  parent := resource.parent
  owner := resource.owner.getD ""
  labels := resource.labels
  annotations := resource.annotations
  finalizers := resource.finalizers
  deletionTimestamp := resource.deletionTimestamp.map .new

/-- `MetadataFromProto`; an absent time is the zero time. -/
def metadataFromProto (text : UUIDText) (metadata : Metadata) : Resource where
  name := metadata.name
  generation := metadata.generation
  resourceVersion := metadata.resourceVersion
  creator := metadata.creator
  orgID :=
    match text.parse metadata.orgID with
    | .ok id => id
    | .error _ => 0
  parent := metadata.parent
  owner := if metadata.owner ≠ "" then some metadata.owner else none
  labels := metadata.labels
  annotations := metadata.annotations
  finalizers := metadata.finalizers
  createdAt := (metadata.createdAt.map Timestamp.asTime).getD 0
  updatedAt := (metadata.updatedAt.map Timestamp.asTime).getD 0
  deletionTimestamp := metadata.deletionTimestamp.map Timestamp.asTime

/-! ## The messages of `Proto.Adapter` -/

/-- The message with its times read. -/
def Metadata.read (metadata : Metadata) : Proto.Metadata where
  orgID := metadata.orgID
  name := metadata.name
  parent := metadata.parent
  labels := metadata.labels
  annotations := metadata.annotations
  finalizers := metadata.finalizers
  generation := metadata.generation
  resourceVersion := metadata.resourceVersion
  owner := metadata.owner
  creator := metadata.creator
  createdAt := metadata.createdAt.map Timestamp.asTime
  updatedAt := metadata.updatedAt.map Timestamp.asTime
  deletionTimestamp := metadata.deletionTimestamp.map Timestamp.asTime

/-- The times of a resource can be held by a message. -/
structure TimesInRange (resource : Resource) : Prop where
  createdAt : Timestamp.InRange resource.createdAt
  updatedAt : Timestamp.InRange resource.updatedAt
  deletionTimestamp : ∀ time, resource.deletionTimestamp = some time →
    Timestamp.InRange time

theorem metadataFromProto_read (text : UUIDText) (metadata : Metadata) :
    Proto.metadataFromProto text metadata.read =
      metadataFromProto text metadata :=
  rfl

@[simp]
theorem read_metadataToProto (text : UUIDText) {resource : Resource}
    (inRange : TimesInRange resource) :
    (metadataToProto text resource).read =
      Proto.metadataToProto text resource := by
  have deletion :
      (resource.deletionTimestamp.map Timestamp.new).map Timestamp.asTime =
        resource.deletionTimestamp := by
    cases deleted : resource.deletionTimestamp with
    | none => rfl
    | some time =>
        exact congrArg some
          (Timestamp.asTime_new (inRange.deletionTimestamp time deleted))
  simp only [Metadata.read, metadataToProto, Proto.metadataToProto,
    Option.map_some, Timestamp.asTime_new inRange.createdAt,
    Timestamp.asTime_new inRange.updatedAt, deletion]

/-! ## The round trip -/

/-- An owner that is the empty string is taken for an absent one. -/
theorem owner_of_getD_eq_iff (owner : Option String) :
    (if owner.getD "" ≠ "" then some (owner.getD "") else none) = owner ↔
      owner ≠ some "" := by
  cases owner with
  | none => simp
  | some name => by_cases empty : name = "" <;> simp [empty]

/-- What comes back: the resource, but for its owner and its soft-delete mark. -/
theorem metadataFromProto_toProto (text : UUIDText) {resource : Resource}
    (inRange : TimesInRange resource) :
    metadataFromProto text (metadataToProto text resource) =
      { resource with
        owner :=
          if resource.owner.getD "" ≠ "" then some (resource.owner.getD "")
          else none
        deletedAt := none } := by
  rw [← metadataFromProto_read, read_metadataToProto text inRange]
  exact congrArg
    (fun id : UUID => ({ resource with
      orgID := id
      owner :=
        if resource.owner.getD "" ≠ "" then some (resource.owner.getD "")
        else none
      deletedAt := none } : Resource))
    (orgID_metadataFromProto_toProto text resource)

/--
A resource without a soft-delete mark, whose times a message can hold, comes
back equal in every field exactly when its owner is not the empty string.
-/
theorem metadata_roundTrip_iff (text : UUIDText) (resource : Resource)
    (undeleted : resource.deletedAt = none) (inRange : TimesInRange resource) :
    metadataFromProto text (metadataToProto text resource) = resource ↔
      resource.owner ≠ some "" := by
  rw [metadataFromProto_toProto text inRange, ← owner_of_getD_eq_iff]
  constructor
  · exact fun same => congrArg Resource.owner same
  · intro owner
    rw [owner, ← undeleted]

/-- A resource with nothing set but what is given. -/
def sparse (owner : Option String) : Resource where
  orgID := 7
  name := "a"
  parent := some ""
  labels := some ∅
  finalizers := some []
  owner := owner
  generation := 3
  deletionTimestamp := some 5

theorem sparse_inRange (owner : Option String) : TimesInRange (sparse owner) := by
  have zero : Timestamp.InRange 0 := by decide
  refine ⟨zero, zero, ?_⟩
  rintro time ⟨⟩
  decide

/-- Empty values other than the owner come back as they were. -/
theorem sparse_roundTrip :
    metadataFromProto canonicalText (metadataToProto canonicalText (sparse none)) =
      sparse none :=
  (metadata_roundTrip_iff canonicalText (sparse none) rfl
    (sparse_inRange none)).mpr (by decide)

/-- An owner that is the empty string comes back as none. -/
theorem empty_owner_is_lost :
    (sparse (some "")).deletedAt = none ∧ TimesInRange (sparse (some "")) ∧
      (metadataFromProto canonicalText
        (metadataToProto canonicalText (sparse (some "")))).owner = none :=
  ⟨rfl, sparse_inRange (some ""), rfl⟩

end Message

end Infractl.Proto
