import Infractl.Auth.UUIDText

/-!
# Metadata in messages

The metadata of a resource travels in a message whose identifier and times are
texts and timestamps of their own.  An identifier that is absent or cannot be
parsed leaves the resource with the zero identifier, which is that of the
system tenant.
-/

namespace Infractl.Proto

open Infractl.Auth
open Infractl.Store

/-- `resourcev1.Metadata`; maps, lists and timestamps may be absent. -/
structure Metadata where
  orgID : String := ""
  name : String := ""
  parent : Option String := none
  labels : JSONMap := none
  annotations : JSONMap := none
  finalizers : JSONArray := none
  generation : Int64 := 0
  resourceVersion : Int64 := 0
  owner : String := ""
  creator : String := ""
  createdAt : Option Time := none
  updatedAt : Option Time := none
  deletionTimestamp : Option Time := none

/-- `MetadataToProto`. -/
def metadataToProto (text : UUIDText) (resource : Resource) : Metadata where
  orgID := text.format resource.orgID
  name := resource.name
  parent := resource.parent
  labels := resource.labels
  annotations := resource.annotations
  finalizers := resource.finalizers
  generation := resource.generation
  resourceVersion := resource.resourceVersion
  owner := resource.owner.getD ""
  creator := resource.creator
  createdAt := some resource.createdAt
  updatedAt := some resource.updatedAt
  deletionTimestamp := resource.deletionTimestamp

/-- `MetadataFromProto`. -/
def metadataFromProto (text : UUIDText) (metadata : Metadata) : Resource where
  orgID :=
    match text.parse metadata.orgID with
    | .ok id => id
    | .error _ => 0
  name := metadata.name
  parent := metadata.parent
  labels := metadata.labels
  annotations := metadata.annotations
  finalizers := metadata.finalizers
  generation := metadata.generation
  resourceVersion := metadata.resourceVersion
  owner := if metadata.owner ≠ "" then some metadata.owner else none
  creator := metadata.creator
  createdAt := metadata.createdAt.getD 0
  updatedAt := metadata.updatedAt.getD 0
  deletionTimestamp := metadata.deletionTimestamp

/-- The tenant of a resource survives the way through a message. -/
theorem orgID_metadataFromProto_toProto (text : UUIDText) (resource : Resource) :
    (metadataFromProto text (metadataToProto text resource)).orgID =
      resource.orgID := by
  simp [metadataFromProto, metadataToProto, text.parse_format]

end Infractl.Proto
