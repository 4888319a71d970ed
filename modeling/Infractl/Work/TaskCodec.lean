import Infractl.Auth.UUIDText
import Infractl.Lib.Base64
import Infractl.Lib.Json
import Infractl.Work.Tasks

/-!
# Tasks as texts

The Valkey queue sends a task as a JSON text and decodes what it receives.
What it needs of the two is that a task survives.  `objectCodec` is a codec of
this kind, an object with one string for each field.
-/

namespace Infractl.Work

open Infractl.Auth (canonicalText)
open Infractl.Lib
open Infractl.Lib.Json (Value)

/-- `json.Marshal` and `json.Unmarshal` of a task; `none` is an error. -/
structure TaskCodec where
  marshal : Task → String
  unmarshal : String → Option Task
  unmarshal_marshal : ∀ task, unmarshal (marshal task) = some task

namespace TaskStatus

/-- The text of a status. -/
def text : TaskStatus → String
  | .pending => "pending"
  | .running => "running"
  | .completed => "completed"
  | .failed => "failed"

def ofText (text : String) : Option TaskStatus :=
  [pending, running, completed, failed].find? fun status => status.text = text

theorem ofText_text (status : TaskStatus) : ofText status.text = some status := by
  cases status <;> decide

end TaskStatus

/-- The members of the object of a task. -/
def Task.members (task : Task) : List (List Char × List Char) :=
  [("id".toList, task.id.toList),
    ("kind".toList, task.kind.toList),
    ("org_id".toList, (canonicalText.format task.orgID).toList),
    ("name".toList, task.name.toList),
    ("payload".toList, Base64.encode task.payload),
    ("status".toList, task.status.text.toList),
    ("created_at".toList, Json.printInteger task.createdAt)]

/-- The text of a member. -/
def memberText : List Nat × Value → Option (List Char)
  | (_, .string units) => some (Json.decodeUnits units)
  | _ => none

/-- The task of the members, in the order they are written. -/
def Task.ofMembers (members : List (List Nat × Value)) : Option Task :=
  match members.mapM memberText with
  | some [id, kind, orgID, name, payload, status, createdAt] => do
      let orgID ← (canonicalText.parse (String.ofList orgID)).toOption
      let payload ← Base64.decode payload
      let status ← TaskStatus.ofText (String.ofList status)
      let createdAt ← Json.readInteger createdAt
      some
        { id := String.ofList id
          kind := String.ofList kind
          orgID := orgID
          name := String.ofList name
          payload := payload
          status := status
          createdAt := createdAt }
  | _ => none

@[simp]
theorem mapM_memberText_readMember (members : List (List Char × List Char)) :
    (members.map Json.readMember).mapM memberText =
      some (members.map Prod.snd) := by
  induction members with
  | nil => rfl
  | cons first rest ih =>
      rw [List.map_cons, List.mapM_cons, ih, Json.readMember, memberText,
        Json.decodeUnits_toNat]
      rfl

@[simp]
theorem Task.ofMembers_members (task : Task) :
    Task.ofMembers (task.members.map Json.readMember) = some task := by
  rw [Task.ofMembers, mapM_memberText_readMember]
  simp only [Task.members, List.map_cons, List.map_nil, String.ofList_toList,
    canonicalText.parse_format, Base64.decode_encode, TaskStatus.ofText_text,
    Json.readInteger_printInteger]
  rfl

def objectCodec : TaskCodec where
  marshal task := String.ofList (Json.printObject task.members)
  unmarshal data :=
    match Json.parse data.toList with
    | some (.object members) => Task.ofMembers members
    | _ => none
  unmarshal_marshal task := by
    rw [String.toList_ofList, Json.parse_printObject]
    exact task.ofMembers_members

end Infractl.Work
