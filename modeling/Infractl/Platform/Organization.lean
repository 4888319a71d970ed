import Infractl.Api.Handler
import Infractl.Store.Interleaving

/-!
# Organizations and the identity provider

`createOrganization` and `deleteOrganization` write to the table of
organizations, answer their client, and leave the identity provider to a
reaction: each successful request fires one, which runs in its own goroutine
with a context of its own.

A `Service` is the table, what the identity provider holds, the requests and
reactions in flight and the responses given.  A goroutine is named by a client:
its request is issued statement by statement, and the reaction it fires takes
its place.  Calls of the identity provider are labels of their own, since they
take as long as they take.
-/

namespace Infractl.Platform

open Infractl.Lib
open Infractl.Store

/-- `OrganizationSpec`. -/
structure OrganizationSpec where
  displayName : String
  description : String
deriving DecidableEq, Inhabited

/-- `OrganizationStatus`. -/
structure OrganizationStatus where
  phase : String
  message : String
  externalID : String
deriving DecidableEq, Inhabited

abbrev Organization := Object OrganizationSpec OrganizationStatus

abbrev Organizations := Table OrganizationSpec OrganizationStatus

abbrev Call := Process OrganizationSpec OrganizationStatus

/-- The primary key of an organization. -/
def keyOf (name : String) : Key :=
  ⟨Api.Platform.systemTenantID, name⟩

/-! ## Requests -/

/-- An answer with a body, or with a status code alone. -/
inductive Response where
  | body (reply : Api.Reply OrganizationSpec OrganizationStatus)
  | code (status : Nat)

/-- What the handler sets on a decoded organization before it is stored. -/
def pendingOrganization (decoded : Organization) : Organization :=
  { decoded with
    resource := { decoded.resource with orgID := Api.Platform.systemTenantID }
    status := ⟨"Pending", "", ""⟩ }

/-- The answer to a `Create` that returned. -/
def createResponse (org : Organization) : Option StoreError → Response
  | some .alreadyExists => .body (.error 409 "organization already exists")
  | some error => .body (.error 500 error.message)
  | none => .body (.json 201 org)

/-- The answer to a `Delete` that returned. -/
def deleteResponse : Option StoreError → Response
  | some .notFound => .body (.error 404 "organization not found")
  | some .finalizersPending => .code 202
  | some error => .body (.error 500 error.message)
  | none => .code 204

/-- A request or a reaction in flight, at what it does next. -/
inductive Activity where
  | idle
  | creating (process : Call) (org : Organization)
  | deleting (process : Call) (name : String)
  | provisioning (org : Organization)
  | updatingStatus (org : Organization) (status : OrganizationStatus)
  | deprovisioning (name : String)

/-- The handler after a statement of `Create`, up to the next one. -/
def createOrganization (org : Organization) :
    Call → Activity × Option Response
  | .returned none => (.provisioning org, some (createResponse org none))
  | .returned (some error) => (.idle, some (createResponse org (some error)))
  | process => (.creating process org, none)

/-- The handler after a statement of `Delete`, up to the next one. -/
def deleteOrganization (name : String) : Call → Activity × Option Response
  | .returned none => (.deprovisioning name, some (deleteResponse none))
  | .returned (some error) => (.idle, some (deleteResponse (some error)))
  | process => (.deleting process name, none)

/-! ## Reactions -/

/-- The name an organization is shown under. -/
def displayName (org : Organization) : String :=
  if org.spec.displayName = "" then org.resource.name else org.spec.displayName

/-- The status written once the identity provider has answered. -/
def provisionedStatus : Except String String → OrganizationStatus
  | .error reason => ⟨"Failed", reason, ""⟩
  | .ok externalID => ⟨"Active", "", externalID⟩

/-- The statement sets one column, and nobody looks at its result. -/
def updateStatus (table : Organizations) (org : Organization)
    (status : OrganizationStatus) : Organizations :=
  (updateLive table org.key (fun _ => true)
    (fun row => { row with status := status }) (fun _ => rfl)).getD table

/-! ## The service -/

/--
The identity provider holds the display name of each organization it has.
Responses are bookkeeping.
-/
structure Service (ι : Type) where
  table : Organizations
  identities : String → Option String
  activities : ι → Activity
  responses : List (ι × Response)

/-- Who moves, and how; a call of the identity provider carries its outcome. -/
inductive Label (ι : Type) where
  | create (client : ι) (body : Api.Body OrganizationSpec OrganizationStatus)
  | delete (client : ι) (name : String)
  | execute (client : ι) (now : Time)
  | fail (client : ι)
  | provision (client : ι) (outcome : Except String String)
  | deprovision (client : ι) (outcome : Except String Unit)

/-- The object behind the pointer after a statement: an insert fills it in. -/
def hooked (now : Time) (org : Organization) : Call → Organization
  | .insert _ => org.prepareInsert now
  | _ => org

/-- Run the next statement of a goroutine. -/
def Activity.exec (kind : Kind OrganizationSpec OrganizationStatus) (now : Time)
    (table : Organizations) :
    Activity → Option (Organizations × Activity × Option Response)
  | .creating process org =>
      (process.exec kind now table).map fun result =>
        (result.1, createOrganization (hooked now org process) result.2.1)
  | .deleting process name =>
      (process.exec kind now table).map fun result =>
        (result.1, deleteOrganization name result.2.1)
  | .updatingStatus org status =>
      some (updateStatus table org status, .idle, none)
  | _ => none

/-- A goroutine whose next statement fails in the database. -/
def Activity.fail : Activity → Option (Activity × Option Response)
  | .creating process org => process.fail.map (createOrganization org)
  | .deleting process name => process.fail.map (deleteOrganization name)
  | .updatingStatus _ _ => some (.idle, none)
  | _ => none

namespace Service

section Step

variable {ι : Type} [DecidableEq ι]

/-- The service after a client's local code: its activity and its response. -/
def become (service : Service ι) (client : ι)
    (outcome : Activity × Option Response) : Service ι :=
  { service with
    activities := Function.update service.activities client outcome.1
    responses := service.responses ++ outcome.2.toList.map (client, ·) }

/-- One step of the service. -/
def step (kind : Kind OrganizationSpec OrganizationStatus)
    (service : Service ι) : Label ι → Option (Service ι)
  | .create client body =>
      match service.activities client with
      | .idle =>
          match body.decode Api.CrudHandler.zero with
          | .error reason =>
              some (service.become client
                (.idle, some (.body (.error 400 reason))))
          | .ok decoded =>
              some (service.become client
                (createOrganization (pendingOrganization decoded)
                  (Process.startCreate kind (pendingOrganization decoded))))
      | _ => none
  | .delete client name =>
      match service.activities client with
      | .idle =>
          some (service.become client
            (deleteOrganization name (.readForDelete (keyOf name))))
      | _ => none
  | .execute client now =>
      ((service.activities client).exec kind now service.table).map
        fun result =>
          { service with table := result.1 }.become client result.2
  | .fail client =>
      (service.activities client).fail.map (service.become client)
  | .provision client outcome =>
      match service.activities client with
      | .provisioning org =>
          let identities :=
            match outcome with
            | .error _ => service.identities
            | .ok _ =>
                Function.update service.identities org.resource.name
                  (some (displayName org))
          some ({ service with identities := identities }.become client
            (.updatingStatus org (provisionedStatus outcome), none))
      | _ => none
  | .deprovision client outcome =>
      match service.activities client with
      | .deprovisioning name =>
          let identities :=
            match outcome with
            | .error _ => service.identities
            | .ok _ => Function.update service.identities name none
          some ({ service with identities := identities }.become client
            (.idle, none))
      | _ => none

end Step

end Service

/-- A call of the identity provider, if the label is one, succeeds. -/
def Label.succeeds {ι : Type} : Label ι → Bool
  | .provision _ outcome => outcome.isOk
  | .deprovision _ outcome => outcome.isOk
  | _ => true

end Infractl.Platform
