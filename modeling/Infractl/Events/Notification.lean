import Infractl.Auth.UUIDText
import Infractl.Events.Bus
import Infractl.Lib.KeyedTable
import Infractl.Store.Pagination

/-!
# Publishing through PostgreSQL

`publish` stores an event as a row of the events table and sends a
notification, whose text is a JSON object with five of the seven fields.  The
listener makes an event of such a text, of any text that is sent on the
channel, and sets the time itself.

`unmarshal_marshal` says that the five fields survive.
-/

namespace Infractl.Events

open Infractl.Auth (UUIDText)
open Infractl.Lib
open Infractl.Lib.Json (Value)
open Infractl.Store (UUID Time storedTime)

/-! ## The row -/

/-- A row of the events table. -/
structure EventRecord where
  id : String
  orgID : UUID
  kind : String
  name : String
  action : String
  payload : List UInt8
  createdAt : Time
deriving DecidableEq

/-- The table of events. -/
abbrev EventTable := KeyedTable EventRecord.id

/-- The row of an event. -/
def Event.record (event : Event) : EventRecord where
  id := event.id
  orgID := event.orgID
  kind := event.kind
  name := event.name
  action := event.action
  payload := event.payload
  createdAt := storedTime event.timestamp

/-- The event that a row stands for. -/
def EventRecord.event (record : EventRecord) : Event where
  id := record.id
  orgID := record.orgID
  kind := record.kind
  name := record.name
  action := record.action
  timestamp := record.createdAt
  payload := record.payload

/-! ## The notification -/

/-- The payload of a notification. -/
structure NotifyPayload where
  id : String := ""
  orgID : String := ""
  kind : String := ""
  name : String := ""
  action : String := ""
deriving DecidableEq

namespace NotifyPayload

inductive Field where
  | id
  | orgID
  | kind
  | name
  | action
deriving DecidableEq

/-- The key of a field, as its tag gives it. -/
def Field.key : Field → List Char
  | .id => ['i', 'd']
  | .orgID => ['o', 'r', 'g', '_', 'i', 'd']
  | .kind => ['k', 'i', 'n', 'd']
  | .name => ['n', 'a', 'm', 'e']
  | .action => ['a', 'c', 't', 'i', 'o', 'n']

def fields : List Field :=
  [.id, .orgID, .kind, .name, .action]

def get (payload : NotifyPayload) : Field → String
  | .id => payload.id
  | .orgID => payload.orgID
  | .kind => payload.kind
  | .name => payload.name
  | .action => payload.action

def set (payload : NotifyPayload) (text : String) : Field → NotifyPayload
  | .id => { payload with id := text }
  | .orgID => { payload with orgID := text }
  | .kind => { payload with kind := text }
  | .name => { payload with name := text }
  | .action => { payload with action := text }

/-- `json.Marshal`. -/
def marshal (payload : NotifyPayload) : List Char :=
  Json.printObject
    (fields.map (fun field => (field.key, (payload.get field).toList)))

/-- Keys are compared without case; the Kelvin sign is a capital of `k`. -/
def names (key : List Nat) (field : Field) : Bool :=
  key.map (fun unit => if unit = 0x212A then 'k'.toNat else Store.foldCase unit) =
    field.key.map Char.toNat

/-- Decode a value into a string field: a null leaves it as it was. -/
def decodeText (stored : String) : Value → Option String
  | .null => some stored
  | .string units => some (String.ofList (Json.decodeUnits units))
  | _ => none

/-- A member under no known key is passed over. -/
def decodeMember (payload : NotifyPayload) (member : List Nat × Value) :
    Option NotifyPayload :=
  match fields.find? (names member.1) with
  | none => some payload
  | some field =>
      (decodeText (payload.get field) member.2).map fun text =>
        payload.set text field

/-- `json.Unmarshal` into a zero payload; `none` is an error. -/
def unmarshal (text : List Char) : Option NotifyPayload :=
  match Json.parse text with
  | some .null => some {}
  | some (.object members) => members.foldlM decodeMember {}
  | _ => none

@[simp]
theorem find?_names (field : Field) :
    fields.find? (names (field.key.map Char.toNat)) = some field := by
  cases field <;> decide

@[simp]
theorem decodeMember_printed (before : NotifyPayload) (field : Field)
    (text : String) :
    decodeMember before (Json.readMember (field.key, text.toList)) =
      some (before.set text field) := by
  simp only [decodeMember, Json.readMember, find?_names, decodeText,
    Json.decodeUnits_toNat, String.ofList_toList, Option.map_some]

/-- The fields survive the notification. -/
@[simp]
theorem unmarshal_marshal (payload : NotifyPayload) :
    unmarshal payload.marshal = some payload := by
  rw [unmarshal, marshal, Json.parse_printObject]
  simp only [fields, List.map_cons, List.map_nil, List.foldlM_cons, List.foldlM_nil,
    decodeMember_printed, Option.bind_eq_bind, Option.bind_some]
  rfl

/--
The event that the listener makes of a payload.  What `uuid.Parse` leaves of
an identifier that it refuses is given by `leftover`.
-/
def event (text : UUIDText) (leftover : String → UUID) (now : Time)
    (payload : NotifyPayload) : Event where
  id := payload.id
  orgID :=
    match text.parse payload.orgID with
    | .ok orgID => orgID
    | .error _ => leftover payload.orgID
  kind := payload.kind
  name := payload.name
  action := payload.action
  timestamp := now

end NotifyPayload

/-- The notification of an event. -/
def Event.notification (text : UUIDText) (event : Event) : NotifyPayload where
  id := event.id
  orgID := text.format event.orgID
  kind := event.kind
  name := event.name
  action := event.action

/--
`Publish`: the row, in the table with it, and the text that is sent.  An
insert fails when the identifier is taken.
-/
def publish (text : UUIDText) (table : EventTable) (event : Event)
    (freshID : String) (now : Time) :
    Option (EventTable × EventRecord × List Char) :=
  let completed := event.complete freshID now
  (table.insert? completed.record).map fun inserted =>
    (inserted, completed.record, (completed.notification text).marshal)

/-- The event a listener makes of the text of a notification, if it can. -/
def readNotification (text : UUIDText) (leftover : String → UUID) (now : Time)
    (sent : List Char) : Option Event :=
  (NotifyPayload.unmarshal sent).map (NotifyPayload.event text leftover now)

/-- The event made of a notification has all fields of the row but two. -/
theorem readNotification_of_publish {text : UUIDText} (leftover : String → UUID)
    {table inserted : EventTable} {event : Event} {freshID : String}
    {published : Time} {record : EventRecord} {sent : List Char}
    (done : publish text table event freshID published = some (inserted, record, sent))
    (received : Time) :
    inserted.find record.id = some record ∧
      readNotification text leftover received sent =
        some { record.event with timestamp := received, payload := [] } := by
  rcases Option.map_eq_some_iff.mp done with ⟨stored, insertion, same⟩
  cases same
  constructor
  · rw [KeyedTable.find_insert? insertion, if_pos rfl]
  · rw [readNotification, NotifyPayload.unmarshal_marshal, Option.map_some]
    simp only [NotifyPayload.event, Event.notification, text.parse_format]
    rfl

end Infractl.Events
