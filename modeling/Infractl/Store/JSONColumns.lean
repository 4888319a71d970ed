import Infractl.Lib.GoInterface
import Infractl.Store.Model

/-!
# JSON columns

Labels, annotations, finalizers, specifications and states are stored in JSON
columns.  `Value` gives the document of a value to the driver, and `Scan`
decodes what the driver read into a receiver, which may hold something: it is
cleared for a null of the database only.

What becomes of a value that is scanned into a receiver is what
`Lib.GoJson.GoType.Restores` says.  A map gets the keys of the receiver in
addition, and a field with `omitempty` keeps what the receiver held.
-/

namespace Infractl.Store

open Infractl.Lib.GoJson
open Infractl.Lib.GoJson.GoType

/-! ## The columns -/

/-- What a driver hands over; content that is not JSON is `none`. -/
inductive DriverValue where
  | nil
  | bytes (content : Option Doc)
  | string (content : Option Doc)
  | other (typeName : String)

/-- The errors of `Scan`. -/
inductive ScanError where
  | unsupportedType (message : String)
  | unmarshal
deriving DecidableEq

/-- `Scan` of a column type into a receiver of the type. -/
def scanColumn (column : String) (foldCase : String → String) (type : GoType .value)
    (stored : Memory type) : DriverValue → Except ScanError (Memory type)
  | .nil => .ok (zero type)
  | .bytes content | .string content =>
      match content.bind (unmarshal foldCase type stored) with
      | some after => .ok after
      | none => .error .unmarshal
  | .other typeName =>
      .error (.unsupportedType (column ++ ".Scan: unsupported type " ++ typeName))

/-- Strings: a null leaves the receiver as it was. -/
def stringKind : Scalar where
  Carrier := String
  zero := ""
  isEmpty text := text = ""
  encode := .string
  decode stored
    | .null => some stored
    | .string text => some text
    | _ => none
  decode_encode _ _ := rfl

def mapType : GoType .value := .map (.scalar stringKind)

def arrayType : GoType .value := .slice (.scalar stringKind)

namespace JSONMap

/-- `Value`. -/
def value : JSONMap → DriverValue
  | none => .nil
  | some entries => .bytes (some (marshal mapType (some entries)))

/-- `Scan`. -/
def scan (foldCase : String → String) (stored : JSONMap) (source : DriverValue) :
    Except ScanError JSONMap :=
  scanColumn "JSONMap" foldCase mapType stored source

end JSONMap

namespace JSONArray

/-- `Value`. -/
def value : JSONArray → DriverValue
  | none => .nil
  | some items => .bytes (some (marshal arrayType (some items)))

/-- `Scan`. -/
def scan (foldCase : String → String) (stored : Memory arrayType)
    (source : DriverValue) : Except ScanError (Memory arrayType) :=
  scanColumn "JSONArray" foldCase arrayType stored source

end JSONArray

namespace JSONField

/-- `Value`. -/
def value (type : GoType .value) (data : Value type) : DriverValue :=
  .bytes (some (marshal type data))

/-- `Scan`. -/
def scan (foldCase : String → String) (type : GoType .value) (stored : Memory type)
    (source : DriverValue) : Except ScanError (Memory type) :=
  scanColumn "JSONField" foldCase type stored source

end JSONField

/-! ## Scanning what was written -/

/-- A document of a value is scanned without an error. -/
theorem scanColumn_marshal (column : String) (foldCase : String → String)
    (type : GoType .value) (data : Value type) (stored : Memory type) :
    ∃ after, scanColumn column foldCase type stored (.bytes (some (marshal type data))) =
        .ok after ∧
      (read type after = data ↔ Restores type data stored) := by
  rcases unmarshal_marshal foldCase type data stored with ⟨after, decoded, same⟩
  refine ⟨after, ?_, same⟩
  rw [scanColumn, Option.bind_some, decoded]

/-- A map is restored unless the receiver has other keys. -/
theorem JSONMap.scan_value_eq_iff (foldCase : String → String) (data stored : JSONMap) :
    JSONMap.scan foldCase stored data.value = .ok data ↔
      ∀ entries, data = some entries → ∀ key ∈ stored.getD ∅, key ∈ entries := by
  cases data with
  | none =>
      refine iff_of_true rfl ?_
      intro entries impossible
      cases impossible
  | some entries =>
      have restored : ∃ after : JSONMap,
          JSONMap.scan foldCase stored (JSONMap.value (some entries)) = .ok after ∧
            (after = some entries ↔ Restores mapType (some entries) stored) :=
        scanColumn_marshal "JSONMap" foldCase mapType (some entries) stored
      rcases restored with ⟨after, scanned, same⟩
      rw [scanned, Except.ok.injEq, same]
      constructor
      · intro restores other isEntries
        exact (restores other isEntries).2
      · intro covered other isEntries
        exact ⟨fun _ _ _ => trivial, covered other isEntries⟩

theorem restoresItems_strings (items slots : List String) :
    RestoresItems (Restores (.scalar stringKind)) "" items slots := by
  induction items generalizing slots with
  | nil => trivial
  | cons item items ih => exact ⟨trivial, ih slots.tail⟩

/-- A list of strings is restored. -/
theorem JSONArray.scan_value (foldCase : String → String) (data : JSONArray)
    (stored : Memory arrayType) :
    ∃ after, JSONArray.scan foldCase stored data.value = .ok after ∧
      read arrayType after = data := by
  cases data with
  | none => exact ⟨none, rfl, rfl⟩
  | some items =>
      rcases scanColumn_marshal "JSONArray" foldCase arrayType (some items) stored with
        ⟨after, scanned, same⟩
      refine ⟨after, scanned, same.mpr ?_⟩
      intro other isItems
      exact restoresItems_strings other _

/--
A value of a column that is scanned into a receiver comes back as follows: a
map if it is nil or has all keys of the receiver, a list of strings always, and
a value of another type if and only if the type restores it from the receiver.
-/
theorem scan_value_restores_iff (foldCase : String → String) :
    (∀ data stored : JSONMap,
      JSONMap.scan foldCase stored data.value = .ok data ↔
        ∀ entries, data = some entries → ∀ key ∈ stored.getD ∅, key ∈ entries) ∧
    (∀ (data : JSONArray) (stored : Memory arrayType),
      ∃ after, JSONArray.scan foldCase stored data.value = .ok after ∧
        read arrayType after = data) ∧
    (∀ (type : GoType .value) (data : Value type) (stored : Memory type),
      ∃ after, JSONField.scan foldCase type stored (JSONField.value type data) = .ok after ∧
        (read type after = data ↔ Restores type data stored)) :=
  ⟨JSONMap.scan_value_eq_iff foldCase, JSONArray.scan_value foldCase,
    scanColumn_marshal "JSONField" foldCase⟩

/-- `TenantSpec`. -/
def tenantSpec : GoType .value :=
  .struct (.field "display_name" true (.scalar stringKind)
    (.field "description" true (.scalar stringKind) .noFields List.not_mem_nil)
    (by decide))

/-- Booleans: a null leaves the receiver as it was. -/
def boolKind : Scalar where
  Carrier := Bool
  zero := false
  isEmpty value := !value
  encode := .bool
  decode stored
    | .null => some stored
    | .bool value => some value
    | _ => none
  decode_encode _ _ := rfl

/-- `FieldDefinition` of a catalog item, whose default and value are of any type. -/
def fieldDefinition (floats : FloatText) : GoType .value :=
  .struct (.field "field" false (.scalar stringKind)
    (.field "locked" false (.scalar boolKind)
      (.field "default" true (.scalar (interfaceKind floats))
        (.field "value" true (.scalar (interfaceKind floats)) .noFields
          List.not_mem_nil) (by decide)) (by decide)) (by decide))

/-- A label, a display name and a default that are gone come back from the receiver. -/
theorem scan_keeps_old_content :
    JSONMap.scan id (some (Finmap.singleton "b" "2"))
        (JSONMap.value (some (Finmap.singleton "a" "1"))) ≠
      .ok (some (Finmap.singleton "a" "1")) ∧
    JSONField.scan id tenantSpec ("old", "", ()) (JSONField.value tenantSpec ("", "", ())) =
      .ok ("old", "", ()) ∧
    ∀ (floats : FloatText) (old : Doc.Plain floats),
      JSONField.scan id (fieldDefinition floats)
          ("cpu", false, old, ⟨.null, Doc.plain_null⟩, ())
          (JSONField.value (fieldDefinition floats)
            ("cpu", true, ⟨.null, Doc.plain_null⟩, ⟨.null, Doc.plain_null⟩, ())) =
        .ok ("cpu", true, old, ⟨.null, Doc.plain_null⟩, ()) := by
  refine ⟨?_, rfl, fun _ _ => rfl⟩
  rw [Ne, JSONMap.scan_value_eq_iff]
  intro covered
  have stays := covered _ rfl "b" ((Finmap.mem_singleton "b" "b" "2").mpr rfl)
  have same := (Finmap.mem_singleton "b" "a" "1").mp stays
  exact absurd same (by decide)

end Infractl.Store
