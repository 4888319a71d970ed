import Mathlib.Data.Finmap

/-!
# The base resource

`Resource` is the record embedded by every domain resource: the columns that
scope it to a tenant, version it, nest it under a parent and mark its
deletion.  `Object Spec Status` is a domain resource, the base record together
with the contents of its `spec` and `status` columns.

Every domain resource embeds `Resource`, hence has the accessor methods the
store asks for.  Whether it can also marshal its spec, and so have its
generation tracked, differs from kind to kind and is the one field of `Kind`.

Versions are 64-bit signed integers that wrap around, as in the source.  Times
count nanoseconds from the zero time, so that `0` is the time of a field never
set.
-/

namespace Infractl.Store

/-- A 128-bit tenant identifier. -/
abbrev UUID := BitVec 128

/-- Nanoseconds since the zero time. -/
abbrev Time := Int

/-- A time column keeps microseconds. -/
def storedTime (time : Time) : Time :=
  time / 1000 * 1000

/-- The order of texts in the database. -/
structure Collation where
  notAfter : String → String → Bool
  trans :
    ∀ first second third, notAfter first second = true →
      notAfter second third = true → notAfter first third = true
  total : ∀ left right, (notAfter left right || notAfter right left) = true
  antisymm :
    ∀ left right, notAfter left right = true → notAfter right left = true →
      left = right

/-- Texts compared character by character. -/
def codePointOrder : Collation where
  notAfter left right := decide (left ≤ right)
  trans _ _ _ first second := by
    simp only [decide_eq_true_eq] at first second ⊢
    exact String.le_trans first second
  total left right := by
    simp only [Bool.or_eq_true, decide_eq_true_eq]
    exact String.le_total left right
  antisymm _ _ before after := by
    simp only [decide_eq_true_eq] at before after
    exact String.le_antisymm before after

theorem version_ne_succ (version : Int64) : version ≠ version + 1 := by
  intro same
  grind

theorem version_add_succ (version : Int64) (count : Nat) :
    version + Int64.ofNat count + 1 = version + Int64.ofNat (count + 1) := by
  rw [Int64.ofNat_add, Int64.add_assoc]
  rfl

/-- Versions repeat only after `2 ^ 64` writes. -/
theorem eq_zero_of_version_eq {version : Int64} {count : Nat}
    (bounded : count < 2 ^ 64)
    (same : version + Int64.ofNat count = version) :
    count = 0 := by
  have zero : Int64.ofNat count = 0 := by grind
  have bits := congrArg (fun value => value.toBitVec.toNat) zero
  simp at bits
  omega

theorem toInt_version {version : Int64} {count : Nat}
    (bounded : version.toInt + count < 2 ^ 63) :
    (version + Int64.ofNat count).toInt = version.toInt + count := by
  have lower := version.le_toInt
  rw [Int64.toInt_add, Int64.toInt_ofNat', Int64.size, Int.add_bmod_bmod]
  apply Int.bmod_eq_of_le
  · omega
  · omega

/-- A string map stored as JSONB; `none` is the nil map, stored as NULL. -/
abbrev JSONMap := Option (Finmap (fun _ : String => String))

/-- A string slice stored as JSONB; `none` is the nil slice. -/
abbrev JSONArray := Option (List String)

/-- The composite primary key of every resource table. -/
@[ext]
structure Key where
  org : UUID
  name : String
deriving DecidableEq

/-- The base record, with the zero value of each field as its default. -/
@[ext]
structure Resource where
  orgID : UUID := 0
  name : String := ""
  parent : Option String := none
  labels : JSONMap := none
  annotations : JSONMap := none
  finalizers : JSONArray := none
  generation : Int64 := 0
  resourceVersion : Int64 := 0
  owner : Option String := none
  creator : String := ""
  createdAt : Time := 0
  updatedAt : Time := 0
  deletionTimestamp : Option Time := none
  deletedAt : Option Time := none
deriving DecidableEq

namespace Resource

/-- The primary key. -/
def key (resource : Resource) : Key :=
  ⟨resource.orgID, resource.name⟩

/-- `GetFinalizers`, where a nil slice has no elements. -/
def getFinalizers (resource : Resource) : List String :=
  resource.finalizers.getD []

/-- The insert hook: a generation or version left at zero becomes one. -/
def beforeCreate (resource : Resource) : Resource :=
  { resource with
    generation :=
      if resource.generation = 0 then 1 else resource.generation
    resourceVersion :=
      if resource.resourceVersion = 0 then 1 else resource.resourceVersion }

end Resource

/-- A domain resource: the base record and its two JSONB columns. -/
@[ext]
structure Object (Spec Status : Type) where
  resource : Resource
  spec : Spec
  status : Status
deriving DecidableEq

namespace Object

variable {Spec Status : Type}

/-- The primary key. -/
def key (object : Object Spec Status) : Key :=
  object.resource.key

/-- A row that no soft delete has marked. -/
def live (object : Object Spec Status) : Bool :=
  object.resource.deletedAt.isNone

/-- The parent column, `none` also when it holds the empty string. -/
def parentName (object : Object Spec Status) : Option String :=
  object.resource.parent.filter (fun name => name ≠ "")

/-- `SetResourceVersion`. -/
def setResourceVersion (object : Object Spec Status) (version : Int64) :
    Object Spec Status :=
  { object with resource := { object.resource with resourceVersion := version } }

/-- `SetGeneration`. -/
def setGeneration (object : Object Spec Status) (generation : Int64) :
    Object Spec Status :=
  { object with resource := { object.resource with generation := generation } }

theorem live_iff (object : Object Spec Status) :
    object.live = true ↔ object.resource.deletedAt = none := by
  simp [live]

@[simp]
theorem parentName_eq_some_iff (object : Object Spec Status) (name : String) :
    object.parentName = some name ↔
      object.resource.parent = some name ∧ name ≠ "" := by
  simp [parentName, Option.filter_eq_some_iff]

end Object

/--
What the store may know about a kind of resource: `SpecBytes`, for the kinds
that implement `GenerationTracker`.  Marshalling may fail.
-/
structure Kind (Spec Status : Type) where
  specBytes : Option (Object Spec Status → Option (List UInt8))

/-- The errors a store call can return. -/
inductive StoreError where
  | notFound
  | alreadyExists
  | conflict
  | finalizersPending
  | parentNotFound
  | circularParent
  | hasChildren
  | database (context : String)
deriving DecidableEq

/-- The message of an error; a database error is wrapped in its context. -/
def StoreError.message : StoreError → String
  | .notFound => "resource not found"
  | .alreadyExists => "resource already exists"
  | .conflict => "resource version conflict"
  | .finalizersPending => "resource has pending finalizers"
  | .parentNotFound => "parent resource not found"
  | .circularParent => "circular parent reference"
  | .hasChildren => "resource has children"
  | .database context => context

end Infractl.Store
