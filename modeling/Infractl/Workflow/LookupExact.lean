import Infractl.Lib.Buckets
import Infractl.Lib.Heap
import Infractl.Workflow.Dispatch

/-!
# What a lookup returns

Handlers are registered under a key that glues the resource type and the event
together with a dot.  `Lookup` copies the slice of a key and sorts the copy.

The result is always sorted, and the slices of the table are left alone.  It
holds the handlers of the type and event that were asked for exactly when none
of another type and event is registered under the same key, as `a.b` with `c`
and `a` with `b.c` are.
-/

namespace Infractl.Workflow

open Infractl.Lib

/-! ## Registered handlers -/

/-- The resource type and the event a handler is registered for. -/
def Handler.topic (handler : Handler) : String × String :=
  (handler.resourceType, handler.event)

/-- The key of a type and an event. -/
def topicKey (topic : String × String) : String :=
  dispatchKey topic.1 topic.2

namespace DispatchTable

/-- The table after a sequence of `Register` calls. -/
def registerAll (handlers : List Handler) : DispatchTable :=
  handlers.foldl register new

@[simp]
theorem register_actions_self (table : DispatchTable) (handler : Handler) :
    (table.register handler).actions (topicKey handler.topic) =
      table.actions (topicKey handler.topic) ++ [handler] :=
  Function.update_self ..

theorem register_actions_of_ne (table : DispatchTable) {handler : Handler}
    {key : String} (different : key ≠ topicKey handler.topic) :
    (table.register handler).actions key = table.actions key :=
  Function.update_of_ne different ..

theorem actions_foldl_register (handlers : List Handler)
    (table : DispatchTable) :
    (handlers.foldl register table).actions =
      handlers.foldl (Buckets.add (fun handler => topicKey handler.topic))
        table.actions :=
  (List.foldl_hom DispatchTable.actions (fun _ _ => rfl)).symm

/-- A bucket holds every handler registered under its key. -/
theorem actions_registerAll (handlers : List Handler) (key : String) :
    (registerAll handlers).actions key =
      handlers.filter (fun handler => topicKey handler.topic = key) := by
  rw [registerAll, actions_foldl_register, Buckets.foldl_add_apply]
  rfl

end DispatchTable

/-! ## Slices in memory -/

/-- The slices in memory, and the address of the one under each key. -/
structure StoredTable where
  slices : Heap (List Handler)
  actions : String → Option Nat

namespace StoredTable

/-- `NewDispatchTable`. -/
def new : StoredTable where
  slices := ⟨[]⟩
  actions _ := none

/-- `t.actions[key]`, which is a nil slice when the key is absent. -/
def bucket (stored : StoredTable) (key : String) : List Handler :=
  ((stored.actions key).bind stored.slices.read).getD []

/-- `Register`, where `append` leaves its result in a new slice. -/
def register (stored : StoredTable) (handler : Handler) : StoredTable :=
  let key := dispatchKey handler.resourceType handler.event
  let appended := stored.slices.alloc (stored.bucket key ++ [handler])
  { slices := appended.1
    actions := Function.update stored.actions key (some appended.2) }

def registerAll (handlers : List Handler) : StoredTable :=
  handlers.foldl register new

/--
`Lookup`: the slice is copied into a new one, which is then sorted in place.
The sort is not stable, so that it may leave any sorted order.
-/
def Lookup (stored : StoredTable) (resourceType event : String)
    (after : StoredTable) (result : Nat) : Prop :=
  let copy := stored.slices.alloc
    (stored.bucket (dispatchKey resourceType event))
  ∃ sorted : List Handler,
    sorted.Perm (stored.bucket (dispatchKey resourceType event)) ∧
      sorted.Pairwise (fun left right => right.less left = false) ∧
      after = { stored with
        slices := copy.1.modify copy.2 (fun _ => sorted) } ∧
      result = copy.2

@[simp]
theorem register_actions_self (stored : StoredTable) (handler : Handler) :
    (stored.register handler).actions (topicKey handler.topic) =
      some (stored.slices.alloc
        (stored.bucket (topicKey handler.topic) ++ [handler])).2 :=
  Function.update_self ..

theorem register_actions_of_ne (stored : StoredTable) {handler : Handler}
    {key : String} (different : key ≠ topicKey handler.topic) :
    (stored.register handler).actions key = stored.actions key :=
  Function.update_of_ne different ..

/-- The slices in memory are the buckets of the table. -/
structure Holds (stored : StoredTable) (table : DispatchTable) : Prop where
  absent : ∀ key, stored.actions key = none → table.actions key = []
  present : ∀ key address, stored.actions key = some address →
    stored.slices.read address = some (table.actions key)

section Holds

variable {stored : StoredTable} {table : DispatchTable}

theorem Holds.bucket (holds : stored.Holds table) (key : String) :
    stored.bucket key = table.actions key := by
  unfold StoredTable.bucket
  cases under : stored.actions key with
  | none => exact (holds.absent key under).symm
  | some address =>
      rw [Option.bind_some, holds.present key address under, Option.getD_some]

/-- Memory in which no slice has changed holds the same table. -/
theorem Holds.of_keeps (holds : stored.Holds table)
    {slices : Heap (List Handler)} (kept : stored.slices.Keeps slices) :
    Holds { stored with slices := slices } table where
  absent := holds.absent
  present key address under := kept address _ (holds.present key address under)

theorem new_holds : new.Holds DispatchTable.new where
  absent _ _ := rfl
  present _ _ under := by cases under

theorem Holds.register (holds : stored.Holds table) (handler : Handler) :
    (stored.register handler).Holds (table.register handler) := by
  constructor
  · intro key under
    by_cases same : key = topicKey handler.topic
    · rw [same, register_actions_self] at under
      cases under
    · rw [register_actions_of_ne stored same] at under
      rw [DispatchTable.register_actions_of_ne table same]
      exact holds.absent key under
  · intro key address under
    by_cases same : key = topicKey handler.topic
    · rw [same, register_actions_self] at under
      cases under
      rw [same, DispatchTable.register_actions_self, ← holds.bucket]
      exact stored.slices.read_alloc _
    · rw [register_actions_of_ne stored same] at under
      rw [DispatchTable.register_actions_of_ne table same]
      exact stored.slices.keeps_alloc _ address _
        (holds.present key address under)

theorem registerAll_holds (handlers : List Handler) :
    (registerAll handlers).Holds (DispatchTable.registerAll handlers) := by
  apply List.foldl_rel new_holds
  intro handler _ stored table holds
  exact holds.register handler

/-- A lookup changes no slice, and leaves one that the table's lookup allows. -/
theorem Lookup.spec {resourceType event : String} {after : StoredTable}
    {result : Nat} (holds : stored.Holds table)
    (looked : stored.Lookup resourceType event after result) :
    after.Holds table ∧
      ∃ handlers, after.slices.read result = some handlers ∧
        table.Lookup resourceType event handlers := by
  rcases looked with ⟨sorted, permutes, inOrder, rfl, rfl⟩
  refine ⟨holds.of_keeps (stored.slices.keeps_alloc_modify _ _), sorted,
    stored.slices.read_alloc_modify _ _, ?_, inOrder⟩
  rw [← holds.bucket]
  exact permutes

end Holds

end StoredTable

/-! ## The order of a lookup -/

/-- By phase, and by priority within a phase. -/
def InOrder (left right : Handler) : Prop :=
  phaseOrder left.phase < phaseOrder right.phase ∨
    phaseOrder left.phase = phaseOrder right.phase ∧
      left.priority ≤ right.priority

@[simp]
theorem less_eq_false_iff (left right : Handler) :
    right.less left = false ↔ InOrder left right := by
  unfold Handler.less InOrder
  split
  · next different =>
      rw [decide_eq_false_iff_not]
      omega
  · next same =>
      rw [decide_eq_false_iff_not]
      omega

/-- Handlers can always be sorted. -/
theorem exists_sorted (handlers : List Handler) :
    ∃ sorted : List Handler, sorted.Perm handlers ∧
      sorted.Pairwise (fun left right => right.less left = false) := by
  have sorted : (handlers.mergeSort (fun left right => !right.less left)).Pairwise
      (fun left right => (!right.less left) = true) := by
    apply List.pairwise_mergeSort
    · intro first second third before after
      simp only [Bool.not_eq_true', less_eq_false_iff, InOrder]
        at before after ⊢
      omega
    · intro left right
      simp only [Bool.or_eq_true, Bool.not_eq_true', less_eq_false_iff, InOrder]
      omega
  refine ⟨_, List.mergeSort_perm handlers _, sorted.imp ?_⟩
  intro left right notAfter
  simpa using notAfter

/--
After any sequence of `Register` calls a lookup returns, leaves the table as it
was, and gives a list sorted by phase and priority.  The list is one of the
handlers registered for the type and event exactly when no handler of another
type and event is registered under the same key.
-/
theorem lookup_exact_iff (registered : List Handler)
    (resourceType event : String) :
    (∃ after result,
      (StoredTable.registerAll registered).Lookup resourceType event
        after result) ∧
    ∀ after result,
      (StoredTable.registerAll registered).Lookup resourceType event
        after result →
      after.Holds (DispatchTable.registerAll registered) ∧
        ∃ handlers, after.slices.read result = some handlers ∧
          handlers.Pairwise InOrder ∧
          (handlers.Perm (registered.filter (fun handler =>
              handler.topic = (resourceType, event))) ↔
            Buckets.Unmixed Handler.topic topicKey registered
              (resourceType, event)) := by
  have holds := StoredTable.registerAll_holds registered
  constructor
  · rcases exists_sorted ((StoredTable.registerAll registered).bucket
      (dispatchKey resourceType event)) with ⟨sorted, permutes, inOrder⟩
    exact ⟨_, _, sorted, permutes, inOrder, rfl, rfl⟩
  · intro after result looked
    rcases looked.spec holds with ⟨kept, handlers, found, permutes, inOrder⟩
    refine ⟨kept, handlers, found, ?_, ?_⟩
    · exact inOrder.imp (fun sorted => (less_eq_false_iff _ _).mp sorted)
    · rw [DispatchTable.actions_registerAll] at permutes
      exact Buckets.perm_filter_iff_unmixed permutes

/-- The handler for the creation of a disk of a machine type. -/
def diskHandler : Handler :=
  ⟨"machine.disk", "create", .main, 0, "make-disk"⟩

/-- A lookup of another type and event returns that handler. -/
theorem lookup_returns_other_topic :
    ∃ after result,
      (StoredTable.registerAll [diskHandler]).Lookup "machine" "disk.create"
        after result ∧
      after.slices.read result = some [diskHandler] ∧
      [diskHandler].filter (fun handler =>
        handler.topic = ("machine", "disk.create")) = [] :=
  ⟨_, _, ⟨[diskHandler], List.Perm.refl _, List.pairwise_singleton .., rfl, rfl⟩,
    rfl, by decide⟩

end Infractl.Workflow
