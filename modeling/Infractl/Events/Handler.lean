import Infractl.Api.ListHandler
import Infractl.Events.Store

/-!
# The event handlers

`listEvents` answers with a page of the tenant's events.  `getEvent` asks the
store for one event of the tenant and compares its identifier, so that the
event a store lists first is the only one it finds: the oldest of the store in
memory, and the newest of the store in PostgreSQL.
-/

namespace Infractl.Events

open Infractl.Api (atoiValue orgIDFromContext)
open Infractl.Lib
open Infractl.Store (UUID)

variable {σ : Type}

/-- The parameters of a list request, each empty when it is absent. -/
structure EventQuery where
  limit : String := ""
  offset : String := ""
  kind : String := ""
  action : String := ""

/-- The answers of the two routes. -/
inductive EventReply where
  | events (code : Nat) (items : List Event) (total : Nat)
  | event (code : Nat) (found : Event)
  | error (code : Nat) (message : String)
deriving DecidableEq

/-- The options of a list request. -/
def EventQuery.options (query : EventQuery) : ListOptions :=
  let limit := atoiValue query.limit
  { limit := if limit ≤ 0 then 100 else limit
    offset := atoiValue query.offset
    kind := query.kind
    action := query.action }

/-- `listEvents`. -/
def listEvents (store : EventStore σ) (state : σ) (org : Option UUID)
    (query : EventQuery) : EventReply :=
  match orgIDFromContext org with
  | .error reason => .error 500 reason
  | .ok orgID =>
      match store.list state orgID query.options with
      | .error reason => .error 500 reason
      | .ok items => .events 200 items items.length

/-- `getEvent`. -/
def getEvent (store : EventStore σ) (state : σ) (org : Option UUID)
    (id : String) : EventReply :=
  match orgIDFromContext org with
  | .error reason => .error 500 reason
  | .ok orgID =>
      match store.list state orgID { limit := 1 } with
      | .error reason => .error 500 reason
      | .ok items =>
          match items.find? (fun event => event.id = id) with
          | some event => .event 200 event
          | none => .error 404 "event not found"

/-! ## Listing -/

theorem EventQuery.limit_pos (query : EventQuery) :
    0 < query.options.limit.toInt := by
  unfold EventQuery.options
  dsimp only
  split
  · decide
  · next positive =>
      rw [Int64.le_iff_toInt_le] at positive
      exact not_le.mp positive

/--
Whatever a client asks the store in memory for, its page is empty only when no
event of the tenant is of the kind and action.
-/
theorem listEvents_inMemoryStore (events : List Event) (org : UUID)
    (query : EventQuery) :
    ∃ items, listEvents inMemoryStore events (some org) query =
        .events 200 items items.length ∧
      (items = [] ↔ InMemoryStore.selected events org query.options = []) :=
  ⟨_, rfl, InMemoryStore.list_eq_nil_iff events org _ query.limit_pos⟩

/-! ## Looking up -/

/-- `getEvent` answers with an event of this tenant and identifier. -/
def Answers (store : EventStore σ) (savings : List Saving) (org : UUID)
    (id : String) : Prop :=
  ∃ event, getEvent store (store.saveAll savings) (some org) id = .event 200 event ∧
    event.orgID = org ∧ event.id = id

/-- The options of `getEvent` select all events of the tenant. -/
theorem selects_all (org : UUID) :
    ListOptions.selects { limit := 1 } org =
      fun event => decide (event.orgID = org) := by
  funext event
  simp [ListOptions.selects]

/-- What `getEvent` finds is what the store lists first. -/
theorem answers_iff {store : EventStore σ} {savings : List Saving} {org : UUID}
    {first : Option Event}
    (listed : store.list (store.saveAll savings) org { limit := 1 } = .ok first.toList)
    (own : ∀ event ∈ first, event.orgID = org) (id : String) :
    Answers store savings org id ↔ first.map Event.id = some id := by
  simp only [Answers, getEvent, orgIDFromContext, listed]
  cases first with
  | none => simp
  | some event =>
      by_cases same : event.id = id
      · simp [same, own event rfl]
      · simp [same]

/-- What the store lists first has been saved. -/
theorem answers_iff_saved_iff {store : EventStore σ} {savings : List Saving}
    {org : UUID} {first : Option Event}
    (listed : store.list (store.saveAll savings) org { limit := 1 } = .ok first.toList)
    (held : ∀ event ∈ first,
      event ∈ store.contents (store.saveAll savings) ∧ event.orgID = org)
    (id : String) :
    (Answers store savings org id ↔ store.Saved savings org id) ↔
      (store.Saved savings org id → first.map Event.id = some id) := by
  rw [answers_iff listed (fun event member => (held event member).2)]
  refine ⟨fun same => same.mpr, fun found => ⟨?_, found⟩⟩
  intro isFirst
  rcases Option.map_eq_some_iff.mp isFirst with ⟨event, member, sameID⟩
  exact (store.saved_iff savings org id).mpr
    ⟨event, (held event member).1, (held event member).2, sameID⟩

/-- The tenant's oldest event. -/
def InMemoryStore.oldest (events : List Event) (org : UUID) : Option Event :=
  events.find? (fun event => event.orgID = org)

/-- The tenant's newest event, as the database orders them. -/
def PgStore.newest (database : EventDatabase) (table : EventTable) (org : UUID) :
    Option Event :=
  (database.newestFirst
    (table.rows.filter fun row => row.event.orgID = org)).head?.map EventRecord.event

theorem InMemoryStore.list_one (events : List Event) (org : UUID) :
    InMemoryStore.list events org { limit := 1 } =
      (oldest events org).toList := by
  have limited : 0 < (1 : Int64).toInt := by decide
  rw [list_of_limit events org { limit := 1 } limited]
  change ((selected events org { limit := 1 }).drop (ite _ 0 0)).take 1 = _
  rw [ite_self, List.drop_zero, List.take_one, selected, List.head?_filter,
    selects_all, oldest]

theorem PgStore.list_one (database : EventDatabase) (table : EventTable)
    (org : UUID) :
    PgStore.list database none table org { limit := 1 } =
      .ok (newest database table org).toList := by
  have selection : selected database table org { limit := 1 } =
      database.newestFirst (table.rows.filter fun row => row.event.orgID = org) := by
    simp only [selected, selects_all]
  change Except.ok
    (((selected database table org { limit := 1 }).take 1).map EventRecord.event) = _
  rw [selection, List.take_one, newest, Option.toList_map]

theorem InMemoryStore.held_of_oldest {events : List Event} {org : UUID}
    {event : Event} (member : event ∈ oldest events org) :
    event ∈ events ∧ event.orgID = org := by
  have own := List.find?_some member
  exact ⟨List.mem_of_find?_eq_some member, of_decide_eq_true own⟩

theorem PgStore.held_of_newest {database : EventDatabase} {table : EventTable}
    {org : UUID} {event : Event} (member : event ∈ newest database table org) :
    event ∈ table.rows.map EventRecord.event ∧ event.orgID = org := by
  rcases Option.map_eq_some_iff.mp member with ⟨row, first, rfl⟩
  have listed := (database.perm _).mem_iff.mp (List.mem_of_mem_head? first)
  rcases List.mem_filter.mp listed with ⟨stored, own⟩
  exact ⟨List.mem_map_of_mem stored, of_decide_eq_true own⟩

/--
After any calls of `Save`, `getEvent` finds an event of a tenant and an
identifier if and only if it is the one that the store lists first: the
tenant's oldest in memory, and the newest in PostgreSQL.  So it finds what was
saved if and only if nothing of the kind was saved or that event is the first.
-/
theorem getEvent_finds_first (database : EventDatabase) (savings : List Saving)
    (org : UUID) (id : String) :
    ((Answers inMemoryStore savings org id ↔ inMemoryStore.Saved savings org id) ↔
      (inMemoryStore.Saved savings org id →
        (InMemoryStore.oldest (inMemoryStore.saveAll savings) org).map Event.id =
          some id)) ∧
    ((Answers (pgStore database none) savings org id ↔
        (pgStore database none).Saved savings org id) ↔
      ((pgStore database none).Saved savings org id →
        (PgStore.newest database ((pgStore database none).saveAll savings) org).map
            Event.id =
          some id)) := by
  constructor
  · refine answers_iff_saved_iff ?_ ?_ id
    · exact congrArg Except.ok (InMemoryStore.list_one _ org)
    · intro event member
      exact InMemoryStore.held_of_oldest member
  · refine answers_iff_saved_iff ?_ ?_ id
    · exact PgStore.list_one database _ org
    · intro event member
      exact PgStore.held_of_newest member

theorem pairwise_newestFirst (rows : List EventRecord) :
    (rows.insertionSort fun earlier later : EventRecord =>
        later.createdAt ≤ earlier.createdAt).Pairwise fun earlier later =>
      later.createdAt ≤ earlier.createdAt := by
  have total : Std.Total fun earlier later : EventRecord =>
      later.createdAt ≤ earlier.createdAt :=
    ⟨fun earlier later => le_total later.createdAt earlier.createdAt⟩
  have transitive : IsTrans EventRecord fun earlier later =>
      later.createdAt ≤ earlier.createdAt :=
    ⟨fun _ _ _ first second => le_trans second first⟩
  exact List.pairwise_insertionSort _ rows

/-- Rows of one time in the order they were inserted. -/
def stableDatabase : EventDatabase where
  newestFirst rows :=
    rows.insertionSort fun earlier later => later.createdAt ≤ earlier.createdAt
  perm rows := List.perm_insertionSort _ rows
  sorted := pairwise_newestFirst
  refuses _ := none

def twoSavings : List Saving :=
  [⟨{ id := "a", timestamp := 1000 }, "", 0⟩, ⟨{ id := "b", timestamp := 2000 }, "", 0⟩]

/-- Of two events, each store finds one and answers that the other is unknown. -/
theorem one_of_two_is_not_found :
    inMemoryStore.Saved twoSavings 0 "b" ∧
      getEvent inMemoryStore (inMemoryStore.saveAll twoSavings) (some 0) "b" =
        .error 404 "event not found" ∧
      (pgStore stableDatabase none).Saved twoSavings 0 "a" ∧
      getEvent (pgStore stableDatabase none)
          ((pgStore stableDatabase none).saveAll twoSavings) (some 0) "a" =
        .error 404 "event not found" := by
  refine ⟨?_, rfl, ?_, rfl⟩
  · exact ⟨[⟨{ id := "a", timestamp := 1000 }, "", 0⟩], _, [], rfl, rfl, rfl, rfl⟩
  · exact ⟨[], _, [⟨{ id := "b", timestamp := 2000 }, "", 0⟩], rfl, rfl, rfl, rfl⟩

end Infractl.Events
