import Infractl.Events.Notification
import Infractl.Lib.Paging

/-!
# Event stores

Events are kept for queries by one of two stores.  `InMemoryStore` appends them
to a list; `PgStore` inserts them into the table that `PgBus` writes as well,
and lists the newest first.

A listing selects the events of a tenant, drops the first `Offset` of them and
keeps at most `Limit`.  The in-memory store leaves the offset aside when it is
not smaller than the number of events selected.  So it answers a request past
the end with the first page again, and a client that asks for one page after
the other does not see an empty one.
-/

namespace Infractl.Events

open Infractl.Lib
open Infractl.Store (UUID Time)

/-! ## The interface -/

/-- `ListOptions`. -/
structure ListOptions where
  limit : Int64 := 0
  offset : Int64 := 0
  kind : String := ""
  action : String := ""

/-- The options select an event; an empty option selects all. -/
def ListOptions.selects (options : ListOptions) (org : UUID) (event : Event) :
    Bool :=
  event.orgID = org &&
    (options.kind = "" || event.kind = options.kind) &&
    (options.action = "" || event.action = options.action)

/-- A call of `Save`, with the identifier and the time it may fill in. -/
structure Saving where
  event : Event
  freshID : String
  now : Time

/-- Why an event is not saved. -/
inductive SaveError where
  | refused (reason : String)
  | duplicateKey
deriving DecidableEq

/--
The interface `Store`, over the state of an implementation.  `keeps` is what a
store keeps of an event it saves, and `contents` what it holds in the order it
was saved: each call of `Save` that succeeds adds one event to them.
-/
structure EventStore (σ : Type) where
  new : σ
  save : σ → Saving → σ × Option SaveError
  list : σ → UUID → ListOptions → Except String (List Event)
  keeps : Saving → Event
  contents : σ → List Event
  contents_new : contents new = []
  contents_save : ∀ state saving,
    contents (save state saving).1 =
      if (save state saving).2 = none then contents state ++ [keeps saving]
      else contents state

namespace EventStore

variable {σ : Type} (store : EventStore σ)

/-- The state after a sequence of calls of `Save`. -/
def saveAll (savings : List Saving) : σ :=
  savings.foldl (fun state saving => (store.save state saving).1) store.new

/-- One of the calls has saved an event of this tenant and identifier. -/
def Saved (savings : List Saving) (org : UUID) (id : String) : Prop :=
  ∃ earlier saving later, savings = earlier ++ saving :: later ∧
    (store.save (store.saveAll earlier) saving).2 = none ∧
    (store.keeps saving).orgID = org ∧ (store.keeps saving).id = id

@[simp]
theorem saveAll_concat (savings : List Saving) (saving : Saving) :
    store.saveAll (savings ++ [saving]) =
      (store.save (store.saveAll savings) saving).1 := by
  rw [saveAll, List.foldl_append]
  rfl

theorem saved_concat_iff (savings : List Saving) (last : Saving) (org : UUID)
    (id : String) :
    store.Saved (savings ++ [last]) org id ↔
      store.Saved savings org id ∨
        ((store.save (store.saveAll savings) last).2 = none ∧
          (store.keeps last).orgID = org ∧ (store.keeps last).id = id) := by
  constructor
  · rintro ⟨earlier, saving, later, split, saved⟩
    rcases List.eq_nil_or_concat later with rfl | ⟨between, final, rfl⟩
    · rcases List.append_inj' split rfl with ⟨rfl, same⟩
      cases same
      exact Or.inr saved
    · rw [List.concat_eq_append, ← List.cons_append, ← List.append_assoc] at split
      rcases List.append_inj' split rfl with ⟨rfl, _⟩
      exact Or.inl ⟨earlier, saving, between, rfl, saved⟩
  · rintro (⟨earlier, saving, later, rfl, saved⟩ | saved)
    · exact ⟨earlier, saving, later ++ [last], by simp, saved⟩
    · exact ⟨savings, last, [], rfl, saved⟩

/-- What the store holds is what was saved. -/
theorem saved_iff (savings : List Saving) (org : UUID) (id : String) :
    store.Saved savings org id ↔
      ∃ event ∈ store.contents (store.saveAll savings),
        event.orgID = org ∧ event.id = id := by
  induction savings using List.reverseRecOn with
  | nil =>
      refine iff_of_false ?_ ?_
      · rintro ⟨earlier, saving, later, impossible, _⟩
        simp at impossible
      · rintro ⟨event, member, _⟩
        rw [saveAll, List.foldl_nil, store.contents_new] at member
        cases member
  | append_singleton savings last ih =>
      rw [saved_concat_iff, ih, saveAll_concat, store.contents_save]
      split
      · next succeeded =>
          rw [and_iff_right succeeded]
          simp only [List.mem_append, List.mem_singleton, or_and_right,
            exists_or, exists_eq_left]
      · next failed => rw [or_iff_left (fun saved => failed saved.1)]

end EventStore

/-! ## The store in memory -/

namespace InMemoryStore

/-- The events that a listing selects. -/
def selected (events : List Event) (org : UUID) (options : ListOptions) :
    List Event :=
  events.filter (options.selects org)

/-- `List`. -/
def list (events : List Event) (org : UUID) (options : ListOptions) :
    List Event :=
  let result := selected events org options
  let result :=
    if 0 < options.offset.toInt ∧ options.offset.toInt < result.length then
      result.drop options.offset.toInt.toNat
    else result
  if 0 < options.limit.toInt ∧ options.limit.toInt < result.length then
    result.take options.limit.toInt.toNat
  else result

end InMemoryStore

/-- `InMemoryStore`. -/
def inMemoryStore : EventStore (List Event) where
  new := []
  save events saving := (events ++ [saving.event], none)
  list events org options := .ok (InMemoryStore.list events org options)
  keeps saving := saving.event
  contents events := events
  contents_new := rfl
  contents_save _ _ := rfl

/-! ## The store in PostgreSQL -/

/--
What the database decides: the order of rows of one time, and which rows its
columns cannot hold, with the error it gives for them.
-/
structure EventDatabase where
  newestFirst : List EventRecord → List EventRecord
  perm : ∀ rows, (newestFirst rows).Perm rows
  sorted : ∀ rows, (newestFirst rows).Pairwise fun earlier later =>
    later.createdAt ≤ earlier.createdAt
  refuses : EventRecord → Option String

namespace PgStore

/-- `Save`. -/
def save (database : EventDatabase) (table : EventTable) (saving : Saving) :
    EventTable × Option SaveError :=
  let record := (saving.event.complete saving.freshID saving.now).record
  match database.refuses record with
  | some reason => (table, some (.refused reason))
  | none =>
      match table.insert? record with
      | none => (table, some .duplicateKey)
      | some inserted => (inserted, none)

/-- The rows that a listing selects, newest first. -/
def selected (database : EventDatabase) (table : EventTable) (org : UUID)
    (options : ListOptions) : List EventRecord :=
  database.newestFirst
    (table.rows.filter fun row => options.selects org row.event)

/-- `List`; an `outage` is the error of a query that fails. -/
def list (database : EventDatabase) (outage : Option String)
    (table : EventTable) (org : UUID) (options : ListOptions) :
    Except String (List Event) :=
  match outage with
  | some reason => .error reason
  | none =>
      let rows := selected database table org options
      let rows :=
        if 0 < options.offset.toInt then rows.drop options.offset.toInt.toNat
        else rows
      let limit :=
        if 0 < options.limit.toInt then options.limit.toInt.toNat else 100
      .ok ((rows.take limit).map EventRecord.event)

/-- A record that is saved is a new last row. -/
theorem rows_save (database : EventDatabase) (table : EventTable)
    (saving : Saving) :
    (save database table saving).1.rows.map EventRecord.event =
      if (save database table saving).2 = none then
        table.rows.map EventRecord.event ++
          [(saving.event.complete saving.freshID saving.now).record.event]
      else table.rows.map EventRecord.event := by
  have outcome (result : EventTable × Option SaveError)
      (same : save database table saving = result) :
      result.1.rows.map EventRecord.event =
        if result.2 = none then
          table.rows.map EventRecord.event ++
            [(saving.event.complete saving.freshID saving.now).record.event]
        else table.rows.map EventRecord.event := by
    simp only [save] at same
    split at same
    · cases same
      rfl
    · split at same
      · cases same
        rfl
      · next inserted insertion =>
          cases same
          rw [((table.insert?_eq_some_iff inserted _).mp insertion).2,
            List.map_append, if_pos rfl]
          rfl
  exact outcome _ rfl

end PgStore

/-- `PgStore`, when the database works or not. -/
def pgStore (database : EventDatabase) (outage : Option String) :
    EventStore EventTable where
  new := KeyedTable.empty
  save := PgStore.save database
  list := PgStore.list database outage
  keeps saving := (saving.event.complete saving.freshID saving.now).record.event
  contents table := table.rows.map EventRecord.event
  contents_new := rfl
  contents_save := PgStore.rows_save database

/-! ## Pages of the store in memory -/

namespace InMemoryStore

variable (events : List Event) (org : UUID) (options : ListOptions)

/-- The offset counts when it is smaller than the number of events selected. -/
theorem list_of_limit (limited : 0 < options.limit.toInt) :
    list events org options =
      ((selected events org options).drop
        (if options.offset.toInt < (selected events org options).length then
          options.offset.toInt.toNat
        else 0)).take options.limit.toInt.toNat := by
  have offset (result : List Event) :
      (if 0 < options.offset.toInt ∧ options.offset.toInt < result.length then
        result.drop options.offset.toInt.toNat
      else result) =
        result.drop
          (if options.offset.toInt < result.length then
            options.offset.toInt.toNat
          else 0) := by
    by_cases positive : 0 < options.offset.toInt
    · simp only [positive, true_and]
      split <;> rfl
    · have zero : options.offset.toInt.toNat = 0 := by omega
      simp only [positive, false_and, zero, ite_self, List.drop_zero]
  have limit (result : List Event) :
      (if 0 < options.limit.toInt ∧ options.limit.toInt < result.length then
        result.take options.limit.toInt.toNat
      else result) = result.take options.limit.toInt.toNat := by
    split
    · rfl
    · rw [List.take_of_length_le (by omega)]
  unfold list
  simp only [offset, limit]

/-- A page is empty only when no event is selected. -/
theorem list_eq_nil_iff (limited : 0 < options.limit.toInt) :
    list events org options = [] ↔ selected events org options = [] := by
  rw [list_of_limit events org options limited, List.take_eq_nil_iff,
    List.drop_eq_nil_iff, ← List.length_eq_zero_iff]
  split <;> omega

theorem list_eq_page_iff (limited : 0 < options.limit.toInt)
    (nonnegative : 0 ≤ options.offset.toInt) :
    list events org options =
        ((selected events org options).drop options.offset.toInt.toNat).take
          options.limit.toInt.toNat ↔
      selected events org options = [] ∨
        options.offset.toInt < (selected events org options).length := by
  constructor
  · intro page
    by_contra past
    rcases not_or.mp past with ⟨someSelected, past⟩
    rw [List.drop_of_length_le (by omega), List.take_nil,
      list_eq_nil_iff events org options limited] at page
    exact someSelected page
  · rintro (none | inside)
    · rw [none, List.drop_nil, List.take_nil,
        list_eq_nil_iff events org options limited]
      exact none
    · rw [list_of_limit events org options limited, if_pos inside]

/-- A client asks for the next page until a page is empty. -/
def fetchPage (offset : Int64) : Option (List Event × Option Int64) :=
  let page := list events org { options with offset := offset }
  some (page, if page = [] then none else some (offset + options.limit))

/-- The client comes to an end when there is nothing to fetch. -/
theorem walk_ends_iff (limited : 0 < options.limit.toInt) :
    (∃ fuel pages, Paging.walk (fetchPage events org options) fuel 0 = some pages ∧
        pages.flatten = selected events org options) ↔
      selected events org options = [] := by
  have empty (offset : Int64) :
      list events org { options with offset := offset } = [] ↔
        selected events org options = [] :=
    list_eq_nil_iff events org { options with offset := offset } limited
  constructor
  · rintro ⟨fuel, pages, walked, _⟩
    by_contra someSelected
    have more (offset : Int64) : ∃ page next,
        fetchPage events org options offset = some (page, some next) :=
      ⟨_, offset + options.limit,
        by rw [fetchPage, if_neg (mt (empty offset).mp someSelected)]⟩
    rw [Paging.walk_eq_none_of_more more] at walked
    cases walked
  · intro none
    refine ⟨1, [[]], ?_, ?_⟩
    · simp only [Paging.walk, fetchPage, (empty 0).mpr none, if_true]
    · rw [none]
      rfl

end InMemoryStore

/--
A listing of the store in memory is the page that its offset and limit stand
for when nothing is selected or the offset is within what is selected; and a
client that asks for one page after the other until a page is empty gets all
events selected only when there are none.
-/
theorem inMemoryStore_list_iff (events : List Event) (org : UUID)
    (options : ListOptions) (nonnegative : 0 ≤ options.offset)
    (limited : 0 < options.limit) :
    ((inMemoryStore.list events org options =
        .ok (((InMemoryStore.selected events org options).drop
          options.offset.toInt.toNat).take options.limit.toInt.toNat)) ↔
      InMemoryStore.selected events org options = [] ∨
        options.offset.toInt < (InMemoryStore.selected events org options).length) ∧
    ((∃ fuel pages,
        Paging.walk (InMemoryStore.fetchPage events org options) fuel 0 =
          some pages ∧
        pages.flatten = InMemoryStore.selected events org options) ↔
      InMemoryStore.selected events org options = []) := by
  have positive : 0 < options.limit.toInt := Int64.lt_iff_toInt_lt.mp limited
  have start : 0 ≤ options.offset.toInt := Int64.le_iff_toInt_le.mp nonnegative
  refine ⟨?_, InMemoryStore.walk_ends_iff events org options positive⟩
  refine Iff.trans ?_ (InMemoryStore.list_eq_page_iff events org options positive start)
  exact ⟨Except.ok.inj, congrArg Except.ok⟩

/-- Three events, one of them of another organisation. -/
def threeEvents : List Event :=
  [{ id := "a" }, { id := "b", orgID := 1 }, { id := "c" }]

/-- The second page of two events is the second; the pages come to no end. -/
theorem second_page_of_two :
    inMemoryStore.list threeEvents 0 { limit := 1, offset := 1 } =
        .ok [{ id := "c" }] ∧
      ¬ ∃ fuel pages,
        Paging.walk (InMemoryStore.fetchPage threeEvents 0
            { limit := 1, offset := 1 }) fuel 0 = some pages ∧
          pages.flatten = [{ id := "a" }, { id := "c" }] := by
  have pages := inMemoryStore_list_iff threeEvents 0 { limit := 1, offset := 1 }
    (by decide) (by decide)
  refine ⟨pages.1.mpr (.inr (by decide)), ?_⟩
  intro ended
  cases pages.2.mp ended

/-- The second page of one event is the event again, and so is the third. -/
theorem second_page_of_one :
    InMemoryStore.selected [{ id := "a" }] 0 { limit := 1, offset := 1 } =
        [{ id := "a" }] ∧
      inMemoryStore.list [{ id := "a" }] 0 { limit := 1, offset := 1 } =
        .ok [{ id := "a" }] ∧
      inMemoryStore.list [{ id := "a" }] 0 { limit := 1, offset := 2 } =
        .ok [{ id := "a" }] :=
  ⟨rfl, rfl, rfl⟩

end Infractl.Events
