import Infractl.Events.Handler
import Infractl.Events.Publish

/-!
# Walking the audit trail

A client reads the events of a tenant from PostgreSQL page by page, each time
with an offset grown by the size of a page, until a page is empty.  Meanwhile
events are published and saved, and the periodic cleanup deletes old ones.

The listing is newest first.  New events come in front of what the client has
still to read, and the cleanup takes events away behind it.  So an event moves
away from the client's offset only, and one that stays is not missed.
-/

namespace Infractl.Events

open Infractl.Auth (UUIDText)
open Infractl.Lib
open Infractl.Lib.Run
open Infractl.Store (UUID Time)

/-- The `DELETE` of a tick of `StartCleanup`, made at `now`. -/
def cleanUp (retention now : Time) (table : EventTable) : EventTable where
  rows := table.rows.filter fun row => !decide (row.createdAt < now - retention)
  distinct := table.distinct.sublist (List.filter_sublist.map _)

/-- The page size of a listing. -/
def ListOptions.pageSize (options : ListOptions) : Int64 :=
  if 0 < options.limit.toInt then options.limit else 100

/-- The table, and a client that has read some pages of it. -/
structure AuditWalk where
  table : EventTable
  offset : Int64 := 0
  ended : Bool := false
  pages : List (List Event) := []

namespace AuditWalk

/-- What the publishers, the cleaner and the walker do. -/
inductive Label where
  | publish (call : PublishCall)
  | save (saving : Saving)
  | cleanUp (retention now : Time)
  | request

section Machine

variable (text : UUIDText) (database : EventDatabase) (org : UUID)
variable (options : ListOptions)

/-- The client asks for the page at its offset, until a page is empty. -/
def request (walk : AuditWalk) : Option AuditWalk :=
  if walk.ended then none
  else
    match PgStore.list database none walk.table org
        { options with offset := walk.offset } with
    | .error _ => none
    | .ok page =>
        some
          { walk with
            offset := walk.offset + options.pageSize
            ended := page.isEmpty
            pages := walk.pages ++ [page] }

/-- One step of any of them. -/
def step (walk : AuditWalk) : Label → Option AuditWalk
  | .publish call => some { walk with table := (call.run text walk.table).table }
  | .save saving =>
      some { walk with table := (PgStore.save database walk.table saving).1 }
  | .cleanUp retention now =>
      some { walk with table := Events.cleanUp retention now walk.table }
  | .request => walk.request database org options

end Machine

/-! ## Where an event stands -/

/-- The number of events listed before a row: those that are newer. -/
def position (org : UUID) (options : ListOptions) (table : EventTable)
    (row : EventRecord) : Nat :=
  (table.rows.filter fun other => options.selects org other.event).countP
    fun other => decide (row.createdAt < other.createdAt)

section Position

variable {org : UUID} {options : ListOptions} {table : EventTable}
variable {row : EventRecord}

/-- With distinct times, the listing has each row at its position. -/
theorem getElem?_position (database : EventDatabase)
    (distinct : table.rows.Pairwise fun left right => left.createdAt ≠ right.createdAt)
    (stored : row ∈ table.rows) (selected : options.selects org row.event = true) :
    (PgStore.selected database table org options)[position org options table row]? =
      some row := by
  have perm := database.perm
    (table.rows.filter fun other => options.selects org other.event)
  have listed : row ∈ PgStore.selected database table org options :=
    perm.mem_iff.mpr (List.mem_filter.mpr ⟨stored, selected⟩)
  have apart : (PgStore.selected database table org options).Pairwise
      fun left right => left.createdAt ≠ right.createdAt :=
    (perm.pairwise_iff fun different => different.symm).mpr
      (distinct.sublist List.filter_sublist)
  have strict : (PgStore.selected database table org options).Pairwise
      fun left right => decide (right.createdAt < left.createdAt) = true := by
    refine ((database.sorted _).and apart).imp ?_
    rintro left right ⟨notNewer, different⟩
    exact decide_eq_true (lt_of_le_of_ne notNewer (Ne.symm different))
  have asymm : ∀ left right : EventRecord,
      decide (right.createdAt < left.createdAt) = true →
      decide (left.createdAt < right.createdAt) = false := by
    intro left right newer
    have before : right.createdAt < left.createdAt := of_decide_eq_true newer
    exact decide_eq_false (Int.not_lt.mpr (Int.le_of_lt before))
  have found := Paging.getElem?_countP asymm strict listed
  rw [position, ← perm.countP_eq]
  exact found

/-- A new row does not move a row forward. -/
theorem position_concat {after : EventTable} {added : EventRecord}
    (rows : after.rows = table.rows ++ [added]) :
    position org options table row ≤ position org options after row := by
  simp only [position, rows, List.filter_append, List.countP_append]
  exact Nat.le_add_right _ _

/-- The cleanup deletes nothing that is newer than a row it leaves. -/
theorem position_cleanUp {retention now : Time}
    (left : row ∈ (cleanUp retention now table).rows) :
    position org options (cleanUp retention now table) row =
      position org options table row := by
  have young : now - retention ≤ row.createdAt := by
    have kept := (List.mem_filter.mp left).2
    simpa using kept
  simp only [position, cleanUp, List.filter_filter, List.countP_filter]
  apply List.countP_congr
  intro other _
  simp only [Bool.and_eq_true, Bool.not_eq_true', decide_eq_true_eq,
    decide_eq_false_iff_not]
  constructor
  · rintro ⟨newer, selected, _⟩
    exact ⟨newer, selected⟩
  · rintro ⟨newer, selected⟩
    exact ⟨newer, selected,
      Int.not_lt.mpr (Int.le_trans young (Int.le_of_lt newer))⟩

end Position

/-! ## Events that stay -/

/-- A table that is as it was, or has one row more. -/
def Grows (table after : EventTable) : Prop :=
  after = table ∨ ∃ added, after.rows = table.rows ++ [added]

theorem grows_publish (text : UUIDText) (table : EventTable) (call : PublishCall) :
    Grows table (call.run text table).table := by
  by_cases inserts : call.Inserts table
  · cases insertion : table.insert? call.completed.record with
    | none =>
        rw [PublishCall.table_run, createRecord_of_taken _ insertion]
        exact Or.inl rfl
    | some inserted =>
        rw [PublishCall.table_run, createRecord_of_insert? inserts.1 insertion]
        exact Or.inr ⟨_, ((table.insert?_eq_some_iff inserted _).mp insertion).2⟩
  · exact Or.inl (PublishCall.table_of_not_inserts inserts)

theorem grows_save (database : EventDatabase) (table : EventTable) (saving : Saving) :
    Grows table (PgStore.save database table saving).1 := by
  simp only [PgStore.save]
  split
  · exact Or.inl rfl
  · split
    · exact Or.inl rfl
    · next inserted insertion =>
        exact Or.inr ⟨_, ((table.insert?_eq_some_iff inserted _).mp insertion).2⟩

/--
A step that the row outlives.  What it adds is newer than what was there, and
the table does not outgrow the client's offset.
-/
structure Spares (row : EventRecord) (walk : AuditWalk) (_ : Label)
    (next : AuditWalk) : Prop where
  stays : row ∈ next.table.rows
  newer : ∀ added ∈ next.table.rows, added ∉ walk.table.rows →
    ∀ other ∈ walk.table.rows, other.createdAt < added.createdAt
  bounded : next.table.rows.length < 2 ^ 62

/-- The row was returned, or the client has not come to it yet. -/
structure Awaits (org : UUID) (options : ListOptions) (row : EventRecord)
    (walk : AuditWalk) : Prop where
  distinct : walk.table.rows.Pairwise
    fun left right => left.createdAt ≠ right.createdAt
  stored : row ∈ walk.table.rows
  ahead : (∃ page ∈ walk.pages, row.event ∈ page) ∨
    (walk.ended = false ∧ 0 ≤ walk.offset.toInt ∧
      walk.offset.toInt ≤ position org options walk.table row)

section Steps

variable {text : UUIDText} {database : EventDatabase} {org : UUID}
variable {options : ListOptions} {row : EventRecord} {walk next : AuditWalk}
variable {label : Label}

theorem Awaits.of_table {table : EventTable}
    (awaits : Awaits org options row walk)
    (distinct : table.rows.Pairwise fun left right => left.createdAt ≠ right.createdAt)
    (stored : row ∈ table.rows)
    (behind : position org options walk.table row ≤ position org options table row) :
    Awaits org options row { walk with table := table } where
  distinct := distinct
  stored := stored
  ahead := by
    rcases awaits.ahead with returned | ⟨going, natural, before⟩
    · exact Or.inl returned
    · refine Or.inr ⟨going, natural, ?_⟩
      exact before.trans (Int.ofNat_le.mpr behind)

theorem Awaits.grow {table : EventTable}
    (awaits : Awaits org options row walk)
    (grows : Grows walk.table table)
    (spares : Spares row walk label { walk with table := table }) :
    Awaits org options row { walk with table := table } := by
  rcases grows with rfl | ⟨added, rows⟩
  · exact awaits
  · refine awaits.of_table ?_ spares.stays (position_concat rows)
    have fresh : added ∉ walk.table.rows := by
      intro member
      have keys := table.distinct
      rw [rows, List.map_append, List.nodup_append] at keys
      exact keys.2.2 _ (List.mem_map_of_mem member) _ (List.mem_singleton.mpr rfl) rfl
    rw [rows, List.pairwise_append]
    refine ⟨awaits.distinct, List.pairwise_singleton _ _, ?_⟩
    intro other member last lastMember
    cases List.mem_singleton.mp lastMember
    have later := spares.newer added (by simp [rows]) fresh other member
    exact Int.ne_of_lt later

theorem Awaits.cleanUp {retention now : Time}
    (awaits : Awaits org options row walk)
    (stays : row ∈ (Events.cleanUp retention now walk.table).rows) :
    Awaits org options row
      { walk with table := Events.cleanUp retention now walk.table } := by
  refine awaits.of_table ?_ stays (le_of_eq (position_cleanUp stays).symm)
  exact awaits.distinct.sublist List.filter_sublist

theorem pageSize_pos (options : ListOptions) : 0 < options.pageSize.toInt := by
  unfold ListOptions.pageSize
  split
  · next positive => exact positive
  · decide

theorem pageSize_lt (small : options.limit.toInt < 2 ^ 62) :
    options.pageSize.toInt < 2 ^ 62 := by
  unfold ListOptions.pageSize
  split
  · exact small
  · decide

/-- The page at an offset that is not negative. -/
theorem list_page (table : EventTable) {offset : Int64} (natural : 0 ≤ offset.toInt) :
    PgStore.list database none table org { options with offset := offset } =
      .ok ((((PgStore.selected database table org options).drop
        offset.toInt.toNat).take options.pageSize.toInt.toNat).map
          EventRecord.event) := by
  have dropped : (if 0 < offset.toInt then
      (PgStore.selected database table org options).drop offset.toInt.toNat
      else PgStore.selected database table org options) =
      (PgStore.selected database table org options).drop offset.toInt.toNat := by
    split
    · rfl
    · have zero : offset.toInt.toNat = 0 := by omega
      rw [zero, List.drop_zero]
  have size : (if 0 < options.limit.toInt then options.limit.toInt.toNat else 100) =
      options.pageSize.toInt.toNat := by
    unfold ListOptions.pageSize
    split
    · rfl
    · rfl
  exact congrArg Except.ok (congrArg _ (congrArg₂ _ size dropped))

/-- The next offset, when it does not overflow. -/
theorem toInt_nextOffset {offset size : Int64} (natural : 0 ≤ offset.toInt)
    (below : offset.toInt < 2 ^ 62) (positive : 0 < size.toInt)
    (small : size.toInt < 2 ^ 62) :
    (offset + size).toInt = offset.toInt + size.toInt := by
  rw [Int64.toInt_add]
  apply Int.bmod_eq_of_le <;> omega

/-- A row ahead of the client is on its next page, or ahead of the one after it. -/
theorem mem_page_or_ahead {rows : List EventRecord} {place : Nat} (offset size : Nat)
    (found : rows[place]? = some row) (before : offset ≤ place) :
    row.event ∈ ((rows.drop offset).take size).map EventRecord.event ∨
      offset + size ≤ place := by
  rcases Nat.lt_or_ge place (offset + size) with inside | beyond
  · left
    refine List.mem_map_of_mem (List.mem_of_getElem? (i := place - offset) ?_)
    rw [List.getElem?_take_of_lt (by omega), List.getElem?_drop,
      Nat.add_sub_cancel' before]
    exact found
  · exact Or.inr beyond

theorem Awaits.request
    (awaits : Awaits org options row walk)
    (selected : options.selects org row.event = true)
    (small : options.limit.toInt < 2 ^ 62)
    (bounded : walk.table.rows.length < 2 ^ 62)
    (requested : walk.request database org options = some next) :
    Awaits org options row next := by
  unfold AuditWalk.request at requested
  split at requested
  · cases requested
  · split at requested
    · cases requested
    · next page listed =>
        cases requested
        refine ⟨awaits.distinct, awaits.stored, ?_⟩
        rcases awaits.ahead with ⟨earlier, member, returned⟩ | ⟨_, natural, before⟩
        · exact Or.inl ⟨earlier, List.mem_append_left _ member, returned⟩
        · have found := getElem?_position database awaits.distinct awaits.stored selected
          have below := (List.getElem?_eq_some_iff.mp found).1
          have fits : (PgStore.selected database walk.table org options).length ≤
              walk.table.rows.length := by
            rw [PgStore.selected, (database.perm _).length_eq]
            exact List.length_filter_le _ _
          have positive := pageSize_pos options
          rw [list_page walk.table natural] at listed
          cases listed
          rcases mem_page_or_ahead walk.offset.toInt.toNat options.pageSize.toInt.toNat
              found (by omega) with onPage | beyond
          · exact Or.inl ⟨_, List.mem_append_right _ (List.mem_singleton.mpr rfl), onPage⟩
          · right
            refine ⟨?_, ?_⟩
            · rw [List.isEmpty_eq_false_iff, ← List.length_pos_iff, List.length_map,
                List.length_take, List.length_drop]
              omega
            · have next := toInt_nextOffset natural (by omega) positive
                (pageSize_lt small)
              simp only [next]
              omega

theorem Awaits.step
    (awaits : Awaits org options row walk)
    (selected : options.selects org row.event = true)
    (small : options.limit.toInt < 2 ^ 62)
    (stepped : walk.step text database org options label = some next)
    (spares : Spares row walk label next) :
    Awaits org options row next := by
  cases label with
  | publish call =>
      cases stepped
      exact awaits.grow (grows_publish text walk.table call) spares
  | save saving =>
      cases stepped
      exact awaits.grow (grows_save database walk.table saving) spares
  | cleanUp retention now =>
      cases stepped
      exact awaits.cleanUp spares.stays
  | request =>
      have same : next.table = walk.table := by
        simp only [AuditWalk.step, AuditWalk.request] at stepped
        split at stepped
        · cases stepped
        · split at stepped
          · cases stepped
          · cases stepped
            rfl
      exact awaits.request selected small (same ▸ spares.bounded) stepped

end Steps

end AuditWalk

/--
While a client walks the pages of a listing, events are published, saved and
cleaned up.  If what is added is newer than what is there, an event selected by
the listing that stays stored is returned, or is still ahead of the client.  A
client that comes to an empty page has seen all of them.
-/
theorem audit_walk_misses_nothing (text : UUIDText) (database : EventDatabase)
    (org : UUID) (options : ListOptions) (labels : List AuditWalk.Label)
    {table : EventTable} {final : AuditWalk} {row : EventRecord}
    (distinct : table.rows.Pairwise fun left right => left.createdAt ≠ right.createdAt)
    (stored : row ∈ table.rows)
    (selected : options.selects org row.event = true)
    (small : options.limit.toInt < 2 ^ 62)
    (spared : AllSteps (AuditWalk.step text database org options)
      (AuditWalk.Spares row) { table := table } labels)
    (reached : run (AuditWalk.step text database org options) { table := table }
      labels = some final) :
    (∃ page ∈ final.pages, row.event ∈ page) ∨
      (final.ended = false ∧
        final.offset.toInt ≤
          AuditWalk.position org options final.table row) := by
  have first : AuditWalk.Awaits org options row { table := table } :=
    ⟨distinct, stored, Or.inr ⟨rfl, Int.le_refl 0, Int.natCast_nonneg _⟩⟩
  have last := AllSteps.run_invariant (AuditWalk.Awaits org options row)
    (fun _ _ _ awaits stepped spares => awaits.step selected small stepped spares)
    first spared reached
  rcases last.ahead with returned | ⟨going, _, before⟩
  · exact Or.inl returned
  · exact Or.inr ⟨going, before⟩

/-- Two events of one tenant, the older one under the identifier `a`. -/
def auditTable : EventTable :=
  (pgStore stableDatabase none).saveAll twoSavings

/-- An event saved during the walk shifts the pages, and the oldest is returned last. -/
theorem oldest_event_returned :
    ∃ final, run (AuditWalk.step Auth.canonicalText stableDatabase 0 { limit := 1 })
        { table := auditTable }
        [.request, .save ⟨{ id := "c", timestamp := 3000 }, "", 0⟩, .request, .request,
          .request] = some final ∧
      final.pages.map (fun page => page.map Event.id) = [["b"], ["b"], ["a"], []] ∧
      final.ended = true ∧
      ∃ row ∈ auditTable.rows, row.id = "a" ∧
        ∃ page ∈ final.pages, row.event ∈ page := by
  have distinct : auditTable.rows.Pairwise
      fun left right => left.createdAt ≠ right.createdAt := by
    decide
  have stored : ({ id := "a", timestamp := 1000 } : Event).record ∈ auditTable.rows := by
    decide
  refine ⟨_, rfl, rfl, rfl, _, stored, rfl, ?_⟩
  refine (audit_walk_misses_nothing Auth.canonicalText stableDatabase 0 { limit := 1 }
    [.request, .save ⟨{ id := "c", timestamp := 3000 }, "", 0⟩, .request, .request,
      .request] distinct stored (by decide) (by decide) ?_ rfl).resolve_right ?_
  · refine .cons rfl ⟨by decide, by decide, by decide⟩ ?_
    refine .cons rfl ⟨by decide, by decide, by decide⟩ ?_
    refine .cons rfl ⟨by decide, by decide, by decide⟩ ?_
    refine .cons rfl ⟨by decide, by decide, by decide⟩ ?_
    exact .cons rfl ⟨by decide, by decide, by decide⟩ trivial
  · rintro ⟨going, _⟩
    cases going

end Infractl.Events
