import Infractl.Lib.Paging
import Infractl.Store.ListIsolation

/-!
# Walking the pages of a list

A client that asks for a list and follows its continue tokens, with the same
filter and limit throughout and no write in between, sees every row the filter
selects once, in the order of names.

Each token decodes to the offset of the page it stands for, so that the list
serves slices of one fixed ordering of the rows; the rest is
`Lib.Paging.Serves.walk`.  The count of a table is a 64-bit integer, so its
rows are fewer than `2 ^ 63`.
-/

namespace Infractl.Store

open Infractl.Lib

variable {Spec Status : Type}

/-- One request of the walk: a page, and the token to go on with if any. -/
def fetchPage (database : Database Spec Status) (table : Table Spec Status)
    (org : UUID) (filter : String) (limit : Int64) (continueToken : String) :
    Option (Listed Spec Status × Option String) :=
  match list database table org ⟨limit, continueToken, filter, ""⟩ with
  | .error _ => none
  | .ok page =>
      some
        (page,
          if page.continueToken = "" then none else some page.continueToken)

/-- The pages together hold the selected rows, as a walk should show them. -/
structure Enumerates (database : Database Spec Status)
    (table : Table Spec Status) (org : UUID) (condition : Condition)
    (limit : Int64) (pages : List (Listed Spec Status)) : Prop where
  exact :
    ∀ row, row ∈ pages.flatMap Listed.items ↔
      row ∈ table.rows ∧ row.live = true ∧ row.resource.orgID = org ∧
        database.selects condition row = true
  once : (pages.flatMap Listed.items).Nodup
  ordered :
    (pages.flatMap Listed.items).Pairwise (fun left right =>
      database.collation.notAfter left.name right.name = true)
  full :
    ∀ page ∈ pages.dropLast,
      (page.items.length : Int) = (pageSize limit).toInt
  total :
    ∀ page ∈ pages,
      page.total.toInt = (pages.flatMap Listed.items).length

section Walk

variable {database : Database Spec Status} {table : Table Spec Status}
variable {org : UUID} {filter : String} {limit : Int64} {condition : Condition}

variable (database table org condition) in
/-- The rows a walk goes through. -/
def orderedRows : List (Object Spec Status) :=
  database.collation.sort (matching database table org condition)

theorem orderedRows_perm :
    (orderedRows database table org condition).Perm
      (matching database table org condition) :=
  database.collation.sort_perm _

theorem orderedRows_length_lt (fits : table.rows.length < 2 ^ 63) :
    (orderedRows database table org condition).length < 2 ^ 63 := by
  rw [orderedRows_perm.length_eq]
  exact Nat.lt_of_le_of_lt matching_length_le fits

/-- A token for an offset into the ordered rows. -/
def TokenAt (rows : List (Object Spec Status)) (continueToken : String)
    (offset : Nat) : Prop :=
  startOffset continueToken = .ok (Int64.ofNat offset) ∧ offset ≤ rows.length

/-- The page found at an offset: a slice of the ordered rows. -/
theorem list_at_offset (accepted : Accepts database filter condition)
    (fits : table.rows.length < 2 ^ 63) (limit : Int64)
    {continueToken : String} {offset : Nat}
    (located :
      TokenAt (orderedRows database table org condition) continueToken offset) :
    list database table org ⟨limit, continueToken, filter, ""⟩ =
      pageOf
        (Int64.ofNat (orderedRows database table org condition).length)
        (Int64.ofNat offset)
        (.ok (((orderedRows database table org condition).drop offset).take
          (pageSize limit).toNatClampNeg)) := by
  have bound : offset < 2 ^ 63 :=
    Nat.lt_of_le_of_lt located.2 (orderedRows_length_lt fits)
  rw [list_accepted ⟨limit, continueToken, filter, ""⟩ accepted located.1,
    show orderBy "" = defaultOrder from if_pos rfl,
    database.answer_defaultOrder _ _ _ _ matching_names_nodup,
    Int64.toNatClampNeg_ofNat_of_lt bound, orderedRows_perm.length_eq]
  rfl

/-- More rows follow a page exactly when the 64-bit test says so. -/
theorem more_rows_iff {offset length count : Nat}
    (inside : offset + length ≤ count) (bound : count < 2 ^ 63) :
    Int64.ofNat offset + Int64.ofNat length < Int64.ofNat count ↔
      offset + length < count := by
  rw [← Int64.ofNat_add]
  exact Int64.ofNat_lt_iff_lt (by omega) bound

/-- A request answered with some rows, and whether it goes on. -/
theorem fetchPage_of_pageOf {continueToken : String} {total offset : Int64}
    {items : List (Object Spec Status)}
    (listed :
      list database table org ⟨limit, continueToken, filter, ""⟩ =
        pageOf total offset (.ok items)) :
    ∃ page,
      page.items = items ∧
        fetchPage database table org filter limit continueToken =
          some
            (page,
              if offset + Int64.ofNat items.length < total then
                some
                  (encodeContinueToken ⟨offset + Int64.ofNat items.length, 0⟩)
              else none) := by
  rw [fetchPage, listed]
  simp only [pageOf]
  generalize offset + Int64.ofNat items.length = nextOffset
  by_cases more : nextOffset < total
  · refine ⟨⟨items, encodeContinueToken ⟨nextOffset, 0⟩, total⟩, rfl, ?_⟩
    simp only [if_pos more, if_neg (encodeContinueToken_ne_empty _)]
  · refine ⟨⟨items, "", total⟩, rfl, ?_⟩
    simp only [if_neg more, if_true]

theorem fetchPage_serves (accepted : Accepts database filter condition)
    (fits : table.rows.length < 2 ^ 63) (limit : Int64) :
    Paging.Serves (fetchPage database table org filter limit) Listed.items
      (orderedRows database table org condition)
      (pageSize limit).toNatClampNeg
      (TokenAt (orderedRows database table org condition)) := by
  intro continueToken offset located
  rcases fetchPage_of_pageOf (list_at_offset accepted fits limit located) with
    ⟨page, slice, fetched⟩
  refine ⟨page, _, fetched, slice, ?_⟩
  have bound : (orderedRows database table org condition).length < 2 ^ 63 :=
    orderedRows_length_lt fits
  have inside := located.2
  generalize orderedRows database table org condition = rows at *
  generalize (pageSize limit).toNatClampNeg = size at *
  have length :
      ((rows.drop offset).take size).length = min size (rows.length - offset) := by
    rw [List.length_take, List.length_drop]
  rw [length] at fetched ⊢
  have more := more_rows_iff
    (show offset + min size (rows.length - offset) ≤ rows.length by omega) bound
  by_cases follows : offset + min size (rows.length - offset) < rows.length
  · rw [if_pos (more.mpr follows)]
    have full : min size (rows.length - offset) = size := by omega
    refine ⟨fun ended => absurd ended (by simp), ?_⟩
    intro following continued
    cases continued
    refine ⟨by omega, ?_, by omega⟩
    rw [startOffset_encode, full, Int64.ofNat_add]
  · rw [if_neg (fun less => follows (more.mp less))]
    refine ⟨fun _ => by omega, ?_⟩
    intro following continued
    cases continued

theorem pageOf_total {total offset : Int64}
    {answer : Except String (List (Object Spec Status))}
    {page : Listed Spec Status}
    (listed : pageOf total offset answer = .ok page) :
    page.total = total := by
  cases answer with
  | error reason => cases listed
  | ok items =>
      cases listed
      rfl

/-- Every page reports the number of all selected rows. -/
theorem list_total (accepted : Accepts database filter condition)
    {continueToken : String} {page : Listed Spec Status}
    (listed :
      list database table org ⟨limit, continueToken, filter, ""⟩ = .ok page) :
    page.total =
      Int64.ofNat (orderedRows database table org condition).length := by
  cases started : startOffset continueToken with
  | error error =>
      simp only [list, accepted.1, accepted.2, started] at listed
      cases listed
  | ok offset =>
      rw [list_accepted ⟨limit, continueToken, filter, ""⟩ accepted started]
        at listed
      rw [orderedRows_perm.length_eq]
      exact pageOf_total listed

theorem list_of_fetchPage {continueToken : String} {page : Listed Spec Status}
    {next : Option String}
    (fetched :
      fetchPage database table org filter limit continueToken =
        some (page, next)) :
    list database table org ⟨limit, continueToken, filter, ""⟩ = .ok page := by
  rw [fetchPage] at fetched
  split at fetched
  · cases fetched
  · cases fetched
    assumption

end Walk

theorem tokenAt_start (rows : List (Object Spec Status)) :
    TokenAt rows "" 0 :=
  ⟨if_pos rfl, Nat.zero_le _⟩

theorem pageSize_toInt (limit : Int64) :
    ((pageSize limit).toNatClampNeg : Int) = (pageSize limit).toInt := by
  have positive := Int64.lt_iff_toInt_lt.mp (pageSize_pos limit)
  exact Int.toNat_of_nonneg (Int.le_of_lt positive)

theorem pageSize_toNatClampNeg_pos (limit : Int64) :
    0 < (pageSize limit).toNatClampNeg := by
  have positive := Int64.lt_iff_toInt_lt.mp (pageSize_pos limit)
  rw [← pageSize_toInt] at positive
  exact Int.ofNat_lt.mp positive

/--
A walk through the pages of a list from its start ends, and its pages
enumerate the selected rows.
-/
theorem walk_enumerates
    (database : Database Spec Status) (table : Table Spec Status) (org : UUID)
    (filter : String) (limit : Int64) (condition : Condition)
    (accepted : Accepts database filter condition)
    (fits : table.rows.length < 2 ^ 63) :
    ∃ fuel pages,
      Paging.walk (fetchPage database table org filter limit) fuel "" =
          some pages ∧
        Enumerates database table org condition limit pages := by
  rcases (fetchPage_serves accepted fits limit).walk
      (pageSize_toNatClampNeg_pos limit)
      (tokenAt_start (orderedRows database table org condition)) with
    ⟨fuel, pages, walked, joined, full⟩
  rw [List.drop_zero] at joined
  refine ⟨fuel, pages, walked, ?_, ?_, ?_, ?_, ?_⟩
  · intro row
    rw [joined, orderedRows_perm.mem_iff]
    exact mem_matching_iff
  · rw [joined]
    exact orderedRows_perm.nodup_iff.mpr matching_nodup
  · rw [joined]
    exact database.collation.sort_pairwise _
  · intro page member
    rw [full page member]
    exact pageSize_toInt limit
  · rw [joined, ← Int64.toInt_ofNat_of_lt (orderedRows_length_lt fits)]
    refine Paging.forall_mem_walk ?_ walked
    intro continueToken page next fetched
    exact congrArg Int64.toInt
      (list_total accepted (list_of_fetchPage fetched))

/-- The rows named `a` and those named `b`. -/
def eitherName : Condition :=
  [[⟨"name".toList, by decide, .equal, "a".toList⟩],
    [⟨"name".toList, by decide, .equal, "b".toList⟩]]

theorem walk_two_machines :
    Accepts countingDatabase "name=a OR name=b" eitherName ∧
      ∃ fuel pages,
        Paging.walk
            (fetchPage countingDatabase sharedMachines 1 "name=a OR name=b" 1)
            fuel "" =
            some pages ∧
          Enumerates countingDatabase sharedMachines 1 eitherName 1 pages := by
  have accepted : Accepts countingDatabase "name=a OR name=b" eitherName :=
    ⟨rfl, rfl⟩
  exact ⟨accepted, walk_enumerates _ _ _ _ _ _ accepted (by decide)⟩

end Infractl.Store
