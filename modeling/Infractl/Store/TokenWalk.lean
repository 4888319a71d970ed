import Infractl.Store.PageRace

/-!
# Walking on from any token

A client may send a continue token of its own making, with any 64-bit offset.
The list treats a negative offset as none, but goes on counting from it: the
next token carries the offset sent plus the number of rows returned.

From an offset that is not negative the walk ends, on its first page if the
offset lies beyond the rows.  From a negative one each page brings the offset
closer to zero as long as there are rows to return.  Without any row the offset
stays below the total of zero and the same token comes back for ever.
-/

namespace Infractl.Store

open Infractl.Lib

variable {Spec Status : Type}

/-- Following the tokens from this one reaches a page without a successor. -/
def WalkEnds (database : Database Spec Status) (table : Table Spec Status)
    (org : UUID) (filter : String) (limit : Int64) (continueToken : String) :
    Prop :=
  ∃ fuel pages,
    Paging.walk (fetchPage database table org filter limit) fuel continueToken =
      some pages

section Walk

variable {database : Database Spec Status} {table : Table Spec Status}
variable {org : UUID} {filter : String} {limit : Int64} {condition : Condition}
variable {continueToken : String} {offset : Int64}

theorem walkEnds_of_last {page : Listed Spec Status}
    (fetched : fetchPage database table org filter limit continueToken =
      some (page, none)) :
    WalkEnds database table org filter limit continueToken :=
  ⟨1, [page], Paging.walk_last fetched 0⟩

theorem walkEnds_of_more {page : Listed Spec Status} {next : String}
    (fetched : fetchPage database table org filter limit continueToken =
      some (page, some next))
    (ends : WalkEnds database table org filter limit next) :
    WalkEnds database table org filter limit continueToken := by
  rcases ends with ⟨fuel, pages, walked⟩
  exact ⟨fuel + 1, page :: pages, Paging.walk_more fetched walked⟩

variable (database table org condition limit) in
/-- The rows on the page at an offset, where a negative one is none. -/
def rowsFrom (offset : Int64) : List (Object Spec Status) :=
  ((orderedRows database table org condition).drop offset.toNatClampNeg).take
    (pageSize limit).toNatClampNeg

/-- One request from any offset. -/
theorem fetchPage_from (accepted : Accepts database filter condition)
    (limit : Int64) (started : startOffset continueToken = .ok offset) :
    ∃ page,
      fetchPage database table org filter limit continueToken =
        some
          (page,
            if offset + Int64.ofNat
                  (rowsFrom database table org limit condition offset).length <
                Int64.ofNat (orderedRows database table org condition).length then
              some (encodeContinueToken
                ⟨offset + Int64.ofNat
                  (rowsFrom database table org limit condition offset).length, 0⟩)
            else none) := by
  have listed :
      list database table org ⟨limit, continueToken, filter, ""⟩ =
        pageOf
          (Int64.ofNat (orderedRows database table org condition).length) offset
          (.ok (rowsFrom database table org limit condition offset)) := by
    rw [list_accepted ⟨limit, continueToken, filter, ""⟩ accepted started,
      show orderBy "" = defaultOrder from if_pos rfl,
      database.answer_defaultOrder _ _ _ _ matching_names_nodup,
      orderedRows_perm.length_eq]
    rfl
  rcases fetchPage_of_pageOf listed with ⟨page, _, fetched⟩
  exact ⟨page, fetched⟩

/-- An offset among the rows: the walk of a client that follows the tokens. -/
theorem walkEnds_of_inside (accepted : Accepts database filter condition)
    (fits : table.rows.length < 2 ^ 63) {position : Nat}
    (located :
      TokenAt (orderedRows database table org condition) continueToken position) :
    WalkEnds database table org filter limit continueToken := by
  rcases (fetchPage_serves accepted fits limit).walk
      (pageSize_toNatClampNeg_pos limit) located with
    ⟨fuel, pages, walked, _⟩
  exact ⟨fuel, pages, walked⟩

theorem walkEnds_of_nonneg (accepted : Accepts database filter condition)
    (fits : table.rows.length < 2 ^ 63)
    (started : startOffset continueToken = .ok offset) (nonneg : 0 ≤ offset) :
    WalkEnds database table org filter limit continueToken := by
  have position := Int64.ofNat_toNatClampNeg offset nonneg
  by_cases inside :
      offset.toNatClampNeg ≤ (orderedRows database table org condition).length
  · refine walkEnds_of_inside accepted fits ⟨?_, inside⟩
    rw [started, position]
  · -- Beyond the rows the page is empty, and the offset not below their number.
    have beyond := Nat.lt_of_not_le inside
    have empty : rowsFrom database table org limit condition offset = [] := by
      rw [rowsFrom, List.drop_eq_nil_of_le (Nat.le_of_lt beyond), List.take_nil]
    have notLess :
        ¬ offset <
          Int64.ofNat (orderedRows database table org condition).length := by
      intro less
      have bound : offset.toNatClampNeg < 2 ^ 63 := offset.toNatClampNeg_lt
      rw [← position, Int64.ofNat_lt_iff_lt bound (orderedRows_length_lt fits)]
        at less
      exact inside (Nat.le_of_lt less)
    rcases fetchPage_from accepted limit started with ⟨page, fetched⟩
    rw [empty, List.length_nil, show Int64.ofNat 0 = 0 from rfl, Int64.add_zero,
      if_neg notLess] at fetched
    exact walkEnds_of_last fetched

theorem toInt_add_of_neg {count : Nat} (negative : offset < 0)
    (bound : count < 2 ^ 63) :
    (offset + Int64.ofNat count).toInt = offset.toInt + count := by
  have below := Int64.lt_iff_toInt_lt.mp negative
  have above := offset.le_toInt
  rw [Int64.toInt_zero] at below
  rw [Int64.toInt_add, Int64.toInt_ofNat_of_lt bound]
  apply Int.bmod_eq_of_le <;> omega

/-- From a negative offset each page that holds a row leads closer to zero. -/
theorem walkEnds_of_rows (accepted : Accepts database filter condition)
    (fits : table.rows.length < 2 ^ 63)
    (someRow : orderedRows database table org condition ≠ [])
    (started : startOffset continueToken = .ok offset) :
    WalkEnds database table org filter limit continueToken := by
  induction distance : (-offset.toInt).toNat using Nat.strongRecOn
      generalizing continueToken offset with
  | _ distance ih =>
      by_cases nonneg : 0 ≤ offset
      · exact walkEnds_of_nonneg accepted fits started nonneg
      · have negative := Int64.not_le.mp nonneg
        have below := Int64.lt_iff_toInt_lt.mp negative
        rw [Int64.toInt_zero] at below
        have count :
            (rowsFrom database table org limit condition offset).length =
              min (pageSize limit).toNatClampNeg
                (orderedRows database table org condition).length := by
          rw [rowsFrom,
            Int64.toNatClampNeg_eq_zero_iff.mpr (Int64.le_of_lt negative),
            List.drop_zero, List.length_take]
        have progress :
            0 < (rowsFrom database table org limit condition offset).length := by
          rw [count]
          exact Nat.lt_min.mpr
            ⟨pageSize_toNatClampNeg_pos limit, List.length_pos_iff.mpr someRow⟩
        have bound :
            (rowsFrom database table org limit condition offset).length <
              2 ^ 63 := by
          rw [count]
          exact Nat.lt_of_le_of_lt (Nat.min_le_right _ _)
            (orderedRows_length_lt fits)
        have next := toInt_add_of_neg negative bound
        rcases fetchPage_from accepted limit started with ⟨page, fetched⟩
        split at fetched
        · refine walkEnds_of_more fetched
            (ih _ ?_ (startOffset_encode _) rfl)
          rw [next]
          omega
        · exact walkEnds_of_last fetched

/-- Without rows a negative offset is handed back as it came. -/
theorem not_walkEnds_of_no_rows (accepted : Accepts database filter condition)
    (noRow : orderedRows database table org condition = [])
    (started : startOffset continueToken = .ok offset) (negative : offset < 0) :
    ¬ WalkEnds database table org filter limit continueToken := by
  rintro ⟨fuel, pages, walked⟩
  induction fuel generalizing continueToken pages with
  | zero => cases walked
  | succ fuel ih =>
      have empty : rowsFrom database table org limit condition offset = [] := by
        rw [rowsFrom, noRow, List.drop_nil, List.take_nil]
      rcases fetchPage_from accepted limit started with ⟨page, fetched⟩
      rw [empty, noRow, List.length_nil, show Int64.ofNat 0 = 0 from rfl,
        Int64.add_zero, if_pos negative] at fetched
      simp only [Paging.walk, fetched] at walked
      rcases Option.map_eq_some_iff.mp walked with ⟨rest, walkedRest, _⟩
      exact ih (startOffset_encode _) rest walkedRest

end Walk

/-- A token that decodes is not empty, and the list starts from its offset. -/
theorem startOffset_of_decoded {continueToken : String} {token : ContinueToken}
    (decoded : decodeContinueToken continueToken = .ok token) :
    startOffset continueToken = .ok token.offset := by
  have nonempty : continueToken ≠ "" := by
    rintro rfl
    cases decoded
  rw [startOffset, if_neg nonempty, decoded]
  rfl

theorem list_refused {database : Database Spec Status} {filter : String}
    (refused : ∀ condition, ¬ Accepts database filter condition)
    (table : Table Spec Status) (org : UUID) (limit : Int64)
    (continueToken : String) :
    ∃ error,
      list database table org ⟨limit, continueToken, filter, ""⟩ =
        .error error := by
  cases parsed : parseFilter filter with
  | error error => exact ⟨.parsingFilter error, by simp only [list, parsed]⟩
  | ok condition =>
      cases rejected : database.rejects condition with
      | none => exact absurd ⟨parsed, rejected⟩ (refused condition)
      | some reason =>
          exact ⟨.counting reason, by simp only [list, parsed, rejected]⟩

/--
From every token that decodes the walk ends exactly when the offset is not
negative or a row is selected.  A filter that is refused starts no walk: its
first request fails.
-/
theorem walk_from_token_ends_iff
    (database : Database Spec Status) (table : Table Spec Status) (org : UUID)
    (filter : String) (limit : Int64) (continueToken : String)
    (token : ContinueToken)
    (decoded : decodeContinueToken continueToken = .ok token)
    (fits : table.rows.length < 2 ^ 63) :
    (∀ condition, Accepts database filter condition →
      (WalkEnds database table org filter limit continueToken ↔
        0 ≤ token.offset ∨ matching database table org condition ≠ [])) ∧
    ((∀ condition, ¬ Accepts database filter condition) →
      ∃ error,
        list database table org ⟨limit, continueToken, filter, ""⟩ =
          .error error) := by
  have started := startOffset_of_decoded decoded
  refine ⟨?_, fun refused => list_refused refused table org limit continueToken⟩
  intro condition accepted
  have sameRows :
      orderedRows database table org condition = [] ↔
        matching database table org condition = [] := by
    rw [← List.length_eq_zero_iff, orderedRows_perm.length_eq,
      List.length_eq_zero_iff]
  constructor
  · intro ends
    by_contra neither
    rw [not_or, not_not, Int64.not_le] at neither
    exact not_walkEnds_of_no_rows accepted (sameRows.mpr neither.2) started
      neither.1 ends
  · rintro (nonneg | someRow)
    · exact walkEnds_of_nonneg accepted fits started nonneg
    · exact walkEnds_of_rows accepted fits
        (fun noRow => someRow (sameRows.mp noRow)) started

/-- A token with the offset minus one. -/
def minusOne : String :=
  "eyJvIjotMX0"

/-- From minus one a walk through three machines ends. -/
theorem walk_from_minus_one_ends :
    decodeContinueToken minusOne = .ok ⟨-1, 0⟩ ∧
      WalkEnds insertingDatabase threeMachines 1 "" 1 minusOne := by
  have decoded : decodeContinueToken minusOne = .ok ⟨-1, 0⟩ := by rfl
  refine ⟨decoded, ?_⟩
  exact ((walk_from_token_ends_iff insertingDatabase threeMachines 1 "" 1 minusOne
    ⟨-1, 0⟩ decoded (by decide)).1 [] ⟨rfl, rfl⟩).mpr (Or.inr (by decide))

/-- A tenant without machines gets the token minus one back at each request. -/
theorem walk_from_minus_one_repeats :
    decodeContinueToken minusOne = .ok ⟨-1, 0⟩ ∧
      list insertingDatabase threeMachines 2 ⟨1, minusOne, "", ""⟩ =
        .ok ⟨[], minusOne, 0⟩ ∧
      ∀ fuel,
        Paging.walk (fetchPage insertingDatabase threeMachines 2 "" 1) fuel
          minusOne = none := by
  refine ⟨by rfl, by rfl, ?_⟩
  intro fuel
  induction fuel with
  | zero => rfl
  | succ fuel ih =>
      have fetched :
          fetchPage insertingDatabase threeMachines 2 "" 1 minusOne =
            some (⟨[], minusOne, 0⟩, some minusOne) := by
        rfl
      rw [Paging.walk, fetched]
      simp only [ih, Option.map_none]

end Infractl.Store
