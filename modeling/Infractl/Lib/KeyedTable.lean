import Mathlib.Data.List.Nodup
import Mathlib.Data.List.Perm.Basic

/-!
# Tables with a primary key

A `KeyedTable key` is a finite list of rows whose keys are pairwise distinct.
The list order is the insertion order and plays no role in lookups; a position
in it identifies a row through every statement, because rows are inserted at
the end and rewritten in place.

The statements are those of a relational store:

* `find` reads the row stored under a key;
* `insert?` adds a row unless its key is taken;
* `put` stores a row in place of the one with its key, if there is one, and
  `erase` removes the row of a key;
* `modify` rewrites the rows selected by a predicate, leaving keys alone; and
* `rewrite?` rewrites selected rows with no promise about keys, and is
  refused when the result would hold a key twice.

`map` is a table seen through a map of its rows that keeps their keys; the
statements commute with it.
-/

namespace Infractl.Lib

universe u v

/-- A finite table whose rows have pairwise distinct keys. -/
structure KeyedTable {K : Type u} {R : Type v} (key : R → K) where
  rows : List R
  distinct : (rows.map key).Nodup

namespace KeyedTable

variable {K : Type u} {R : Type v} {key : R → K}

/-- The table without rows. -/
def empty : KeyedTable key :=
  ⟨[], List.nodup_nil⟩

theorem eq_of_key_eq (table : KeyedTable key)
    {left right : R}
    (leftMember : left ∈ table.rows) (rightMember : right ∈ table.rows)
    (sameKey : key left = key right) :
    left = right :=
  List.inj_on_of_nodup_map table.distinct leftMember rightMember sameKey

/--
Rewrite in place every row selected by `selected`.  The rewriting leaves the
key of a row as it was.
-/
def modify (table : KeyedTable key) (selected : R → Bool) (rewrite : R → R)
    (keepsKey : ∀ row, key (rewrite row) = key row) :
    KeyedTable key where
  rows := table.rows.map (fun row => if selected row then rewrite row else row)
  distinct := by
    rw [List.map_map]
    have sameKeys :
        key ∘ (fun row => if selected row then rewrite row else row) = key := by
      funext row
      by_cases chosen : selected row <;> simp [chosen, keepsKey]
    rw [sameKeys]
    exact table.distinct

@[simp]
theorem modify_rows (table : KeyedTable key) (selected : R → Bool)
    (rewrite : R → R) (keepsKey : ∀ row, key (rewrite row) = key row) :
    (table.modify selected rewrite keepsKey).rows =
      table.rows.map (fun row => if selected row then rewrite row else row) :=
  rfl

section OneRewritten

variable {table : KeyedTable key} {selected : R → Bool} {chosen : R}
variable (only : ∀ row ∈ table.rows, selected row = true ↔ row = chosen)
include only

theorem rewritten_chosen (rewrite : R → R) (member : chosen ∈ table.rows) :
    (if selected chosen then rewrite chosen else chosen) = rewrite chosen :=
  if_pos ((only chosen member).mpr rfl)

theorem rewritten_other (rewrite : R → R) {row : R} (member : row ∈ table.rows)
    (different : row ≠ chosen) :
    (if selected row then rewrite row else row) = row :=
  if_neg (mt (only row member).mp different)

/-- The rows are the rewritten one and the others. -/
theorem mem_rewritten_iff (rewrite : R → R) (member : chosen ∈ table.rows) (row : R) :
    row ∈ table.rows.map (fun row => if selected row then rewrite row else row) ↔
      row = rewrite chosen ∨ row ∈ table.rows ∧ row ≠ chosen := by
  rw [List.mem_map]
  constructor
  · rintro ⟨old, oldMember, rfl⟩
    by_cases isChosen : old = chosen
    · left
      rw [isChosen, rewritten_chosen only rewrite member]
    · right
      rw [rewritten_other only rewrite oldMember isChosen]
      exact ⟨oldMember, isChosen⟩
  · rintro (rfl | ⟨oldMember, different⟩)
    · exact ⟨chosen, member, rewritten_chosen only rewrite member⟩
    · exact ⟨row, oldMember, rewritten_other only rewrite oldMember different⟩

end OneRewritten

/-- The rows before and after are related, position by position. -/
def RowWise (related : R → R → Prop) (before after : KeyedTable key) : Prop :=
  ∀ (position : Nat) (old new : R),
    before.rows[position]? = some old → after.rows[position]? = some new →
    related old new

section RowWise

variable {table result : KeyedTable key} {related : R → R → Prop} {rewrite : R → R}

theorem rowWise_of_map (rowsEq : result.rows = table.rows.map rewrite)
    (holds : ∀ row ∈ table.rows, related row (rewrite row)) :
    RowWise related table result := by
  intro position old new stored rewritten
  rw [rowsEq, List.getElem?_map, stored] at rewritten
  cases rewritten
  exact holds old (List.mem_of_getElem? stored)

variable (reflexive : ∀ row, related row row)
include reflexive

theorem rowWise_refl (table : KeyedTable key) : RowWise related table table :=
  rowWise_of_map (List.map_id table.rows).symm fun row _ => reflexive row

theorem rowWise_of_append {added : List R} (rowsEq : result.rows = table.rows ++ added) :
    RowWise related table result := by
  intro position old new stored found
  have inRange := (List.getElem?_eq_some_iff.mp stored).1
  rw [rowsEq, List.getElem?_append_left inRange, stored] at found
  cases found
  exact reflexive old

/-- When one row is rewritten, only that row has to be related. -/
theorem rowWise_iff_of_rewritten {selected : R → Bool} {chosen : R}
    (rowsEq :
      result.rows =
        table.rows.map (fun row => if selected row then rewrite row else row))
    (member : chosen ∈ table.rows)
    (only : ∀ row ∈ table.rows, selected row = true ↔ row = chosen) :
    RowWise related table result ↔ related chosen (rewrite chosen) := by
  constructor
  · intro holds
    rcases List.getElem?_of_mem member with ⟨position, stored⟩
    apply holds position chosen _ stored
    rw [rowsEq, List.getElem?_map, stored, Option.map_some,
      rewritten_chosen only rewrite member]
  · intro holds
    refine rowWise_of_map rowsEq fun row rowMember => ?_
    split
    · next isChosen =>
        cases (only row rowMember).mp isChosen
        exact holds
    · exact reflexive row

end RowWise

section Lookup

variable [DecidableEq K]

/-- The row stored under a key. -/
def find (table : KeyedTable key) (wanted : K) : Option R :=
  table.rows.find? (fun row => decide (key row = wanted))

theorem find_eq_some_iff (table : KeyedTable key) (wanted : K) (row : R) :
    table.find wanted = some row ↔ row ∈ table.rows ∧ key row = wanted := by
  constructor
  · intro found
    exact
      ⟨List.mem_of_find?_eq_some found,
        by simpa using List.find?_some found⟩
  · rintro ⟨member, keyEq⟩
    cases found : table.find wanted with
    | none =>
        have absent := List.find?_eq_none.mp found row member
        simp [keyEq] at absent
    | some other =>
        have otherMember := List.mem_of_find?_eq_some found
        have otherKey : key other = wanted := by
          simpa using List.find?_some found
        rw [table.eq_of_key_eq member otherMember
          (keyEq.trans otherKey.symm)]

variable {table result : KeyedTable key} {wanted : K} {row : R}

theorem find_mem {table : KeyedTable key} (found : table.find wanted = some row) :
    row ∈ table.rows :=
  ((table.find_eq_some_iff wanted row).mp found).1

theorem key_of_find {table : KeyedTable key} (found : table.find wanted = some row) :
    key row = wanted :=
  ((table.find_eq_some_iff wanted row).mp found).2

theorem find_key {table : KeyedTable key} (member : row ∈ table.rows) :
    table.find (key row) = some row :=
  (table.find_eq_some_iff (key row) row).mpr ⟨member, rfl⟩

theorem find_eq_none_iff (table : KeyedTable key) (wanted : K) :
    table.find wanted = none ↔ wanted ∉ table.rows.map key := by
  simp [find, List.find?_eq_none]

@[simp]
theorem find_empty (wanted : K) :
    (empty : KeyedTable key).find wanted = none :=
  rfl

/-- A key that is stored belongs to one row only. -/
theorem filter_key_of_find {table : KeyedTable key}
    (found : table.find wanted = some row) :
    table.rows.filter (fun stored => decide (key stored = wanted)) = [row] := by
  have distinct := (List.Nodup.of_map key table.distinct).filter
    (fun stored => decide (key stored = wanted))
  apply List.perm_singleton.mp
  apply (List.perm_ext_iff_of_nodup distinct (List.nodup_singleton row)).mpr
  intro stored
  simp only [List.mem_filter, decide_eq_true_eq, List.mem_singleton]
  rw [← table.find_eq_some_iff wanted stored, found, Option.some.injEq]
  exact eq_comm

/-- Add a row at the end; refused when the key is already stored. -/
def insert? (table : KeyedTable key) (row : R) :
    Option (KeyedTable key) :=
  if fresh : key row ∈ table.rows.map key then
    none
  else
    some ⟨table.rows ++ [row], by
      rw [List.map_append, List.nodup_append]
      refine ⟨table.distinct, by simp, ?_⟩
      intro old oldMember new newMember equal
      have newEq : new = key row := by simpa using newMember
      exact fresh (newEq ▸ equal ▸ oldMember)⟩

theorem insert?_eq_none_iff (table : KeyedTable key) (row : R) :
    table.insert? row = none ↔ ∃ stored, table.find (key row) = some stored := by
  rw [insert?]
  split
  · next taken =>
      simp only [true_iff]
      rcases List.mem_map.mp taken with ⟨stored, member, keyEq⟩
      exact ⟨stored, (table.find_eq_some_iff _ _).mpr ⟨member, keyEq⟩⟩
  · next fresh =>
      have absent := (table.find_eq_none_iff (key row)).mpr fresh
      simp [absent]

theorem insert?_eq_some_iff (table result : KeyedTable key) (row : R) :
    table.insert? row = some result ↔
      table.find (key row) = none ∧ result.rows = table.rows ++ [row] := by
  rw [find_eq_none_iff, insert?]
  split
  · next taken => simp [taken]
  · next fresh =>
      constructor
      · rintro equal
        cases equal
        exact ⟨fresh, rfl⟩
      · rintro ⟨-, rowsEq⟩
        cases result
        cases rowsEq
        rfl

theorem find_insert? (inserted : table.insert? row = some result) (wanted : K) :
    result.find wanted =
      if key row = wanted then some row else table.find wanted := by
  rcases (table.insert?_eq_some_iff result row).mp inserted with
    ⟨absent, rowsEq⟩
  simp only [find, rowsEq, List.find?_append]
  split
  · next keyEq =>
      subst keyEq
      have missing : table.rows.find? (fun row' => decide (key row' = key row)) = none :=
        absent
      simp [missing]
  · next keyNe =>
      simp [keyNe]

/-- An insert leaves the stored rows where they are. -/
theorem find_of_insert? {row stored : R}
    (inserted : table.insert? row = some result)
    (found : table.find wanted = some stored) :
    result.find wanted = some stored := by
  rw [find_insert? inserted]
  split
  · next same =>
      subst same
      have absent := ((table.insert?_eq_some_iff result row).mp inserted).1
      cases absent.symm.trans found
  · exact found

/-- Remove the row of a key. -/
def erase (table : KeyedTable key) (wanted : K) : KeyedTable key where
  rows := table.rows.filter (fun row => decide (key row ≠ wanted))
  distinct := table.distinct.sublist (List.filter_sublist.map key)

@[simp]
theorem find_erase (table : KeyedTable key) (erased wanted : K) :
    (table.erase erased).find wanted =
      if wanted = erased then none else table.find wanted := by
  ext row
  rw [find_eq_some_iff]
  split
  · next same =>
      subst same
      simp [erase]
  · next different =>
      rw [find_eq_some_iff]
      simp only [erase, List.mem_filter, decide_eq_true_eq]
      constructor
      · rintro ⟨⟨member, _⟩, sameKey⟩
        exact ⟨member, sameKey⟩
      · rintro ⟨member, rfl⟩
        exact ⟨⟨member, different⟩, rfl⟩

/-- Store a row, in place of the one that has its key. -/
def put (table : KeyedTable key) (row : R) : KeyedTable key where
  rows := (table.erase (key row)).rows ++ [row]
  distinct := by
    rw [List.map_append, List.nodup_append]
    refine ⟨(table.erase (key row)).distinct, List.nodup_singleton _, ?_⟩
    intro stored member new newMember same
    rcases List.mem_map.mp member with ⟨other, otherMember, rfl⟩
    have kept := (List.mem_filter.mp otherMember).2
    rw [same, List.mem_singleton.mp newMember] at kept
    exact of_decide_eq_true kept rfl

theorem find_put (table : KeyedTable key) (row : R) (wanted : K) :
    (table.put row).find wanted =
      if wanted = key row then some row else table.find wanted := by
  have inserted :
      (table.erase (key row)).insert? row = some (table.put row) := by
    rw [insert?_eq_some_iff, find_erase, if_pos rfl]
    exact ⟨rfl, rfl⟩
  rw [find_insert? inserted, find_erase]
  by_cases same : wanted = key row
  · rw [if_pos same.symm, if_pos same]
  · rw [if_neg (Ne.symm same), if_neg same, if_neg same]

/-- Rows rewritten in place under their own keys are found rewritten. -/
theorem find_of_rows_eq_map {rewrite : R → R}
    (rowsEq : result.rows = table.rows.map rewrite)
    (keepsKey : ∀ row ∈ table.rows, key (rewrite row) = key row) (wanted : K) :
    result.find wanted = (table.find wanted).map rewrite := by
  ext row
  simp only [find_eq_some_iff, rowsEq, List.mem_map, Option.map_eq_some_iff]
  constructor
  · rintro ⟨⟨old, member, rfl⟩, keyEq⟩
    exact ⟨old, ⟨member, (keepsKey old member).symm.trans keyEq⟩, rfl⟩
  · rintro ⟨old, ⟨member, keyEq⟩, rfl⟩
    exact ⟨⟨old, member, rfl⟩, (keepsKey old member).trans keyEq⟩

/-- A single row rewritten in place is found under its new key only. -/
theorem find_of_rewritten
    {selected : R → Bool} {rewrite : R → R} {chosen : R}
    (rowsEq :
      result.rows =
        table.rows.map (fun row => if selected row then rewrite row else row))
    (member : chosen ∈ table.rows)
    (only : ∀ row ∈ table.rows, selected row = true ↔ row = chosen) (wanted : K) :
    result.find wanted =
      if wanted = key (rewrite chosen) then some (rewrite chosen)
      else if wanted = key chosen then none
      else table.find wanted := by
  have memberIff (row : R) : row ∈ result.rows ↔
      row = rewrite chosen ∨ row ∈ table.rows ∧ row ≠ chosen := by
    rw [rowsEq, mem_rewritten_iff only rewrite member]
  split
  · next new =>
      rw [new]
      exact find_key ((memberIff _).mpr (Or.inl rfl))
  · next notNew =>
      ext row
      rw [find_eq_some_iff, memberIff]
      split
      · next old =>
          refine iff_of_false ?_ (Option.some_ne_none row ∘ Eq.symm)
          rintro ⟨rfl | ⟨oldMember, different⟩, keyEq⟩
          · exact notNew keyEq.symm
          · exact different (table.eq_of_key_eq oldMember member (keyEq.trans old))
      · next notOld =>
          rw [find_eq_some_iff]
          constructor
          · rintro ⟨rfl | ⟨oldMember, _⟩, keyEq⟩
            · exact absurd keyEq.symm notNew
            · exact ⟨oldMember, keyEq⟩
          · rintro ⟨oldMember, keyEq⟩
            refine ⟨Or.inr ⟨oldMember, ?_⟩, keyEq⟩
            rintro rfl
            exact notOld keyEq.symm

theorem find_modify (table : KeyedTable key) (selected : R → Bool)
    (rewrite : R → R) (keepsKey : ∀ row, key (rewrite row) = key row)
    (wanted : K) :
    (table.modify selected rewrite keepsKey).find wanted =
      (table.find wanted).map
        (fun row => if selected row then rewrite row else row) := by
  apply find_of_rows_eq_map (table.modify_rows selected rewrite keepsKey)
  intro row _
  by_cases chosen : selected row <;> simp [chosen, keepsKey]

/--
Rewrite the row under a key if it satisfies the guard; refused when there is
no such row.
-/
def update? (table : KeyedTable key) (wanted : K) (guard : R → Bool)
    (rewrite : R → R) (keepsKey : ∀ row, key (rewrite row) = key row) :
    Option (KeyedTable key) :=
  if (table.find wanted).any guard then
    some
      (table.modify (fun row => decide (key row = wanted) && guard row) rewrite
        keepsKey)
  else
    none

section Update

variable {table result : KeyedTable key} {wanted : K} {guard : R → Bool}
variable {rewrite : R → R} {keepsKey : ∀ row, key (rewrite row) = key row}

theorem update?_eq_none_iff :
    table.update? wanted guard rewrite keepsKey = none ↔
      ∀ row, table.find wanted = some row → guard row = false := by
  rw [update?]
  split
  · next matched =>
      rcases Option.any_eq_true .. |>.mp matched with ⟨row, found, chosen⟩
      simp only [reduceCtorEq, false_iff]
      intro none
      cases (none row found).symm.trans chosen
  · next unmatched =>
      simp only [true_iff]
      intro row found
      simpa [found] using unmatched

/-- The row a successful update matched, and every row afterwards. -/
theorem update?_spec
    (updated : table.update? wanted guard rewrite keepsKey = some result) :
    ∃ row, table.find wanted = some row ∧ guard row = true ∧
      ∀ other, result.find other =
        if other = wanted then some (rewrite row) else table.find other := by
  rw [update?] at updated
  split at updated
  · next matched =>
      rcases Option.any_eq_true .. |>.mp matched with ⟨row, found, chosen⟩
      cases updated
      refine ⟨row, found, chosen, ?_⟩
      intro other
      rw [find_modify]
      split
      · next same =>
          subst same
          simp [found, key_of_find found, chosen]
      · next different =>
          cases stored : table.find other with
          | none => rfl
          | some row =>
              have rowKey := key_of_find stored
              simp [rowKey, different]
  · cases updated

theorem update?_rows
    (updated : table.update? wanted guard rewrite keepsKey = some result) :
    result.rows =
      table.rows.map (fun row =>
        if decide (key row = wanted) && guard row then rewrite row else row) := by
  rw [update?] at updated
  split at updated
  · cases updated
    rfl
  · cases updated

end Update

/--
Rewrite in place every selected row, keys included; refused when two rows
would end up with one key.
-/
def rewrite? (table : KeyedTable key) (selected : R → Bool) (rewrite : R → R) :
    Option (KeyedTable key) :=
  if distinct :
      ((table.rows.map
        (fun row => if selected row then rewrite row else row)).map key).Nodup then
    some ⟨_, distinct⟩
  else
    none

theorem rewrite?_rows {table result : KeyedTable key} {selected : R → Bool}
    {rewrite : R → R} (done : table.rewrite? selected rewrite = some result) :
    result.rows =
      table.rows.map (fun row => if selected row then rewrite row else row) := by
  unfold rewrite? at done
  split at done
  · cases done
    rfl
  · cases done

theorem rewrite?_isSome_iff_nodup (table : KeyedTable key) (selected : R → Bool)
    (rewrite : R → R) :
    (table.rewrite? selected rewrite).isSome = true ↔
      (table.rows.map
        (key ∘ fun row => if selected row then rewrite row else row)).Nodup := by
  rw [← List.map_map, rewrite?]
  split
  · next distinct => exact iff_of_true rfl distinct
  · next repeated => exact iff_of_false Bool.false_ne_true repeated

/--
When one row is selected, its rewriting is refused exactly when another row
already has the new key.
-/
theorem rewrite?_isSome_iff (table : KeyedTable key) {selected : R → Bool}
    (rewrite : R → R) {chosen : R} (member : chosen ∈ table.rows)
    (only : ∀ row ∈ table.rows, selected row = true ↔ row = chosen) :
    (table.rewrite? selected rewrite).isSome = true ↔
      ∀ row ∈ table.rows, row ≠ chosen → key row ≠ key (rewrite chosen) := by
  have atChosen := rewritten_chosen only rewrite member
  have atOther {row : R} (isRow : row ∈ table.rows) (different : row ≠ chosen) :=
    rewritten_other only rewrite isRow different
  rw [rewrite?_isSome_iff_nodup]
  constructor
  · intro distinct row rowMember different sameKey
    apply different
    apply List.inj_on_of_nodup_map distinct rowMember member
    rw [Function.comp, Function.comp, atChosen, atOther rowMember different]
    exact sameKey
  · intro unused
    apply List.Nodup.map_on _ (List.Nodup.of_map key table.distinct)
    intro left leftMember right rightMember sameKey
    rw [Function.comp, Function.comp] at sameKey
    -- A row that is not the chosen one keeps its key, which the chosen one lacks.
    by_cases leftChosen : left = chosen
    · by_cases rightChosen : right = chosen
      · rw [leftChosen, rightChosen]
      · rw [leftChosen, atChosen, atOther rightMember rightChosen] at sameKey
        exact absurd sameKey.symm (unused right rightMember rightChosen)
    · rw [atOther leftMember leftChosen] at sameKey
      by_cases rightChosen : right = chosen
      · rw [rightChosen, atChosen] at sameKey
        exact absurd sameKey (unused left leftMember leftChosen)
      · rw [atOther rightMember rightChosen] at sameKey
        exact table.eq_of_key_eq leftMember rightMember sameKey

end Lookup

/-! ## Tables seen through a map -/

section Map

variable {S : Type v} {other : S → K} (image : R → S)
variable (keepsKey : ∀ row, other (image row) = key row)

theorem eq_of_rows_eq {left right : KeyedTable key}
    (same : left.rows = right.rows) :
    left = right := by
  cases left
  cases right
  cases same
  rfl

/-- The table of the images of the rows, under the same keys. -/
def map (table : KeyedTable key) : KeyedTable other where
  rows := table.rows.map image
  distinct := by
    have sameKeys : other ∘ image = key := funext keepsKey
    rw [List.map_map, sameKeys]
    exact table.distinct

variable [DecidableEq K]

@[simp]
theorem find_map (table : KeyedTable key) (wanted : K) :
    (table.map image keepsKey).find wanted = (table.find wanted).map image := by
  simp only [find, map, List.find?_map, Function.comp_def, keepsKey]

@[simp]
theorem insert?_map (table : KeyedTable key) (row : R) :
    (table.map image keepsKey).insert? (image row) =
      (table.insert? row).map (map image keepsKey) := by
  cases inserted : table.insert? row with
  | none =>
      rcases (table.insert?_eq_none_iff row).mp inserted with ⟨stored, found⟩
      rw [Option.map_none, insert?_eq_none_iff, keepsKey, find_map, found]
      exact ⟨image stored, rfl⟩
  | some result =>
      rcases (table.insert?_eq_some_iff result row).mp inserted with ⟨absent, rows⟩
      rw [Option.map_some, insert?_eq_some_iff, keepsKey, find_map, absent]
      refine ⟨rfl, ?_⟩
      simp only [map, rows, List.map_append, List.map_singleton]

/-- An update that the map respects can be made before it or behind it. -/
theorem update?_map (table : KeyedTable key) (wanted : K)
    {guard : R → Bool} {rewrite : R → R}
    (keeps : ∀ row, key (rewrite row) = key row)
    {imageGuard : S → Bool} {imageRewrite : S → S}
    (imageKeeps : ∀ row, other (imageRewrite row) = other row)
    (guards : ∀ row, imageGuard (image row) = guard row)
    (rewrites : ∀ row, imageRewrite (image row) = image (rewrite row)) :
    (table.map image keepsKey).update? wanted imageGuard imageRewrite imageKeeps =
      (table.update? wanted guard rewrite keeps).map (map image keepsKey) := by
  have matched : ((table.find wanted).map image).any imageGuard =
      (table.find wanted).any guard := by
    cases table.find wanted with
    | none => rfl
    | some row => exact guards row
  simp only [update?, find_map, matched]
  split
  · refine congrArg some (eq_of_rows_eq ?_)
    simp only [map, modify, List.map_map]
    apply List.map_congr_left
    intro row _
    simp only [Function.comp_apply, keepsKey, guards]
    split
    · exact rewrites row
    · rfl
  · rfl

end Map

end KeyedTable

end Infractl.Lib
