import Mathlib.Data.Finmap
import Mathlib.Data.Finset.Sort

/-!
# Finite maps: overlays and entries in order

`left ∪ right` is `left` laid over `right`: it has the keys of both, and the
value of `left` where both have one.  `union_eq_left_iff` says when nothing of
`right` shows through.

A map may be written down as its entries in the order of their keys and read by
inserting them one by one into a map that need not be empty.
`insertAll_map_sorted_eq_iff` says when the map that is read is the one that
was written.
-/

namespace Infractl.Lib.FiniteMap

universe u v

section Overlay

variable {K : Type u} {V : K → Type v} [DecidableEq K]

theorem union_eq_left_iff (left right : Finmap V) :
    left ∪ right = left ↔ ∀ key ∈ right, key ∈ left := by
  constructor
  · intro covered key member
    rw [← covered, Finmap.mem_union]
    exact Or.inr member
  · intro covered
    apply Finmap.ext_lookup
    intro key
    by_cases present : key ∈ left
    · exact Finmap.lookup_union_left present
    · have absent : key ∉ right := fun member => present (covered key member)
      rw [Finmap.lookup_union_right present, Finmap.lookup_eq_none.mpr absent,
        Finmap.lookup_eq_none.mpr present]

end Overlay

section Entries

variable {K : Type u} {V : Type v} [LinearOrder K]

/-- The entries in the order of their keys. -/
def sorted (map : Finmap fun _ : K => V) : List (K × V) :=
  (map.keys.sort (· ≤ ·)).filterMap fun key =>
    (map.lookup key).map fun value => (key, value)

theorem mem_sorted {map : Finmap fun _ : K => V} {entry : K × V} :
    entry ∈ sorted map ↔ map.lookup entry.1 = some entry.2 := by
  simp only [sorted, List.mem_filterMap, Option.map_eq_some_iff, Finset.mem_sort]
  constructor
  · rintro ⟨key, _, value, found, rfl⟩
    exact found
  · intro found
    exact ⟨entry.1, Finmap.mem_keys.mpr (Finmap.mem_of_lookup_eq_some found),
      entry.2, found, rfl⟩

theorem nodup_keys_sorted (map : Finmap fun _ : K => V) :
    ((sorted map).map Prod.fst).Nodup := by
  have key : (fun key : K => ((map.lookup key).map fun value => (key, value)).map Prod.fst) =
      Option.guard fun key => (map.lookup key).isSome := by
    funext key
    cases found : map.lookup key <;> simp [Option.guard, found]
  rw [sorted, List.map_filterMap, key, List.filterMap_eq_filter]
  exact (Finset.sort_nodup ..).filter _

/-- Insert entries one by one. -/
def insertAll (entries : List (K × V)) (start : Finmap fun _ : K => V) :
    Finmap fun _ : K => V :=
  entries.foldl (fun map entry => map.insert entry.1 entry.2) start

theorem lookup_insertAll_of_notMem {entries : List (K × V)} {key : K}
    (other : key ∉ entries.map Prod.fst) (start : Finmap fun _ : K => V) :
    (insertAll entries start).lookup key = start.lookup key := by
  induction entries generalizing start with
  | nil => rfl
  | cons entry entries ih =>
      rw [List.map_cons, List.mem_cons, not_or] at other
      refine (ih other.2 _).trans ?_
      exact Finmap.lookup_insert_of_ne _ other.1

theorem lookup_insertAll_of_mem {entries : List (K × V)}
    (distinct : (entries.map Prod.fst).Nodup) {entry : K × V}
    (member : entry ∈ entries) (start : Finmap fun _ : K => V) :
    (insertAll entries start).lookup entry.1 = some entry.2 := by
  induction entries generalizing start with
  | nil => cases member
  | cons first entries ih =>
      rw [List.map_cons, List.nodup_cons] at distinct
      rcases List.mem_cons.mp member with rfl | later
      · refine (lookup_insertAll_of_notMem distinct.1 _).trans ?_
        exact Finmap.lookup_insert _
      · exact ih distinct.2 later _

section Changed

variable (change : V → V) {map : Finmap fun _ : K => V}

theorem keys_changed_sorted (map : Finmap fun _ : K => V) :
    ((sorted map).map fun entry => (entry.1, change entry.2)).map Prod.fst =
      (sorted map).map Prod.fst := by
  rw [List.map_map]
  rfl

theorem lookup_insertAll_sorted {key : K} {value : V}
    (found : map.lookup key = some value) (start : Finmap fun _ : K => V) :
    (insertAll ((sorted map).map fun entry => (entry.1, change entry.2)) start).lookup
        key =
      some (change value) := by
  refine lookup_insertAll_of_mem ?_
    (List.mem_map.mpr ⟨(key, value), mem_sorted.mpr found, rfl⟩) start
  rw [keys_changed_sorted]
  exact nodup_keys_sorted map

theorem lookup_insertAll_sorted_of_notMem {key : K} (absent : key ∉ map)
    (start : Finmap fun _ : K => V) :
    (insertAll ((sorted map).map fun entry => (entry.1, change entry.2)) start).lookup
        key =
      start.lookup key := by
  refine lookup_insertAll_of_notMem ?_ start
  rw [keys_changed_sorted]
  intro member
  rcases List.mem_map.mp member with ⟨entry, isEntry, rfl⟩
  exact absent (Finmap.mem_of_lookup_eq_some (mem_sorted.mp isEntry))

end Changed

/--
The entries of a map, changed and inserted into another map, give the map back
if no value was changed and the other map has no further keys.
-/
theorem insertAll_map_sorted_eq_iff (map start : Finmap fun _ : K => V)
    (change : V → V) :
    insertAll ((sorted map).map fun entry => (entry.1, change entry.2)) start = map ↔
      (∀ key value, map.lookup key = some value → change value = value) ∧
        ∀ key ∈ start, key ∈ map := by
  constructor
  · intro same
    constructor
    · intro key value found
      have after := lookup_insertAll_sorted change found start
      rw [same, found] at after
      exact (Option.some.inj after).symm
    · intro key member
      by_contra absent
      have after := lookup_insertAll_sorted_of_notMem change absent start
      rw [same, Finmap.lookup_eq_none.mpr absent] at after
      exact (Finmap.lookup_eq_none.mp after.symm) member
  · rintro ⟨unchanged, covered⟩
    apply Finmap.ext_lookup
    intro key
    cases found : map.lookup key with
    | some value =>
        rw [lookup_insertAll_sorted change found, unchanged key value found]
    | none =>
        have absent := Finmap.lookup_eq_none.mp found
        rw [lookup_insertAll_sorted_of_notMem change absent]
        exact Finmap.lookup_eq_none.mpr fun member => absent (covered key member)

end Entries

end Infractl.Lib.FiniteMap
