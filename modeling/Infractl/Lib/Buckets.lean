import Mathlib.Data.List.Perm.Basic
import Mathlib.Logic.Function.Basic

/-!
# Buckets under a glued key

A table of buckets holds, under each key, the items that were added with this
key, in the order in which they were added.

The key may be glued together from an index that the items carry.  When two
indices glue to one key their items share a bucket.  The bucket of an index is
then more than the items of that index, and `Unmixed` is the exact condition
under which it is not.
-/

namespace Infractl.Lib.Buckets

universe u v w

variable {K : Type u} {A : Type v} [DecidableEq K]

/-- Append an item to the bucket of its key. -/
def add (key : A → K) (buckets : K → List A) (item : A) : K → List A :=
  Function.update buckets (key item) (buckets (key item) ++ [item])

/-- A bucket holds what it held before and the items added with its key. -/
theorem foldl_add_apply (key : A → K) (items : List A) (buckets : K → List A)
    (wanted : K) :
    items.foldl (add key) buckets wanted =
      buckets wanted ++ items.filter (fun item => key item = wanted) := by
  induction items generalizing buckets with
  | nil => simp
  | cons item rest ih =>
      rw [List.foldl_cons, ih, add]
      by_cases same : key item = wanted
      · subst same
        simp
      · rw [Function.update_of_ne (Ne.symm same)]
        simp [same]

section Glued

variable {I : Type w} [DecidableEq I] (index : A → I) (glue : I → K)

/-- No item of another index shares the glued key. -/
def Unmixed (items : List A) (wanted : I) : Prop :=
  ∀ item ∈ items, glue (index item) = glue wanted → index item = wanted

variable {index glue} {items : List A} {wanted : I}

theorem Unmixed.filter_eq (unmixed : Unmixed index glue items wanted) :
    items.filter (fun item => glue (index item) = glue wanted) =
      items.filter (fun item => index item = wanted) := by
  apply List.filter_congr
  intro item member
  rw [decide_eq_decide]
  constructor
  · exact unmixed item member
  · intro same
    rw [same]

theorem unmixed_of_subset
    (subset : items.filter (fun item => glue (index item) = glue wanted) ⊆
      items.filter (fun item => index item = wanted)) :
    Unmixed index glue items wanted := by
  intro item member shared
  have inBucket : item ∈
      items.filter (fun item => glue (index item) = glue wanted) :=
    List.mem_filter.mpr ⟨member, decide_eq_true shared⟩
  exact of_decide_eq_true (List.mem_filter.mp (subset inBucket)).2

/-- A list of the items in a bucket is one of the items of the index. -/
theorem perm_filter_iff_unmixed {list : List A}
    (listed : list.Perm
      (items.filter (fun item => glue (index item) = glue wanted))) :
    list.Perm (items.filter (fun item => index item = wanted)) ↔
      Unmixed index glue items wanted := by
  constructor
  · intro exact
    exact unmixed_of_subset (listed.symm.trans exact).subset
  · intro unmixed
    rw [← unmixed.filter_eq]
    exact listed

end Glued

end Infractl.Lib.Buckets
