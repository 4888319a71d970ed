import Infractl.Store.Model
import Mathlib.Data.Finset.Dedup
import Mathlib.Data.List.Nodup

/-!
# Finalizers

A finalizer is a name in a list of the base record, and blocks the deletion of
a resource for as long as it is there.  What the list is for is a set:
`AddFinalizer` adds a name that is not there, and `RemoveFinalizer` takes a
name out.

`RemoveFinalizer` takes out the first entry only.  Lists that were made by the
two methods have no entry twice, and there the methods are those of a set.
A list from the body of a request may have one, and then a name is still there
after it was removed.
-/

namespace Infractl.Store

namespace Resource

/-! ## The methods -/

/-- The loop of `HasFinalizer`. -/
def hasFinalizerLoop (name : String) : List String → Bool
  | [] => false
  | finalizer :: rest =>
      if finalizer = name then true else hasFinalizerLoop name rest

/-- `HasFinalizer`. -/
def hasFinalizer (resource : Resource) (name : String) : Bool :=
  hasFinalizerLoop name resource.getFinalizers

/-- `AddFinalizer`; a nil slice is appended to like an empty one. -/
def addFinalizer (resource : Resource) (name : String) : Resource :=
  if resource.hasFinalizer name = false then
    { resource with finalizers := some (resource.getFinalizers ++ [name]) }
  else resource

/-- The loop of `RemoveFinalizer`, from an index on. -/
def removeFinalizerLoop (name : String) (finalizers : List String) :
    Nat → List String → List String
  | _, [] => finalizers
  | index, finalizer :: rest =>
      if finalizer = name then
        finalizers.take index ++ finalizers.drop (index + 1)
      else removeFinalizerLoop name finalizers (index + 1) rest

/-- `RemoveFinalizer`. -/
def removeFinalizer (resource : Resource) (name : String) : Resource :=
  { resource with
    finalizers := resource.finalizers.map fun finalizers =>
      removeFinalizerLoop name finalizers 0 finalizers }

/-! ## What the methods do to the list -/

variable {resource : Resource} (name : String) (finalizers : List String)

@[simp]
theorem hasFinalizerLoop_iff :
    hasFinalizerLoop name finalizers = true ↔ name ∈ finalizers := by
  induction finalizers with
  | nil => exact iff_of_false Bool.false_ne_true List.not_mem_nil
  | cons finalizer rest ih =>
      rw [hasFinalizerLoop, List.mem_cons]
      split
      · next same => exact iff_of_true rfl (Or.inl same.symm)
      · next other => rw [ih, or_iff_right (Ne.symm other)]

@[simp]
theorem hasFinalizer_iff (resource : Resource) (name : String) :
    resource.hasFinalizer name = true ↔ name ∈ resource.getFinalizers :=
  hasFinalizerLoop_iff name resource.getFinalizers

@[simp]
theorem hasFinalizer_eq_false_iff (resource : Resource) (name : String) :
    resource.hasFinalizer name = false ↔ name ∉ resource.getFinalizers := by
  rw [← hasFinalizer_iff, Bool.not_eq_true]

/-- The entries passed so far stay, and the first match behind them goes. -/
theorem removeFinalizerLoop_eq (passed rest : List String) :
    removeFinalizerLoop name (passed ++ rest) passed.length rest =
      passed ++ rest.erase name := by
  -- The entry that is passed over moves from the rest to the passed ones.
  induction rest generalizing passed with
  | nil => rfl
  | cons finalizer rest ih =>
      rw [removeFinalizerLoop]
      split
      · next same =>
          rw [same, List.erase_cons_head, List.take_left, List.drop_append]
          simp
      · next other =>
          have next := ih (passed ++ [finalizer])
          rw [List.append_assoc, List.append_assoc, List.length_append,
            List.length_singleton] at next
          rw [List.erase_cons_tail (by simpa using other)]
          exact next

theorem removeFinalizer_eq (resource : Resource) (name : String) :
    resource.removeFinalizer name =
      { resource with
        finalizers := resource.finalizers.map fun finalizers =>
          finalizers.erase name } := by
  have loop (finalizers : List String) :
      removeFinalizerLoop name finalizers 0 finalizers = finalizers.erase name :=
    removeFinalizerLoop_eq name [] finalizers
  simp only [removeFinalizer, loop]

@[simp]
theorem getFinalizers_removeFinalizer (resource : Resource) (name : String) :
    (resource.removeFinalizer name).getFinalizers =
      resource.getFinalizers.erase name := by
  rw [removeFinalizer_eq, getFinalizers, getFinalizers]
  cases resource.finalizers <;> rfl

theorem addFinalizer_of_notMem {name : String}
    (absent : name ∉ resource.getFinalizers) :
    resource.addFinalizer name =
      { resource with finalizers := some (resource.getFinalizers ++ [name]) } :=
  if_pos ((hasFinalizer_eq_false_iff resource name).mpr absent)

theorem addFinalizer_of_mem {name : String}
    (present : name ∈ resource.getFinalizers) :
    resource.addFinalizer name = resource := by
  refine if_neg ?_
  rw [hasFinalizer_eq_false_iff]
  exact not_not.mpr present

/-! ## Removing a finalizer -/

theorem notMem_erase_iff :
    name ∉ finalizers.erase name ↔ finalizers.count name ≤ 1 := by
  rw [← List.count_eq_zero, List.count_erase_self]
  omega

/-- Taking out the first entry is taking out all of them. -/
theorem erase_eq_filter_iff :
    finalizers.erase name =
        finalizers.filter (fun finalizer => finalizer ≠ name) ↔
      finalizers.count name ≤ 1 := by
  rw [← notMem_erase_iff]
  constructor
  · intro same
    rw [same, List.mem_filter]
    simp
  · intro gone
    have others : finalizers.filter (fun finalizer => finalizer ≠ name) =
        (finalizers.erase name).filter (fun finalizer => finalizer ≠ name) := by
      rw [← List.erase_filter, List.erase_of_not_mem]
      simp
    rw [others, eq_comm, List.filter_eq_self]
    intro finalizer member
    exact decide_eq_true (ne_of_mem_of_not_mem member gone)

/--
After a finalizer is removed, it is gone if and only if it was there at most
once, and only then the others are what is left.  A finalizer that was not
there, added and removed, leaves the list as it was, where an empty slice takes
the place of a nil one.
-/
theorem removeFinalizer_removes_iff (resource : Resource) (name : String) :
    ((resource.removeFinalizer name).hasFinalizer name = false ↔
      resource.getFinalizers.count name ≤ 1) ∧
    ((resource.removeFinalizer name).getFinalizers =
        resource.getFinalizers.filter (fun finalizer => finalizer ≠ name) ↔
      resource.getFinalizers.count name ≤ 1) ∧
    (resource.hasFinalizer name = false →
      (resource.addFinalizer name).removeFinalizer name =
        { resource with finalizers := some resource.getFinalizers }) := by
  refine ⟨?_, ?_, ?_⟩
  · rw [hasFinalizer_eq_false_iff, getFinalizers_removeFinalizer, notMem_erase_iff]
  · rw [getFinalizers_removeFinalizer, erase_eq_filter_iff]
  · intro absent
    rw [hasFinalizer_eq_false_iff] at absent
    rw [addFinalizer_of_notMem absent, removeFinalizer_eq, Option.map_some,
      List.erase_append_right _ absent, List.erase_cons_head, List.append_nil]

/-- A resource that three controllers hold. -/
def thriceHeld : Resource where
  name := "disk"
  finalizers := some ["b", "a", "c"]

/-- One of three finalizers is removed; a fourth is added and removed. -/
theorem finalizer_removed_from_others :
    (thriceHeld.removeFinalizer "a").hasFinalizer "a" = false ∧
      (thriceHeld.removeFinalizer "a").getFinalizers = ["b", "c"] ∧
      (thriceHeld.addFinalizer "d").removeFinalizer "d" = thriceHeld := by
  have once : thriceHeld.getFinalizers.count "a" ≤ 1 := by decide
  refine ⟨(removeFinalizer_removes_iff thriceHeld "a").1.mpr once, ?_, ?_⟩
  · exact (removeFinalizer_removes_iff thriceHeld "a").2.1.mpr once
  · exact (removeFinalizer_removes_iff thriceHeld "d").2.2 rfl

/-- A resource whose body named a finalizer twice. -/
def twiceFinalized : Resource where
  finalizers := some ["a", "a"]

theorem second_finalizer_stays :
    (twiceFinalized.removeFinalizer "a").hasFinalizer "a" = true ∧
      (twiceFinalized.removeFinalizer "a").getFinalizers = ["a"] ∧
      twiceFinalized.getFinalizers.filter (fun finalizer => finalizer ≠ "a") = [] :=
  ⟨rfl, rfl, rfl⟩

/-! ## Finalizers as a set -/

/-- The names in the list, in no order and without repetition. -/
def finalizerSet (resource : Resource) : Finset String :=
  resource.getFinalizers.toFinset

@[simp]
theorem finalizerSet_addFinalizer (resource : Resource) (name : String) :
    (resource.addFinalizer name).finalizerSet = insert name resource.finalizerSet := by
  by_cases present : name ∈ resource.getFinalizers
  · rw [addFinalizer_of_mem present, eq_comm, Finset.insert_eq_self]
    exact List.mem_toFinset.mpr present
  · rw [addFinalizer_of_notMem present]
    ext other
    simp [finalizerSet, getFinalizers]

/-- The set loses the name if and only if the list does. -/
theorem finalizerSet_removeFinalizer_iff (resource : Resource) (name : String) :
    (resource.removeFinalizer name).finalizerSet = resource.finalizerSet.erase name ↔
      resource.getFinalizers.count name ≤ 1 := by
  rw [finalizerSet, finalizerSet, getFinalizers_removeFinalizer, ← notMem_erase_iff]
  constructor
  · intro same stays
    have member := List.mem_toFinset.mpr stays
    rw [same] at member
    exact Finset.notMem_erase name _ member
  · intro gone
    ext other
    rw [Finset.mem_erase, List.mem_toFinset, List.mem_toFinset]
    constructor
    · intro left
      exact ⟨ne_of_mem_of_not_mem left gone, List.mem_of_mem_erase left⟩
    · rintro ⟨different, member⟩
      exact (List.mem_erase_of_ne different).mpr member

theorem nodup_addFinalizer
    (distinct : resource.getFinalizers.Nodup) (name : String) :
    (resource.addFinalizer name).getFinalizers.Nodup := by
  by_cases present : name ∈ resource.getFinalizers
  · rw [addFinalizer_of_mem present]
    exact distinct
  · rw [addFinalizer_of_notMem present, getFinalizers, Option.getD_some,
      ← List.concat_eq_append]
    exact distinct.concat present

theorem nodup_removeFinalizer
    (distinct : resource.getFinalizers.Nodup) (name : String) :
    (resource.removeFinalizer name).getFinalizers.Nodup := by
  rw [getFinalizers_removeFinalizer]
  exact distinct.erase name

end Resource

/-- A call of a provider about a finalizer. -/
inductive FinalizerCall where
  | add (name : String)
  | remove (name : String)

namespace FinalizerCall

def onResource (resource : Resource) : FinalizerCall → Resource
  | .add name => resource.addFinalizer name
  | .remove name => resource.removeFinalizer name

/-- What the call is for. -/
def onSet (finalizers : Finset String) : FinalizerCall → Finset String
  | .add name => insert name finalizers
  | .remove name => finalizers.erase name

variable {resource : Resource}

theorem nodup_onResource (distinct : resource.getFinalizers.Nodup)
    (call : FinalizerCall) :
    (onResource resource call).getFinalizers.Nodup := by
  cases call with
  | add name => exact Resource.nodup_addFinalizer distinct name
  | remove name => exact Resource.nodup_removeFinalizer distinct name

@[simp]
theorem finalizerSet_onResource (distinct : resource.getFinalizers.Nodup)
    (call : FinalizerCall) :
    (onResource resource call).finalizerSet = onSet resource.finalizerSet call := by
  cases call with
  | add name => exact resource.finalizerSet_addFinalizer name
  | remove name =>
      rw [onResource, onSet, resource.finalizerSet_removeFinalizer_iff]
      exact List.nodup_iff_count_le_one.mp distinct name

/-- Any calls do to the list what they are to do to the set. -/
@[simp]
theorem finalizerSet_foldl (distinct : resource.getFinalizers.Nodup)
    (calls : List FinalizerCall) :
    (calls.foldl onResource resource).finalizerSet =
      calls.foldl onSet resource.finalizerSet := by
  induction calls generalizing resource with
  | nil => rfl
  | cons call calls ih =>
      rw [List.foldl_cons, List.foldl_cons, ih (nodup_onResource distinct call),
        finalizerSet_onResource distinct call]

/--
The list of a resource serves as a set, along all calls, if and only if no
finalizer is in it twice.
-/
theorem finalizers_serve_as_set_iff (resource : Resource) :
    (∀ calls : List FinalizerCall,
      (calls.foldl onResource resource).finalizerSet =
        calls.foldl onSet resource.finalizerSet) ↔
      resource.getFinalizers.Nodup := by
  constructor
  · intro serves
    rw [List.nodup_iff_count_le_one]
    intro name
    exact (resource.finalizerSet_removeFinalizer_iff name).mp (serves [.remove name])
  · exact finalizerSet_foldl

end FinalizerCall

end Infractl.Store
