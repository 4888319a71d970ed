import Mathlib.Data.List.Basic

/-!
# Cells and their addresses

A `Heap` is a list of cells, and an address is a position in it.  Cells are
allocated at the end and written in place.  What a program does to a cell that
it has allocated itself leaves alone every cell that was there before, however
often it writes: that is `keeps_alloc_modify`.
-/

namespace Infractl.Lib

universe u v

/-- The cells a program has allocated. -/
structure Heap (α : Type u) where
  cells : List α

namespace Heap

variable {α : Type u} {β : Type v}

def read (heap : Heap α) (address : Nat) : Option α :=
  heap.cells[address]?

/-- A new cell, and its address. -/
def alloc (heap : Heap α) (value : α) : Heap α × Nat :=
  (⟨heap.cells ++ [value]⟩, heap.cells.length)

def modify (heap : Heap α) (address : Nat) (change : α → α) : Heap α :=
  ⟨heap.cells.modify address change⟩

/-- Every cell of the first heap has the same contents in the second. -/
def Keeps (before after : Heap α) : Prop :=
  ∀ address value,
    before.read address = some value → after.read address = some value

/-- Writes to one cell, one after the other, are one write. -/
theorem foldl_modify (heap : Heap α) (address : Nat) (change : β → α → α)
    (list : List β) :
    list.foldl (fun current entry => current.modify address (change entry))
        heap =
      heap.modify address
        (fun value => list.foldl (fun value entry => change entry value) value) := by
  induction list generalizing heap with
  | nil =>
      change heap = ⟨heap.cells.modify address id⟩
      rw [List.modify_id]
  | cons entry rest ih =>
      rw [List.foldl_cons, ih]
      simp only [modify, List.modify_modify_eq, List.foldl_cons]
      rfl

@[simp]
theorem read_alloc (heap : Heap α) (value : α) :
    (heap.alloc value).1.read (heap.alloc value).2 = some value := by
  simp [alloc, read]

theorem keeps_alloc (heap : Heap α) (value : α) :
    heap.Keeps (heap.alloc value).1 := by
  intro address stored found
  have inside : address < heap.cells.length :=
    (List.getElem?_eq_some_iff.mp found).1
  rw [read, alloc, List.getElem?_append_left inside]
  exact found

theorem read_modify_self {heap : Heap α} {address : Nat} {value : α}
    (found : heap.read address = some value) (change : α → α) :
    (heap.modify address change).read address = some (change value) := by
  rw [read] at found
  simp [modify, read, found]

theorem read_modify_of_ne (heap : Heap α) {address other : Nat}
    (different : address ≠ other) (change : α → α) :
    (heap.modify address change).read other = heap.read other := by
  simp [modify, read, different]

/-- A cell that was just allocated, once it has been written. -/
@[simp]
theorem read_alloc_modify (heap : Heap α) (value : α) (change : α → α) :
    ((heap.alloc value).1.modify (heap.alloc value).2 change).read
        (heap.alloc value).2 =
      some (change value) :=
  read_modify_self (heap.read_alloc value) change

theorem keeps_alloc_modify (heap : Heap α) (value : α) (change : α → α) :
    heap.Keeps ((heap.alloc value).1.modify (heap.alloc value).2 change) := by
  intro address stored found
  have inside : address < heap.cells.length :=
    (List.getElem?_eq_some_iff.mp found).1
  have different : (heap.alloc value).2 ≠ address := Nat.ne_of_gt inside
  rw [read_modify_of_ne _ different]
  exact heap.keeps_alloc value address stored found

end Heap

end Infractl.Lib
