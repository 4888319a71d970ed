import Mathlib.Data.List.Induction
import Mathlib.Logic.Function.Basic

/-!
# The last writer wins

Writers store values in cells one after the other.  A writer may have nothing
to store, and a cell may be closed, in which case nothing is stored in it.  An
open cell ends up with the value of the last writer that stored in it.

The outcome is the same in every order of the writers exactly when writers to
the same open cell agree on the value.
-/

namespace Infractl.Lib.LastWriter

universe u v w

variable {E : Type u} {C : Type v} {B : Type w} [DecidableEq C]
variable (isOpen : C → Bool) (write : E → Option (C × B))

/-- The cells after one writer. -/
def store (cells : C → B) (writer : E) : C → B :=
  match write writer with
  | none => cells
  | some (cell, value) =>
      if isOpen cell then Function.update cells cell value else cells

/-- The cells after writers, in their order. -/
def storeAll (cells : C → B) (writers : List E) : C → B :=
  writers.foldl (store isOpen write) cells

variable {isOpen write}
variable {cells : C → B} {writers : List E} {cell : C}

theorem store_of_write {writer : E} {value : B}
    (opened : isOpen cell = true)
    (writes : write writer = some (cell, value)) :
    store isOpen write cells writer cell = value := by
  simp [store, writes, opened]

theorem store_of_no_write {writer : E}
    (silent : isOpen cell = true → ∀ value, write writer ≠ some (cell, value)) :
    store isOpen write cells writer cell = cells cell := by
  cases writes : write writer with
  | none => simp [store, writes]
  | some stored =>
      rcases stored with ⟨other, value⟩
      simp only [store, writes]
      split
      · next opened =>
          apply Function.update_of_ne
          rintro rfl
          exact silent opened value writes
      · rfl

@[simp]
theorem storeAll_concat (writer : E) :
    storeAll isOpen write cells (writers ++ [writer]) =
      store isOpen write (storeAll isOpen write cells writers) writer := by
  simp [storeAll]

/-- A cell that no writer stores in keeps its value. -/
theorem storeAll_of_no_write
    (silent : isOpen cell = true → ∀ writer ∈ writers, ∀ value,
      write writer ≠ some (cell, value)) :
    storeAll isOpen write cells writers cell = cells cell := by
  induction writers using List.reverseRecOn with
  | nil => rfl
  | append_singleton writers last ih =>
      rw [storeAll_concat, store_of_no_write, ih]
      · intro opened writer member
        exact silent opened writer (List.mem_append_left _ member)
      · intro opened
        exact silent opened last (by simp)

/-- A cell all of whose writers agree has their value. -/
theorem storeAll_of_agree {value : B}
    (opened : isOpen cell = true)
    (agree : ∀ writer ∈ writers, ∀ other, write writer = some (cell, other) →
      other = value)
    (written : ∃ writer ∈ writers, write writer = some (cell, value)) :
    storeAll isOpen write cells writers cell = value := by
  induction writers using List.reverseRecOn with
  | nil =>
      rcases written with ⟨writer, member, _⟩
      cases member
  | append_singleton writers last ih =>
      rw [storeAll_concat]
      by_cases stores : ∃ other, write last = some (cell, other)
      · rcases stores with ⟨other, writes⟩
        cases agree last (by simp) other writes
        exact store_of_write opened writes
      · have silent : ∀ other, write last ≠ some (cell, other) :=
          fun other writes => stores ⟨other, writes⟩
        rw [store_of_no_write (fun _ => silent)]
        apply ih
        · intro writer member
          exact agree writer (List.mem_append_left _ member)
        · rcases written with ⟨writer, member, writes⟩
          rcases List.mem_append.mp member with earlier | final
          · exact ⟨writer, earlier, writes⟩
          · rw [List.mem_singleton.mp final] at writes
            exact absurd writes (silent value)

/-- A writer can be the last one. -/
theorem exists_perm_storeAll (cells : C → B) {writer : E} {value : B}
    (opened : isOpen cell = true)
    (member : writer ∈ writers)
    (writes : write writer = some (cell, value)) :
    ∃ order : List E, order.Perm writers ∧
      storeAll isOpen write cells order cell = value := by
  rcases List.append_of_mem member with ⟨before, after, rfl⟩
  refine ⟨before ++ after ++ [writer], ?_, ?_⟩
  · rw [List.append_assoc]
    have moved : (after ++ [writer]).Perm (writer :: after) :=
      List.perm_append_comm
    exact moved.append_left before
  · rw [storeAll_concat]
    exact store_of_write opened writes

variable (isOpen write)

/--
The order of the writers does not matter exactly when writers to the same open
cell agree.
-/
theorem storeAll_perm_iff (cells : C → B) (writers : List E) :
    (∀ first second : List E, first.Perm writers → second.Perm writers →
      storeAll isOpen write cells first = storeAll isOpen write cells second) ↔
    ∀ writer ∈ writers, ∀ other ∈ writers, ∀ cell value otherValue,
      write writer = some (cell, value) →
      write other = some (cell, otherValue) →
      isOpen cell = true → value = otherValue := by
  constructor
  · intro same writer member other otherMember cell value otherValue writes
      otherWrites opened
    rcases exists_perm_storeAll cells opened member writes with
      ⟨first, firstPerm, firstValue⟩
    rcases exists_perm_storeAll cells opened otherMember otherWrites
      with ⟨second, secondPerm, secondValue⟩
    rw [← firstValue, ← secondValue, same first second firstPerm secondPerm]
  · intro agree
    have outcome : ∀ order : List E, order.Perm writers → ∀ cell,
        storeAll isOpen write cells order cell =
          storeAll isOpen write cells writers cell := by
      intro order permutes cell
      by_cases written : isOpen cell = true ∧
          ∃ writer ∈ writers, ∃ value, write writer = some (cell, value)
      · rcases written with ⟨opened, writer, member, value, writes⟩
        have agreeing : ∀ other ∈ writers, ∀ otherValue,
            write other = some (cell, otherValue) → otherValue = value :=
          fun other otherMember otherValue otherWrites =>
            agree other otherMember writer member cell otherValue value
              otherWrites writes opened
        rw [storeAll_of_agree opened agreeing ⟨writer, member, writes⟩]
        apply storeAll_of_agree opened
        · intro other otherMember
          exact agreeing other (permutes.mem_iff.mp otherMember)
        · exact ⟨writer, permutes.mem_iff.mpr member, writes⟩
      · have silent : isOpen cell = true → ∀ writer ∈ writers, ∀ value,
            write writer ≠ some (cell, value) :=
          fun opened writer member value writes =>
            written ⟨opened, writer, member, value, writes⟩
        rw [storeAll_of_no_write silent]
        apply storeAll_of_no_write
        intro opened writer member
        exact silent opened writer (permutes.mem_iff.mp member)
    intro first second firstPerm secondPerm
    funext cell
    rw [outcome first firstPerm cell, outcome second secondPerm cell]

end Infractl.Lib.LastWriter
