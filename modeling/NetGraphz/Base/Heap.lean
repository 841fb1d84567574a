/-! Cells that are allocated once, written in place and never freed, reached
only through references. Two holders of one reference see each other's writes;
that is all the aliasing a garbage-collected pointer gives. -/
namespace NetGraphz

/-- A reference is the allocation number of its cell. -/
abbrev Ref := Nat

/-- Allocated cells, in allocation order. -/
structure Heap (α : Type u) where
  cells : List α := []
  deriving Repr, DecidableEq

namespace Heap

/-- The reference the next new cell will have. -/
def next (heap : Heap α) : Ref := heap.cells.length

/-- A new cell, and the reference that reaches it. -/
def alloc (heap : Heap α) (value : α) : Heap α × Ref :=
  (⟨heap.cells ++ [value]⟩, heap.next)

/-- What the cell holds; `none` for a reference that was never handed out. -/
def read (heap : Heap α) (ref : Ref) : Option α := heap.cells[ref]?

/-- Overwrite one cell. -/
def write (heap : Heap α) (ref : Ref) (value : α) : Heap α := ⟨heap.cells.set ref value⟩

/-- Apply a function to what one cell holds. -/
def modify (heap : Heap α) (ref : Ref) (f : α → α) : Heap α :=
  match heap.read ref with
  | none => heap
  | some held => heap.write ref (f held)

variable {heap : Heap α} {ref other : Ref} {value held : α}

theorem ref_lt_of_read (holds : heap.read ref = some held) : ref < heap.cells.length :=
  (List.getElem?_eq_some_iff.mp holds).1

/-- The reference just handed out reaches the value just stored. -/
@[simp] theorem read_alloc_self (heap : Heap α) (value : α) :
    (heap.alloc value).1.read (heap.alloc value).2 = some value := by
  simp [alloc, next, read]

/-- Allocation disturbs no cell that was there before. -/
theorem read_alloc_of_read (holds : heap.read ref = some held) (value : α) :
    (heap.alloc value).1.read ref = some held := by
  simpa [alloc, read, List.getElem?_append_left (ref_lt_of_read holds)] using holds

/-- A fresh reference was not in use. -/
theorem alloc_fresh (holds : heap.read ref = some held) (value : α) :
    ref ≠ (heap.alloc value).2 :=
  Nat.ne_of_lt (ref_lt_of_read holds)

/-- Every read after an allocation, in one equation. -/
theorem read_alloc (heap : Heap α) (value : α) (other : Ref) :
    (heap.alloc value).1.read other = if other = heap.next then some value else heap.read other := by
  by_cases same : other = heap.next
  · rw [if_pos same, same]
    exact read_alloc_self heap value
  · rw [if_neg same]
    cases holds : heap.read other with
    | some held => exact read_alloc_of_read holds value
    | none =>
      have beyond : heap.cells.length ≤ other := List.getElem?_eq_none_iff.mp holds
      have past : heap.cells.length + 1 ≤ other := Nat.lt_of_le_of_ne beyond (Ne.symm same)
      exact List.getElem?_eq_none (by simpa [alloc] using past)

@[simp] theorem read_write_self (holds : heap.read ref = some held) (value : α) :
    (heap.write ref value).read ref = some value := by
  simp [write, read, List.getElem?_set_self (ref_lt_of_read holds)]

/-- A write is seen through its own reference only. -/
@[simp] theorem read_write_of_ne (apart : ref ≠ other) :
    (heap.write ref value).read other = heap.read other := by
  simp [write, read, List.getElem?_set_ne apart]

/-- Every read after a write, in one equation. -/
theorem read_write (holds : heap.read ref = some held) (value : α) (other : Ref) :
    (heap.write ref value).read other = if other = ref then some value else heap.read other := by
  by_cases same : other = ref
  · subst same
    rw [if_pos rfl, read_write_self holds]
  · rw [if_neg same, read_write_of_ne (Ne.symm same)]

theorem modify_of_read (holds : heap.read ref = some held) (f : α → α) :
    heap.modify ref f = heap.write ref (f held) := by
  simp [modify, holds]

/-- Every read after a modification: only the modified cell changed. -/
theorem read_modify (heap : Heap α) (ref other : Ref) (f : α → α) :
    (heap.modify ref f).read other =
      if other = ref then (heap.read other).map f else heap.read other := by
  cases holds : heap.read ref with
  | none =>
    by_cases same : other = ref
    · simp [modify, holds, same]
    · simp [modify, holds, same]
  | some held =>
    rw [modify_of_read holds, read_write holds]
    by_cases same : other = ref
    · subst same
      simp [holds]
    · simp [same]

end Heap

end NetGraphz
