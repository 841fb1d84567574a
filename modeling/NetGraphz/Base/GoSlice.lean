import Mathlib.Data.List.Basic

/-! Go slices held by one holder: a length, and the elements of the backing
array up to the capacity. Slicing may raise the length up to the capacity; what
then comes into view was never written. -/
namespace NetGraphz

/-- A slice. An element that was never written holds nothing; Go shows the zero
value there. -/
structure GoSlice (α : Type u) where
  array : List (Option α)
  len : Nat
  bounded : len ≤ array.length

namespace GoSlice

/-- `[]T{}`. -/
def empty : GoSlice α := ⟨[], 0, Nat.le_refl _⟩

/-- `cap(s)`. -/
def cap (s : GoSlice α) : Nat := s.array.length

/-- The elements in view. -/
def toList (s : GoSlice α) : List (Option α) := s.array.take s.len

/-- `append(s, v)`. A full backing array is copied to a larger one, by as much
as the runtime's `grow` adds for that capacity. -/
def append (grow : Nat → Nat) (s : GoSlice α) (v : α) : GoSlice α :=
  if room : s.len < s.array.length then
    ⟨s.array.set s.len (some v), s.len + 1, by rw [List.length_set]; exact room⟩
  else
    ⟨s.array ++ some v :: List.replicate (grow s.cap) none, s.len + 1, by
      have bounded := s.bounded
      rw [List.length_append, List.length_cons]
      omega⟩

/-- `s[:i]`; beyond the capacity it panics. -/
def reslice (s : GoSlice α) (i : Nat) : Option (GoSlice α) :=
  if within : i ≤ s.array.length then some ⟨s.array, i, within⟩ else none

/-- Nothing was written beyond the length. -/
def Unwritten (s : GoSlice α) : Prop := ∀ held ∈ s.array.drop s.len, held = none

variable {s cut : GoSlice α}

@[simp] theorem toList_empty : (empty : GoSlice α).toList = [] := rfl

theorem unwritten_empty : (empty : GoSlice α).Unwritten := by
  intro held member
  cases member

@[simp] theorem length_toList (s : GoSlice α) : s.toList.length = s.len := by
  rw [toList, List.length_take, Nat.min_eq_left s.bounded]

@[simp] theorem toList_append (grow : Nat → Nat) (s : GoSlice α) (v : α) :
    (s.append grow v).toList = s.toList ++ [some v] := by
  unfold append
  split
  · rename_i room
    simp only [toList]
    rw [List.take_add_one, List.take_set_of_le (Nat.le_refl _), List.getElem?_set_self room]
    rfl
  · rename_i full
    have length : s.len = s.array.length := Nat.le_antisymm s.bounded (Nat.not_lt.mp full)
    simp only [toList]
    rw [length, List.take_length, List.take_append, List.take_of_length_le (Nat.le_succ _)]
    simp

theorem unwritten_append (grow : Nat → Nat) (unwritten : s.Unwritten) (v : α) :
    (s.append grow v).Unwritten := by
  intro held member
  unfold append at member
  split at member
  · simp only [List.drop_set_of_lt (Nat.lt_succ_self _)] at member
    exact unwritten held (List.drop_subset_drop_left _ (Nat.le_succ _) member)
  · rename_i full
    have length : s.len = s.array.length := Nat.le_antisymm s.bounded (Nat.not_lt.mp full)
    simp only [length, List.drop_append, List.drop_of_length_le (Nat.le_succ s.array.length),
      List.nil_append, Nat.add_sub_cancel_left, List.drop_one, List.tail_cons] at member
    exact List.eq_of_mem_replicate member

/-- Sliced up to its own length, a slice stays as it is. -/
theorem reslice_len (s : GoSlice α) : s.reslice s.len = some s := by
  rw [reslice, dif_pos s.bounded]

/-- Sliced beyond its length, it panics or shows what was never written. -/
theorem none_mem_of_reslice (unwritten : s.Unwritten) (beyond : s.len < i)
    (sliced : s.reslice i = some cut) : none ∈ cut.toList := by
  unfold reslice at sliced
  split at sliced
  · rename_i within
    cases sliced
    have inside : s.len < s.array.length := Nat.lt_of_lt_of_le beyond within
    have first : s.array[s.len]? = some none := by
      rw [List.getElem?_eq_getElem inside, Option.some.injEq]
      apply unwritten
      rw [List.drop_eq_getElem_cons inside]
      exact List.mem_cons_self
    refine List.mem_of_getElem? (i := s.len) ?_
    rw [toList, List.getElem?_take_of_lt beyond, first]
  · cases sliced

end GoSlice

end NetGraphz
