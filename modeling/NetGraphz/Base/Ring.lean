import Mathlib.Data.List.Rotate

/-! `container/ring`, and the bounded newest-first log that a pointer moving
around one keeps. A pointer into a ring is the list of the values met by
following `Next` once around, so two pointers into one ring are rotations of
each other and moving the pointer is a rotation. -/
namespace NetGraphz

/-- A pointer into a ring; an element that was never written holds nothing. -/
structure Ring (α : Type u) where
  slots : List (Option α)
  deriving Repr, DecidableEq

namespace Ring

/-- `ring.New(n)`. -/
def new (n : Nat) : Ring α := ⟨List.replicate n none⟩

/-- `r.Value`. -/
def value (r : Ring α) : Option α := r.slots.head?.join

/-- `r.Value = v`. -/
def setValue (r : Ring α) (v : α) : Ring α := ⟨r.slots.set 0 (some v)⟩

/-- `r.Next()`. -/
def next (r : Ring α) : Ring α :=
  match r.slots with
  | [] => r
  | first :: rest => ⟨rest ++ [first]⟩

/-- `r.Prev()`. -/
def prev (r : Ring α) : Ring α :=
  match r.slots.getLast? with
  | none => r
  | some last => ⟨last :: r.slots.dropLast⟩

/-- The values met by following `Prev` once around. -/
def backward (r : Ring α) : List (Option α) :=
  match r.slots with
  | [] => []
  | first :: rest => first :: rest.reverse

theorem value_eq_head_backward (r : Ring α) : r.value = r.backward.head?.join := by
  obtain ⟨_ | ⟨first, rest⟩⟩ := r <;> rfl

@[simp] theorem backward_new (n : Nat) : (new n : Ring α).backward = List.replicate n none := by
  cases n with
  | zero => rfl
  | succ n => simp [new, backward, List.replicate_succ]

/-- One step back: the walk begins one later and meets the start last. -/
theorem backward_prev (r : Ring α) : r.prev.backward = r.backward.rotate 1 := by
  obtain ⟨slots⟩ := r
  cases slots with
  | nil => rfl
  | cons first rest =>
    induction rest using List.reverseRecOn with
    | nil => simp [prev, backward]
    | append_singleton middle last _ =>
      have ends : (first :: (middle ++ [last])).getLast? = some last := by
        rw [← List.cons_append, List.getLast?_concat]
      have inner : (first :: (middle ++ [last])).dropLast = first :: middle := by
        rw [← List.cons_append, List.dropLast_concat]
      simp [prev, backward, ends, inner, List.rotate_cons_succ]

theorem backward_iterate_prev (r : Ring α) (k : Nat) :
    (prev^[k] r).backward = r.backward.rotate k := by
  induction k with
  | zero => simp
  | succ k ih =>
    rw [Function.iterate_succ_apply', backward_prev, ih, List.rotate_rotate]

/-- What stands `k` steps back, however often the walk goes around. -/
theorem value_iterate_prev (r : Ring α) (nonempty : r.backward ≠ []) (k : Nat) :
    (prev^[k] r).value = r.backward[k % r.backward.length]?.join := by
  have inside : k % r.backward.length < r.backward.length :=
    Nat.mod_lt _ (List.length_pos_iff.mpr nonempty)
  rw [value_eq_head_backward, backward_iterate_prev, ← List.rotate_mod, List.head?_rotate inside]

theorem backward_setValue (r : Ring α) (v : α) :
    (r.setValue v).backward = r.backward.set 0 (some v) := by
  obtain ⟨_ | ⟨first, rest⟩⟩ := r <;> rfl

/-- Stepping forward and writing pushes a value onto the walk and drops the
element met last. -/
theorem backward_push (r : Ring α) (nonempty : r.backward ≠ []) (v : α) :
    (r.next.setValue v).backward = some v :: r.backward.dropLast := by
  obtain ⟨slots⟩ := r
  rcases slots with _ | ⟨first, _ | ⟨second, rest⟩⟩
  · exact absurd rfl nonempty
  · rfl
  · simp only [next, setValue, backward, List.cons_append, List.set_cons_zero,
      List.reverse_append, List.reverse_cons, List.reverse_nil, List.nil_append]
    rw [← List.cons_append, List.dropLast_concat]

/-! ## The bounded log -/

/-- The ring has `capacity` elements; walking back from the pointer they hold
`log`, newest first, and after it nothing. -/
structure Holds (r : Ring α) (capacity : Nat) (log : List α) : Prop where
  size : r.backward.length = capacity
  fits : log.length ≤ capacity
  walk : ∀ k < capacity, r.backward[k]? = some log[k]?

variable {r : Ring α} {log : List α}

private theorem Holds.nonempty (holds : r.Holds capacity log) (positive : 0 < capacity) :
    r.backward ≠ [] := by
  rw [← List.length_pos_iff, holds.size]
  exact positive

/-- Every slot reached by `Prev`, as often as the walk goes around: the log
newest first, then empty slots. -/
theorem Holds.value_iterate_prev (holds : r.Holds capacity log) (positive : 0 < capacity)
    (k : Nat) : (prev^[k] r).value = log[k % capacity]? := by
  rw [Ring.value_iterate_prev r (holds.nonempty positive), holds.size,
    holds.walk _ (Nat.mod_lt _ positive), Option.join_some]

/-- The pointer stands on the newest value. -/
theorem Holds.value (holds : r.Holds capacity log) (positive : 0 < capacity) :
    r.value = log.head? := by
  simpa [List.head?_eq_getElem?] using holds.value_iterate_prev positive 0

/-- Once around, the walk reads the log and then empty slots. -/
theorem Holds.reads (holds : r.Holds capacity log) :
    ∀ k < capacity, (prev^[k] r).value = log[k]? := by
  intro k inside
  rw [holds.value_iterate_prev (Nat.zero_lt_of_lt inside), Nat.mod_eq_of_lt inside]

/-- What a walk reads after its first slot. -/
theorem reads_later {first : α} {rest : List α}
    (reads : ∀ k < n + 1, (prev^[k] r).value = (first :: rest)[k]?) :
    ∀ k < n, (prev^[k] r.prev).value = rest[k]? := by
  intro k inside
  have read := reads (k + 1) (Nat.succ_lt_succ inside)
  rwa [Function.iterate_succ_apply, List.getElem?_cons_succ] at read

/-- Stepping forward and writing is the push of a bounded log: the oldest
value falls out once the ring is full. -/
theorem Holds.push (holds : r.Holds capacity log) (positive : 0 < capacity) (v : α) :
    (r.next.setValue v).Holds capacity ((v :: log).take capacity) := by
  have size := holds.size
  have pushed := backward_push r (holds.nonempty positive) v
  refine ⟨?_, List.length_take_le _ _, fun k inside => ?_⟩
  · rw [pushed, List.length_cons, List.length_dropLast, size]
    omega
  · rw [pushed, List.getElem?_take_of_lt inside]
    cases k with
    | zero => rfl
    | succ k =>
      rw [List.getElem?_cons_succ, List.getElem?_cons_succ, List.getElem?_dropLast, if_pos (by omega)]
      exact holds.walk k (by omega)

/-- A new ring holds an empty log. -/
theorem holds_new (capacity : Nat) : (new capacity : Ring α).Holds capacity [] := by
  refine ⟨by simp, Nat.zero_le _, fun k inside => ?_⟩
  rw [backward_new, List.getElem?_replicate_of_lt inside, List.getElem?_nil]

/-- The first write goes where the pointer stands. -/
theorem Holds.setFirst (empty : r.Holds capacity []) (positive : 0 < capacity) (v : α) :
    (r.setValue v).Holds capacity [v] := by
  have size := empty.size
  refine ⟨by rw [backward_setValue, List.length_set, size], positive, fun k inside => ?_⟩
  rw [backward_setValue]
  cases k with
  | zero => rw [List.getElem?_set_self (by omega), List.getElem?_cons_zero]
  | succ k =>
    rw [List.getElem?_set_ne (Nat.succ_ne_zero k).symm, empty.walk _ inside]
    rfl

/-- The values met by going once around. -/
def reachable (r : Ring α) (capacity : Nat) : List α :=
  (List.range capacity).filterMap fun k => (prev^[k] r).value

/-- Looking a list up at every index, and further, gives the list. -/
theorem filterMap_getElem? (log : List α) (fits : log.length ≤ capacity) :
    ((List.range capacity).filterMap fun k => log[k]?) = log := by
  induction log generalizing capacity with
  | nil => simp
  | cons newest older ih =>
    obtain ⟨rest, rfl⟩ := Nat.exists_eq_add_of_lt fits
    have within : older.length ≤ older.length + rest := Nat.le_add_right _ _
    rw [List.range_succ_eq_map, List.filterMap_cons, List.filterMap_map]
    simpa using ih within

/-- Once around, one meets the log. -/
theorem Holds.reachable (holds : r.Holds capacity log) : r.reachable capacity = log := by
  have walked : ∀ k ∈ List.range capacity, (prev^[k] r).value = log[k]? :=
    fun k member => holds.reads k (List.mem_range.mp member)
  rw [Ring.reachable, List.filterMap_congr walked, filterMap_getElem? log holds.fits]

/-- `for r.Value != nil && counter < bound { counter++; r = r.Prev() }`. -/
def countBack (r : Ring α) : (bound : Nat) → Nat
  | 0 => 0
  | bound + 1 => if r.value.isSome then countBack r.prev bound + 1 else 0

/-- A bounded count along a walk that reads `log` and then empty slots. -/
theorem countBack_eq (log : List α) (r : Ring α) (bound : Nat)
    (reads : ∀ k < bound, (prev^[k] r).value = log[k]?) :
    r.countBack bound = min log.length bound := by
  induction bound generalizing r log with
  | zero => simp [countBack]
  | succ bound ih =>
    have first : r.value = log[0]? := reads 0 (Nat.zero_lt_succ _)
    cases log with
    | nil => simp [countBack, first]
    | cons newest older =>
      simp [countBack, first, ih older r.prev (reads_later reads), Nat.succ_min_succ]

/-- The count stops at the end of the log, or once around. -/
theorem Holds.countBack (holds : r.Holds capacity log) : r.countBack capacity = log.length := by
  rw [countBack_eq log r capacity holds.reads, Nat.min_eq_left holds.fits]

end Ring

end NetGraphz
