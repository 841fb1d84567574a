import Mathlib.Data.List.Rotate
import NetGraphz.Base.Ring

/-! Going round a list by an index that wraps at its ends: a round in either
direction meets every element once, wherever it starts. -/
namespace NetGraphz.Rounds

/-- The next index, after the last one the first. -/
def ahead (n i : Nat) : Nat := if i + 1 = n then 0 else i + 1

/-- The index before, and before the first one the last. -/
def behind (n i : Nat) : Nat := if i = 0 then n - 1 else i - 1

theorem ahead_lt (inside : i < n) : ahead n i < n := by
  unfold ahead
  split <;> omega

theorem behind_lt (inside : i < n) : behind n i < n := by
  unfold behind
  split <;> omega

theorem ahead_eq_mod (inside : i < n) : ahead n i = (i + 1) % n := by
  unfold ahead
  split
  · rename_i last
    rw [last, Nat.mod_self]
  · rw [Nat.mod_eq_of_lt (by omega)]

theorem ahead_iterate (inside : i < n) (k : Nat) : (ahead n)^[k] i = (i + k) % n := by
  induction k with
  | zero => exact (Nat.mod_eq_of_lt inside).symm
  | succ k ih =>
    have within : (i + k) % n < n := Nat.mod_lt _ (Nat.zero_lt_of_lt inside)
    rw [Function.iterate_succ_apply', ih, ahead_eq_mod within, Nat.mod_add_mod, Nat.add_assoc]

/-- Seen from the other end, going back is going on. -/
theorem mirror_behind (inside : i < n) : n - 1 - behind n i = ahead n (n - 1 - i) := by
  unfold ahead behind
  split <;> split <;> omega

theorem behind_iterate (inside : i < n) (k : Nat) :
    (behind n)^[k] i < n ∧ n - 1 - (behind n)^[k] i = (ahead n)^[k] (n - 1 - i) := by
  induction k with
  | zero => exact ⟨inside, rfl⟩
  | succ k ih =>
    obtain ⟨within, mirrored⟩ := ih
    rw [Function.iterate_succ_apply', Function.iterate_succ_apply', ← mirrored]
    exact ⟨behind_lt within, mirror_behind within⟩

/-- The elements met by so many steps from an index. -/
def walk (step : Nat → Nat) (items : List α) (start count : Nat) : List α :=
  (List.range count).filterMap fun k => items[step^[k] start]?

theorem walk_succ (step : Nat → Nat) (items : List α) (start count : Nat) :
    walk step items start (count + 1) =
      walk step items start count ++ (items[step^[count] start]?).toList := by
  unfold walk
  rw [List.range_succ, List.filterMap_append]
  rfl

variable {items : List α}

/-- A round ahead meets the list as it is rotated to the start. -/
theorem walk_ahead (inside : start < items.length) :
    walk (ahead items.length) items start items.length = items.rotate start := by
  have met : ∀ k ∈ List.range items.length,
      items[(ahead items.length)^[k] start]? = (items.rotate start)[k]? := by
    intro k within
    rw [ahead_iterate inside, List.getElem?_rotate (List.mem_range.mp within), Nat.add_comm]
  rw [walk, List.filterMap_congr met]
  exact Ring.filterMap_getElem? _ (List.length_rotate ..).le

/-- A round back meets the reversed list as it is rotated to the start. -/
theorem walk_behind (inside : start < items.length) :
    walk (behind items.length) items start items.length =
      items.reverse.rotate (items.length - 1 - start) := by
  have met : ∀ k ∈ List.range items.length,
      items[(behind items.length)^[k] start]? =
        items.reverse[(ahead items.reverse.length)^[k] (items.length - 1 - start)]? := by
    intro k _
    obtain ⟨within, mirrored⟩ := behind_iterate inside k
    rw [List.length_reverse, ← mirrored, List.getElem?_reverse (by omega)]
    congr 1
    omega
  have other : items.length - 1 - start < items.reverse.length := by
    rw [List.length_reverse]
    omega
  rw [walk, List.filterMap_congr met, ← walk_ahead other, walk, List.length_reverse]

/-- A round in either direction meets every element once. -/
theorem walk_perm (step : Nat → Nat) (direction : step = ahead items.length ∨
    step = behind items.length) (inside : start < items.length) :
    (walk step items start items.length).Perm items := by
  rcases direction with rfl | rfl
  · rw [walk_ahead inside]
    exact List.rotate_perm items start
  · rw [walk_behind inside]
    exact (List.rotate_perm _ _).trans items.reverse_perm

end NetGraphz.Rounds
