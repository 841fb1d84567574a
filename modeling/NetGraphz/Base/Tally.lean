import Mathlib

/-! The sum of a weight over a list, as its elements are replaced one at a time. -/
namespace NetGraphz

/-- What the elements weigh together. -/
def tally (weight : α → Nat) (elements : List α) : Nat := (elements.map weight).sum

variable {weight other : α → Nat} {elements : List α} {a b : α} {i : Nat}

/-- One element weighs no more than all of them. -/
theorem le_tally (weight : α → Nat) (member : a ∈ elements) : weight a ≤ tally weight elements := by
  induction elements with
  | nil => cases member
  | cons first rest ih =>
    have all : tally weight (first :: rest) = weight first + tally weight rest := by simp [tally]
    rcases List.mem_cons.mp member with rfl | later
    · omega
    · have := ih later
      omega

theorem tally_pos_iff : 0 < tally weight elements ↔ ∃ a ∈ elements, 0 < weight a := by
  induction elements with
  | nil => simp [tally]
  | cons first rest ih =>
    have all : tally weight (first :: rest) = weight first + tally weight rest := by simp [tally]
    rw [all, Nat.add_pos_iff_pos_or_pos, ih]
    simp

/-- A replacement adds what is new and takes off what was there. -/
theorem tally_set (weight : α → Nat) (found : elements[i]? = some a) (b : α) :
    tally weight (elements.set i b) + weight a = tally weight elements + weight b := by
  induction elements generalizing i with
  | nil => simp at found
  | cons first rest ih =>
    cases i with
    | zero =>
      have same : first = a := by simpa using found
      subst same
      simp only [tally, List.set_cons_zero, List.map_cons, List.sum_cons]
      omega
    | succ i =>
      have later := ih (by simpa using found)
      simp only [tally, List.set_cons_succ, List.map_cons, List.sum_cons] at later ⊢
      omega

theorem tally_le (less : ∀ a ∈ elements, weight a ≤ other a) :
    tally weight elements ≤ tally other elements := by
  induction elements with
  | nil => exact Nat.le_refl _
  | cons first rest ih =>
    have head := less first List.mem_cons_self
    have tail := ih fun a member => less a (List.mem_cons_of_mem _ member)
    simp only [tally, List.map_cons, List.sum_cons] at tail ⊢
    omega

theorem tally_add (weight other : α → Nat) (elements : List α) :
    tally (fun a => weight a + other a) elements = tally weight elements + tally other elements := by
  induction elements with
  | nil => rfl
  | cons first rest ih =>
    simp only [tally, List.map_cons, List.sum_cons] at ih ⊢
    omega

theorem tally_map (weight : β → Nat) (change : α → β) (elements : List α) :
    tally weight (elements.map change) = tally (fun a => weight (change a)) elements := by
  simp [tally, Function.comp_def]

theorem tally_zero (elements : List α) : tally (fun _ => 0) elements = 0 := by
  simp [tally]

end NetGraphz
