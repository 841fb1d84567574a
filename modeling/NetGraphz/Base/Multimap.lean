import Mathlib.Data.Finmap

/-! Maps from keys to lists, into which values are pushed one at a time. -/
namespace NetGraphz

/-- A map that lists values under its keys. -/
abbrev Multimap (κ α : Type) := Finmap fun _ : κ => List α

namespace Multimap
variable {κ α : Type} [DecidableEq κ] {m : Multimap κ α}

/-- What is listed under a key; nothing, for a key the map does not have. -/
def under (m : Multimap κ α) (key : κ) : List α := (m.lookup key).getD []

/-- One more value under a key, behind the others. -/
def push (m : Multimap κ α) (key : κ) (a : α) : Multimap κ α := m.insert key (m.under key ++ [a])

@[simp] theorem under_empty (key : κ) : (∅ : Multimap κ α).under key = [] := by
  rw [under, Finmap.lookup_empty]
  rfl

theorem under_push (m : Multimap κ α) (key other : κ) (a : α) :
    (m.push key a).under other =
      if other = key then m.under other ++ [a] else m.under other := by
  unfold push under
  split
  · rename_i same
    rw [same, Finmap.lookup_insert]
    rfl
  · rename_i apart
    rw [Finmap.lookup_insert_of_ne _ apart]

/-- No key is there for nothing. -/
def NoneEmpty (m : Multimap κ α) : Prop := ∀ key, m.lookup key ≠ some []

theorem noneEmpty_empty : NoneEmpty (∅ : Multimap κ α) := by
  intro key
  rw [Finmap.lookup_empty]
  simp

theorem NoneEmpty.push (full : NoneEmpty m) (key : κ) (a : α) : NoneEmpty (m.push key a) := by
  intro other
  unfold Multimap.push
  by_cases same : other = key
  · rw [same, Finmap.lookup_insert]
    simp
  · rw [Finmap.lookup_insert_of_ne _ same]
    exact full other

/-- Such a map is what it lists under each key. -/
theorem NoneEmpty.lookup_eq (full : NoneEmpty m) (key : κ) :
    m.lookup key = if m.under key = [] then none else some (m.under key) := by
  unfold under
  cases found : m.lookup key with
  | none => simp
  | some listed =>
    have some : listed ≠ [] := fun empty => full key (found.trans (congrArg some empty))
    simp [some]

/-- It has the keys under which it lists something. -/
theorem NoneEmpty.mem_iff (full : NoneEmpty m) (key : κ) : key ∈ m ↔ m.under key ≠ [] := by
  rw [← Finmap.lookup_isSome, full.lookup_eq]
  split <;> simp [*]

theorem NoneEmpty.eq_empty_iff (full : NoneEmpty m) : m = ∅ ↔ ∀ key, m.under key = [] := by
  constructor
  · rintro rfl key
    exact under_empty key
  · intro none
    apply Finmap.ext_lookup
    intro key
    rw [full.lookup_eq, if_pos (none key), Finmap.lookup_empty]

end Multimap
end NetGraphz
