/-! Computations that may fail, and when they do not: one after the other, and
along a list. -/
namespace NetGraphz

/-- Two computations, one after the other, give a result when both do. -/
theorem bind_eq_ok {first : Except ε α} {second : α → Except ε β} :
    first >>= second = .ok result ↔ ∃ value, first = .ok value ∧ second value = .ok result := by
  cases first with
  | error error => exact iff_of_false nofun nofun
  | ok value => exact ⟨fun same => ⟨value, rfl, same⟩, fun ⟨_, same, given⟩ => by cases same; exact given⟩

/-- The computation does not fail. -/
def Completes (computation : Except ε α) : Prop := ∃ value, computation = .ok value

namespace Completes

/-- Where every item is made into something, the list is. -/
theorem mapM_eq {each : α → Except ε β} {make : α → β} {items : List α}
    (made : ∀ item ∈ items, each item = .ok (make item)) :
    items.mapM each = .ok (items.map make) := by
  induction items with
  | nil => rfl
  | cons item rest ih =>
    rw [List.mapM_cons, made item List.mem_cons_self,
      ih fun other held => made other (List.mem_cons_of_mem item held)]
    rfl

end Completes

end NetGraphz
