import Mathlib

/-! The text that a pair of integers is coerced to where it serves as a key, and
that no other pair has it. -/
namespace NetGraphz

/-- `[a, b]` as a property name. -/
def pairText (pair : Int × Int) : String := pair.1.repr ++ "," ++ pair.2.repr

theorem comma_not_mem_repr (n : Int) : ',' ∉ n.repr.toList := by
  have digits (m : Nat) : ',' ∉ m.repr.toList := by
    rw [Nat.toList_repr]
    intro held
    have digit : (',').isDigit = true := Nat.isDigit_of_mem_toDigits (by omega) (by omega) held
    cases digit
  cases n with
  | ofNat m => exact digits m
  | negSucc m =>
    intro held
    have after : ',' ∈ "-".toList ++ (m + 1).repr.toList := by
      rw [← String.toList_append]
      exact held
    rcases List.mem_append.mp after with sign | held
    · cases (List.mem_singleton.mp sign)
    · exact digits (m + 1) held

theorem pairText_injective : Function.Injective pairText := by
  rintro ⟨a, b⟩ ⟨a', b'⟩ same
  have texts : a.repr.toList ++ ',' :: b.repr.toList = a'.repr.toList ++ ',' :: b'.repr.toList := by
    simpa [pairText, String.toList_append] using congrArg String.toList same
  obtain ⟨first, _, second⟩ := (List.append_cons_inj_of_notMem (comma_not_mem_repr a)
    (comma_not_mem_repr b)).mp texts
  have first := Int.repr_injective (String.toList_injective first)
  have second := Int.repr_injective (String.toList_injective second)
  rw [first, second]

end NetGraphz
