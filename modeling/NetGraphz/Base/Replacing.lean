import Mathlib.Data.List.Infix

/-! Replacing every occurrence of a word in a text, from left to right: which
letters come out of it, and which other words stay. -/
namespace NetGraphz.Replacing
variable [DecidableEq α]

/-- The text behind `skip` letters, with the new word where the old one stood. -/
def replaceFrom (old new : List α) : Nat → List α → List α
  | _, [] => []
  | skip + 1, _ :: rest => replaceFrom old new skip rest
  | 0, first :: rest =>
    if old <+: first :: rest then new ++ replaceFrom old new (old.length - 1) rest
    else first :: replaceFrom old new 0 rest

/-- The text with the new word where the old one stood. An old word without
letters is not meant. -/
def replace (old new text : List α) : List α := replaceFrom old new 0 text

variable {old new text : List α}

/-- Wherever the two words stand in one text, they have no letter in common. -/
def Apart (old word : List α) : Prop :=
  (∀ n < old.length, ¬ old.drop n <+: word ∧ ¬ word <+: old.drop n) ∧
    ∀ n < word.length, ¬ old <+: word.drop n ∧ ¬ word.drop n <+: old

instance (old word : List α) : Decidable (Apart old word) := inferInstanceAs (Decidable (_ ∧ _))

variable {word : List α}

omit [DecidableEq α] in
theorem Apart.symm (apart : Apart old word) : Apart word old :=
  ⟨fun n within => (apart.2 n within).symm, fun n within => (apart.1 n within).symm⟩

omit [DecidableEq α] in
theorem Apart.filled (apart : Apart old word) (filled : word ≠ []) : old ≠ [] := by
  rintro rfl
  exact (apart.2 0 (List.length_pos_of_ne_nil filled)).1 List.nil_prefix

omit [DecidableEq α] in
/-- An occurrence of the old word before the other ends before it. -/
theorem Apart.length_le (apart : Apart old word) {before behind : List α}
    (held : old <+: before ++ (word ++ behind)) : old.length ≤ before.length := by
  by_contra longer
  have within : old.drop before.length <+: word ++ behind := by
    have dropped := held.drop before.length
    rwa [List.drop_left] at dropped
  obtain ⟨notIn, notOut⟩ := apart.1 before.length (by omega)
  rcases List.prefix_or_prefix_of_prefix within (List.prefix_append word behind) with inside | outside
  · exact notIn inside
  · exact notOut outside

end NetGraphz.Replacing
