import Mathlib.Data.List.Basic
import Mathlib.Data.Nat.Find

/-! Strings of JavaScript, by their UTF-16 code units. -/
namespace NetGraphz

/-- A string as the language sees it: half of a surrogate pair counts as well. -/
abbrev JsText := List UInt16

namespace JsText

/-- The code units of one character. -/
def unitsOf (character : Char) : JsText :=
  if character.toNat < 0x10000 then [character.toNat.toUInt16]
  else [(0xD800 + (character.toNat - 0x10000) / 0x400).toUInt16,
    (0xDC00 + (character.toNat - 0x10000) % 0x400).toUInt16]

def ofString (text : String) : JsText := text.toList.flatMap unitsOf

/-- The property key of an index. -/
def ofIndex (index : Nat) : JsText := (Nat.toDigits 10 index).flatMap unitsOf

/-! ## `text.replace(pattern, replacement)` with a string to look for -/

/-- Where a pattern first occurs. -/
def indexOf (pattern text : JsText) : Option Nat :=
  (List.range (text.length + 1)).find? fun i => pattern <+: text.drop i

def dollar : UInt16 := 0x24

/-- What a replacement text stands for: `$$` is a dollar sign, `$&` what was found,
and ``$` `` and `$'` what is before and behind it. -/
def substitute (before found after : JsText) : JsText → JsText
  | [] => []
  | [c] => [c]
  | c :: d :: rest =>
    if c = dollar ∧ d = dollar then dollar :: substitute before found after rest
    else if c = dollar ∧ d = 0x26 then found ++ substitute before found after rest
    else if c = dollar ∧ d = 0x60 then before ++ substitute before found after rest
    else if c = dollar ∧ d = 0x27 then after ++ substitute before found after rest
    else c :: substitute before found after (d :: rest)

def replace (text pattern replacement : JsText) : JsText :=
  match indexOf pattern text with
  | none => text
  | some i =>
    let before := text.take i
    let after := text.drop (i + pattern.length)
    before ++ (substitute before pattern after replacement ++ after)

/-- A replacement without dollar signs stands for itself. -/
theorem substitute_plain (before found after : JsText) {replacement : JsText}
    (plain : dollar ∉ replacement) : substitute before found after replacement = replacement := by
  induction replacement with
  | nil => rfl
  | cons c rest ih =>
    simp only [List.mem_cons, not_or] at plain
    have own : c ≠ dollar := fun same => plain.1 same.symm
    cases rest with
    | nil => rfl
    | cons d rest => simp [substitute, own, ih plain.2]

variable {text pattern before after : JsText}

theorem indexOf_eq (split : text = before ++ (pattern ++ after))
    (first : ∀ i < before.length, ¬pattern <+: text.drop i) :
    indexOf pattern text = some before.length := by
  rw [indexOf, List.find?_range_eq_some]
  refine ⟨?_, ?_, ?_⟩
  · rw [split, List.drop_left]
    simp
  · rw [List.mem_range, split, List.length_append]
    omega
  · intro i earlier
    simpa using first i earlier

/-- The first occurrence gives way to what the replacement stands for. -/
theorem replace_first (replacement : JsText) (split : text = before ++ (pattern ++ after))
    (first : ∀ i < before.length, ¬pattern <+: text.drop i) :
    replace text pattern replacement =
      before ++ (substitute before pattern after replacement ++ after) := by
  have front : text.take before.length = before := by rw [split, List.take_left]
  have back : text.drop (before.length + pattern.length) = after := by
    rw [split, ← List.drop_drop, List.drop_left, List.drop_left]
  simp only [replace, indexOf_eq split first, front, back]

/-- Where a pattern occurs there is a first place at which it does. -/
theorem exists_first (split : text = before ++ (pattern ++ after)) :
    ∃ before' after', text = before' ++ (pattern ++ after') ∧
      ∀ i < before'.length, ¬pattern <+: text.drop i := by
  have occurs : ∃ i, pattern <+: text.drop i :=
    ⟨before.length, by rw [split, List.drop_left]; exact List.prefix_append pattern after⟩
  obtain ⟨after', found⟩ := Nat.find_spec occurs
  refine ⟨text.take (Nat.find occurs), after', ?_, ?_⟩
  · rw [found, List.take_append_drop]
  · intro i earlier
    rw [List.length_take] at earlier
    exact Nat.find_min occurs (by omega)

/-- A text is split in one way at the first place of a character. -/
theorem split_first {c : UInt16} {before' after' : JsText}
    (same : before ++ c :: after = before' ++ c :: after') (absent : c ∉ before)
    (absent' : c ∉ before') : before = before' ∧ after = after' := by
  induction before generalizing before' with
  | nil =>
    cases before' with
    | nil => exact ⟨rfl, (List.cons.inj same).2⟩
    | cons d before' =>
      obtain ⟨rfl, -⟩ := List.cons.inj same
      exact absurd List.mem_cons_self absent'
  | cons d before ih =>
    cases before' with
    | nil =>
      obtain ⟨rfl, -⟩ := List.cons.inj same
      exact absurd List.mem_cons_self absent
    | cons d' before' =>
      obtain ⟨rfl, rest⟩ := List.cons.inj same
      obtain ⟨rfl, rfl⟩ := ih rest (fun member => absent (List.mem_cons_of_mem d member))
        fun member => absent' (List.mem_cons_of_mem d member)
      exact ⟨rfl, rfl⟩

end JsText

end NetGraphz
