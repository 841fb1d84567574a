import Mathlib.Data.List.Basic
import Mathlib.Logic.Function.Basic

/-! Collecting items by key and passing each key's items on in batches. Nothing
is lost, duplicated or reordered within a key: what was accepted under a key is
what its batches carry, batch after batch, and then what is still pending. -/
namespace NetGraphz

/-- Everything accepted so far, the batches passed on so far, and the items
each key still collects. -/
structure Batches (κ : Type u) (α : Type v) where
  accepted : List (κ × α) := []
  passed : List (κ × List α) := []
  pending : κ → List α := fun _ => []

namespace Batches

variable {κ : Type u} {α : Type v} [DecidableEq κ]

/-- An item joins the others of its key. -/
def accept (batches : Batches κ α) (key : κ) (item : α) : Batches κ α :=
  { batches with
    accepted := batches.accepted ++ [(key, item)]
    pending := Function.update batches.pending key (batches.pending key ++ [item]) }

/-- A key's items are passed on together. -/
def pass (batches : Batches κ α) (key : κ) : Batches κ α :=
  { batches with
    passed := batches.passed ++ [(key, batches.pending key)]
    pending := Function.update batches.pending key [] }

/-- The items a list of keyed items has under one key. -/
def under (key : κ) (items : List (κ × α)) : List α :=
  (items.filter fun item => item.1 = key).map Prod.snd

/-- The items a list of batches carries under one key. -/
def carried (key : κ) (passed : List (κ × List α)) : List α :=
  (passed.filter fun batch => batch.1 = key).flatMap Prod.snd

/-- Under every key: batches first, in order, then what is pending. -/
def Conserved (batches : Batches κ α) : Prop :=
  ∀ key, under key batches.accepted = carried key batches.passed ++ batches.pending key

theorem under_append (key : κ) (items more : List (κ × α)) :
    under key (items ++ more) = under key items ++ under key more := by
  simp [under]

theorem carried_append (key : κ) (passed more : List (κ × List α)) :
    carried key (passed ++ more) = carried key passed ++ carried key more := by
  simp [carried]

theorem under_singleton (key own : κ) (item : α) :
    under key [(own, item)] = if key = own then [item] else [] := by
  by_cases same : key = own
  · simp [under, same]
  · simp [under, same, Ne.symm same]

theorem carried_singleton (key own : κ) (items : List α) :
    carried key [(own, items)] = if key = own then items else [] := by
  by_cases same : key = own
  · simp [carried, same]
  · simp [carried, same, Ne.symm same]

theorem conserved_empty : Conserved ({} : Batches κ α) := fun _ => rfl

theorem Conserved.accept {batches : Batches κ α} (conserved : batches.Conserved) (key : κ)
    (item : α) : (batches.accept key item).Conserved := by
  intro other
  have before := conserved other
  simp only [Batches.accept, under_append, under_singleton, before, Function.update_apply]
  split
  · rename_i same
    rw [same, List.append_assoc]
  · rw [List.append_nil]

theorem Conserved.pass {batches : Batches κ α} (conserved : batches.Conserved) (key : κ) :
    (batches.pass key).Conserved := by
  intro other
  have before := conserved other
  simp only [Batches.pass, carried_append, carried_singleton, before, Function.update_apply]
  split
  · rename_i same
    rw [same, List.append_nil]
  · rw [List.append_nil]

end Batches

end NetGraphz
