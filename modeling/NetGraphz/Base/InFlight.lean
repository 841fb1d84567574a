import Mathlib.Data.List.Perm.Basic

/-! Requests that are answered later, each once and in any order. Whatever is
answered, every request is in one place: answered, or in flight. -/
namespace NetGraphz

structure InFlight (ρ : Type u) (α : Type v) where
  flying : List ρ := []
  answered : List (ρ × α) := []

namespace InFlight

variable {ρ : Type u} {α : Type v}

def ask (flight : InFlight ρ α) (requests : List ρ) : InFlight ρ α :=
  { flight with flying := flight.flying ++ requests }

/-- One of the requests in flight is answered. -/
def answer (flight : InFlight ρ α) (index : Nat) (reply : α) : InFlight ρ α :=
  match flight.flying[index]? with
  | none => flight
  | some request =>
    { flying := flight.flying.eraseIdx index
      answered := flight.answered ++ [(request, reply)] }

/-- Every request asked so far. -/
def asked (flight : InFlight ρ α) : List ρ := flight.answered.map Prod.fst ++ flight.flying

theorem asked_ask (flight : InFlight ρ α) (requests : List ρ) :
    (flight.ask requests).asked = flight.asked ++ requests := by
  simp [asked, ask]

/-- An answer moves a request from the one place to the other. -/
theorem asked_answer (flight : InFlight ρ α) (index : Nat) (reply : α) :
    (flight.answer index reply).asked.Perm flight.asked := by
  unfold answer
  split
  · exact List.Perm.refl _
  · rename_i request found
    obtain ⟨within, rfl⟩ := List.getElem?_eq_some_iff.mp found
    simp only [asked, List.map_append, List.map_cons, List.map_nil, List.append_assoc,
      List.singleton_append]
    exact (List.getElem_cons_eraseIdx_perm within).append_left _

end InFlight

/-- Related lists stay related when the first is reordered. -/
theorem forall₂_reordered {R : α → β → Prop} {items others : List α} {batches : List β}
    (related : List.Forall₂ R items batches) (reordered : others.Perm items) :
    ∃ batches', List.Forall₂ R others batches' ∧ batches'.Perm batches := by
  obtain ⟨batches', related', same⟩ := List.perm_comp_forall₂ reordered related
  exact ⟨batches', related', same⟩

/-- What is related to two lists in a row falls into two. -/
theorem forall₂_of_append {R : α → β → Prop} {first second : List α} {batches : List β}
    (related : List.Forall₂ R (first ++ second) batches) :
    ∃ early late, List.Forall₂ R first early ∧ List.Forall₂ R second late ∧
      batches = early ++ late := by
  induction first generalizing batches with
  | nil => exact ⟨[], batches, .nil, related, rfl⟩
  | cons item rest ih =>
    obtain ⟨batch, others, holds, related', rfl⟩ := List.forall₂_cons_left_iff.mp related
    obtain ⟨early, late, relatedEarly, relatedLate, rfl⟩ := ih related'
    exact ⟨batch :: early, late, .cons holds relatedEarly, relatedLate, rfl⟩

end NetGraphz
