import Mathlib.Order.WellFoundedSet

/-! Loops that need not end: a turn stops the loop with a result or leads to another. -/
namespace NetGraphz

inductive Turn (σ : Type u) (ρ : Type v) where
  | stop (result : ρ)
  | again (state : σ)

variable {σ : Type u} {ρ : Type v} {turn : σ → Turn σ ρ} {s t : σ} {r r' : ρ}

/-- So many turns; `none` while the loop is still running. -/
def loop (turn : σ → Turn σ ρ) : Nat → σ → Option ρ
  | 0, _ => none
  | fuel + 1, s =>
    match turn s with
    | .stop r => some r
    | .again t => loop turn fuel t

/-- The loop stops with the result. -/
def EndsWith (turn : σ → Turn σ ρ) (s : σ) (r : ρ) : Prop := ∃ fuel, loop turn fuel s = some r

def Ends (turn : σ → Turn σ ρ) (s : σ) : Prop := ∃ r, EndsWith turn s r

theorem endsWith_of_stop (stops : turn s = .stop r) : EndsWith turn s r :=
  ⟨1, by rw [loop, stops]⟩

theorem endsWith_stop_iff (stops : turn s = .stop r) : EndsWith turn s r' ↔ r' = r := by
  constructor
  · rintro ⟨fuel, ended⟩
    cases fuel with
    | zero => cases ended
    | succ fuel =>
      rw [loop, stops, Option.some.injEq] at ended
      exact ended.symm
  · rintro rfl
    exact endsWith_of_stop stops

/-- A turn that does not stop the loop makes no difference to how it ends. -/
theorem endsWith_again_iff (goes : turn s = .again t) : EndsWith turn s r ↔ EndsWith turn t r := by
  constructor
  · rintro ⟨fuel, ended⟩
    cases fuel with
    | zero => cases ended
    | succ fuel =>
      rw [loop, goes] at ended
      exact ⟨fuel, ended⟩
  · rintro ⟨fuel, ended⟩
    exact ⟨fuel + 1, by rw [loop, goes]; exact ended⟩

theorem endsWith_unique (ended : EndsWith turn s r) (ended' : EndsWith turn s r') : r = r' := by
  obtain ⟨fuel, ended⟩ := ended
  induction fuel generalizing s with
  | zero => cases ended
  | succ fuel ih =>
    rw [loop] at ended
    cases next : turn s with
    | stop result =>
      rw [next, Option.some.injEq] at ended
      exact ended.symm.trans ((endsWith_stop_iff next).mp ended').symm
    | again t =>
      rw [next] at ended
      exact ih ((endsWith_again_iff next).mp ended') ended

/-- What each turn keeps and each stop turns into a fact of the result holds of
the result of every run. -/
theorem of_endsWith {P : σ → Prop} {Q : ρ → Prop}
    (step : ∀ s, P s → (∃ r, turn s = .stop r ∧ Q r) ∨ ∃ t, turn s = .again t ∧ P t)
    (start : P s) (ended : EndsWith turn s r) : Q r := by
  obtain ⟨fuel, ended⟩ := ended
  induction fuel generalizing s with
  | zero => cases ended
  | succ fuel ih =>
    rcases step s start with ⟨result, stops, holds⟩ | ⟨t, goes, kept⟩
    · rw [loop, stops, Option.some.injEq] at ended
      exact ended ▸ holds
    · rw [loop, goes] at ended
      exact ih kept ended

/-- A loop that always has another turn never ends. -/
theorem not_ends {P : σ → Prop} (step : ∀ s, P s → ∃ t, turn s = .again t ∧ P t)
    (start : P s) : ¬Ends turn s := fun ⟨_, ended⟩ =>
  of_endsWith (Q := fun _ => False) (fun s kept => Or.inr (step s kept)) start ended

instance preorder_sublist : IsPreorder (List α) List.Sublist where
  refl := List.Sublist.refl
  trans _ _ _ := List.Sublist.trans

end NetGraphz
