import Mathlib.Data.List.Infix

/-! Timeouts that a program sets and clears by handle, and what it means for a
timer that is started and stopped to keep still while it is stopped. -/
namespace NetGraphz

/-- The timeouts that are set, each with what it is set for. -/
structure Timeouts (α : Type u) where
  next : Nat := 0
  pending : List (Nat × α) := []

namespace Timeouts

/-- `setTimeout`; the handle is the next one. -/
def set (timeouts : Timeouts α) (action : α) : Timeouts α where
  next := timeouts.next + 1
  pending := timeouts.pending ++ [(timeouts.next, action)]

/-- `clearTimeout`. -/
def clear (timeouts : Timeouts α) (handle : Option Nat) : Timeouts α :=
  { timeouts with pending := timeouts.pending.filter fun entry => handle ≠ some entry.1 }

/-- What a pending timeout is set for. -/
def due (timeouts : Timeouts α) (handle : Nat) : Option α := timeouts.pending.lookup handle

theorem pending_clear_only {timeouts : Timeouts α} (only : timeouts.pending = [(handle, action)]) :
    (timeouts.clear (some handle)).pending = [] := by
  simp [clear, only]

theorem pending_clear_empty {timeouts : Timeouts α} (empty : timeouts.pending = [])
    (handle : Option Nat) : (timeouts.clear handle).pending = [] := by
  simp [clear, empty]

theorem due_only {timeouts : Timeouts α} (only : timeouts.pending = [(handle, action)])
    (found : timeouts.due other = some action') : other = handle := by
  rw [due, only, List.lookup_cons] at found
  split at found
  · rename_i same
    exact eq_of_beq same
  · cases found

end Timeouts

/-- What is done with a timer, and what it does. -/
inductive TimerCall where
  | started
  | stopped
  | fired
  deriving DecidableEq

/-- The timer was started after it was last stopped. -/
def Armed (calls : List TimerCall) : Prop :=
  ∀ early between, calls = early ++ .stopped :: between → .started ∈ between

/-- Between a stop and a firing after it there is always a start. -/
def QuietWhenStopped (calls : List TimerCall) : Prop :=
  ∀ past, past ++ [.fired] <+: calls → Armed past

theorem armed_started (calls : List TimerCall) : Armed (calls ++ [.started]) := by
  intro early between same
  rcases between.eq_nil_or_concat with rfl | ⟨before, last, rfl⟩
  · cases (List.append_inj' same rfl).2
  · rw [List.concat_eq_append] at same ⊢
    rw [← List.cons_append, ← List.append_assoc] at same
    cases (List.append_inj' same rfl).2
    exact List.mem_append_right before (List.mem_singleton_self _)

theorem quiet_nil : QuietWhenStopped [] := by
  intro past within
  simp at within

theorem quiet_concat (calls : List TimerCall) (last : TimerCall) :
    QuietWhenStopped (calls ++ [last]) ↔
      QuietWhenStopped calls ∧ (last = .fired → Armed calls) := by
  constructor
  · intro quiet
    refine ⟨fun past within => quiet past (within.trans (List.prefix_append _ _)), ?_⟩
    rintro rfl
    exact quiet calls (List.prefix_refl _)
  · rintro ⟨quiet, atLast⟩ past within
    rcases List.prefix_concat_iff.mp within with whole | before
    · obtain ⟨rfl, fired⟩ := List.append_inj' whole rfl
      cases fired
      exact atLast rfl
    · exact quiet past before

end NetGraphz
