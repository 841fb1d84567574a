import Mathlib.Data.List.Induction

/-! Runs of a deterministic machine, told as histories: the list of everything
that has happened so far. An invariant is proved of one step and holds of every
run; a property that each step keeps exactly under a condition holds all along
a run exactly when every step meets that condition. -/
namespace NetGraphz

/-- The state a machine is in after a history. -/
def after (step : σ → α → σ) (start : σ) (history : List α) : σ := history.foldl step start

@[simp] theorem after_nil (step : σ → α → σ) (start : σ) : after step start [] = start := rfl

/-- The last thing that happened was one step. -/
@[simp] theorem after_concat (step : σ → α → σ) (start : σ) (past : List α) (last : α) :
    after step start (past ++ [last]) = step (after step start past) last := by
  simp [after]

/-- What happened later starts from where the past ended. -/
theorem after_append (step : σ → α → σ) (start : σ) (past later : List α) :
    after step start (past ++ later) = after step (after step start past) later := by
  simp [after]

/-- What the start satisfies and each step keeps holds after every history. -/
theorem after_invariant (step : σ → α → σ) {start : σ} (invariant : σ → Prop)
    (initial : invariant start)
    (preserved : ∀ state action, invariant state → invariant (step state action))
    (history : List α) : invariant (after step start history) := by
  induction history using List.reverseRecOn with
  | nil => exact initial
  | append_singleton past last ih =>
    rw [after_concat]
    exact preserved _ last ih

/-- The same, where the property also speaks of the history itself. -/
theorem history_induction (holds : List α → Prop) (initial : holds [])
    (preserved : ∀ past last, holds past → holds (past ++ [last])) (history : List α) :
    holds history := by
  induction history using List.reverseRecOn with
  | nil => exact initial
  | append_singleton past last ih => exact preserved past last ih

/-- The same along a given history: every beginning of it has what its steps
keep. -/
theorem prefix_induction (holds : List α → Prop) (initial : holds [])
    (preserved : ∀ past last, past ++ [last] <+: history → holds past → holds (past ++ [last])) :
    ∀ past, past <+: history → holds past := by
  intro past
  refine history_induction (fun past => past <+: history → holds past) (fun _ => initial) ?_ past
  intro past last ih within
  exact preserved past last within (ih ((List.prefix_append past [last]).trans within))

/-- A run that records more than another one runs like it. -/
theorem after_projects (step : σ → α → σ) (recording : τ → α → τ) (view : τ → σ)
    (same : ∀ state event, view (recording state event) = step (view state) event) (start : τ)
    (history : List α) : view (after recording start history) = after step (view start) history := by
  induction history using List.reverseRecOn with
  | nil => rfl
  | append_singleton past last ih => rw [after_concat, after_concat, same, ih]

/-- A property that survives a step exactly when the step is allowed holds at
every point of a run exactly when all its steps are allowed. -/
theorem throughout_iff_each_step (holds : List α → Prop) (allowed : List α → α → Prop)
    (initial : holds [])
    (step : ∀ past last, holds past → (holds (past ++ [last]) ↔ allowed past last))
    (history : List α) :
    (∀ past, past <+: history → holds past) ↔
      ∀ past last, past ++ [last] <+: history → allowed past last := by
  constructor
  · intro throughout past last within
    have before := throughout past ((List.prefix_append past [last]).trans within)
    exact (step past last before).mp (throughout _ within)
  · intro each
    apply prefix_induction holds initial
    intro past last within before
    exact (step past last before).mpr (each past last within)

end NetGraphz
