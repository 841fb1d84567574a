import Mathlib.Data.Finmap
import Mathlib.Logic.Function.Basic

/-! `setInterval` and `clearInterval`: live timers by handle, each with the
callback it fires. A cleared timer never fires again and handles are not
reused. -/
namespace NetGraphz

/-- The live interval timers; `next` is the handle handed out next. -/
structure Intervals (κ : Type) where
  next : Nat := 0
  live : Finmap (fun _ : Nat => κ) := ∅

namespace Intervals

/-- `setInterval(callback, time)`; when it fires is left to the environment. -/
def set (timers : Intervals κ) (callback : κ) : Intervals κ × Nat :=
  (⟨timers.next + 1, timers.live.insert timers.next callback⟩, timers.next)

/-- `clearInterval(handle)`. -/
def clear (timers : Intervals κ) (handle : Nat) : Intervals κ :=
  { timers with live := timers.live.erase handle }

/-- What a handle fires, when its timer is live. -/
def callback (timers : Intervals κ) (handle : Nat) : Option κ := timers.live.lookup handle

/-- Handles are handed out in order. -/
def Fresh (timers : Intervals κ) : Prop :=
  ∀ handle fired, timers.callback handle = some fired → handle < timers.next

variable {timers : Intervals κ}

theorem fresh_empty : Fresh ({} : Intervals κ) := by
  intro handle fired live
  simp [callback] at live

@[simp] theorem callback_set (timers : Intervals κ) (fired : κ) (handle : Nat) :
    (timers.set fired).1.callback handle =
      if handle = timers.next then some fired else timers.callback handle := by
  by_cases same : handle = timers.next
  · subst same
    simp [set, callback]
  · simp [set, callback, same]

@[simp] theorem callback_clear (timers : Intervals κ) (cleared handle : Nat) :
    (timers.clear cleared).callback handle =
      if handle = cleared then none else timers.callback handle := by
  by_cases same : handle = cleared
  · subst same
    simp [clear, callback]
  · simp [clear, callback, same]

theorem Fresh.set (fresh : timers.Fresh) (fired : κ) : (timers.set fired).1.Fresh := by
  intro handle fired' live
  rw [callback_set] at live
  change handle < timers.next + 1
  split at live
  · omega
  · have := fresh handle fired' live
    omega

theorem Fresh.clear (fresh : timers.Fresh) (cleared : Nat) : (timers.clear cleared).Fresh := by
  intro handle fired live
  rw [callback_clear] at live
  split at live
  · cases live
  · exact fresh handle fired live

/-- The handle handed out next fires nothing yet. -/
theorem Fresh.next_idle (fresh : timers.Fresh) : timers.callback timers.next = none := by
  cases live : timers.callback timers.next with
  | none => rfl
  | some fired => exact absurd (fresh _ _ live) (Nat.lt_irrefl _)

/-- Every live timer is held by the program: each callback has at most one
timer, and `holder` says where its handle is kept. -/
structure Held (timers : Intervals κ) (holder : κ → Option Nat) : Prop where
  fresh : timers.Fresh
  live : ∀ {fired handle}, timers.callback handle = some fired ↔ holder fired = some handle

theorem held_empty : Held ({} : Intervals κ) fun _ => none :=
  ⟨fresh_empty, by simp [callback]⟩

variable [DecidableEq κ] {holder : κ → Option Nat}

/-- A timer is started for a callback that has none. -/
theorem Held.set (held : timers.Held holder) (fired : κ) (stopped : holder fired = none) :
    (timers.set fired).1.Held (Function.update holder fired (some timers.next)) := by
  refine ⟨held.fresh.set fired, ?_⟩
  intro other handle
  rw [callback_set, Function.update_apply]
  have idle := held.fresh.next_idle
  by_cases same : other = fired
  · subst same
    rw [if_pos rfl]
    by_cases new : handle = timers.next
    · simp [new]
    · have absent : timers.callback handle ≠ some other := by
        intro live
        rw [held.live, stopped] at live
        cases live
      simp [new, absent, Ne.symm new]
  · rw [if_neg same]
    by_cases new : handle = timers.next
    · subst new
      have absent : holder other ≠ some timers.next := by
        intro kept
        rw [← held.live, idle] at kept
        cases kept
      simp [absent, Ne.symm same]
    · rw [if_neg new, held.live]

/-- The timer of a callback is stopped. -/
theorem Held.clear (held : timers.Held holder) (fired : κ) (running : holder fired = some handle) :
    (timers.clear handle).Held (Function.update holder fired none) := by
  refine ⟨held.fresh.clear handle, ?_⟩
  intro other handle'
  rw [callback_clear, Function.update_apply]
  have fires := held.live.mpr running
  by_cases same : other = fired
  · subst same
    rw [if_pos rfl]
    split
    · simp
    · rename_i apart
      rw [held.live, running]
      simp [Ne.symm apart]
  · rw [if_neg same]
    split
    · rename_i at_handle
      subst at_handle
      have absent : holder other ≠ some handle' := by
        intro kept
        rw [← held.live, fires, Option.some.injEq] at kept
        exact same kept.symm
      simp [absent]
    · rw [held.live]

end Intervals

end NetGraphz
