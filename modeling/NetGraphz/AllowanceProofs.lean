import NetGraphz.RateLimitProofs

/-! How many notifications the limiter lets through before it drops or queues
one, in either mode. The counter is increased before it is compared, so the
flush timer's interval has room for one notification less than the rate. -/
namespace NetGraphz.AllowanceProofs
open EventHandler RateLimitProofs

variable {π : Type u} {config : Config} {state later : State π}

/-! ## One timer at a time -/

/-- At most one of the limiter's timers runs, and none while it is off. -/
structure OneTimer (config : Config) (state : State π) : Prop where
  live : ∀ {handle}, state.intervals.callback handle = some .ratelimitThrottleTimer →
    state.ratelimitThrottleTimer = some handle
  exclusive : state.ratelimitTimer ≠ none → state.ratelimitThrottleTimer = none
  flushEnabled : state.ratelimitTimer ≠ none → config.enabled = true
  throttleEnabled : state.ratelimitThrottleTimer ≠ none → config.enabled = true

/-- Other timers are not concerned. -/
theorem OneTimer.of_others (one : OneTimer config state)
    (live : ∀ {handle}, later.intervals.callback handle = some .ratelimitThrottleTimer →
      state.intervals.callback handle = some .ratelimitThrottleTimer)
    (flush : later.ratelimitTimer = state.ratelimitTimer)
    (throttle : later.ratelimitThrottleTimer = state.ratelimitThrottleTimer) :
    OneTimer config later := by
  refine ⟨fun fires => ?_, ?_, ?_, ?_⟩
  · rw [throttle]
    exact one.live (live fires)
  · rw [flush, throttle]
    exact one.exclusive
  · rw [flush]
    exact one.flushEnabled
  · rw [throttle]
    exact one.throttleEnabled

theorem OneTimer.of_frame (one : OneTimer config state) (intervals : later.intervals = state.intervals)
    (flush : later.ratelimitTimer = state.ratelimitTimer)
    (throttle : later.ratelimitThrottleTimer = state.ratelimitThrottleTimer) :
    OneTimer config later :=
  one.of_others (fun fires => intervals ▸ fires) flush throttle

theorem live_of_clearInterval {callback : Callback} (timer : Option Nat)
    (fires : (clearInterval state timer).intervals.callback handle = some callback) :
    state.intervals.callback handle = some callback := by
  cases timer with
  | none => exact fires
  | some cleared =>
    simp only [clearInterval, Intervals.callback_clear] at fires
    split at fires
    · cases fires
    · exact fires

theorem OneTimer.stopTimer (one : OneTimer config state) :
    OneTimer config (ratelimitStopTimer state) :=
  ⟨fun fires => one.live (live_of_clearInterval state.ratelimitTimer fires),
    fun running => absurd rfl running, fun running => absurd rfl running, one.throttleEnabled⟩

theorem OneTimer.startThrottleTimer (one : OneTimer config state) (enabled : config.enabled = true)
    (flush : state.ratelimitTimer = none) (idle : state.ratelimitThrottleTimer = none) :
    OneTimer config (ratelimitStartThrottleTimer state) := by
  refine ⟨fun {handle} fires => ?_, fun running => absurd flush running, fun _ => enabled,
    fun _ => enabled⟩
  simp only [ratelimitStartThrottleTimer, Intervals.callback_set] at fires
  split at fires
  · rename_i new
    rw [new]
    rfl
  · have other := one.live fires
    rw [idle] at other
    cases other

/-- The throttle timer takes over, or goes on. -/
theorem OneTimer.throttled (one : OneTimer config state) (enabled : config.enabled = true) :
    OneTimer config (beginThrottling state) ∧ (beginThrottling state).ratelimitTimer = none := by
  obtain ⟨stopped, one, flush⟩ : ∃ stopped,
      OneTimer config stopped ∧ stopped.ratelimitTimer = none ∧
        beginThrottling state = if stopped.ratelimitThrottleTimer = none
          then ratelimitStartThrottleTimer stopped else stopped := by
    by_cases running : state.ratelimitTimer = none
    · exact ⟨state, one, running, by simp [beginThrottling, running]⟩
    · exact ⟨ratelimitStopTimer state, one.stopTimer, rfl, by simp [beginThrottling, running]⟩
  rw [flush.2]
  split
  · rename_i idle
    exact ⟨one.startThrottleTimer enabled flush.1 idle, flush.1⟩
  · exact ⟨one, flush.1⟩

/-- The limiter's first timer starts when the other one has stopped. -/
theorem OneTimer.drained (one : OneTimer config state) (enabled : config.enabled = true)
    (running : state.ratelimitThrottleTimer = some handle) :
    OneTimer config (ratelimitStartTimer (ratelimitStopThrottleTimer state)) := by
  refine ⟨fun {handle'} fires => ?_, fun _ => rfl, fun _ => enabled, fun busy => absurd rfl busy⟩
  simp only [ratelimitStartTimer, ratelimitStopThrottleTimer, clearInterval, running,
    Intervals.callback_set, Intervals.callback_clear] at fires
  split at fires
  · cases fires
  · split at fires
    · cases fires
    · rename_i other
      have held := one.live fires
      rw [running, Option.some.injEq] at held
      exact absurd held.symm other

/-! ## What was let through since the last reset -/

/-- While the flush timer runs, what was processed since `mark` is what the
counter has counted, up to one less than the rate. -/
structure Allowing (config : Config) (mark : Nat) (state : State π) : Prop where
  oneTimer : OneTimer config state
  passed : state.ratelimitTimer ≠ none → 0 ≤ state.ratelimitReqCurr ∧
    (state.processed.length : Int) = mark + min state.ratelimitReqCurr (config.rate - 1)

theorem Allowing.limitOrProcess (allowing : Allowing config mark state)
    (notification : Notification π) :
    Allowing config mark (limitOrProcess config state notification) := by
  obtain ⟨one, passed⟩ := allowing
  rcases limitOrProcess_cases config state notification with
    ⟨off, done⟩ | ⟨_, room, done⟩ | ⟨_, full, done⟩ | ⟨on, _, done⟩
  · rw [done]
    refine ⟨one.of_frame rfl rfl rfl, fun running => ?_⟩
    have on := one.flushEnabled running
    rw [off] at on
    cases on
  · rw [done]
    refine ⟨one.of_frame rfl rfl rfl, fun running => ?_⟩
    obtain ⟨nonneg, count⟩ := passed running
    change 0 ≤ state.ratelimitReqCurr + 1 ∧ ((state.processed ++ [notification]).length : Int) =
      mark + min (state.ratelimitReqCurr + 1) (config.rate - 1)
    rw [List.length_append, List.length_singleton]
    omega
  · rw [done]
    refine ⟨one.of_frame rfl rfl rfl, fun running => ?_⟩
    obtain ⟨nonneg, count⟩ := passed running
    change 0 ≤ state.ratelimitReqCurr + 1 ∧ (state.processed.length : Int) =
      mark + min (state.ratelimitReqCurr + 1) (config.rate - 1)
    omega
  · rw [done]
    have queued : OneTimer config
        { counted state notification with queue := state.queue ++ [notification] } :=
      one.of_frame rfl rfl rfl
    obtain ⟨throttled, stopped⟩ := queued.throttled on
    exact ⟨throttled, fun running => absurd stopped running⟩

/-- What concerns the topics only. -/
theorem Allowing.of_topics (allowing : Allowing config mark state)
    (live : ∀ {handle}, later.intervals.callback handle = some .ratelimitThrottleTimer →
      state.intervals.callback handle = some .ratelimitThrottleTimer)
    (flush : later.ratelimitTimer = state.ratelimitTimer)
    (throttle : later.ratelimitThrottleTimer = state.ratelimitThrottleTimer)
    (count : later.ratelimitReqCurr = state.ratelimitReqCurr)
    (processed : later.processed = state.processed) : Allowing config mark later := by
  refine ⟨allowing.oneTimer.of_others live flush throttle, ?_⟩
  rw [flush, count, processed]
  exact allowing.passed

theorem Allowing.aggregateEvent (allowing : Allowing config mark state) (body : Body π)
    (type : NotificationType) :
    Allowing config mark (aggregateEvent config state body type).1 := by
  unfold EventHandler.aggregateEvent
  split
  · exact allowing
  · dsimp only
    split
    · exact allowing.of_topics id rfl rfl rfl rfl
    · refine allowing.of_topics (fun fires => ?_) rfl rfl rfl rfl
      simp only [Intervals.callback_set] at fires
      split at fires
      · cases fires
      · exact fires

theorem Allowing.handleNotification (allowing : Allowing config mark state) (body : Body π)
    (type : NotificationType) :
    Allowing config mark (handleNotification config state body type) := by
  have collected := allowing.aggregateEvent body type
  unfold EventHandler.handleNotification
  generalize EventHandler.aggregateEvent config state body type = result at collected ⊢
  obtain ⟨state', aggregated⟩ := result
  cases aggregated with
  | true => exact collected
  | false => exact Allowing.limitOrProcess collected _

theorem Allowing.aggEventProcess (allowing : Allowing config mark state) (aggTopic : String)
    (obj : Ref) : Allowing config mark (aggEventProcess config state aggTopic obj) := by
  unfold EventHandler.aggEventProcess
  split
  · exact allowing
  · rename_i aggObj holds
    split
    · exact allowing.of_topics (live_of_clearInterval (some aggObj.timer)) rfl rfl rfl rfl
    · exact (allowing.limitOrProcess _).of_topics id rfl rfl rfl rfl
    · exact (allowing.limitOrProcess _).of_topics id rfl rfl rfl rfl

/-! ## Runs -/

/-- The event sets the counter back to zero. -/
def resets (config : Config) (state : State π) : Event π → Bool
  | .tick handle =>
    match state.intervals.callback handle with
    | some .ratelimitTimer => true
    | some .ratelimitThrottleTimer => (processQueue config.rate state).2 < config.rate
    | _ => false
  | _ => false

/-- The module, and how many notifications had been processed when the counter
was last set back. -/
structure Tracked (π : Type u) where
  state : State π
  mark : Nat

def trackedStep (config : Config) (tracked : Tracked π) (event : Event π) : Tracked π :=
  let state := step config tracked.state event
  ⟨state, if resets config tracked.state event then state.processed.length else tracked.mark⟩

def trackedAfter (config : Config) (history : List (Event π)) : Tracked π :=
  after (trackedStep config) ⟨init config, 0⟩ history

/-- What was let through since the counter was last set back. -/
def letThrough (tracked : Tracked π) : Nat := tracked.state.processed.length - tracked.mark

theorem trackedAfter_state (config : Config) (history : List (Event π)) :
    (trackedAfter config history).state = handlerAfter config history :=
  after_projects (step config) (trackedStep config) Tracked.state (fun _ _ => rfl) ⟨init config, 0⟩
    history

section
variable (positive : 1 ≤ config.rate)
include positive

/-- Right after a reset nothing has been counted and nothing let through. -/
theorem passed_reset (reset : state.ratelimitReqCurr = 0) :
    0 ≤ state.ratelimitReqCurr ∧ (state.processed.length : Int) =
      state.processed.length + min state.ratelimitReqCurr (config.rate - 1) := by
  rw [reset]
  omega

theorem allowing_init : Allowing config 0 (init config : State π) := by
  cases enabled : config.enabled with
  | false =>
    have idle : (init config : State π) = {} := by simp [init, enabled]
    rw [idle]
    exact ⟨⟨fun fires => by simp [Intervals.callback] at fires, fun running => absurd rfl running,
      fun running => absurd rfl running, fun running => absurd rfl running⟩,
      fun running => absurd rfl running⟩
  | true =>
    have started : (init config : State π) = ratelimitStartTimer {} := by simp [init, enabled]
    rw [started]
    refine ⟨⟨fun fires => ?_, fun _ => rfl, fun _ => enabled, fun running => absurd rfl running⟩,
      fun _ => passed_reset positive rfl⟩
    simp only [ratelimitStartTimer, Intervals.callback_set] at fires
    split at fires
    · cases fires
    · simp [Intervals.callback] at fires

/-- A callback of the throttle timer, which only fires while the other one is
stopped. -/
theorem Allowing.throttleTick (allowing : Allowing config mark state)
    (fires : state.intervals.callback handle = some .ratelimitThrottleTimer) :
    let called := ratelimitThrottleTimerCallback config state
    Allowing config
      (if (processQueue config.rate state).2 < config.rate then called.processed.length else mark)
      called := by
  intro called
  have running := allowing.oneTimer.live fires
  have busy : state.ratelimitThrottleTimer ≠ none := by simp [running]
  have enabled := allowing.oneTimer.throttleEnabled busy
  have stopped : state.ratelimitTimer = none := by
    by_contra flush
    exact busy (allowing.oneTimer.exclusive flush)
  rw [processQueue_eq]
  by_cases short : state.queue.length < config.rate
  · have few : min config.rate state.queue.length < config.rate := by omega
    rw [if_pos few]
    have called_eq : called = _ := throttleCallback_drained state short
    rw [called_eq]
    have emptied : OneTimer config { state with
        queue := []
        processed := state.processed ++ state.queue
        ratelimitReqCurr := 0 } := allowing.oneTimer.of_frame rfl rfl rfl
    exact ⟨emptied.drained enabled running, fun _ => passed_reset positive rfl⟩
  · have full : ¬ min config.rate state.queue.length < config.rate := by omega
    rw [if_neg full]
    have called_eq : called = _ := throttleCallback_saturated state (Nat.not_lt.mp short)
    rw [called_eq]
    exact ⟨allowing.oneTimer.of_frame rfl rfl rfl, fun flush => absurd stopped flush⟩

/-- **One step.** -/
theorem allowing_step (tracked : Tracked π) (event : Event π)
    (allowing : Allowing config tracked.mark tracked.state) :
    Allowing config (trackedStep config tracked event).mark
      (trackedStep config tracked event).state := by
  obtain ⟨state, mark⟩ := tracked
  cases event with
  | notifyHost body => exact allowing.handleNotification body .host
  | notifyService body => exact allowing.handleNotification body .service
  | tick handle =>
    cases live : state.intervals.callback handle with
    | none => simpa [trackedStep, step, resets, live] using allowing
    | some callback =>
      cases callback with
      | ratelimitTimer =>
        simp only [trackedStep, step, resets, live, fire, if_true]
        exact ⟨allowing.oneTimer.of_frame rfl rfl rfl, fun _ => passed_reset positive rfl⟩
      | ratelimitThrottleTimer =>
        simpa only [trackedStep, step, resets, live, fire, decide_eq_true_eq] using
          allowing.throttleTick positive live
      | aggEvent aggTopic obj =>
        simpa [trackedStep, step, resets, live, fire] using allowing.aggEventProcess aggTopic obj

theorem allowing_trackedAfter (history : List (Event π)) :
    Allowing config (trackedAfter config history).mark (trackedAfter config history).state :=
  after_invariant (trackedStep config) (fun tracked => Allowing config tracked.mark tracked.state)
    (allowing_init positive) (allowing_step positive) history

end

/-- The event puts this notification to the limiter. -/
def Offers (config : Config) (state : State π) (event : Event π) (notification : Notification π) :
    Prop :=
  (step config state event).offered = state.offered ++ [notification]

instance [DecidableEq π] (config : Config) (state : State π) (event : Event π)
    (notification : Notification π) : Decidable (Offers config state event notification) :=
  inferInstanceAs (Decidable (_ = _))

/-- A notification that comes while the flush timer runs is held back only after
as many as the rate were let through. -/
def HoldsBackLate (config : Config) (tracked : Tracked π) (event : Event π) : Prop :=
  ∀ notification, Offers config tracked.state event notification →
    tracked.state.ratelimitTimer ≠ none →
      (notificationRateLimited config tracked.state notification).2 = true →
        config.rate ≤ letThrough tracked

/-- A notification that comes while the flush timer runs finds fewer counted
than one less than the rate. -/
def HasRoom (config : Config) (state : State π) (event : Event π) : Prop :=
  (∃ notification, Offers config state event notification) → state.ratelimitTimer ≠ none →
    state.ratelimitReqCurr + 1 < config.rate

/-- What is let through never gets to the rate, so nothing may be held back. -/
theorem holdsBackLate_iff (positive : 1 ≤ config.rate) (tracked : Tracked π) (event : Event π)
    (allowing : Allowing config tracked.mark tracked.state) :
    HoldsBackLate config tracked event ↔ HasRoom config tracked.state event := by
  constructor
  · rintro late ⟨notification, offers⟩ running
    obtain ⟨nonneg, count⟩ := allowing.passed running
    by_contra full
    have limited := (limited_iff config tracked.state notification).mpr
      ⟨allowing.oneTimer.flushEnabled running, Int.not_lt.mp full⟩
    have enough := late notification offers running limited
    unfold letThrough at enough
    omega
  · intro room notification offers running limited
    have full := ((limited_iff config tracked.state notification).mp limited).2
    exact absurd (room ⟨notification, offers⟩ running) (Int.not_lt.mpr full)

/-- **One less than the rate is let through.** In either mode, all along a run
notifications are held back no earlier than after as many as the rate exactly
if none is ever held back while the flush timer runs: every one that comes then
must find the counter below one less than the rate. -/
theorem holds_back_late_throughout_iff (positive : 1 ≤ config.rate) (history : List (Event π)) :
    (∀ past event, past ++ [event] <+: history →
      HoldsBackLate config (trackedAfter config past) event) ↔
    ∀ past event, past ++ [event] <+: history → HasRoom config (handlerAfter config past) event := by
  refine forall₂_congr fun past event => imp_congr_right fun _ => ?_
  rw [← trackedAfter_state]
  exact holdsBackLate_iff positive _ event (allowing_trackedAfter positive past)

/-- A host's state, sent once. -/
def hostNotice : Event Unit := .notifyHost ⟨some "a", none, none, none, ⟨none, none⟩, ()⟩

/-- One notification at a rate of two is in time. -/
theorem one_at_a_rate_of_two :
    HoldsBackLate ⟨true, 2, some "drop", false⟩
      (trackedAfter ⟨true, 2, some "drop", false⟩ []) hostNotice := by
  have positive : 1 ≤ (⟨true, 2, some "drop", false⟩ : Config).rate := Nat.two_pos
  refine (holds_back_late_throughout_iff positive [hostNotice]).mpr ?_ [] hostNotice
    (List.prefix_refl _)
  intro past event within _ _
  have first : past = [] := by
    obtain ⟨rest, whole⟩ := within
    cases past with
    | nil => rfl
    | cons => simp at whole
  subst first
  decide

/-- At a rate of one, the first notification of all is dropped. -/
theorem rate_one_drops_everything :
    ¬ ∀ (config : Config) (past : List (Event Unit)) (event : Event Unit), 1 ≤ config.rate →
      HoldsBackLate config (trackedAfter config past) event := by
  intro claimed
  have late := claimed ⟨true, 1, some "drop", false⟩ [] hostNotice (Nat.le_refl 1)
    ⟨.simple ⟨some "a", none, none, none, ⟨none, none⟩, ()⟩, .host⟩ (by decide) (by decide) (by decide)
  revert late
  decide

end NetGraphz.AllowanceProofs
