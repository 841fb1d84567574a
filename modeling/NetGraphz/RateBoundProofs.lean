import NetGraphz.RateLimitProofs

/-! How many notifications are processed from one callback of the limiter's
timers to the next. A throttle callback that empties the queue also resets the
counter, so that what it processed is not counted. -/
namespace NetGraphz.RateBoundProofs
open EventHandler RateLimitProofs

variable {π : Type u} {config : Config} {state : State π}

/-- A tick of a timer of the limiter. -/
def LimiterTick (state : State π) (event : Event π) : Prop :=
  ∃ handle, event = .tick handle ∧ LimiterTimer state handle

/-- No timer of the limiter ticks. -/
def Quiet (config : Config) (state : State π) (events : List (Event π)) : Prop :=
  ∀ earlier event, earlier ++ [event] <+: events →
    ¬ LimiterTick (after (step config) state earlier) event

/-- The notifications that come in. -/
def arrivals (events : List (Event π)) : Nat := (events.filterMap arrival).length

/-- A throttle callback that empties the queue leaves room for what may come
before the next callback. -/
def LeavesRoom (config : Config) (state : State π) (handle : Nat) (coming : Nat) : Prop :=
  state.intervals.callback handle = some .ratelimitThrottleTimer →
    state.queue.length < config.rate →
      state.queue.length + min coming (config.rate - 1) ≤ config.rate

/-- Counting from a reset: as many were processed as came, up to one less than
the rate. -/
def CountedFrom (config : Config) (start coming : Nat) (state : State π) : Prop :=
  (Flushing config state ∧ state.ratelimitReqCurr = coming ∧
      state.processed.length = start + coming) ∨
    (Throttling config state ∧ config.rate - 1 ≤ coming ∧
      state.processed.length = start + (config.rate - 1))

section
variable (enabled : config.enabled = true) (queueing : config.overrate ≠ some "drop")
include enabled queueing

/-- Throttling, nothing is processed. -/
theorem processed_throttled (notification : Notification π) (throttling : Throttling config state) :
    (limitOrProcess config state notification).processed = state.processed := by
  rw [limitOrProcess_throttled enabled queueing notification throttling]

theorem countedFrom_limitOrProcess (notification : Notification π)
    (counted : CountedFrom config start coming state) :
    CountedFrom config start (coming + 1) (limitOrProcess config state notification) := by
  rcases counted with ⟨flushing, count, processed⟩ | ⟨throttling, many, processed⟩
  · have bound := flushing.room
    by_cases room : state.ratelimitReqCurr + 1 < config.rate
    · have mode := flushing_room enabled notification flushing room
      rw [limitOrProcess_room enabled notification room] at mode ⊢
      refine Or.inl ⟨mode, ?_, ?_⟩
      · change state.ratelimitReqCurr + 1 = ((coming + 1 : Nat) : Int)
        omega
      · change (state.processed ++ [notification]).length = start + (coming + 1)
        rw [List.length_append, List.length_singleton]
        omega
    · have mode := throttling_full enabled queueing notification flushing (Int.not_lt.mp room)
      rw [limitOrProcess_full enabled queueing notification flushing (Int.not_lt.mp room)] at mode ⊢
      refine Or.inr ⟨mode, by omega, ?_⟩
      change state.processed.length = start + (config.rate - 1)
      omega
  · refine Or.inr ⟨throttling_throttled enabled queueing notification throttling, by omega, ?_⟩
    rw [processed_throttled enabled queueing notification throttling]
    exact processed

variable (positive : 1 ≤ config.rate) (off : config.aggregation = false)

omit enabled queueing in
include off in
/-- Outside the limiter's callbacks an event is an arrival, or nothing. -/
theorem step_quiet (paced : Paced config state) (noTopics : state.aggEventTopics = ∅)
    (event : Event π) (quiet : ¬ LimiterTick state event) :
    step config state event =
      match arrival event with
      | some notification => limitOrProcess config state notification
      | none => state := by
  cases event with
  | notifyHost body =>
    simp [step, handleHostNotification, handleNotification, aggregateEvent, off, arrival]
  | notifyService body =>
    simp [step, handleServiceNotification, handleNotification, aggregateEvent, off, arrival]
  | tick handle =>
    simp only [step, arrival]
    split
    · rfl
    · rename_i callback live
      cases callback with
      | ratelimitTimer => exact absurd ⟨handle, rfl, Or.inl live⟩ quiet
      | ratelimitThrottleTimer => exact absurd ⟨handle, rfl, Or.inr live⟩ quiet
      | aggEvent aggTopic obj =>
        have entry := paced.entry_of_callback live
        rw [noTopics, Finmap.lookup_empty] at entry
        cases entry

include positive off

/-- What a property of the limiter is after a quiet stretch of a run, when each
arrival takes it on. -/
theorem quiet_run (holds : Nat → State π → Prop) (past during : List (Event π))
    (quiet : Quiet config (handlerAfter config past) during)
    (initial : holds 0 (handlerAfter config past))
    (arrives : ∀ coming state notification, holds coming state →
      holds (coming + 1) (limitOrProcess config state notification)) :
    holds (arrivals during) (handlerAfter config (past ++ during)) := by
  refine prefix_induction (fun earlier =>
    holds (arrivals earlier) (handlerAfter config (past ++ earlier))) ?_ ?_ during
    (List.prefix_refl _)
  · rw [List.append_nil]
    exact initial
  · intro earlier event within before
    have paced : Paced config (handlerAfter config (past ++ earlier)) :=
      paced_handlerAfter enabled queueing positive _
    have noTopics := (offered_without_aggregation enabled queueing positive off
      (past ++ earlier)).1
    have notLimiter : ¬ LimiterTick (handlerAfter config (past ++ earlier)) event := by
      have here := quiet earlier event within
      unfold handlerAfter at here ⊢
      rwa [after_append]
    have stepped := step_quiet off paced noTopics event notLimiter
    have reached : handlerAfter config (past ++ (earlier ++ [event])) =
        step config (handlerAfter config (past ++ earlier)) event := by
      unfold handlerAfter
      rw [← List.append_assoc, after_concat]
    rw [reached, stepped]
    unfold arrivals
    rw [List.filterMap_append, List.length_append]
    cases arrived : arrival event with
    | none => simpa [arrived, arrivals] using before
    | some notification =>
      have next := arrives _ _ notification before
      simpa [arrived, arrivals] using next

/-- What is processed after a reset and a quiet stretch. -/
theorem processed_from_reset (past during : List (Event π))
    (quiet : Quiet config (handlerAfter config past) during)
    (flushing : Flushing config (handlerAfter config past))
    (reset : (handlerAfter config past).ratelimitReqCurr = 0) :
    (handlerAfter config (past ++ during)).processed.length =
      (handlerAfter config past).processed.length + min (arrivals during) (config.rate - 1) := by
  have counted := quiet_run enabled queueing positive off
    (CountedFrom config (handlerAfter config past).processed.length) past during quiet
    (Or.inl ⟨flushing, reset, rfl⟩)
    fun _ _ notification before =>
      countedFrom_limitOrProcess enabled queueing notification before
  rcases counted with ⟨stillFlushing, count, processed⟩ | ⟨_, many, processed⟩
  · have room := stillFlushing.room
    omega
  · omega

/-- While it throttles, nothing is processed in a quiet stretch. -/
theorem processed_while_throttling (past during : List (Event π))
    (quiet : Quiet config (handlerAfter config past) during)
    (throttling : Throttling config (handlerAfter config past)) :
    (handlerAfter config (past ++ during)).processed = (handlerAfter config past).processed := by
  have kept := quiet_run enabled queueing positive off
    (fun _ state => Throttling config state ∧
      state.processed = (handlerAfter config past).processed) past during quiet
    ⟨throttling, rfl⟩
    fun _ _ notification before =>
      ⟨throttling_throttled enabled queueing notification before.1,
        (processed_throttled enabled queueing notification before.1).trans before.2⟩
  exact kept.2

/-- From a flush on, up to one less than the rate. -/
theorem processed_from_flush (past during : List (Event π)) (handle : Nat)
    (flush : (handlerAfter config past).intervals.callback handle = some .ratelimitTimer)
    (quiet : Quiet config (handlerAfter config (past ++ [.tick handle])) during) :
    (handlerAfter config (past ++ [.tick handle] ++ during)).processed.length =
      (handlerAfter config past).processed.length + min (arrivals during) (config.rate - 1) := by
  have paced : Paced config (handlerAfter config past) :=
    paced_handlerAfter enabled queueing positive past
  have opened : handlerAfter config (past ++ [.tick handle]) =
      step config (handlerAfter config past) (.tick handle) := after_concat _ _ _ _
  have reset : handlerAfter config (past ++ [.tick handle]) =
      ratelimitTimerCallback (handlerAfter config past) := by
    rw [opened]
    simp [step, flush, fire]
  have running := paced.held_of_callback flush
  have mode : Flushing config (handlerAfter config (past ++ [.tick handle])) := by
    rcases paced.mode with flushing | throttling
    · rw [reset]
      refine ⟨flushing.flush, flushing.throttle, flushing.queue, Int.le_refl 0, ?_⟩
      change (0 : Int) ≤ config.rate - 1
      omega
    · rw [holder, throttling.flush] at running
      cases running
  have processed := processed_from_reset enabled queueing positive off _ during quiet mode
    (by rw [reset]; rfl)
  have start : (handlerAfter config (past ++ [.tick handle])).processed =
      (handlerAfter config past).processed := by
    rw [reset]
    rfl
  rw [processed, start]

omit off in
/-- What a throttle callback is called in, and does. -/
theorem throttle_called (past : List (Event π)) (handle : Nat)
    (throttle : (handlerAfter config past).intervals.callback handle =
      some .ratelimitThrottleTimer) :
    Throttling config (handlerAfter config past) ∧
      handlerAfter config (past ++ [.tick handle]) =
        ratelimitThrottleTimerCallback config (handlerAfter config past) := by
  have paced : Paced config (handlerAfter config past) :=
    paced_handlerAfter enabled queueing positive past
  have opened : handlerAfter config (past ++ [.tick handle]) =
      step config (handlerAfter config past) (.tick handle) := after_concat _ _ _ _
  have running := paced.held_of_callback throttle
  constructor
  · rcases paced.mode with flushing | throttling
    · rw [holder, flushing.throttle] at running
      cases running
    · exact throttling
  · rw [opened]
    simp [step, throttle, fire]

/-- From a throttle callback that empties the queue on, the queue, and up to one
less than the rate. -/
theorem processed_from_drain (past during : List (Event π)) (handle : Nat)
    (throttle : (handlerAfter config past).intervals.callback handle =
      some .ratelimitThrottleTimer)
    (short : (handlerAfter config past).queue.length < config.rate)
    (quiet : Quiet config (handlerAfter config (past ++ [.tick handle])) during) :
    (handlerAfter config (past ++ [.tick handle] ++ during)).processed.length =
      (handlerAfter config past).processed.length + (handlerAfter config past).queue.length +
        min (arrivals during) (config.rate - 1) := by
  obtain ⟨_, called⟩ := throttle_called enabled queueing positive past handle throttle
  have mode := flushing_drained positive short
  have drained := throttleCallback_drained (handlerAfter config past) short
  rw [← called] at mode drained
  have processed := processed_from_reset enabled queueing positive off _ during quiet mode
    (by rw [drained]; rfl)
  have start : (handlerAfter config (past ++ [.tick handle])).processed.length =
      (handlerAfter config past).processed.length + (handlerAfter config past).queue.length := by
    rw [drained]
    exact List.length_append
  rw [processed, start]

/-- From one that does not, the rate. -/
theorem processed_from_saturated (past during : List (Event π)) (handle : Nat)
    (throttle : (handlerAfter config past).intervals.callback handle =
      some .ratelimitThrottleTimer)
    (long : config.rate ≤ (handlerAfter config past).queue.length)
    (quiet : Quiet config (handlerAfter config (past ++ [.tick handle])) during) :
    (handlerAfter config (past ++ [.tick handle] ++ during)).processed.length =
      (handlerAfter config past).processed.length + config.rate := by
  obtain ⟨throttling, called⟩ := throttle_called enabled queueing positive past handle throttle
  have mode := throttling_saturated throttling long
  have saturated := throttleCallback_saturated (handlerAfter config past) long
  rw [← called] at mode saturated
  have processed := processed_while_throttling enabled queueing positive off _ during quiet mode
  rw [processed, saturated]
  simp only [List.length_append, List.length_take]
  omega

/-- From a callback of the limiter to the next, the callback counted, no more
than the rate is processed exactly when the callback leaves room. -/
theorem interval_within_rate_iff (past during : List (Event π)) (handle : Nat)
    (opens : LimiterTimer (handlerAfter config past) handle)
    (quiet : Quiet config (handlerAfter config (past ++ [.tick handle])) during) :
    (handlerAfter config (past ++ .tick handle :: during)).processed.length ≤
        (handlerAfter config past).processed.length + config.rate ↔
      LeavesRoom config (handlerAfter config past) handle (arrivals during) := by
  have whole : past ++ .tick handle :: during = (past ++ [.tick handle]) ++ during := by simp
  rw [whole]
  rcases opens with flush | throttle
  · have processed := processed_from_flush enabled queueing positive off past during handle flush
      quiet
    have atMost := Nat.min_le_right (arrivals during) (config.rate - 1)
    have noThrottle : ¬ (handlerAfter config past).intervals.callback handle =
        some .ratelimitThrottleTimer := by
      rw [flush]
      simp
    exact ⟨fun _ throttle => absurd throttle noThrottle, fun _ => by omega⟩
  · by_cases short : (handlerAfter config past).queue.length < config.rate
    · have processed := processed_from_drain enabled queueing positive off past during handle
        throttle short quiet
      constructor
      · intro within _ _
        omega
      · intro room
        have fits := room throttle short
        omega
    · have processed := processed_from_saturated enabled queueing positive off past during handle
        throttle (Nat.not_lt.mp short) quiet
      exact ⟨fun _ _ less => absurd less short, fun _ => by omega⟩

end

/-- The shipped limiter at a rate of three. -/
def rateThree : Config := ⟨true, 3, some "queue", false⟩

def notice : Event Unit := .notifyHost ⟨some "a", none, none, none, ⟨none, none⟩, ()⟩

/-- Four arrivals; the last two are queued and let the throttle timer start. -/
def fourArrivals : List (Event Unit) := [notice, notice, notice, notice]

theorem notices_quiet (config : Config) (state : State Unit) :
    Quiet config state [notice, notice] := by
  intro earlier event within
  rintro ⟨handle, rfl, _⟩
  have member : (.tick handle : Event Unit) ∈ [notice, notice] := within.subset (by simp)
  simp [notice] at member

/-- The interval after them, at which the callback leaves no room for two more. -/
theorem four_arrivals_interval :
    (handlerAfter rateThree (fourArrivals ++ .tick 1 :: [notice, notice])).processed.length ≤
        (handlerAfter rateThree fourArrivals).processed.length + rateThree.rate ↔
      LeavesRoom rateThree (handlerAfter rateThree fourArrivals) 1 (arrivals [notice, notice]) :=
  interval_within_rate_iff rfl (by decide) (by decide) rfl fourArrivals [notice, notice] 1
    (Or.inr (by decide)) (notices_quiet _ _)

/-- The throttle callback processes two, and two that come right after it are
processed as well: four at a rate of three. -/
theorem four_in_one_interval :
    ¬ ∀ (past during : List (Event Unit)) (handle : Nat),
      LimiterTimer (handlerAfter rateThree past) handle →
      Quiet rateThree (handlerAfter rateThree (past ++ [.tick handle])) during →
      (handlerAfter rateThree (past ++ .tick handle :: during)).processed.length ≤
        (handlerAfter rateThree past).processed.length + rateThree.rate := by
  intro bounded
  have count := bounded fourArrivals [notice, notice] 1 (Or.inr (by decide))
    (notices_quiet _ _)
  revert count
  decide

end NetGraphz.RateBoundProofs
