import NetGraphz.EventHandler

/-! What paces the notifications. Of the flush timer and the throttle timer
exactly one runs; the counter is what the queue's length makes it while the
throttle timer does; and what was put to the limiter leaves it in order. -/
namespace NetGraphz.RateLimitProofs
open EventHandler

variable {π : Type u} {config : Config} {state : State π}

/-! ## Timers and the variables that hold them -/

/-- Where the program keeps the handle of each callback's timer. -/
def holder (state : State π) : Callback → Option Nat
  | .ratelimitTimer => state.ratelimitTimer
  | .ratelimitThrottleTimer => state.ratelimitThrottleTimer
  | .aggEvent aggTopic obj =>
    if state.aggEventTopics.lookup aggTopic = some obj then
      (state.objects.read obj).map AggEventObj.timer
    else none

/-- The live timers are the ones the program holds. -/
def TimersKept (state : State π) : Prop := state.intervals.Held (holder state)

theorem timersKept_of_held {holds : Callback → Option Nat} (held : state.intervals.Held holds)
    (same : ∀ callback, holder state callback = holds callback) : TimersKept state := by
  unfold TimersKept
  rw [funext same]
  exact held

theorem timersKept_startTimer (kept : TimersKept state) (stopped : state.ratelimitTimer = none) :
    TimersKept (ratelimitStartTimer state) := by
  apply timersKept_of_held (Intervals.Held.set kept .ratelimitTimer stopped)
  intro callback
  cases callback <;> rfl

theorem timersKept_startThrottleTimer (kept : TimersKept state)
    (stopped : state.ratelimitThrottleTimer = none) :
    TimersKept (ratelimitStartThrottleTimer state) := by
  apply timersKept_of_held (Intervals.Held.set kept .ratelimitThrottleTimer stopped)
  intro callback
  cases callback <;> rfl

theorem timersKept_stopTimer (kept : TimersKept state)
    (running : state.ratelimitTimer = some handle) : TimersKept (ratelimitStopTimer state) := by
  have stopped := Intervals.Held.clear kept .ratelimitTimer running
  apply timersKept_of_held
  · simpa only [ratelimitStopTimer, clearInterval, running] using stopped
  · intro callback
    cases callback <;> rfl

theorem timersKept_stopThrottleTimer (handle : Nat) (kept : TimersKept state)
    (running : state.ratelimitThrottleTimer = some handle) :
    TimersKept (ratelimitStopThrottleTimer state) := by
  have stopped := Intervals.Held.clear kept .ratelimitThrottleTimer running
  apply timersKept_of_held
  · simpa only [ratelimitStopThrottleTimer, clearInterval, running] using stopped
  · intro callback
    cases callback <;> rfl

/-! ## The invariant -/

/-- Requests are counted and let through. -/
structure Flushing (config : Config) (state : State π) : Prop where
  flush : ∃ handle, state.ratelimitTimer = some handle
  throttle : state.ratelimitThrottleTimer = none
  queue : state.queue = []
  nonneg : 0 ≤ state.ratelimitReqCurr
  room : state.ratelimitReqCurr ≤ config.rate - 1

/-- Requests are queued. -/
structure Throttling (config : Config) (state : State π) : Prop where
  flush : state.ratelimitTimer = none
  throttle : ∃ handle, state.ratelimitThrottleTimer = some handle
  counted : state.ratelimitReqCurr = config.rate - 1 + state.queue.length

/-- The invariant of the handler's timers and its limiter. -/
structure Paced (config : Config) (state : State π) : Prop where
  kept : TimersKept state
  allocated : ∀ {aggTopic obj}, state.aggEventTopics.lookup aggTopic = some obj →
    ∃ aggObj, state.objects.read obj = some aggObj
  inOrder : state.processed ++ state.queue = state.offered
  mode : Flushing config state ∨ Throttling config state

/-- What a step on the topics has to show: the limiter is not concerned. -/
theorem Paced.of_topics (paced : Paced config state) {intervals : Intervals Callback}
    {objects : Heap (AggEventObj π)} {topics : Finmap fun _ : String => Ref}
    (kept : TimersKept { state with
      intervals := intervals, objects := objects, aggEventTopics := topics })
    (allocated : ∀ {aggTopic obj}, topics.lookup aggTopic = some obj →
      ∃ aggObj, objects.read obj = some aggObj) :
    Paced config { state with
      intervals := intervals, objects := objects, aggEventTopics := topics } := by
  refine ⟨kept, allocated, paced.inOrder, ?_⟩
  rcases paced.mode with flushing | throttling
  · exact Or.inl ⟨flushing.1, flushing.2, flushing.3, flushing.4, flushing.5⟩
  · exact Or.inr ⟨throttling.1, throttling.2, throttling.3⟩

/-- The events of a topic's object are not the limiter's concern either. -/
theorem Paced.of_objects (paced : Paced config state) {objects : Heap (AggEventObj π)}
    (timers : ∀ obj, (objects.read obj).map AggEventObj.timer =
      (state.objects.read obj).map AggEventObj.timer) :
    Paced config { state with objects := objects } := by
  apply paced.of_topics
  · refine timersKept_of_held paced.kept ?_
    intro callback
    cases callback with
    | aggEvent aggTopic obj => simp only [holder, timers]
    | _ => rfl
  · intro aggTopic obj entry
    obtain ⟨aggObj, holds⟩ := paced.allocated entry
    have same := timers obj
    rw [holds] at same
    obtain ⟨aggObj', holds', _⟩ := Option.map_eq_some_iff.mp same
    exact ⟨aggObj', holds'⟩

/-! ## The limiter -/

section
variable (enabled : config.enabled = true)
include enabled

/-- There is room: the notification is processed at once. -/
theorem limitOrProcess_room (notification : Notification π)
    (room : state.ratelimitReqCurr + 1 < config.rate) :
    limitOrProcess config state notification =
      { state with
        offered := state.offered ++ [notification]
        ratelimitReqCurr := state.ratelimitReqCurr + 1
        processed := state.processed ++ [notification] } := by
  simp [limitOrProcess, notificationRateLimited, process, enabled, Int.not_le.mpr room]

variable (queueing : config.overrate ≠ some "drop")
include queueing

/-- The rate is reached: the notification is queued and throttling begins. -/
theorem limitOrProcess_full (notification : Notification π) (flushing : Flushing config state)
    (full : config.rate ≤ state.ratelimitReqCurr + 1) :
    limitOrProcess config state notification =
      ratelimitStartThrottleTimer (ratelimitStopTimer { state with
        offered := state.offered ++ [notification]
        ratelimitReqCurr := state.ratelimitReqCurr + 1
        queue := state.queue ++ [notification] }) := by
  obtain ⟨handle, running⟩ := flushing.flush
  simp [limitOrProcess, notificationRateLimited, enabled, queueing, full, running,
    ratelimitStopTimer, clearInterval, flushing.throttle]

/-- Throttling goes on: the notification joins the queue. -/
theorem limitOrProcess_throttled (notification : Notification π)
    (throttling : Throttling config state) :
    limitOrProcess config state notification =
      { state with
        offered := state.offered ++ [notification]
        ratelimitReqCurr := state.ratelimitReqCurr + 1
        queue := state.queue ++ [notification] } := by
  obtain ⟨handle, running⟩ := throttling.throttle
  have full : (config.rate : Int) ≤ state.ratelimitReqCurr + 1 := by
    have := throttling.counted
    omega
  simp [limitOrProcess, notificationRateLimited, enabled, queueing, full, running,
    throttling.flush]

omit queueing in
/-- With room the limiter goes on flushing. -/
theorem flushing_room (notification : Notification π) (flushing : Flushing config state)
    (room : state.ratelimitReqCurr + 1 < config.rate) :
    Flushing config (limitOrProcess config state notification) := by
  have nonneg := flushing.nonneg
  rw [limitOrProcess_room enabled notification room]
  refine ⟨flushing.flush, flushing.throttle, flushing.queue, ?_, ?_⟩
  · change 0 ≤ state.ratelimitReqCurr + 1
    omega
  · change state.ratelimitReqCurr + 1 ≤ config.rate - 1
    omega

/-- At the rate it begins to throttle. -/
theorem throttling_full (notification : Notification π) (flushing : Flushing config state)
    (full : config.rate ≤ state.ratelimitReqCurr + 1) :
    Throttling config (limitOrProcess config state notification) := by
  have bound := flushing.room
  rw [limitOrProcess_full enabled queueing notification flushing full]
  refine ⟨rfl, ⟨_, rfl⟩, ?_⟩
  change state.ratelimitReqCurr + 1 = config.rate - 1 + (state.queue ++ [notification]).length
  rw [flushing.queue, List.nil_append, List.length_singleton]
  omega

/-- Throttling goes on. -/
theorem throttling_throttled (notification : Notification π) (throttling : Throttling config state) :
    Throttling config (limitOrProcess config state notification) := by
  have counted := throttling.counted
  rw [limitOrProcess_throttled enabled queueing notification throttling]
  refine ⟨throttling.flush, throttling.throttle, ?_⟩
  change state.ratelimitReqCurr + 1 = config.rate - 1 + (state.queue ++ [notification]).length
  rw [List.length_append, List.length_singleton]
  omega

theorem paced_limitOrProcess (notification : Notification π) (paced : Paced config state) :
    Paced config (limitOrProcess config state notification) := by
  have ordered : state.processed ++ (state.queue ++ [notification]) =
      state.offered ++ [notification] := by
    rw [← List.append_assoc, paced.inOrder]
  rcases paced.mode with flushing | throttling
  · by_cases room : state.ratelimitReqCurr + 1 < config.rate
    · have mode := flushing_room enabled notification flushing room
      rw [limitOrProcess_room enabled notification room] at mode ⊢
      refine ⟨paced.kept, paced.allocated, ?_, Or.inl mode⟩
      simpa only [flushing.queue, List.nil_append, List.append_nil] using ordered
    · have mode := throttling_full enabled queueing notification flushing (Int.not_lt.mp room)
      rw [limitOrProcess_full enabled queueing notification flushing (Int.not_lt.mp room)] at mode ⊢
      obtain ⟨handle, running⟩ := flushing.flush
      refine ⟨?_, paced.allocated, ordered, Or.inr mode⟩
      have kept : TimersKept { state with
          offered := state.offered ++ [notification]
          ratelimitReqCurr := state.ratelimitReqCurr + 1
          queue := state.queue ++ [notification] } := paced.kept
      exact timersKept_startThrottleTimer (timersKept_stopTimer kept running) flushing.throttle
  · have mode := throttling_throttled enabled queueing notification throttling
    rw [limitOrProcess_throttled enabled queueing notification throttling] at mode ⊢
    exact ⟨paced.kept, paced.allocated, ordered, Or.inr mode⟩

end

/-! ## Any mode -/

/-- A queued notification lets the throttle timer take over. -/
def beginThrottling (state : State π) : State π :=
  let state := if state.ratelimitTimer ≠ none then ratelimitStopTimer state else state
  if state.ratelimitThrottleTimer = none then ratelimitStartThrottleTimer state else state

/-- The notification is noted and counted. -/
def counted (state : State π) (notification : Notification π) : State π :=
  { state with
    offered := state.offered ++ [notification]
    ratelimitReqCurr := state.ratelimitReqCurr + 1 }

/-- The limiter is off, or has room, or drops, or queues. -/
theorem limitOrProcess_cases (config : Config) (state : State π) (notification : Notification π) :
    (config.enabled = false ∧ limitOrProcess config state notification =
      process { state with offered := state.offered ++ [notification] } notification) ∨
    (config.enabled = true ∧ state.ratelimitReqCurr + 1 < config.rate ∧
      limitOrProcess config state notification = process (counted state notification) notification) ∨
    (config.enabled = true ∧ config.rate ≤ state.ratelimitReqCurr + 1 ∧
      limitOrProcess config state notification = counted state notification) ∨
    (config.enabled = true ∧ config.rate ≤ state.ratelimitReqCurr + 1 ∧
      limitOrProcess config state notification =
        beginThrottling { counted state notification with queue := state.queue ++ [notification] }) := by
  cases enabled : config.enabled with
  | false => exact .inl ⟨rfl, by simp [limitOrProcess, notificationRateLimited, enabled]⟩
  | true =>
    by_cases room : state.ratelimitReqCurr + 1 < config.rate
    · exact .inr (.inl ⟨rfl, room, limitOrProcess_room enabled notification room⟩)
    · have full := Int.not_lt.mp room
      by_cases drops : config.overrate = some "drop"
      · refine .inr (.inr (.inl ⟨rfl, full, ?_⟩))
        simp [limitOrProcess, notificationRateLimited, enabled, full, drops, counted]
      · refine .inr (.inr (.inr ⟨rfl, full, ?_⟩))
        simp only [limitOrProcess, notificationRateLimited, enabled, Bool.not_true,
          Bool.false_eq_true, if_false, if_pos full, if_neg drops, if_true]
        rfl

/-- The limiter holds a notification back once the rate is counted. -/
theorem limited_iff (config : Config) (state : State π) (notification : Notification π) :
    (notificationRateLimited config state notification).2 = true ↔
      config.enabled = true ∧ config.rate ≤ state.ratelimitReqCurr + 1 := by
  cases enabled : config.enabled with
  | false => simp [notificationRateLimited, enabled]
  | true =>
    by_cases full : config.rate ≤ state.ratelimitReqCurr + 1
    · by_cases drops : config.overrate = some "drop" <;>
        simp [notificationRateLimited, enabled, full, drops]
    · simp [notificationRateLimited, enabled, full]

theorem beginThrottling_frame (state : State π) :
    (beginThrottling state).aggEventTopics = state.aggEventTopics ∧
      (beginThrottling state).objects = state.objects ∧
      (beginThrottling state).offered = state.offered := by
  unfold beginThrottling
  by_cases flush : state.ratelimitTimer = none <;>
    by_cases busy : state.ratelimitThrottleTimer = none <;>
    simp [flush, busy, ratelimitStopTimer, ratelimitStartThrottleTimer, clearInterval]

/-- Putting a notification to the limiter touches no topic, in any mode. -/
theorem limitOrProcess_frame (config : Config) (state : State π) (notification : Notification π) :
    (limitOrProcess config state notification).aggEventTopics = state.aggEventTopics ∧
      (limitOrProcess config state notification).objects = state.objects ∧
      (limitOrProcess config state notification).offered = state.offered ++ [notification] := by
  rcases limitOrProcess_cases config state notification with
    ⟨_, done⟩ | ⟨_, _, done⟩ | ⟨_, _, done⟩ | ⟨_, _, done⟩
  · rw [done]
    exact ⟨rfl, rfl, rfl⟩
  · rw [done]
    exact ⟨rfl, rfl, rfl⟩
  · rw [done]
    exact ⟨rfl, rfl, rfl⟩
  · rw [done]
    exact beginThrottling_frame _

/-! ## The timers' callbacks -/

/-- The loop processes the oldest of the queue, as many as the rate allows. -/
theorem processQueue_eq (budget : Nat) (state : State π) :
    processQueue budget state =
      ({ state with
          queue := state.queue.drop budget
          processed := state.processed ++ state.queue.take budget
          ratelimitReqCurr := state.ratelimitReqCurr - (min budget state.queue.length : Nat) },
        min budget state.queue.length) := by
  induction budget generalizing state with
  | zero => simp [processQueue]
  | succ budget ih =>
    cases queued : state.queue with
    | nil =>
      simp only [processQueue, queued, List.drop_nil, List.take_nil, List.append_nil,
        List.length_nil, Nat.min_zero, Int.natCast_zero, Int.sub_zero]
      rw [← queued]
    | cons first rest =>
      simp only [processQueue, queued, ih, process, List.drop_succ_cons, List.take_succ_cons,
        List.length_cons, List.append_assoc, List.singleton_append, Nat.add_min_add_right]
      have counted : state.ratelimitReqCurr - 1 - ((min budget rest.length : Nat) : Int) =
          state.ratelimitReqCurr - ((min budget rest.length + 1 : Nat) : Int) := by omega
      rw [counted]

/-- Neither limiter callback touches a topic. -/
theorem throttleCallback_frame (config : Config) (state : State π) :
    (ratelimitThrottleTimerCallback config state).aggEventTopics = state.aggEventTopics ∧
      (ratelimitThrottleTimerCallback config state).objects = state.objects ∧
      (ratelimitThrottleTimerCallback config state).offered = state.offered := by
  simp only [ratelimitThrottleTimerCallback, processQueue_eq]
  split
  · exact ⟨rfl, rfl, rfl⟩
  · exact ⟨rfl, rfl, rfl⟩

/-- A throttle callback that empties the queue. -/
theorem throttleCallback_drained (state : State π) (short : state.queue.length < config.rate) :
    ratelimitThrottleTimerCallback config state =
      ratelimitStartTimer (ratelimitStopThrottleTimer { state with
        queue := []
        processed := state.processed ++ state.queue
        ratelimitReqCurr := 0 }) := by
  have few : min config.rate state.queue.length = state.queue.length :=
    Nat.min_eq_right (Nat.le_of_lt short)
  simp only [ratelimitThrottleTimerCallback, processQueue_eq, few, short, ↓reduceIte,
    List.drop_eq_nil_of_le (Nat.le_of_lt short), List.take_of_length_le (Nat.le_of_lt short)]

/-- A throttle callback with a queue as long as the rate, or longer. -/
theorem throttleCallback_saturated (state : State π) (long : config.rate ≤ state.queue.length) :
    ratelimitThrottleTimerCallback config state =
      { state with
        queue := state.queue.drop config.rate
        processed := state.processed ++ state.queue.take config.rate
        ratelimitReqCurr := state.ratelimitReqCurr - config.rate } := by
  simp only [ratelimitThrottleTimerCallback, processQueue_eq, Nat.min_eq_left long, Nat.lt_irrefl,
    ↓reduceIte]

theorem flushing_drained (positive : 1 ≤ config.rate)
    (short : state.queue.length < config.rate) :
    Flushing config (ratelimitThrottleTimerCallback config state) := by
  rw [throttleCallback_drained state short]
  refine ⟨⟨_, rfl⟩, rfl, rfl, Int.le_refl 0, ?_⟩
  change (0 : Int) ≤ config.rate - 1
  omega

theorem throttling_saturated (throttling : Throttling config state)
    (long : config.rate ≤ state.queue.length) :
    Throttling config (ratelimitThrottleTimerCallback config state) := by
  have counted := throttling.counted
  rw [throttleCallback_saturated state long]
  refine ⟨throttling.flush, throttling.throttle, ?_⟩
  change state.ratelimitReqCurr - config.rate = config.rate - 1 + (state.queue.drop config.rate).length
  rw [List.length_drop]
  omega

theorem paced_throttleCallback (paced : Paced config state)
    (running : state.ratelimitThrottleTimer = some handle) (positive : 1 ≤ config.rate) :
    Paced config (ratelimitThrottleTimerCallback config state) := by
  rcases paced.mode with flushing | throttling
  · rw [flushing.throttle] at running
    cases running
  · by_cases short : state.queue.length < config.rate
    · have mode := flushing_drained positive short
      rw [throttleCallback_drained state short] at mode ⊢
      have ordered : state.processed ++ state.queue ++ [] = state.offered := by
        rw [List.append_nil, paced.inOrder]
      exact ⟨timersKept_startTimer (timersKept_stopThrottleTimer handle paced.kept running)
        throttling.flush, paced.allocated, ordered, Or.inl mode⟩
    · have mode := throttling_saturated throttling (Nat.not_lt.mp short)
      rw [throttleCallback_saturated state (Nat.not_lt.mp short)] at mode ⊢
      have ordered : state.processed ++ state.queue.take config.rate ++
          state.queue.drop config.rate = state.offered := by
        rw [List.append_assoc, List.take_append_drop, paced.inOrder]
      exact ⟨paced.kept, paced.allocated, ordered, Or.inr mode⟩

theorem paced_flushCallback (paced : Paced config state)
    (running : state.ratelimitTimer = some handle) (positive : 1 ≤ config.rate) :
    Paced config (ratelimitTimerCallback state) := by
  rcases paced.mode with flushing | throttling
  · refine ⟨paced.kept, paced.allocated, paced.inOrder, Or.inl ?_⟩
    refine ⟨flushing.flush, flushing.throttle, flushing.queue, Int.le_refl 0, ?_⟩
    change (0 : Int) ≤ config.rate - 1
    omega
  · rw [throttling.flush] at running
    cases running

/-! ## Topics -/

/-- A new topic gets an object and a timer; both are the topic's own. -/
theorem paced_newTopic (paced : Paced config state) (aggTopic : String)
    (unknown : state.aggEventTopics.lookup aggTopic = none) (aggObj : AggEventObj π)
    (timed : aggObj.timer = state.intervals.next) :
    Paced config { state with
      intervals := (state.intervals.set (.aggEvent aggTopic state.objects.next)).1
      objects := (state.objects.alloc aggObj).1
      aggEventTopics := state.aggEventTopics.insert aggTopic state.objects.next } := by
  have old : ∀ {topic obj}, state.aggEventTopics.lookup topic = some obj →
      (state.objects.alloc aggObj).1.read obj = state.objects.read obj := by
    intro topic obj entry
    obtain ⟨held, holds⟩ := paced.allocated entry
    rw [holds, Heap.read_alloc_of_read holds]
  have new : (state.objects.alloc aggObj).1.read state.objects.next = some aggObj :=
    Heap.read_alloc_self state.objects aggObj
  apply paced.of_topics
  · have idle : holder state (.aggEvent aggTopic state.objects.next) = none := by
      simp [holder, unknown]
    apply timersKept_of_held (Intervals.Held.set paced.kept _ idle)
    intro callback
    rw [Function.update_apply]
    cases callback with
    | aggEvent topic obj =>
      by_cases same : topic = aggTopic
      · subst same
        by_cases own : obj = state.objects.next
        · subst own
          simp [holder, new, timed]
        · simp [holder, unknown, own, Ne.symm own]
      · have apart : Callback.aggEvent topic obj ≠ .aggEvent aggTopic state.objects.next := by
          simp [same]
        rw [if_neg apart]
        simp only [holder, Finmap.lookup_insert_of_ne _ same]
        split
        · rename_i entry
          rw [old entry]
        · rfl
    | _ => simp [holder]
  · intro topic obj entry
    by_cases same : topic = aggTopic
    · subst same
      rw [Finmap.lookup_insert, Option.some.injEq] at entry
      exact ⟨aggObj, entry ▸ new⟩
    · rw [Finmap.lookup_insert_of_ne _ same] at entry
      obtain ⟨held, holds⟩ := paced.allocated entry
      exact ⟨held, (old entry).trans holds⟩

/-- An empty topic is removed together with its timer. -/
theorem paced_dropTopic (paced : Paced config state)
    (entry : state.aggEventTopics.lookup aggTopic = some obj)
    (holds : state.objects.read obj = some aggObj) :
    Paced config { state with
      intervals := state.intervals.clear aggObj.timer
      aggEventTopics := state.aggEventTopics.erase aggTopic } := by
  apply paced.of_topics
  · have running : holder state (.aggEvent aggTopic obj) = some aggObj.timer := by
      simp [holder, entry, holds]
    apply timersKept_of_held (Intervals.Held.clear paced.kept _ running)
    intro callback
    rw [Function.update_apply]
    cases callback with
    | aggEvent topic other =>
      by_cases same : topic = aggTopic
      · subst same
        by_cases own : other = obj
        · simp [holder, own]
        · simp [holder, entry, own, Ne.symm own]
      · simp [holder, same]
    | _ => simp [holder]
  · intro topic other kept
    by_cases same : topic = aggTopic
    · subst same
      simp at kept
    · exact paced.allocated (by simpa [same] using kept)

theorem paced_aggregateEvent (paced : Paced config state) (body : Body π)
    (type : NotificationType) : Paced config (aggregateEvent config state body type).1 := by
  unfold aggregateEvent
  split
  · exact paced
  · dsimp only
    split
    · apply paced.of_objects
      intro obj
      rw [Heap.read_modify]
      split
      · rw [Option.map_map]
        rfl
      · rfl
    · rename_i unknown
      exact paced_newTopic paced _ unknown _ rfl

/-- The events of a topic's object are taken out. -/
theorem paced_emptied (paced : Paced config state) (holds : state.objects.read obj = some aggObj) :
    Paced config { state with objects := state.objects.write obj { aggObj with events := [] } } := by
  apply paced.of_objects
  intro other
  rw [Heap.read_write holds]
  split
  · rename_i same
    rw [same, holds]
    rfl
  · rfl

theorem paced_aggEventProcess (enabled : config.enabled = true)
    (queueing : config.overrate ≠ some "drop") (paced : Paced config state)
    (entry : state.aggEventTopics.lookup aggTopic = some obj) :
    Paced config (aggEventProcess config state aggTopic obj) := by
  obtain ⟨aggObj, holds⟩ := paced.allocated entry
  have handed : ∀ notification, Paced config
      { limitOrProcess config state notification with
        objects := (limitOrProcess config state notification).objects.write obj
          { aggObj with events := [] } } := by
    intro notification
    have frame := limitOrProcess_frame config state notification
    apply paced_emptied (paced_limitOrProcess enabled queueing notification paced)
    rw [frame.2.1, holds]
  simp only [aggEventProcess, holds]
  split
  · exact paced_dropTopic paced entry holds
  · exact handed _
  · exact handed _

/-! ## Runs -/

/-- A timer that fires is one the program holds. -/
theorem Paced.held_of_callback (paced : Paced config state)
    (live : state.intervals.callback handle = some callback) :
    holder state callback = some handle :=
  paced.kept.live.mp live

theorem Paced.entry_of_callback (paced : Paced config state)
    (live : state.intervals.callback handle = some (.aggEvent aggTopic obj)) :
    state.aggEventTopics.lookup aggTopic = some obj := by
  have held := paced.held_of_callback live
  simp only [holder] at held
  split at held
  · assumption
  · cases held

section
variable (enabled : config.enabled = true) (queueing : config.overrate ≠ some "drop")
include enabled queueing

theorem paced_handleNotification (paced : Paced config state) (body : Body π)
    (type : NotificationType) : Paced config (handleNotification config state body type) := by
  have collected := paced_aggregateEvent paced body type
  unfold handleNotification
  dsimp only
  split
  · exact collected
  · exact paced_limitOrProcess enabled queueing _ collected

variable (positive : 1 ≤ config.rate)
include positive

omit queueing in
theorem paced_init : Paced config (init config : State π) := by
  have kept : TimersKept ({} : State π) := by
    apply timersKept_of_held Intervals.held_empty
    intro callback
    cases callback <;> simp [holder]
  rw [init, if_pos enabled]
  refine ⟨timersKept_startTimer kept rfl, ?_, rfl, Or.inl ⟨⟨_, rfl⟩, rfl, rfl, Int.le_refl 0, ?_⟩⟩
  · intro aggTopic obj entry
    simp [ratelimitStartTimer] at entry
  · change (0 : Int) ≤ config.rate - 1
    omega

theorem paced_step (paced : Paced config state) (event : Event π) :
    Paced config (step config state event) := by
  cases event with
  | notifyHost body => exact paced_handleNotification enabled queueing paced body .host
  | notifyService body => exact paced_handleNotification enabled queueing paced body .service
  | tick handle =>
    simp only [step]
    split
    · exact paced
    · rename_i callback live
      have held := paced.held_of_callback live
      cases callback with
      | ratelimitTimer => exact paced_flushCallback paced held positive
      | ratelimitThrottleTimer => exact paced_throttleCallback paced held positive
      | aggEvent aggTopic obj =>
        exact paced_aggEventProcess enabled queueing paced (paced.entry_of_callback live)

theorem paced_handlerAfter (history : List (Event π)) :
    Paced config (handlerAfter config history) :=
  after_invariant _ (Paced config) (paced_init enabled positive)
    (fun _ event paced => paced_step enabled queueing positive paced event) history

end

/-- A limiter timer is running. -/
def LimiterTimer (state : State π) (handle : Nat) : Prop :=
  state.intervals.callback handle = some .ratelimitTimer ∨
    state.intervals.callback handle = some .ratelimitThrottleTimer

theorem Paced.unique_timer (paced : Paced config state) : ∃! handle, LimiterTimer state handle := by
  have flush : ∀ handle, state.intervals.callback handle = some .ratelimitTimer ↔
      state.ratelimitTimer = some handle := fun _ => paced.kept.live
  have throttle : ∀ handle, state.intervals.callback handle = some .ratelimitThrottleTimer ↔
      state.ratelimitThrottleTimer = some handle := fun _ => paced.kept.live
  unfold LimiterTimer
  simp only [flush, throttle]
  rcases paced.mode with flushing | throttling
  · obtain ⟨handle, running⟩ := flushing.flush
    refine ⟨handle, Or.inl running, ?_⟩
    intro other held
    simp only [flushing.throttle, running, Option.some.injEq, reduceCtorEq, or_false] at held
    exact held.symm
  · obtain ⟨handle, running⟩ := throttling.throttle
    refine ⟨handle, Or.inr running, ?_⟩
    intro other held
    simp only [throttling.flush, running, Option.some.injEq, reduceCtorEq, false_or] at held
    exact held.symm

/-! ## Arrivals -/

/-- What a notification event puts to the limiter when nothing is collected. -/
def arrival : Event π → Option (Notification π)
  | .notifyHost body => some ⟨.simple body, .host⟩
  | .notifyService body => some ⟨.simple body, .service⟩
  | .tick _ => none

section
variable (enabled : config.enabled = true) (queueing : config.overrate ≠ some "drop")
  (positive : 1 ≤ config.rate)
include enabled queueing positive

/-- Without aggregation every notification is put to the limiter as it comes. -/
theorem offered_without_aggregation (off : config.aggregation = false) (history : List (Event π)) :
    (handlerAfter config history).aggEventTopics = ∅ ∧
      (handlerAfter config history).offered = history.filterMap arrival := by
  induction history using List.reverseRecOn with
  | nil => simp [handlerAfter, init, enabled, ratelimitStartTimer]
  | append_singleton past event ih =>
    have paced := paced_handlerAfter enabled queueing positive past
    obtain ⟨noTopics, sofar⟩ := ih
    have straight : ∀ body type,
        handleNotification config (handlerAfter config past) body type =
          limitOrProcess config (handlerAfter config past) ⟨.simple body, type⟩ := by
      intro body type
      simp [handleNotification, aggregateEvent, off]
    rw [handlerAfter, after_concat, ← handlerAfter, List.filterMap_append, ← sofar]
    cases event with
    | notifyHost body =>
      have frame := limitOrProcess_frame config (handlerAfter config past) ⟨.simple body, .host⟩
      simp [step, handleHostNotification, straight, frame, noTopics, arrival]
    | notifyService body =>
      have frame := limitOrProcess_frame config (handlerAfter config past)
        ⟨.simple body, .service⟩
      simp [step, handleServiceNotification, straight, frame, noTopics, arrival]
    | tick handle =>
      have silent : [(.tick handle : Event π)].filterMap arrival = [] := rfl
      rw [silent, List.append_nil]
      simp only [step]
      split
      · exact ⟨noTopics, rfl⟩
      · rename_i callback live
        cases callback with
        | ratelimitTimer => exact ⟨noTopics, rfl⟩
        | ratelimitThrottleTimer =>
          have frame := throttleCallback_frame config (handlerAfter config past)
          exact ⟨frame.1.trans noTopics, frame.2.2⟩
        | aggEvent aggTopic obj =>
          have entry := paced.entry_of_callback live
          rw [noTopics, Finmap.lookup_empty] at entry
          cases entry

/-- **The limiter keeps the order.** After any history exactly one of its two
timers runs. While it throttles, the counter is the rate less one and the
length of the queue; while it does not, the queue is empty and the counter
below the rate. What was put to it is what was processed and then what is
queued, in order; and without aggregation that is every notification. -/
theorem one_timer_paces_the_queue (history : List (Event π)) :
    let state := handlerAfter config history
    (∃! handle, LimiterTimer state handle) ∧
      (∀ handle, state.intervals.callback handle = some .ratelimitThrottleTimer →
        state.ratelimitReqCurr = config.rate - 1 + state.queue.length) ∧
      (∀ handle, state.intervals.callback handle = some .ratelimitTimer →
        state.queue = [] ∧ 0 ≤ state.ratelimitReqCurr ∧
          state.ratelimitReqCurr ≤ config.rate - 1) ∧
      state.processed ++ state.queue = state.offered ∧
      (config.aggregation = false →
        state.processed ++ state.queue = history.filterMap arrival) := by
  intro state
  have paced : Paced config state := paced_handlerAfter enabled queueing positive history
  refine ⟨paced.unique_timer, ?_, ?_, paced.inOrder, ?_⟩
  · intro handle live
    have held := paced.held_of_callback live
    rcases paced.mode with flushing | throttling
    · exact absurd (flushing.throttle.symm.trans held) (by simp)
    · exact throttling.counted
  · intro handle live
    have held := paced.held_of_callback live
    rcases paced.mode with flushing | throttling
    · exact ⟨flushing.queue, flushing.nonneg, flushing.room⟩
    · exact absurd (throttling.flush.symm.trans held) (by simp)
  · intro off
    rw [paced.inOrder]
    exact (offered_without_aggregation enabled queueing positive off history).2

end

/-- The shipped configuration at a rate of two: the second of three arrivals
starts the throttle timer, whose tick lets the queue go. -/
theorem two_a_tick_keep_the_order :
    let config : Config := ⟨true, 2, some "queue", false⟩
    let body (name : String) : Body Unit := ⟨some name, none, none, none, ⟨none, none⟩, ()⟩
    let history := [.notifyHost (body "a"), .notifyHost (body "b"), .notifyHost (body "c"), .tick 1]
    (handlerAfter config history).processed ++ (handlerAfter config history).queue =
      history.filterMap arrival := by
  intro config body history
  exact (one_timer_paces_the_queue rfl (by decide) (by decide) history).2.2.2.2 rfl

end NetGraphz.RateLimitProofs
