import NetGraphz.AggregationProofs

/-! How long a notification waits. Each tick of the limiter's timers lets as many
queued notifications go as the rate says, oldest first, and nothing that comes in
meanwhile can get ahead of them. -/
namespace NetGraphz.QueueLatency
open EventHandler RateLimitProofs AggregationProofs

variable {π : Type u} {config : Config} {state : State π}

/-- A tick of one of the limiter's two timers. -/
def isLimiterTick (state : State π) : Event π → Bool
  | .tick handle =>
    match state.intervals.callback handle with
    | some .ratelimitTimer => true
    | some .ratelimitThrottleTimer => true
    | _ => false
  | _ => false

/-- The ticks of the limiter's timers among events to come. -/
def limiterTicks (config : Config) (state : State π) : List (Event π) → Nat
  | [] => 0
  | event :: later =>
    (if isLimiterTick state event then 1 else 0) +
      limiterTicks config (step config state event) later

/-! ## One event -/

/-- What one event does to the lists: both grow at the end, and a tick of the
limiter processes the oldest of what waits, up to the rate. -/
structure Advances (rate ticks : Nat) (before after : State π) : Prop where
  offered : before.offered <+: after.offered
  processed : before.processed <+: after.processed
  served : min before.offered.length (before.processed.length + ticks * rate) ≤
    after.processed.length

theorem Advances.of_processed {before after : State π} (offered : before.offered <+: after.offered)
    (processed : before.processed <+: after.processed) : Advances rate 0 before after := by
  refine ⟨offered, processed, ?_⟩
  have grown := processed.length_le
  omega

theorem beginThrottling_processed (state : State π) :
    (beginThrottling state).processed = state.processed := by
  unfold beginThrottling
  by_cases flush : state.ratelimitTimer = none <;>
    by_cases busy : state.ratelimitThrottleTimer = none <;>
    simp [flush, busy, ratelimitStopTimer, ratelimitStartThrottleTimer, clearInterval]

/-- What is put to the limiter is processed last, or not now. -/
theorem processed_limitOrProcess (config : Config) (state : State π)
    (notification : Notification π) :
    state.processed <+: (limitOrProcess config state notification).processed := by
  rcases limitOrProcess_cases config state notification with
    ⟨_, done⟩ | ⟨_, _, done⟩ | ⟨_, _, done⟩ | ⟨_, _, done⟩
  · rw [done]
    exact List.prefix_append _ _
  · rw [done]
    exact List.prefix_append _ _
  · rw [done]
    exact List.prefix_refl _
  · rw [done, beginThrottling_processed]
    exact List.prefix_refl _

theorem advances_limitOrProcess (config : Config) (state : State π)
    (notification : Notification π) :
    Advances config.rate 0 state (limitOrProcess config state notification) := by
  apply Advances.of_processed
  · rw [(limitOrProcess_frame config state notification).2.2]
    exact List.prefix_append _ _
  · exact processed_limitOrProcess config state notification

theorem aggregateEvent_frame (config : Config) (state : State π) (body : Body π)
    (type : NotificationType) :
    (aggregateEvent config state body type).1.offered = state.offered ∧
      (aggregateEvent config state body type).1.processed = state.processed := by
  unfold aggregateEvent
  dsimp only
  split
  · exact ⟨rfl, rfl⟩
  · split <;> exact ⟨rfl, rfl⟩

theorem advances_handleNotification (config : Config) (state : State π) (body : Body π)
    (type : NotificationType) :
    Advances config.rate 0 state (handleNotification config state body type) := by
  obtain ⟨offered, processed⟩ := aggregateEvent_frame config state body type
  unfold handleNotification
  dsimp only
  split
  · exact Advances.of_processed (by rw [offered]) (by rw [processed])
  · have put := advances_limitOrProcess config (aggregateEvent config state body type).1
      ⟨.simple body, type⟩
    exact Advances.of_processed (offered ▸ put.offered) (processed ▸ put.processed)

theorem advances_aggEventProcess (config : Config) (state : State π) (aggTopic : String)
    (obj : Ref) : Advances config.rate 0 state (aggEventProcess config state aggTopic obj) := by
  unfold aggEventProcess
  split
  · exact Advances.of_processed (List.prefix_refl _) (List.prefix_refl _)
  · dsimp only
    split
    · exact Advances.of_processed (List.prefix_refl _) (List.prefix_refl _)
    · have put := advances_limitOrProcess config state
      exact Advances.of_processed (put _).offered (put _).processed
    · have put := advances_limitOrProcess config state
      exact Advances.of_processed (put _).offered (put _).processed

/-- While it flushes nothing waits. -/
theorem advances_flushCallback (paced : Paced config state)
    (running : state.ratelimitTimer = some handle) :
    Advances config.rate 1 state (ratelimitTimerCallback state) := by
  refine ⟨List.prefix_refl _, List.prefix_refl _, ?_⟩
  rcases paced.mode with flushing | throttling
  · have ordered := paced.inOrder
    rw [flushing.queue, List.append_nil] at ordered
    exact (Nat.min_le_left _ _).trans (by rw [← ordered]; exact Nat.le_refl _)
  · rw [throttling.flush] at running
    cases running

theorem throttleCallback_processed (config : Config) (state : State π) :
    (ratelimitThrottleTimerCallback config state).processed =
      state.processed ++ state.queue.take config.rate := by
  simp only [ratelimitThrottleTimerCallback, processQueue_eq]
  split <;> rfl

theorem advances_throttleCallback (paced : Paced config state) :
    Advances config.rate 1 state (ratelimitThrottleTimerCallback config state) := by
  have processed := throttleCallback_processed config state
  refine ⟨?_, ?_, ?_⟩
  · rw [(throttleCallback_frame config state).2.2]
  · rw [processed]
    exact List.prefix_append _ _
  · have ordered := congrArg List.length paced.inOrder
    rw [List.length_append] at ordered
    rw [processed, List.length_append, List.length_take]
    omega

theorem advances_step (paced : Paced config state) (event : Event π) :
    Advances config.rate (if isLimiterTick state event then 1 else 0) state
      (step config state event) := by
  cases event with
  | notifyHost body => exact advances_handleNotification config state body .host
  | notifyService body => exact advances_handleNotification config state body .service
  | tick handle =>
    cases live : state.intervals.callback handle with
    | none =>
      simp only [step, isLimiterTick, live]
      exact Advances.of_processed (List.prefix_refl _) (List.prefix_refl _)
    | some callback =>
      have held := paced.held_of_callback live
      simp only [step, isLimiterTick, live]
      cases callback with
      | ratelimitTimer => exact advances_flushCallback paced held
      | ratelimitThrottleTimer => exact advances_throttleCallback paced
      | aggEvent aggTopic obj => exact advances_aggEventProcess config state aggTopic obj

/-! ## Runs -/

/-- Advances add up. -/
theorem Advances.trans {first second third : State π} (early : Advances rate ticks first second)
    (late : Advances rate more second third) : Advances rate (ticks + more) first third := by
  refine ⟨early.offered.trans late.offered, early.processed.trans late.processed, ?_⟩
  have longer := early.offered.length_le
  have servedEarly := early.served
  have servedLate := late.served
  rw [Nat.add_mul]
  omega

section
variable (enabled : config.enabled = true) (queueing : config.overrate ≠ some "drop")
variable (positive : 1 ≤ config.rate)
include enabled queueing positive

theorem advances_run (paced : Paced config state) (later : List (Event π)) :
    Advances config.rate (limiterTicks config state later) state
      (after (step config) state later) := by
  induction later generalizing state with
  | nil => exact Advances.of_processed (List.prefix_refl _) (List.prefix_refl _)
  | cons event later ih =>
    have next := paced_step enabled queueing positive paced event
    exact (advances_step paced event).trans (ih next)

/-- The oldest of what was put to the limiter has been processed. -/
theorem offered_served (past later : List (Event π)) :
    (handlerAfter config past).offered.take ((handlerAfter config past).processed.length +
        limiterTicks config (handlerAfter config past) later * config.rate) <+:
      (handlerAfter config (past ++ later)).processed := by
  have paced : Paced config (handlerAfter config past) :=
    paced_handlerAfter enabled queueing positive past
  have reached : handlerAfter config (past ++ later) =
      after (step config) (handlerAfter config past) later := after_append _ _ _ _
  have advances := advances_run enabled queueing positive paced later
  rw [← reached] at advances
  have ordered := (paced_handlerAfter enabled queueing positive (past ++ later)).inOrder
  have behind : (handlerAfter config (past ++ later)).processed <+:
      (handlerAfter config (past ++ later)).offered := ⟨_, ordered⟩
  have ahead := (List.take_prefix ((handlerAfter config past).processed.length +
    limiterTicks config (handlerAfter config past) later * config.rate) _).trans advances.offered
  apply List.prefix_of_prefix_length_le ahead behind
  rw [List.length_take, Nat.min_comm]
  exact advances.served

/-- **A queued notification waits for a bounded number of ticks.** Whatever comes
in after a history, in any order, every tick of the limiter's timers lets a rate
of the notifications queued in it go, the oldest first, right after what had been
processed; and the one behind `ahead` others has gone after `ahead / rate + 1`
ticks. -/
theorem queued_goes_within_ticks (past later : List (Event π)) :
    let state := handlerAfter config past
    let ticks := limiterTicks config state later
    let processed := (handlerAfter config (past ++ later)).processed
    state.processed ++ state.queue.take (ticks * config.rate) <+: processed ∧
      ∀ ahead notification, state.queue[ahead]? = some notification →
        ahead / config.rate + 1 ≤ ticks →
        processed[state.processed.length + ahead]? = some notification := by
  intro state ticks processed
  have paced : Paced config state := paced_handlerAfter enabled queueing positive past
  have gone : state.processed ++ state.queue.take (ticks * config.rate) <+: processed := by
    have served := offered_served enabled queueing positive past later
    rwa [← paced.inOrder, List.take_length_add_append] at served
  refine ⟨gone, ?_⟩
  intro ahead notification queued enough
  have within : ahead < ticks * config.rate := by
    have scaled := Nat.mul_le_mul_right config.rate enough
    have next := Nat.lt_mul_div_succ ahead positive
    rw [Nat.mul_comm] at next
    omega
  obtain ⟨rest, whole⟩ := gone
  have inside : ahead < (state.queue.take (ticks * config.rate)).length := by
    obtain ⟨fits, _⟩ := List.getElem?_eq_some_iff.mp queued
    rw [List.length_take]
    omega
  rw [← whole, List.append_assoc, List.getElem?_append_right (Nat.le_add_right _ _),
    Nat.add_sub_cancel_left, List.getElem?_append_left inside, List.getElem?_take_of_lt within]
  exact queued

/-- The topic's tick puts what it holds to the limiter, as one notification. -/
theorem topic_tick_offers (past : List (Event π))
    (waiting : pending (handlerAfter config past) aggTopic ≠ [])
    (live : (handlerAfter config past).intervals.callback handle =
      some (.aggEvent aggTopic obj)) :
    ∃ notification, Carries notification (aggTopic, pending (handlerAfter config past) aggTopic) ∧
      (handlerAfter config (past ++ [.tick handle])).offered =
        (handlerAfter config past).offered ++ [notification] := by
  have paced : Paced config (handlerAfter config past) :=
    paced_handlerAfter enabled queueing positive past
  obtain ⟨batches, collected, _⟩ := collected_handlerAfter enabled queueing positive past
  have entry := paced.entry_of_callback live
  obtain ⟨aggObj, holds⟩ := paced.allocated entry
  have held : topicObj (handlerAfter config past) aggTopic = some aggObj := by
    rw [topicObj_of_entry entry, holds]
  have ticked : handlerAfter config (past ++ [.tick handle]) =
      aggEventProcess config (handlerAfter config past) aggTopic obj := by
    rw [handlerAfter, after_concat, ← handlerAfter]
    simp [step, live, fire]
  rw [pending_of_topicObj held] at waiting ⊢
  rw [ticked]
  simp only [aggEventProcess, holds]
  split
  · rename_i empty
    exact absurd (by rw [arrivals, empty, List.map_nil]) waiting
  · rename_i body single
    refine ⟨⟨.simple body, aggObj.type⟩, ?_, ?_⟩
    · rw [arrivals, single]
      exact .simple body aggObj.type aggTopic
    · exact (limitOrProcess_frame config _ _).2.2
  · rename_i first second rest several
    refine ⟨⟨.aggregated (aggBody aggObj), aggObj.type⟩, ?_, ?_⟩
    · refine carries_aggBody aggObj ?_ (collected.titled held)
      rw [several, List.length_cons, List.length_cons]
      omega
    · exact (limitOrProcess_frame config _ _).2.2

/-- **What was collected goes out within a bounded number of ticks.** Once the
timer of a topic ticks, the notifications collected under it travel as one; when
the limiter's timers have ticked often enough for what was queued before it and
for it, it has been processed, after everything that was put to the limiter
earlier, whatever came in meanwhile. -/
theorem collected_goes_within_ticks (past later : List (Event π)) (aggTopic : String)
    (handle : Nat) (obj : Ref) (waiting : pending (handlerAfter config past) aggTopic ≠ [])
    (live : (handlerAfter config past).intervals.callback handle = some (.aggEvent aggTopic obj))
    (enough : (handlerAfter config past).queue.length <
      limiterTicks config (handlerAfter config (past ++ [.tick handle])) later * config.rate) :
    ∃ notification, Carries notification (aggTopic, pending (handlerAfter config past) aggTopic) ∧
      (handlerAfter config past).offered ++ [notification] <+:
        (handlerAfter config (past ++ .tick handle :: later)).processed := by
  obtain ⟨notification, carries, offered⟩ :=
    topic_tick_offers enabled queueing positive past waiting live
  refine ⟨notification, carries, ?_⟩
  have paced : Paced config (handlerAfter config past) :=
    paced_handlerAfter enabled queueing positive past
  have opened : handlerAfter config (past ++ [.tick handle]) =
      after (step config) (handlerAfter config past) [.tick handle] := after_append _ _ _ _
  have grown := (advances_run enabled queueing positive paced
    [.tick handle]).processed.length_le
  rw [← opened] at grown
  have ordered := congrArg List.length paced.inOrder
  rw [List.length_append] at ordered
  have served := offered_served enabled queueing positive (past ++ [.tick handle]) later
  rw [offered, List.take_of_length_le, List.append_assoc, List.singleton_append] at served
  · exact served
  · rw [List.length_append, List.length_singleton]
    omega

end

/-- At a rate of two, two of the three queued go at the first tick, while a
fourth comes in. -/
theorem two_of_three_go_first :
    let config : Config := ⟨true, 2, some "queue", false⟩
    let down (name : String) : Event Unit := .notifyHost ⟨some name, none, none, none, ⟨none, none⟩, ()⟩
    let past := [down "a", down "b", down "c", down "d"]
    let later := [down "e", .tick 1]
    let state := handlerAfter config past
    2 = limiterTicks config state later * config.rate ∧ state.queue.length = 3 ∧
      state.processed ++ state.queue.take (limiterTicks config state later * config.rate) <+:
        (handlerAfter config (past ++ later)).processed := by
  intro config down past later state
  refine ⟨by decide, by decide, ?_⟩
  exact (queued_goes_within_ticks rfl (by decide) (by decide) past later).1

/-- Two hosts down, collected under one topic, have gone out together after its
tick and one of the limiter's. -/
theorem two_hosts_go_out_together :
    let config : Config := ⟨true, 1, some "queue", true⟩
    let down (name : String) : Event Unit :=
      .notifyHost ⟨some name, none, some "1", some "0", ⟨some "noc", none⟩, ()⟩
    let past := [down "a", down "b"]
    pending (handlerAfter config past) "host/1/0/noc" ≠ [] ∧
      ∃ notification,
        Carries notification ("host/1/0/noc", pending (handlerAfter config past) "host/1/0/noc") ∧
        (handlerAfter config past).offered ++ [notification] <+:
          (handlerAfter config (past ++ .tick 1 :: [.tick 2])).processed := by
  intro config down past
  have waiting : pending (handlerAfter config past) "host/1/0/noc" ≠ [] := by decide
  refine ⟨waiting, ?_⟩
  exact collected_goes_within_ticks rfl (by decide) (by decide) past [.tick 2] "host/1/0/noc" 1 0
    waiting (by decide) (by decide)

end NetGraphz.QueueLatency
