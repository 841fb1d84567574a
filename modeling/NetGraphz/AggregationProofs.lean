import NetGraphz.Base.Batches
import NetGraphz.RateLimitProofs

/-! No notification is lost, duplicated or overtaken within its topic: the
handler collects by topic and hands on in batches, whatever the timers do. -/
namespace NetGraphz.AggregationProofs
open EventHandler RateLimitProofs

variable {π : Type u} {config : Config} {state : State π}

/-- A notification as it arrives. -/
abbrev Arrival (π : Type u) := NotificationType × Body π

/-- What an event brings, under its topic. -/
def accepted : Event π → Option (String × Arrival π)
  | .notifyHost body => some (getAggregateTopic body .host, .host, body)
  | .notifyService body => some (getAggregateTopic body .service, .service, body)
  | .tick _ => none

/-- The object of a topic. -/
def topicObj (state : State π) (aggTopic : String) : Option (AggEventObj π) :=
  (state.aggEventTopics.lookup aggTopic).bind state.objects.read

/-- The arrivals an object holds. -/
def arrivals (aggObj : AggEventObj π) : List (Arrival π) :=
  aggObj.events.map fun body => (aggObj.type, body)

/-- The arrivals waiting in `_agg_event_topics` under a topic. -/
def pending (state : State π) (aggTopic : String) : List (Arrival π) :=
  (topicObj state aggTopic).elim [] arrivals

/-- The host a notification is about. -/
def hostNameOf : NotificationType → Body π → Option String
  | .host => Body.name
  | .service => Body.hostName

/-- Which arrivals a notification that is handed on carries: a simple body is
one of them, an aggregated body names all of its topic's, two at least. -/
inductive Carries : Notification π → String × List (Arrival π) → Prop
  | simple (body : Body π) (type : NotificationType) (aggTopic : String) :
      Carries ⟨.simple body, type⟩ (aggTopic, [(type, body)])
  | aggregated (agg : AggBody) (type : NotificationType) (events : List (Body π))
      (several : 2 ≤ events.length)
      (hosts : agg.hostNames = events.map (hostNameOf type))
      (services : agg.serviceNames =
        if type = .service then some (events.map Body.name) else none) :
      Carries ⟨.aggregated agg, type⟩
        (topicOf type agg.aggStateId agg.aggLastStateId agg.aggUser,
          events.map fun body => (type, body))

/-- The handler refines the batches that collect by topic. -/
structure Collected (state : State π) (batches : Batches String (Arrival π)) : Prop where
  conserved : batches.Conserved
  carried : List.Forall₂ Carries state.offered batches.passed
  waiting : pending state = batches.pending
  titled : ∀ {aggTopic aggObj}, topicObj state aggTopic = some aggObj →
    topicOf aggObj.type aggObj.aggStateId aggObj.aggLastStateId aggObj.aggUser = aggTopic

/-- Topics of different types differ. -/
theorem topicOf_type (same : topicOf type stateId lastStateId userName =
    topicOf type' stateId' lastStateId' userName') : type = type' := by
  have chars := congrArg String.toList same
  cases type <;> cases type' <;> simp [topicOf] at chars ⊢

/-! ## Topics and their objects -/

theorem topicObj_of_entry (entry : state.aggEventTopics.lookup aggTopic = some obj) :
    topicObj state aggTopic = state.objects.read obj := by
  rw [topicObj, entry, Option.bind_some]

/-- No two topics share an object, as each object has the topic's timer. -/
theorem topics_apart (paced : Paced config state)
    (first : state.aggEventTopics.lookup aggTopic = some obj)
    (second : state.aggEventTopics.lookup other = some obj) : aggTopic = other := by
  obtain ⟨aggObj, holds⟩ := paced.allocated first
  have timer : ∀ {topic}, state.aggEventTopics.lookup topic = some obj →
      state.intervals.callback aggObj.timer = some (.aggEvent topic obj) := by
    intro topic entry
    exact paced.kept.live.mpr (by simp [holder, entry, holds])
  have same := (timer first).symm.trans (timer second)
  rw [Option.some.injEq, Callback.aggEvent.injEq] at same
  exact same.1

/-- Writing a topic's object concerns that topic only. -/
theorem topicObj_write (paced : Paced config state)
    (entry : state.aggEventTopics.lookup aggTopic = some obj) (aggObj : AggEventObj π) :
    topicObj { state with objects := state.objects.write obj aggObj } =
      Function.update (topicObj state) aggTopic (some aggObj) := by
  obtain ⟨held, holds⟩ := paced.allocated entry
  funext other
  rw [Function.update_apply]
  by_cases same : other = aggTopic
  · subst same
    simp [topicObj, entry, Heap.read_write_self holds]
  · rw [if_neg same]
    cases known : state.aggEventTopics.lookup other with
    | none => simp [topicObj, known]
    | some obj' =>
      have apart : obj ≠ obj' := by
        rintro rfl
        exact same (topics_apart paced known entry)
      simp [topicObj, known, Heap.read_write_of_ne apart]

theorem topicObj_newTopic (paced : Paced config state) (aggTopic : String)
    (aggObj : AggEventObj π) (intervals : Intervals Callback) :
    topicObj { state with
        intervals := intervals
        objects := (state.objects.alloc aggObj).1
        aggEventTopics := state.aggEventTopics.insert aggTopic (state.objects.alloc aggObj).2 } =
      Function.update (topicObj state) aggTopic (some aggObj) := by
  funext other
  rw [Function.update_apply]
  by_cases same : other = aggTopic
  · subst same
    simp [topicObj]
  · rw [if_neg same]
    cases known : state.aggEventTopics.lookup other with
    | none => simp [topicObj, same, known]
    | some obj =>
      obtain ⟨held, holds⟩ := paced.allocated known
      simp [topicObj, same, known, holds, Heap.read_alloc_of_read holds]

/-- One topic's object is replaced: its arrivals are the new object's. -/
theorem pending_update {before after : State π}
    (replaced : topicObj after = Function.update (topicObj before) aggTopic (some aggObj)) :
    pending after = Function.update (pending before) aggTopic (arrivals aggObj) := by
  funext other
  rw [pending, replaced, Function.update_apply, Function.update_apply]
  split <;> rfl

theorem pending_of_topicObj (holds : topicObj state aggTopic = some aggObj) :
    pending state aggTopic = arrivals aggObj := by
  rw [pending, holds, Option.elim_some]

/-! ## Steps -/

variable {batches : Batches String (Arrival π)}

/-- A topic's object is replaced by one of the same title. -/
theorem Collected.titled_update (collected : Collected state batches) {after : State π}
    (replaced : topicObj after = Function.update (topicObj state) aggTopic (some aggObj))
    (title : topicOf aggObj.type aggObj.aggStateId aggObj.aggLastStateId aggObj.aggUser =
      aggTopic) (holds : topicObj after other = some held) :
    topicOf held.type held.aggStateId held.aggLastStateId held.aggUser = other := by
  rw [replaced, Function.update_apply] at holds
  split at holds
  · rename_i same
    cases holds
    exact title.trans same.symm
  · exact collected.titled holds

/-- A notification joins the others of its topic. -/
theorem collected_aggregateEvent (paced : Paced config state) (collected : Collected state batches)
    (on : config.aggregation = true) (body : Body π) (type : NotificationType) :
    Collected (aggregateEvent config state body type).1
      (batches.accept (getAggregateTopic body type) (type, body)) := by
  have conserved := collected.conserved.accept (getAggregateTopic body type) (type, body)
  simp only [aggregateEvent, on, Bool.not_true, Bool.false_eq_true, if_false]
  split
  · rename_i obj entry
    obtain ⟨aggObj, holds⟩ := paced.allocated entry
    have held : topicObj state (getAggregateTopic body type) = some aggObj := by
      rw [topicObj_of_entry entry, holds]
    have title := collected.titled held
    have sameType : aggObj.type = type := topicOf_type title
    rw [Heap.modify_of_read holds]
    have replaced := topicObj_write paced entry
      { aggObj with events := aggObj.events ++ [body] }
    refine ⟨conserved, collected.carried, ?_, collected.titled_update replaced title⟩
    have joined : arrivals { aggObj with events := aggObj.events ++ [body] } =
        pending state (getAggregateTopic body type) ++ [(type, body)] := by
      rw [pending_of_topicObj held]
      simp [arrivals, sameType]
    rw [pending_update replaced, joined, collected.waiting]
    rfl
  · rename_i unknown
    refine ⟨conserved, collected.carried, ?_, collected.titled_update
      (topicObj_newTopic paced _ _ _) rfl⟩
    have none : batches.pending (getAggregateTopic body type) = [] := by
      rw [← collected.waiting, pending, topicObj, unknown]
      rfl
    rw [pending_update (topicObj_newTopic paced _ _ _), collected.waiting, Batches.accept, none]
    rfl

/-- A notification that is not collected is a batch of its own. -/
theorem collected_straight (config : Config) (collected : Collected state batches)
    (noTopics : state.aggEventTopics = ∅)
    (body : Body π) (type : NotificationType) :
    Collected (limitOrProcess config state ⟨.simple body, type⟩)
      ((batches.accept (getAggregateTopic body type) (type, body)).pass
        (getAggregateTopic body type)) := by
  obtain ⟨topics, objects, offered⟩ := limitOrProcess_frame config state
    ⟨.simple body, type⟩
  have same : topicObj (limitOrProcess config state ⟨.simple body, type⟩) = topicObj state := by
    funext aggTopic
    rw [topicObj, topicObj, topics, objects]
  have none : batches.pending = fun _ => [] := by
    rw [← collected.waiting]
    funext aggTopic
    rw [pending, topicObj, noTopics, Finmap.lookup_empty]
    rfl
  refine ⟨(collected.conserved.accept _ _).pass _, ?_, ?_, ?_⟩
  · rw [offered]
    apply List.rel_append collected.carried
    simp only [Batches.accept, none, Function.update_self, List.nil_append]
    exact .cons (.simple body type _) .nil
  · have kept : pending (limitOrProcess config state ⟨.simple body, type⟩) = pending state := by
      funext aggTopic
      rw [pending, pending, same]
    rw [kept, collected.waiting, none]
    simp [Batches.accept, Batches.pass, none]
  · intro aggTopic aggObj holds
    rw [same] at holds
    exact collected.titled holds

/-- A topic's arrivals are handed on together. -/
theorem collected_handed (paced : Paced config state) (collected : Collected state batches)
    (entry : state.aggEventTopics.lookup aggTopic = some obj)
    (holds : state.objects.read obj = some aggObj) (message : Message π)
    (carries : Carries ⟨message, aggObj.type⟩ (aggTopic, arrivals aggObj)) :
    let handed := limitOrProcess config state ⟨message, aggObj.type⟩
    Collected { handed with objects := handed.objects.write obj { aggObj with events := [] } }
      (batches.pass aggTopic) := by
  intro handed
  obtain ⟨topics, objects, offered⟩ := limitOrProcess_frame config state
    ⟨message, aggObj.type⟩
  have held : topicObj state aggTopic = some aggObj := by rw [topicObj_of_entry entry, holds]
  have title := collected.titled held
  have replaced : topicObj { handed with
        objects := handed.objects.write obj { aggObj with events := [] } } =
      Function.update (topicObj state) aggTopic (some { aggObj with events := [] }) := by
    rw [← topicObj_write paced entry]
    funext other
    simp only [topicObj, handed, topics, objects]
  refine ⟨collected.conserved.pass aggTopic, ?_, ?_,
    fun found => collected.titled_update replaced title found⟩
  · have waiting : batches.pending aggTopic = arrivals aggObj := by
      rw [← collected.waiting, pending_of_topicObj held]
    change List.Forall₂ Carries handed.offered _
    rw [offered, Batches.pass, waiting]
    exact List.rel_append collected.carried (.cons carries .nil)
  · rw [pending_update replaced, collected.waiting]
    rfl

/-- An aggregated body names all the arrivals of its object. -/
theorem carries_aggBody (aggObj : AggEventObj π) (several : 2 ≤ aggObj.events.length)
    (title : topicOf aggObj.type aggObj.aggStateId aggObj.aggLastStateId aggObj.aggUser =
      aggTopic) :
    Carries ⟨.aggregated (aggBody aggObj), aggObj.type⟩ (aggTopic, arrivals aggObj) := by
  subst title
  have carries := Carries.aggregated (aggBody aggObj) aggObj.type aggObj.events several
  obtain ⟨events, aggStateId, aggLastStateId, aggUser, aggUserEmail, type, timer⟩ := aggObj
  cases type with
  | host => exact carries rfl rfl
  | service => exact carries rfl rfl

/-- The topic's timer fires: nothing, one or several arrivals are handed on. -/
theorem collected_aggEventProcess (paced : Paced config state)
    (collected : Collected state batches)
    (entry : state.aggEventTopics.lookup aggTopic = some obj) :
    ∃ batches', Collected (aggEventProcess config state aggTopic obj) batches' ∧
      batches'.accepted = batches.accepted := by
  obtain ⟨aggObj, holds⟩ := paced.allocated entry
  have held : topicObj state aggTopic = some aggObj := by rw [topicObj_of_entry entry, holds]
  have handed := collected_handed paced collected entry holds
  simp only [aggEventProcess, holds]
  split
  · rename_i empty
    refine ⟨batches, ⟨collected.conserved, collected.carried, ?_, ?_⟩, rfl⟩
    · rw [← collected.waiting]
      funext other
      by_cases same : other = aggTopic
      · subst same
        rw [pending_of_topicObj held, arrivals, empty]
        simp [pending, topicObj]
      · simp [pending, topicObj, clearInterval, same]
    · intro other aggObj' found
      by_cases same : other = aggTopic
      · subst same
        simp [topicObj] at found
      · exact collected.titled (by simpa [topicObj, clearInterval, same] using found)
  · rename_i body single
    refine ⟨_, handed (.simple body) ?_, rfl⟩
    rw [arrivals, single]
    exact .simple body aggObj.type aggTopic
  · rename_i first second rest several
    refine ⟨_, handed _ (carries_aggBody aggObj ?_ (collected.titled held)), rfl⟩
    rw [several, List.length_cons, List.length_cons]
    omega

/-- Neither limiter callback touches the topics. -/
theorem Collected.of_frame (collected : Collected state batches) {after : State π}
    (topics : after.aggEventTopics = state.aggEventTopics) (objects : after.objects = state.objects)
    (offered : after.offered = state.offered) : Collected after batches := by
  have same : topicObj after = topicObj state := by
    funext aggTopic
    rw [topicObj, topicObj, topics, objects]
  refine ⟨collected.conserved, offered ▸ collected.carried, ?_, ?_⟩
  · rw [← collected.waiting]
    funext aggTopic
    rw [pending, pending, same]
  · intro aggTopic aggObj holds
    rw [same] at holds
    exact collected.titled holds

theorem collected_handleNotification (paced : Paced config state)
    (collected : Collected state batches)
    (noTopics : config.aggregation = false → state.aggEventTopics = ∅) (body : Body π)
    (type : NotificationType) :
    ∃ batches', Collected (handleNotification config state body type) batches' ∧
      batches'.accepted = batches.accepted ++ [(getAggregateTopic body type, type, body)] := by
  cases aggregation : config.aggregation with
  | true =>
    have joined := collected_aggregateEvent paced collected aggregation body type
    refine ⟨batches.accept (getAggregateTopic body type) (type, body), ?_, rfl⟩
    have taken : (aggregateEvent config state body type).2 = true := by
      simp only [aggregateEvent, aggregation, Bool.not_true, Bool.false_eq_true, if_false]
      split <;> rfl
    simpa only [handleNotification, taken, if_true] using joined
  | false =>
    have straight := collected_straight config collected (noTopics aggregation)
      body type
    refine ⟨(batches.accept (getAggregateTopic body type) (type, body)).pass
      (getAggregateTopic body type), ?_, rfl⟩
    simpa [handleNotification, aggregateEvent, aggregation] using straight

theorem collected_step (paced : Paced config state) (collected : Collected state batches)
    (noTopics : config.aggregation = false → state.aggEventTopics = ∅) (event : Event π) :
    ∃ batches', Collected (step config state event) batches' ∧
      batches'.accepted = batches.accepted ++ [event].filterMap accepted := by
  cases event with
  | notifyHost body =>
    exact collected_handleNotification paced collected noTopics body .host
  | notifyService body =>
    exact collected_handleNotification paced collected noTopics body .service
  | tick handle =>
    have silent : [(.tick handle : Event π)].filterMap accepted = [] := rfl
    rw [silent, List.append_nil]
    simp only [step]
    split
    · exact ⟨batches, collected, rfl⟩
    · rename_i callback live
      cases callback with
      | ratelimitTimer => exact ⟨batches, collected.of_frame rfl rfl rfl, rfl⟩
      | ratelimitThrottleTimer =>
        obtain ⟨topics, objects, offered⟩ := throttleCallback_frame config state
        exact ⟨batches, collected.of_frame topics objects offered, rfl⟩
      | aggEvent aggTopic obj =>
        exact collected_aggEventProcess paced collected
          (paced.entry_of_callback live)

section
variable (enabled : config.enabled = true) (queueing : config.overrate ≠ some "drop")
variable (positive : 1 ≤ config.rate)
include enabled queueing positive

theorem collected_handlerAfter (history : List (Event π)) :
    ∃ batches, Collected (handlerAfter config history) batches ∧
      batches.accepted = history.filterMap accepted := by
  induction history using List.reverseRecOn with
  | nil =>
    refine ⟨{}, ⟨Batches.conserved_empty, ?_, ?_, ?_⟩, rfl⟩
    · simp [handlerAfter, init, enabled, ratelimitStartTimer]
    · funext aggTopic
      simp [handlerAfter, init, enabled, ratelimitStartTimer, pending, topicObj]
    · intro aggTopic aggObj holds
      simp [handlerAfter, init, enabled, ratelimitStartTimer, topicObj] at holds
  | append_singleton past event ih =>
    obtain ⟨batches, collected, sofar⟩ := ih
    have paced := paced_handlerAfter enabled queueing positive past
    have noTopics := fun off =>
      (offered_without_aggregation enabled queueing positive off past).1
    obtain ⟨batches', collected', grown⟩ :=
      collected_step paced collected noTopics event
    refine ⟨batches', ?_, by rw [grown, sofar, List.filterMap_append]⟩
    rw [handlerAfter, after_concat]
    exact collected'

/-- **Every notification is in one place.** After any history the notifications
processed and then those queued carry batches of arrivals, and under every
topic what was accepted is what those batches carry, in order, followed by what
the topic still holds. A topic that holds something has a live timer, and so
has the throttle while something is queued. -/
theorem every_notification_in_one_place (history : List (Event π)) :
    let state := handlerAfter config history
    (∃ passed : List (String × List (Arrival π)),
      List.Forall₂ Carries (state.processed ++ state.queue) passed ∧
      ∀ aggTopic, Batches.under aggTopic (history.filterMap accepted) =
        Batches.carried aggTopic passed ++ pending state aggTopic) ∧
    (∀ aggTopic, pending state aggTopic ≠ [] → ∃ obj handle,
      state.aggEventTopics.lookup aggTopic = some obj ∧
        state.intervals.callback handle = some (.aggEvent aggTopic obj)) ∧
    (state.queue ≠ [] → ∃ handle,
      state.intervals.callback handle = some .ratelimitThrottleTimer) := by
  intro state
  have paced : Paced config state := paced_handlerAfter enabled queueing positive history
  obtain ⟨batches, collected, all⟩ := collected_handlerAfter enabled queueing positive history
  refine ⟨⟨batches.passed, ?_, ?_⟩, ?_, ?_⟩
  · rw [paced.inOrder]
    exact collected.carried
  · intro aggTopic
    rw [← all, collected.conserved aggTopic, ← collected.waiting]
  · intro aggTopic waiting
    obtain ⟨obj, entry⟩ : ∃ obj, state.aggEventTopics.lookup aggTopic = some obj := by
      cases entry : state.aggEventTopics.lookup aggTopic with
      | none => exact absurd (by simp [pending, topicObj, entry]) waiting
      | some obj => exact ⟨obj, rfl⟩
    obtain ⟨aggObj, holds⟩ := paced.allocated entry
    exact ⟨obj, aggObj.timer, entry, paced.kept.live.mpr (by simp [holder, entry, holds])⟩
  · intro waiting
    rcases paced.mode with flushing | throttling
    · exact absurd flushing.queue waiting
    · obtain ⟨handle, running⟩ := throttling.throttle
      exact ⟨handle, paced.kept.live.mpr running⟩

end

/-- Two hosts down under one topic are handed on together by its tick. -/
theorem two_hosts_down_go_together :
    let config : Config := ⟨true, 10, some "queue", true⟩
    let down (name : String) : Event Unit :=
      .notifyHost ⟨some name, none, some "1", some "0", ⟨some "noc", none⟩, ()⟩
    let history := [down "a", down "b", .tick 1]
    let state := handlerAfter config history
    ∃ passed, List.Forall₂ Carries (state.processed ++ state.queue) passed ∧
      ∀ aggTopic, Batches.under aggTopic (history.filterMap accepted) =
        Batches.carried aggTopic passed ++ pending state aggTopic := by
  intro config down history
  have enabled : config.enabled = true := rfl
  exact (every_notification_in_one_place enabled (by decide) (by decide) history).1

end NetGraphz.AggregationProofs
