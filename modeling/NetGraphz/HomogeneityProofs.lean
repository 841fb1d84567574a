import NetGraphz.AggregationProofs
import NetGraphz.Base.NodeText

/-! Which notifications are merged into one. They are collected by a topic that
leaves the e-mail address out and runs the other fields together, while the
header of the merged notification is that of the one that opened the topic. -/
namespace NetGraphz.HomogeneityProofs
open EventHandler RateLimitProofs AggregationProofs

variable {π : Type u} {config : Config} {state : State π}

/-- What an aggregated notification says of all that is merged into it. -/
structure Header where
  stateId : Option String
  lastStateId : Option String
  userName : Option String
  userEmail : Option String
  deriving DecidableEq

def headerOf (body : Body π) : Header :=
  ⟨body.stateId, body.lastStateId, body.user.name, body.user.email⟩

def objHeader (aggObj : AggEventObj π) : Header :=
  ⟨aggObj.aggStateId, aggObj.aggLastStateId, aggObj.aggUser, aggObj.aggUserEmail⟩

def aggHeader (agg : AggBody) : Header :=
  ⟨agg.aggStateId, agg.aggLastStateId, agg.aggUser, agg.aggUserEmail⟩

@[simp] theorem aggHeader_aggBody (aggObj : AggEventObj π) :
    aggHeader (aggBody aggObj) = objHeader aggObj := by
  obtain ⟨events, aggStateId, aggLastStateId, aggUser, aggUserEmail, type, timer⟩ := aggObj
  cases type <;> rfl

/-- The topic a notification with this header is collected under. -/
def Header.topic (header : Header) (type : NotificationType) : String :=
  topicOf type header.stateId header.lastStateId header.userName

theorem topic_headerOf (body : Body π) (type : NotificationType) :
    (headerOf body).topic type = getAggregateTopic body type := rfl

/-! ## The arrivals behind a merged notification -/

/-- An aggregated notification with the arrivals that were merged into it. -/
structure Merged (π : Type u) where
  agg : AggBody
  type : NotificationType
  arrivals : List (Arrival π)

/-- The module, the arrivals whose bodies each object holds, and the aggregated
notifications so far. -/
structure Tracking (π : Type u) where
  state : State π
  held : Ref → List (Arrival π) := fun _ => []
  merged : List (Merged π) := []

/-- A notification is noted with the object it joins or opens. -/
def noteArrival (config : Config) (tracking : Tracking π) (arrival : Arrival π) :
    Ref → List (Arrival π) :=
  if config.aggregation then
    match tracking.state.aggEventTopics.lookup (getAggregateTopic arrival.2 arrival.1) with
    | some obj => Function.update tracking.held obj (tracking.held obj ++ [arrival])
    | none => Function.update tracking.held tracking.state.objects.next [arrival]
  else tracking.held

/-- A topic's tick takes the arrivals out of its object, merged if there are
several. -/
def noteTick (tracking : Tracking π) (obj : Ref) :
    (Ref → List (Arrival π)) × List (Merged π) :=
  match tracking.state.objects.read obj with
  | none => (tracking.held, tracking.merged)
  | some aggObj =>
    (Function.update tracking.held obj [],
      if 2 ≤ aggObj.events.length then
        tracking.merged ++ [⟨aggBody aggObj, aggObj.type, tracking.held obj⟩]
      else tracking.merged)

def trackStep (config : Config) (tracking : Tracking π) (event : Event π) : Tracking π :=
  let state := step config tracking.state event
  match event with
  | .notifyHost body => { tracking with
      state := state, held := noteArrival config tracking (.host, body) }
  | .notifyService body => { tracking with
      state := state, held := noteArrival config tracking (.service, body) }
  | .tick handle =>
    match tracking.state.intervals.callback handle with
    | some (.aggEvent _ obj) => ⟨state, (noteTick tracking obj).1, (noteTick tracking obj).2⟩
    | _ => { tracking with state := state }

def trackedAfter (config : Config) (history : List (Event π)) : Tracking π :=
  after (trackStep config) { state := init config } history

theorem trackStep_state (config : Config) (tracking : Tracking π) (event : Event π) :
    (trackStep config tracking event).state = step config tracking.state event := by
  cases event with
  | notifyHost body => rfl
  | notifyService body => rfl
  | tick handle =>
    unfold trackStep
    dsimp only
    split <;> rfl

theorem trackedAfter_state (config : Config) (history : List (Event π)) :
    (trackedAfter config history).state = handlerAfter config history :=
  after_projects (step config) (trackStep config) Tracking.state (trackStep_state config)
    { state := init config } history

/-! ## What happens to topics and objects -/

/-- A notification goes straight to the limiter, or joins the object of its
topic, or opens the topic with a new object. -/
theorem handleNotification_cases (config : Config) (state : State π) (body : Body π)
    (type : NotificationType) :
    let later := handleNotification config state body type
    let aggTopic := getAggregateTopic body type
    (config.aggregation = false ∧ later.aggEventTopics = state.aggEventTopics ∧
      later.objects = state.objects ∧ later.offered = state.offered ++ [⟨.simple body, type⟩]) ∨
    (config.aggregation = true ∧ ∃ obj, state.aggEventTopics.lookup aggTopic = some obj ∧
      later.aggEventTopics = state.aggEventTopics ∧
      later.objects = state.objects.modify obj
        (fun aggObj => { aggObj with events := aggObj.events ++ [body] }) ∧
      later.offered = state.offered) ∨
    (config.aggregation = true ∧ state.aggEventTopics.lookup aggTopic = none ∧ ∃ aggObj,
      objHeader aggObj = headerOf body ∧ aggObj.type = type ∧ aggObj.events = [body] ∧
      later.aggEventTopics = state.aggEventTopics.insert aggTopic state.objects.next ∧
      later.objects = (state.objects.alloc aggObj).1 ∧ later.offered = state.offered) := by
  intro later aggTopic
  cases on : config.aggregation with
  | false =>
    have straight : later = limitOrProcess config state ⟨.simple body, type⟩ := by
      simp [later, handleNotification, aggregateEvent, on]
    rw [straight]
    exact .inl ⟨rfl, limitOrProcess_frame config state ⟨.simple body, type⟩⟩
  | true =>
    have collected : later = (aggregateEvent config state body type).1 := by
      have taken : (aggregateEvent config state body type).2 = true := by
        simp only [aggregateEvent, on, Bool.not_true, Bool.false_eq_true, if_false]
        split <;> rfl
      simp only [later, handleNotification, taken, if_true]
    rw [collected]
    simp only [aggregateEvent, on, Bool.not_true, Bool.false_eq_true, if_false]
    split
    · rename_i obj entry
      exact .inr (.inl ⟨trivial, obj, entry, rfl, rfl, rfl⟩)
    · rename_i entry
      exact .inr (.inr ⟨trivial, entry, _, rfl, rfl, rfl, rfl, rfl, rfl⟩)

/-- A topic without events is dropped; one event is handed on as it is, several
are handed on merged, and the object is emptied. -/
theorem aggEventProcess_cases (config : Config) (aggTopic : String)
    (holds : state.objects.read obj = some aggObj) :
    let later := aggEventProcess config state aggTopic obj
    let emptied := state.objects.write obj { aggObj with events := [] }
    (aggObj.events = [] ∧ later.aggEventTopics = state.aggEventTopics.erase aggTopic ∧
      later.objects = state.objects ∧ later.offered = state.offered) ∨
    (∃ event, aggObj.events = [event] ∧ later.aggEventTopics = state.aggEventTopics ∧
      later.objects = emptied ∧
      later.offered = state.offered ++ [⟨.simple event, aggObj.type⟩]) ∨
    (2 ≤ aggObj.events.length ∧ later.aggEventTopics = state.aggEventTopics ∧
      later.objects = emptied ∧
      later.offered = state.offered ++ [⟨.aggregated (aggBody aggObj), aggObj.type⟩]) := by
  intro later emptied
  rcases events : aggObj.events with _ | ⟨event, _ | ⟨second, rest⟩⟩
  · refine .inl ⟨rfl, ?_⟩
    simp [later, aggEventProcess, holds, events, clearInterval]
  · obtain ⟨topics, objects, offered⟩ :=
      limitOrProcess_frame config state ⟨.simple event, aggObj.type⟩
    refine .inr (.inl ⟨event, rfl, ?_⟩)
    simp [later, emptied, aggEventProcess, holds, events, topics, objects, offered]
  · obtain ⟨topics, objects, offered⟩ :=
      limitOrProcess_frame config state ⟨.aggregated (aggBody aggObj), aggObj.type⟩
    refine .inr (.inr ⟨by simp, ?_⟩)
    simp [later, emptied, aggEventProcess, holds, events, topics, objects, offered]

/-! ## Properties of the arrivals -/

/-- A property of an arrival, given the type and the header of what the arrival
is part of. -/
abbrev ArrivalProperty (π : Type u) := NotificationType → Header → Arrival π → Prop

variable {property : ArrivalProperty π} {objects : Heap (AggEventObj π)} {held : Ref → List (Arrival π)}

/-- The events of an object are the bodies of its arrivals, each of which has the
property. -/
structure Held (property : ArrivalProperty π) (objects : Heap (AggEventObj π))
    (held : Ref → List (Arrival π)) : Prop where
  bodies : ∀ {obj aggObj}, objects.read obj = some aggObj →
    (held obj).map Prod.snd = aggObj.events
  all : ∀ {obj aggObj}, objects.read obj = some aggObj →
    ∀ arrival ∈ held obj, property aggObj.type (objHeader aggObj) arrival

/-- An arrival joins an object. -/
theorem Held.joined (kept : Held property objects held) (known : objects.read obj = some aggObj)
    (joins : property aggObj.type (objHeader aggObj) (type, body)) :
    Held property (objects.modify obj fun aggObj => { aggObj with events := aggObj.events ++ [body] })
      (Function.update held obj (held obj ++ [(type, body)])) := by
  rw [Heap.modify_of_read known]
  constructor
  · intro other aggObj' read
    rw [Heap.read_write known] at read
    split at read
    · rename_i same
      cases read
      rw [same, Function.update_self, List.map_append, kept.bodies known]
      rfl
    · rename_i apart
      rw [Function.update_of_ne apart]
      exact kept.bodies read
  · intro other aggObj' read arrival member
    rw [Heap.read_write known] at read
    split at read
    · rename_i same
      cases read
      rw [same, Function.update_self] at member
      rcases List.mem_append.mp member with old | new
      · exact kept.all known arrival old
      · rw [List.mem_singleton.mp new]
        exact joins
    · rename_i apart
      rw [Function.update_of_ne apart] at member
      exact kept.all read arrival member

/-- An arrival opens a new object. -/
theorem Held.opened (kept : Held property objects held) {aggObj : AggEventObj π}
    (events : aggObj.events = [body]) (opens : property aggObj.type (objHeader aggObj) (type, body)) :
    Held property (objects.alloc aggObj).1 (Function.update held objects.next [(type, body)]) := by
  constructor
  · intro other aggObj' read
    rw [Heap.read_alloc] at read
    split at read
    · rename_i same
      cases read
      rw [same, Function.update_self, events]
      rfl
    · rename_i apart
      rw [Function.update_of_ne apart]
      exact kept.bodies read
  · intro other aggObj' read arrival member
    rw [Heap.read_alloc] at read
    split at read
    · rename_i same
      cases read
      rw [same, Function.update_self] at member
      rw [List.mem_singleton.mp member]
      exact opens
    · rename_i apart
      rw [Function.update_of_ne apart] at member
      exact kept.all read arrival member

/-- An object is emptied. -/
theorem Held.emptied (kept : Held property objects held) (known : objects.read obj = some aggObj) :
    Held property (objects.write obj { aggObj with events := [] }) (Function.update held obj []) := by
  constructor
  · intro other aggObj' read
    rw [Heap.read_write known] at read
    split at read
    · rename_i same
      cases read
      rw [same, Function.update_self]
      rfl
    · rename_i apart
      rw [Function.update_of_ne apart]
      exact kept.bodies read
  · intro other aggObj' read arrival member
    rw [Heap.read_write known] at read
    split at read
    · rename_i same
      rw [same, Function.update_self] at member
      cases member
    · rename_i apart
      rw [Function.update_of_ne apart] at member
      exact kept.all read arrival member

/-- Every topic's object bears the topic. -/
def Titled (topics : Finmap fun _ : String => Ref) (objects : Heap (AggEventObj π)) : Prop :=
  ∀ {aggTopic obj}, topics.lookup aggTopic = some obj → ∃ aggObj, objects.read obj = some aggObj ∧
    (objHeader aggObj).topic aggObj.type = aggTopic

/-- Writing to an object does not change what it bears. -/
theorem Titled.written (titled : Titled topics objects) (known : objects.read obj = some aggObj)
    (events : List (Body π)) : Titled topics (objects.write obj { aggObj with events := events }) := by
  intro aggTopic other entry
  obtain ⟨aggObj', read, title⟩ := titled entry
  rw [Heap.read_write known]
  by_cases same : other = obj
  · subst same
    rw [known] at read
    cases read
    exact ⟨_, if_pos rfl, title⟩
  · exact ⟨aggObj', by rw [if_neg same, read], title⟩

theorem Titled.opened (titled : Titled topics objects) (body : Body π) (type : NotificationType)
    {aggObj : AggEventObj π} (header : objHeader aggObj = headerOf body) (own : aggObj.type = type) :
    Titled (topics.insert (getAggregateTopic body type) objects.next) (objects.alloc aggObj).1 := by
  intro aggTopic obj entry
  rw [Heap.read_alloc]
  by_cases same : aggTopic = getAggregateTopic body type
  · subst same
    rw [Finmap.lookup_insert, Option.some.injEq] at entry
    exact ⟨aggObj, if_pos entry.symm, by rw [header, own, topic_headerOf]⟩
  · rw [Finmap.lookup_insert_of_ne _ same] at entry
    obtain ⟨aggObj', read, title⟩ := titled entry
    have apart : obj ≠ objects.next := Heap.alloc_fresh read aggObj
    exact ⟨aggObj', by rw [if_neg apart, read], title⟩

/-- The aggregated notification, if it is one. -/
def aggregatedOf (notification : Notification π) : Option (AggBody × NotificationType) :=
  match notification.body with
  | .simple _ => none
  | .aggregated agg => some (agg, notification.type)

/-- What is noted is what the module does, and every arrival that is held or was
merged has the property. -/
structure Follows (property : ArrivalProperty π) (tracking : Tracking π) : Prop where
  titled : Titled tracking.state.aggEventTopics tracking.state.objects
  held : Held property tracking.state.objects tracking.held
  merged : ∀ entry ∈ tracking.merged, ∀ arrival ∈ entry.arrivals,
    property entry.type (aggHeader entry.agg) arrival
  carried : ∀ entry ∈ tracking.merged,
    Carries ⟨.aggregated entry.agg, entry.type⟩ ((aggHeader entry.agg).topic entry.type,
      entry.arrivals.map fun arrival => (entry.type, arrival.2))
  logged : tracking.state.offered.filterMap aggregatedOf =
    tracking.merged.map fun entry => (entry.agg, entry.type)

/-- An arrival that joins the object of its topic has the property. -/
def Joins (property : ArrivalProperty π) (state : State π) (event : Event π) : Prop :=
  ∀ aggTopic arrival, accepted event = some (aggTopic, arrival) → ∀ aggObj,
    topicObj state aggTopic = some aggObj → (objHeader aggObj).topic aggObj.type = aggTopic →
      property aggObj.type (objHeader aggObj) arrival

/-- An arrival that opens its topic has the property. -/
def Opens (property : ArrivalProperty π) (event : Event π) : Prop :=
  ∀ aggTopic arrival, accepted event = some (aggTopic, arrival) →
    property arrival.1 (headerOf arrival.2) arrival

variable {tracking : Tracking π}

theorem follows_arrival (follows : Follows property tracking) (body : Body π)
    (type : NotificationType) (opens : property type (headerOf body) (type, body))
    (joins : ∀ aggObj, topicObj tracking.state (getAggregateTopic body type) = some aggObj →
      (objHeader aggObj).topic aggObj.type = getAggregateTopic body type →
        property aggObj.type (objHeader aggObj) (type, body)) :
    Follows property { tracking with
      state := handleNotification config tracking.state body type
      held := noteArrival config tracking (type, body) } := by
  obtain ⟨titled, held, merged, carried, logged⟩ := follows
  rcases handleNotification_cases config tracking.state body type with
    ⟨off, topics, objects, offered⟩ | ⟨on, obj, entry, topics, objects, offered⟩ |
    ⟨on, unknown, aggObj, header, own, events, topics, objects, offered⟩
  · refine ⟨?_, ?_, merged, carried, ?_⟩
    · simp only [topics, objects]
      exact titled
    · simp only [objects, noteArrival, off, Bool.false_eq_true, if_false]
      exact held
    · simp only [offered, List.filterMap_append, logged]
      exact List.append_nil _
  · obtain ⟨aggObj, read, title⟩ := titled entry
    have joined := joins aggObj (by rw [topicObj_of_entry entry, read]) title
    refine ⟨?_, ?_, merged, carried, ?_⟩
    · simp only [topics, objects, Heap.modify_of_read read]
      exact titled.written read _
    · simp only [objects, noteArrival, on, if_true, entry]
      exact held.joined read joined
    · simp only [offered, logged]
  · refine ⟨?_, ?_, merged, carried, ?_⟩
    · simp only [topics, objects]
      exact titled.opened body type header own
    · simp only [objects, noteArrival, on, if_true, unknown]
      apply held.opened events
      rw [header, own]
      exact opens
    · simp only [offered, logged]

theorem follows_tick (follows : Follows property tracking) (aggTopic : String) (obj : Ref) :
    Follows property ⟨aggEventProcess config tracking.state aggTopic obj,
      (noteTick tracking obj).1, (noteTick tracking obj).2⟩ := by
  obtain ⟨titled, held, merged, carried, logged⟩ := follows
  cases read : tracking.state.objects.read obj with
  | none =>
    have silent : aggEventProcess config tracking.state aggTopic obj = tracking.state := by
      simp [aggEventProcess, read]
    rw [silent]
    simp only [noteTick, read]
    exact ⟨titled, held, merged, carried, logged⟩
  | some aggObj =>
    simp only [noteTick, read]
    rcases aggEventProcess_cases config aggTopic read with
      ⟨none, topics, objects, offered⟩ | ⟨event, single, topics, objects, offered⟩ |
      ⟨several, topics, objects, offered⟩
    · have empty : tracking.held obj = [] := by
        have bodies := held.bodies read
        rw [none] at bodies
        exact List.map_eq_nil_iff.mp bodies
      have few : ¬ 2 ≤ aggObj.events.length := by simp [none]
      rw [if_neg few]
      refine ⟨?_, ?_, merged, carried, ?_⟩
      · simp only [topics, objects]
        intro other ref entry
        by_cases same : other = aggTopic
        · subst same
          simp at entry
        · rw [Finmap.lookup_erase_ne same] at entry
          exact titled entry
      · simp only [objects]
        rw [← empty, Function.update_eq_self]
        exact held
      · simp only [offered, logged]
    · have few : ¬ 2 ≤ aggObj.events.length := by simp [single]
      rw [if_neg few]
      refine ⟨?_, ?_, merged, carried, ?_⟩
      · simp only [topics, objects]
        exact titled.written read []
      · simp only [objects]
        exact held.emptied read
      · rw [offered, List.filterMap_append, logged]
        exact List.append_nil _
    · have same : (tracking.held obj).map (fun arrival => (aggObj.type, arrival.2)) =
          arrivals aggObj := by
        rw [arrivals, ← held.bodies read, List.map_map]
        rfl
      rw [if_pos several]
      refine ⟨?_, ?_, ?_, ?_, ?_⟩
      · simp only [topics, objects]
        exact titled.written read []
      · simp only [objects]
        exact held.emptied read
      · intro entry member arrival part
        rcases List.mem_append.mp member with old | new
        · exact merged entry old arrival part
        · rw [List.mem_singleton.mp new] at part ⊢
          rw [aggHeader_aggBody]
          exact held.all read arrival part
      · intro entry member
        rcases List.mem_append.mp member with old | new
        · exact carried entry old
        · rw [List.mem_singleton.mp new, aggHeader_aggBody, same]
          exact carries_aggBody aggObj several rfl
      · simp [offered, aggregatedOf, logged]

/-- **One step.** -/
theorem follows_step (tracking : Tracking π) (event : Event π) (opens : Opens property event)
    (follows : Follows property tracking) (joins : Joins property tracking.state event) :
    Follows property (trackStep config tracking event) := by
  cases event with
  | notifyHost body =>
    exact follows_arrival follows body .host (opens _ _ rfl) fun aggObj => joins _ _ rfl aggObj
  | notifyService body =>
    exact follows_arrival follows body .service (opens _ _ rfl) fun aggObj => joins _ _ rfl aggObj
  | tick handle =>
    unfold trackStep step
    dsimp only
    cases live : tracking.state.intervals.callback handle with
    | none => exact follows
    | some callback =>
      cases callback with
      | aggEvent aggTopic obj => exact follows_tick follows aggTopic obj
      | ratelimitTimer => 
        exact ⟨follows.titled, follows.held, follows.merged, follows.carried, follows.logged⟩
      | ratelimitThrottleTimer =>
        obtain ⟨topics, objects, offered⟩ := throttleCallback_frame config tracking.state
        refine ⟨?_, ?_, follows.merged, follows.carried, ?_⟩
        · simp only [fire, topics, objects]
          exact follows.titled
        · simp only [fire, objects]
          exact follows.held
        · simp only [fire, offered]
          exact follows.logged

/-- **The run.** A property of the arrivals that open topics and of those that join
them is one of all that is held or merged. -/
theorem follows_trackedAfter (history : List (Event π))
    (opens : ∀ event ∈ history, Opens property event)
    (joins : ∀ past event, past ++ [event] <+: history →
      Joins property (handlerAfter config past) event) :
    Follows property (trackedAfter config history) := by
  refine prefix_induction (fun past => Follows property (trackedAfter config past)) ?_ ?_ history
    (List.prefix_refl _)
  · have topics : (init config : State π).aggEventTopics = ∅ := by
      unfold init
      split <;> rfl
    have objects : (init config : State π).objects = {} := by
      unfold init
      split <;> rfl
    have offered : (init config : State π).offered = [] := by
      unfold init
      split <;> rfl
    refine ⟨?_, ⟨?_, ?_⟩, ?_, ?_, ?_⟩
    · intro aggTopic obj entry
      simp [trackedAfter, topics] at entry
    · intro obj aggObj read
      simp [trackedAfter, objects, Heap.read] at read
    · intro obj aggObj read
      simp [trackedAfter, objects, Heap.read] at read
    · simp [trackedAfter]
    · simp [trackedAfter]
    · simp [trackedAfter, offered]
  · intro past event within before
    rw [trackedAfter, after_concat, ← trackedAfter]
    have came := opens event (within.subset (List.mem_append_right past (List.mem_singleton.mpr rfl)))
    apply follows_step _ event came before
    rw [trackedAfter_state]
    exact joins past event within

/-! ## What the topic tells -/

/-- The fields are there, and the ids have no slash. -/
structure Header.Plain (header : Header) : Prop where
  stateId : ∃ id, header.stateId = some id ∧ '/' ∉ id.toList
  lastStateId : ∃ id, header.lastStateId = some id ∧ '/' ∉ id.toList
  userName : ∃ name, header.userName = some name

/-- The topic tells plain headers apart, but for the e-mail address. -/
theorem Header.eq_but_email (plain : Header.Plain header) (plain' : Header.Plain header')
    (same : header.topic type = header'.topic type) :
    { header with userEmail := header'.userEmail } = header' := by
  obtain ⟨stateId, lastStateId, userName, userEmail⟩ := header
  obtain ⟨stateId', lastStateId', userName', userEmail'⟩ := header'
  obtain ⟨⟨state, rfl, clearState⟩, ⟨lastState, rfl, clearLast⟩, ⟨name, rfl⟩⟩ := plain
  obtain ⟨⟨state', rfl, clearState'⟩, ⟨lastState', rfl, clearLast'⟩, ⟨name', rfl⟩⟩ := plain'
  have fields : state.toList ++ '/' :: (lastState.toList ++ '/' :: name.toList) =
      state'.toList ++ '/' :: (lastState'.toList ++ '/' :: name'.toList) := by
    have chars := congrArg String.toList same
    cases type <;> simpa [Header.topic, topicOf, text] using chars
  have parts := congrArg (NodeText.split '/') fields
  rw [NodeText.split_append _ _ _ clearState, NodeText.split_append _ _ _ clearState',
    NodeText.split_append _ _ _ clearLast, NodeText.split_append _ _ _ clearLast'] at parts
  obtain ⟨stateEq, lastEq, -⟩ : state.toList = state'.toList ∧ lastState.toList = lastState'.toList ∧
      NodeText.split '/' name.toList = NodeText.split '/' name'.toList := by
    simpa using parts
  rw [stateEq, lastEq] at fields
  have nameEq : name.toList = name'.toList := by simpa using fields
  simp only [String.toList_inj.mp stateEq, String.toList_inj.mp lastEq, String.toList_inj.mp nameEq]

/-- An arrival comes in under its own topic. -/
theorem topic_of_accepted {event : Event π} {arrival : Arrival π}
    (brings : accepted event = some (aggTopic, arrival)) :
    aggTopic = (headerOf arrival.2).topic arrival.1 := by
  cases event <;> cases brings <;> rfl

/-- All that is merged has the topic of the notification it is merged into, and
hence its type; with plain headers it can differ in the e-mail address only. -/
theorem merged_share_topic (history : List (Event π)) :
    ∀ entry ∈ (trackedAfter config history).merged, ∀ arrival ∈ entry.arrivals,
      arrival.1 = entry.type ∧
      (headerOf arrival.2).topic arrival.1 = (aggHeader entry.agg).topic entry.type ∧
      ((headerOf arrival.2).Plain → (aggHeader entry.agg).Plain →
        { headerOf arrival.2 with userEmail := entry.agg.aggUserEmail } = aggHeader entry.agg) := by
  let shares : ArrivalProperty π := fun type header arrival =>
    (headerOf arrival.2).topic arrival.1 = header.topic type
  have follows : Follows shares (trackedAfter config history) := by
    refine follows_trackedAfter history (fun _ _ _ _ _ => rfl) ?_
    intro past event _ aggTopic arrival brings aggObj _ title
    exact (title.trans (topic_of_accepted brings)).symm
  intro entry member arrival part
  have same := follows.merged entry member arrival part
  have type := topicOf_type same
  refine ⟨type, same, fun plain plain' => ?_⟩
  exact Header.eq_but_email plain plain' (type ▸ same)

/-! ## The headers of what is merged -/

/-- A notification that finds its topic open has the header of the notification
that opened it. -/
def FindsOwnHeader (state : State π) (event : Event π) : Prop :=
  ∀ aggTopic arrival, accepted event = some (aggTopic, arrival) → ∀ aggObj,
    topicObj state aggTopic = some aggObj → headerOf arrival.2 = objHeader aggObj

/-- **What is merged is alike.** In a run whose notifications all find topics
open under their own header only, every aggregated notification that is handed
on carries arrivals of its type, state ids, user name and e-mail address. -/
theorem merged_alike_of_own_headers (history : List (Event π))
    (own : ∀ past event, past ++ [event] <+: history →
      FindsOwnHeader (handlerAfter config past) event) :
    let merged := (trackedAfter config history).merged
    (handlerAfter config history).offered.filterMap aggregatedOf =
        merged.map (fun entry => (entry.agg, entry.type)) ∧
      ∀ entry ∈ merged,
        Carries ⟨.aggregated entry.agg, entry.type⟩
          ((aggHeader entry.agg).topic entry.type, entry.arrivals) ∧
        ∀ arrival ∈ entry.arrivals,
          arrival.1 = entry.type ∧ headerOf arrival.2 = aggHeader entry.agg := by
  intro merged
  let alike : ArrivalProperty π := fun type header arrival => arrival.1 = type ∧ headerOf arrival.2 = header
  have follows : Follows alike (trackedAfter config history) := by
    refine follows_trackedAfter history (fun _ _ _ _ _ => ⟨rfl, rfl⟩) ?_
    intro past event within aggTopic arrival brings aggObj known title
    have header := own past event within aggTopic arrival brings aggObj known
    exact ⟨topicOf_type ((topic_of_accepted brings).symm.trans title.symm), header⟩
  refine ⟨?_, ?_⟩
  · rw [← trackedAfter_state]
    exact follows.logged
  · intro entry member
    have types : entry.arrivals.map (fun arrival => (entry.type, arrival.2)) = entry.arrivals := by
      refine (List.map_congr_left ?_).trans (List.map_id _)
      intro arrival part
      rw [← (follows.merged entry member arrival part).1]
      rfl
    have carried := follows.carried entry member
    rw [types] at carried
    exact ⟨carried, follows.merged entry member⟩

/-- Two hosts down, notified to one contact. -/
theorem two_hosts_down_are_alike :
    let config : Config := ⟨true, 10, some "queue", true⟩
    let down (name : String) : Event Unit :=
      .notifyHost ⟨some name, none, some "1", some "0", ⟨some "noc", some "noc@here"⟩, ()⟩
    let merged := (trackedAfter config [down "a", down "b", .tick 1]).merged
    merged.length = 1 ∧ ∀ entry ∈ merged, ∀ arrival ∈ entry.arrivals,
      headerOf arrival.2 = aggHeader entry.agg := by
  intro config down merged
  refine ⟨rfl, ?_⟩
  intro entry member arrival part
  refine ((merged_alike_of_own_headers [down "a", down "b", .tick 1] ?_).2 entry member).2
    arrival part |>.2
  intro past event within aggTopic arrival brings aggObj known
  obtain ⟨rest, whole⟩ := within
  rcases past with _ | ⟨first, _ | ⟨second, _ | ⟨third, past⟩⟩⟩
  · cases whole
    cases brings
    cases known
  · cases whole
    cases brings
    cases known
    rfl
  · cases whole
    cases brings
  · have length := congrArg List.length whole
    simp at length

/-- A contact whose e-mail address changes between two notifications: the second
is merged into one that bears the first address. -/
theorem changed_email_is_merged :
    let config : Config := ⟨true, 10, some "queue", true⟩
    let down (name email : String) : Event Unit :=
      .notifyHost ⟨some name, none, some "1", some "0", ⟨some "noc", some email⟩, ()⟩
    ¬ ∀ entry ∈ (trackedAfter config [down "a" "old@noc", down "b" "new@noc", .tick 1]).merged,
        ∀ arrival ∈ entry.arrivals, headerOf arrival.2 = aggHeader entry.agg := by
  decide

end NetGraphz.HomogeneityProofs
