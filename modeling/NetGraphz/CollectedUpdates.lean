import NetGraphz.Communication
import NetGraphz.DeliveryProofs
import NetGraphz.HomogeneityProofs

/-! Collecting notifications changes what is shown of them, and not which nodes
the clients fetch anew: with one node for each Icinga name these are the same,
told together or one by one. -/
namespace NetGraphz.CollectedUpdates
open EventHandler RateLimitProofs AggregationProofs HomogeneityProofs NotificationDelivery
open DeliveryProofs Communication

variable {π : Type u} {config : Config} {broadcastUser : Option String}

/-! ## What is announced -/

theorem announce_simple (body : Body π) (type : NotificationType) (graph : List NetAssistNode) :
    announce broadcastUser ⟨.simple body, type⟩ (.graph graph) =
      if body.user.name = broadcastUser then
        ((hostNameOf type body).bind fun name =>
          graph.find? fun node => node.icingaName = some name).map (.simple type · body)
      else none := by
  have rows : Reply.rows (.graph graph) (queryOf ⟨.simple body, type⟩) =
      (hostNameOf type body).map fun name =>
        graph.filter fun node => node.icingaName = some name := by
    simp [Reply.rows, queryOf, run_getByIcingaName, askedName_eq]
  simp only [announce, rows]
  cases hostNameOf type body with
  | none => simp [handleDatabaseNodeResponse]
  | some name =>
    simp only [Option.map_some, Option.bind_some, List.head?_filter]
    cases graph.find? fun node => node.icingaName = some name <;>
      simp [handleDatabaseNodeResponse]

theorem announce_aggregated (agg : AggBody) (type : NotificationType) (graph : List NetAssistNode)
    (some : agg.hostNames ≠ []) (known : none ∉ agg.hostNames) :
    announce broadcastUser (⟨.aggregated agg, type⟩ : Notification π) (.graph graph) =
      if agg.aggUser = broadcastUser then
        Option.some (.aggregated type agg
          ((graph.filter fun node => node.icingaName ∈ agg.hostNames).map NetAssistNode.id))
      else none := by
  simp [announce, Reply.rows, queryOf, run_getByIcingaNames, known, some,
    handleDatabaseAggNodesResponse]

/-! ## What is fetched anew -/

/-- Whether the view may follow a state. -/
def problemOf : NotificationType → Option String → Bool
  | .host => fun stateId => hostProblem (getNodeStateFromIcinga stateId)
  | .service => fun stateId => serviceProblem (serviceStateOf stateId)

/-- The updates that messages bring, in order. -/
def updatesOf (output : π → Option String) (messages : List (Emission π)) : List (Int × Bool) :=
  messages.flatMap fun message => (handleIcingaNotification output message).updates

variable {output : π → Option String}

@[simp] theorem updatesOf_simple (type : NotificationType) (node : NetAssistNode) (body : Body π) :
    (handleIcingaNotification output (.simple type node body)).updates =
      [(node.id, problemOf type body.stateId)] := by
  cases type <;> rfl

@[simp] theorem updatesOf_aggregated (type : NotificationType) (agg : AggBody)
    (nodesId : List Int) :
    (handleIcingaNotification output (.aggregated type agg nodesId : Emission π)).updates =
      nodesId.map fun id => (id, problemOf type agg.aggStateId) := by
  cases type <;> rfl

/-- The notifications of an object, told one by one. -/
def apart (broadcastUser : Option String) (graph : List NetAssistNode) (aggObj : AggEventObj π) :
    List (Emission π) :=
  aggObj.events.filterMap fun body =>
    announce broadcastUser ⟨.simple body, aggObj.type⟩ (.graph graph)

/-- The same, told together. -/
def together (broadcastUser : Option String) (graph : List NetAssistNode)
    (aggObj : AggEventObj π) : List (Emission π) :=
  (announce broadcastUser ⟨.aggregated (aggBody aggObj), aggObj.type⟩ (.graph graph)).toList

/-- The host names of an object's notifications. -/
def namesIn (aggObj : AggEventObj π) : List (Option String) :=
  aggObj.events.map (hostNameOf aggObj.type)

theorem aggBody_eq (aggObj : AggEventObj π) :
    (aggBody aggObj).hostNames = namesIn aggObj ∧ (aggBody aggObj).aggUser = aggObj.aggUser ∧
      (aggBody aggObj).aggStateId = aggObj.aggStateId := by
  obtain ⟨events, aggStateId, aggLastStateId, aggUser, aggUserEmail, type, timer⟩ := aggObj
  cases type <;> exact ⟨rfl, rfl, rfl⟩

/-- The notifications of the object are alike in what matters here, and each
names its host. -/
structure Alike (aggObj : AggEventObj π) : Prop where
  stateId : ∀ body ∈ aggObj.events, body.stateId = aggObj.aggStateId
  user : ∀ body ∈ aggObj.events, body.user.name = aggObj.aggUser
  named : ∀ body ∈ aggObj.events, hostNameOf aggObj.type body ≠ none

section
variable {aggObj : AggEventObj π} (alike : Alike aggObj) {graph : List NetAssistNode}
include alike

theorem mem_updates_apart (update : Int × Bool) :
    update ∈ updatesOf output (apart broadcastUser graph aggObj) ↔
      aggObj.aggUser = broadcastUser ∧ ∃ name node, some name ∈ namesIn aggObj ∧
        graph.find? (fun other => other.icingaName = some name) = some node ∧
        update = (node.id, problemOf aggObj.type aggObj.aggStateId) := by
  simp only [updatesOf, apart, List.mem_flatMap, List.mem_filterMap, announce_simple]
  constructor
  · rintro ⟨message, ⟨body, member, announced⟩, part⟩
    split at announced
    · rename_i everyone
      obtain ⟨node, found, rfl⟩ := Option.map_eq_some_iff.mp announced
      obtain ⟨name, named, first⟩ := Option.bind_eq_some_iff.mp found
      rw [updatesOf_simple, List.mem_singleton, alike.stateId body member] at part
      refine ⟨(alike.user body member).symm.trans everyone, name, node, ?_, first, part⟩
      exact List.mem_map.mpr ⟨body, member, named⟩
    · cases announced
  · rintro ⟨everyone, name, node, member, first, rfl⟩
    obtain ⟨body, held, named⟩ := List.mem_map.mp member
    refine ⟨.simple aggObj.type node body, ⟨body, held, ?_⟩, ?_⟩
    · rw [if_pos ((alike.user body held).trans everyone), named, Option.bind_some, first]
      rfl
    · rw [updatesOf_simple, alike.stateId body held]
      exact List.mem_singleton.mpr rfl

variable (several : 2 ≤ aggObj.events.length)
include several

/-- Together, it is every node that has one of the names. -/
theorem updates_together : updatesOf output (together broadcastUser graph aggObj) =
    if aggObj.aggUser = broadcastUser then
      (graph.filter fun node => node.icingaName ∈ namesIn aggObj).map fun node =>
        (node.id, problemOf aggObj.type aggObj.aggStateId)
    else [] := by
  obtain ⟨hosts, user, stateId⟩ := aggBody_eq aggObj
  have some : (aggBody aggObj).hostNames ≠ [] := by
    rw [hosts, namesIn, Ne, List.map_eq_nil_iff]
    rintro empty
    rw [empty] at several
    simp at several
  have known : none ∉ (aggBody aggObj).hostNames := by
    rw [hosts]
    intro missing
    obtain ⟨body, held, named⟩ := List.mem_map.mp missing
    exact alike.named body held named
  rw [together, announce_aggregated _ _ _ some known, user]
  split
  · simp [updatesOf, hosts, stateId]
  · rfl

/-- Told together, a client fetches all it would fetch being told one by one,
each node once; and no more, exactly when no two nodes share one of the names. -/
theorem updates_agree (distinct : (graph.map NetAssistNode.id).Nodup) :
    (∀ update ∈ updatesOf output (apart broadcastUser graph aggObj),
      update ∈ updatesOf output (together broadcastUser graph aggObj)) ∧
    (updatesOf output (together broadcastUser graph aggObj)).Nodup ∧
    ((∀ update ∈ updatesOf output (together broadcastUser graph aggObj),
        update ∈ updatesOf output (apart broadcastUser graph aggObj)) ↔
      (aggObj.aggUser = broadcastUser → ∀ node ∈ graph, ∀ other ∈ graph,
        node.icingaName = other.icingaName → node.icingaName ∈ namesIn aggObj → node = other)) := by
  have one : ∀ {node other}, node ∈ graph → other ∈ graph → node.id = other.id → node = other :=
    fun held held' same => List.inj_on_of_nodup_map distinct held held' same
  rw [updates_together alike several]
  refine ⟨?_, ?_, ?_⟩
  · intro update part
    obtain ⟨everyone, name, node, named, first, rfl⟩ := (mem_updates_apart alike update).mp part
    have own : node.icingaName = some name := by simpa using List.find?_some first
    rw [if_pos everyone]
    refine List.mem_map.mpr ⟨node, List.mem_filter.mpr ⟨List.mem_of_find?_eq_some first, ?_⟩, rfl⟩
    simpa [own] using named
  · split
    · have ids : (((graph.filter fun node => node.icingaName ∈ namesIn aggObj).map fun node =>
          (node.id, problemOf aggObj.type aggObj.aggStateId)).map Prod.fst).Nodup := by
        rw [List.map_map]
        exact (List.filter_sublist.map _).nodup distinct
      exact ids.of_map
    · exact List.nodup_nil
  · constructor
    · intro within everyone node held other held' same named
      rw [if_pos everyone] at within
      -- each of the two is the first of their common name
      have first : ∀ {each}, each ∈ graph → each.icingaName = node.icingaName →
          graph.find? (fun other => other.icingaName = node.icingaName) = some each := by
        intro each there alike'
        have chosen := within (each.id, problemOf aggObj.type aggObj.aggStateId)
          (List.mem_map.mpr ⟨each, List.mem_filter.mpr ⟨there, by simpa [alike'] using named⟩, rfl⟩)
        obtain ⟨-, name, found, -, first, pair⟩ := (mem_updates_apart alike _).mp chosen
        have itself := one there (List.mem_of_find?_eq_some first) (Prod.mk.inj pair).1
        subst itself
        have own : each.icingaName = some name := by simpa using List.find?_some first
        rwa [← alike', own]
      have both := (first held rfl).symm.trans (first held' same.symm)
      exact Option.some.inj both
    · intro unique update part
      split at part
      · rename_i everyone
        obtain ⟨node, kept, rfl⟩ := List.mem_map.mp part
        obtain ⟨held, named⟩ := List.mem_filter.mp kept
        have named : node.icingaName ∈ namesIn aggObj := by simpa using named
        refine (mem_updates_apart alike _).mpr ⟨everyone, ?_⟩
        cases own : node.icingaName with
        | none =>
          obtain ⟨body, there, missing⟩ := List.mem_map.mp (own ▸ named)
          exact absurd missing (alike.named body there)
        | some name =>
          cases first : graph.find? fun other => other.icingaName = some name with
          | none => exact absurd own (by simpa using List.find?_eq_none.mp first node held)
          | some other =>
            have shared : other.icingaName = some name := by simpa using List.find?_some first
            have same := unique everyone node held other (List.mem_of_find?_eq_some first)
              (own.trans shared.symm) named
            exact ⟨name, other, own ▸ named, first, by rw [same]⟩
      · cases part

end

/-! ## What is collected is alike -/

/-- An object's header is that of some notification that came in. -/
theorem objHeader_arrived (P : Header → Prop) (history : List (Event π))
    (each : ∀ event ∈ history, ∀ aggTopic arrival, accepted event = some (aggTopic, arrival) →
      P (headerOf arrival.2)) :
    ∀ obj aggObj, (handlerAfter config history).objects.read obj = some aggObj →
      P (objHeader aggObj) := by
  induction history using List.reverseRecOn with
  | nil =>
    intro obj aggObj read
    have empty : (handlerAfter config ([] : List (Event π))).objects = {} := by
      rw [handlerAfter, after_nil, init]
      split <;> rfl
    rw [empty] at read
    cases read
  | append_singleton past event ih =>
    have before := ih fun event held => each event (List.mem_append_left _ held)
    have own := each event (List.mem_append_right _ (List.mem_singleton.mpr rfl))
    rw [handlerAfter, after_concat, ← handlerAfter]
    have arrival : ∀ {body type}, P (headerOf body) → ∀ {obj aggObj},
        (handleNotification config (handlerAfter config past) body type).objects.read obj =
          some aggObj → P (objHeader aggObj) := by
      intro body type header obj aggObj read
      rcases handleNotification_cases config (handlerAfter config past) body type with
        ⟨-, -, same, -⟩ | ⟨-, joined, -, -, grown, -⟩ | ⟨-, -, opened, title, -, -, -, grown, -⟩
      · exact before _ _ (same ▸ read)
      · rw [grown, Heap.read_modify] at read
        split at read
        · obtain ⟨held, known, rfl⟩ := Option.map_eq_some_iff.mp read
          exact before _ held known
        · exact before _ _ read
      · rw [grown, Heap.read_alloc] at read
        split at read
        · cases read
          exact title ▸ header
        · exact before _ _ read
    intro obj aggObj read
    cases event with
    | notifyHost body => exact arrival (own _ _ rfl) read
    | notifyService body => exact arrival (own _ _ rfl) read
    | tick handle =>
      simp only [step] at read
      split at read
      · exact before _ _ read
      · rename_i callback live
        cases callback with
        | ratelimitTimer => exact before _ _ read
        | ratelimitThrottleTimer =>
          exact before _ _ ((throttleCallback_frame config _).2.1 ▸ read)
        | aggEvent aggTopic ticked =>
          simp only [fire] at read
          cases known : (handlerAfter config past).objects.read ticked with
          | none =>
            simp only [aggEventProcess, known] at read
            exact before _ _ read
          | some held =>
            have emptied : ∀ {obj aggObj}, ((handlerAfter config past).objects.write ticked
                { held with events := [] }).read obj = some aggObj → P (objHeader aggObj) := by
              intro obj aggObj read
              rw [Heap.read_write known] at read
              split at read
              · cases read
                exact before _ held known
              · exact before _ _ read
            rcases aggEventProcess_cases config aggTopic known with
              ⟨-, -, same, -⟩ | ⟨_, -, -, same, -⟩ | ⟨-, -, same, -⟩
            · exact before _ _ (same ▸ read)
            · exact emptied (same ▸ read)
            · exact emptied (same ▸ read)

/-- What an object holds came in under the topic that the object bears. -/
theorem events_accepted (history : List (Event π)) {body : Body π}
    (read : (handlerAfter config history).objects.read obj = some aggObj)
    (member : body ∈ aggObj.events) :
    ∃ event ∈ history, accepted event =
      some ((objHeader aggObj).topic aggObj.type, (aggObj.type, body)) := by
  let cameIn : ArrivalProperty π := fun type header arrival =>
    ∃ event ∈ history, accepted event = some (header.topic type, arrival)
  have follows : Follows cameIn (trackedAfter config history) := by
    refine follows_trackedAfter history ?_ ?_
    · intro event held aggTopic arrival brings
      exact ⟨event, held, topic_of_accepted brings ▸ brings⟩
    · intro past event within aggTopic arrival brings aggObj _ title
      have held : event ∈ history :=
        within.subset (List.mem_append_right past (List.mem_singleton.mpr rfl))
      exact ⟨event, held, title ▸ brings⟩
  rw [← trackedAfter_state] at read
  obtain ⟨arrival, part, rfl⟩ := List.mem_map.mp (follows.held.bodies read ▸ member)
  obtain ⟨event, held, brings⟩ := follows.held.all read arrival part
  have type : aggObj.type = arrival.1 := topicOf_type (topic_of_accepted brings)
  exact ⟨event, held, by rw [brings, type]⟩

/-- When all notifications have plain headers and name their hosts, those a topic
holds are alike. -/
theorem alike_of_plain (history : List (Event π))
    (plain : ∀ event ∈ history, ∀ aggTopic arrival, accepted event = some (aggTopic, arrival) →
      (headerOf arrival.2).Plain ∧ hostNameOf arrival.1 arrival.2 ≠ none)
    (held : topicObj (handlerAfter config history) aggTopic = some aggObj) : Alike aggObj := by
  obtain ⟨obj, -, read⟩ := Option.bind_eq_some_iff.mp held
  have ownPlain : (objHeader aggObj).Plain :=
    objHeader_arrived Header.Plain history (fun event there aggTopic arrival brings =>
      (plain event there aggTopic arrival brings).1) obj aggObj read
  have each : ∀ body ∈ aggObj.events,
      { headerOf body with userEmail := aggObj.aggUserEmail } = objHeader aggObj ∧
        hostNameOf aggObj.type body ≠ none := by
    intro body member
    obtain ⟨event, there, brings⟩ := events_accepted history read member
    obtain ⟨bodyPlain, named⟩ := plain event there _ _ brings
    exact ⟨Header.eq_but_email bodyPlain ownPlain (topic_of_accepted brings).symm, named⟩
  refine ⟨?_, ?_, fun body member => (each body member).2⟩
  · intro body member
    exact congrArg Header.stateId (each body member).1
  · intro body member
    exact congrArg Header.userName (each body member).1

/-- **Told together or one by one.** Take any history of notifications with plain
headers and named hosts, a topic that collected several, and any graph. A client
that is told of them together fetches every node that it would fetch being told
one by one, to be followed alike, and each node once; and it fetches no other
node exactly when, if they are for everyone, no two nodes share one of their
names. -/
theorem collected_updates_agree (history : List (Event π))
    (plain : ∀ event ∈ history, ∀ aggTopic arrival, accepted event = some (aggTopic, arrival) →
      (headerOf arrival.2).Plain ∧ hostNameOf arrival.1 arrival.2 ≠ none)
    (held : topicObj (handlerAfter config history) aggTopic = some aggObj)
    (several : 2 ≤ aggObj.events.length) (graph : List NetAssistNode)
    (distinct : (graph.map NetAssistNode.id).Nodup) :
    (∀ update ∈ updatesOf output (apart broadcastUser graph aggObj),
      update ∈ updatesOf output (together broadcastUser graph aggObj)) ∧
    (updatesOf output (together broadcastUser graph aggObj)).Nodup ∧
    ((∀ update ∈ updatesOf output (together broadcastUser graph aggObj),
        update ∈ updatesOf output (apart broadcastUser graph aggObj)) ↔
      (aggObj.aggUser = broadcastUser → ∀ node ∈ graph, ∀ other ∈ graph,
        node.icingaName = other.icingaName → node.icingaName ∈ namesIn aggObj → node = other)) :=
  updates_agree (alike_of_plain history plain held) several distinct

/-- Two hosts down, collected for everyone: their nodes and no others are fetched
anew, told together as told one by one. -/
theorem two_hosts_fetched_alike :
    let config : Config := ⟨true, 10, some "queue", true⟩
    let down (name : String) : Event Unit :=
      .notifyHost ⟨some name, none, some "1", some "0", ⟨some "all", none⟩, ()⟩
    let graph : List NetAssistNode := [⟨3, some "x", some "a"⟩, ⟨5, none, none⟩, ⟨4, none, some "b"⟩]
    ∃ aggObj, topicObj (handlerAfter config [down "a", down "b"]) "host/1/0/all" = some aggObj ∧
      updatesOf (fun _ => none) (together (some "all") graph aggObj) = [(3, true), (4, true)] ∧
      ∀ update ∈ updatesOf (fun _ => none) (together (some "all") graph aggObj),
        update ∈ updatesOf (fun _ => none) (apart (some "all") graph aggObj) := by
  intro config down graph
  refine ⟨_, rfl, by decide, ?_⟩
  have plain : ∀ event ∈ [down "a", down "b"], ∀ aggTopic arrival,
      accepted event = some (aggTopic, arrival) →
      (headerOf arrival.2).Plain ∧ hostNameOf arrival.1 arrival.2 ≠ none := by
    intro event held aggTopic arrival brings
    rcases List.mem_pair.mp held with rfl | rfl <;> cases brings <;>
      exact ⟨⟨⟨"1", rfl, by decide⟩, ⟨"0", rfl, by decide⟩, ⟨"all", rfl⟩⟩, by decide⟩
  have held : topicObj (handlerAfter config [down "a", down "b"]) "host/1/0/all" = some _ := rfl
  refine (collected_updates_agree [down "a", down "b"] plain held
    (by decide) graph (by decide)).2.2.mpr ?_
  intro _ node held other held' same _
  revert node other
  decide

end NetGraphz.CollectedUpdates
