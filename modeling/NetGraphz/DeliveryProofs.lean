import Mathlib
import NetGraphz.QueueLatency
import NetGraphz.NotificationDelivery

/-! Where every notification is, from the moment it comes in: with the clients,
answered without a word to them, in flight to the database, queued, or collected
under its topic; once, and whatever order things happen in. -/
namespace NetGraphz.DeliveryProofs
open EventHandler RateLimitProofs AggregationProofs QueueLatency NotificationDelivery

variable {π : Type u} {config : Config} {broadcastUser : Option String}

/-! ## The queries -/

theorem icName_injective : Function.Injective icName := by
  intro first second same
  have digits : (toString first).toList = (toString second).toList := by
    simpa [icName] using congrArg String.toList same
  exact Nat.repr_injective (String.toList_inj.mp digits)

theorem lookup_sent_cons (key name : String) (value : Option String)
    (rest : List (String × Option String)) :
    (sent ((key, value) :: rest)).lookup name =
      if name = key then value.or ((sent rest).lookup name) else (sent rest).lookup name := by
  cases value with
  | none => simp [sent]
  | some value =>
    by_cases same : name = key
    · simp [sent, same]
    · simp [sent, same, List.lookup, beq_false_of_ne same]

/-- No value is sent under the number of an earlier name. -/
theorem lookup_sent_earlier (icingaNames : List (Option String)) (earlier : index < start) :
    (sent ((icingaNames.zipIdx start).map fun (value, index) => (icName index, value))).lookup
      (icName index) = none := by
  induction icingaNames generalizing start with
  | nil => rfl
  | cons value rest ih =>
    have apart : icName index ≠ icName start := icName_injective.ne (by omega)
    rw [List.zipIdx_cons, List.map_cons, lookup_sent_cons, if_neg apart]
    exact ih (by omega)

/-- Each name is sent under its own number. -/
theorem lookup_sent_own (icingaNames : List (Option String)) (start index : Nat) :
    (sent ((icingaNames.zipIdx start).map fun (value, index) => (icName index, value))).lookup
      (icName (start + index)) = icingaNames[index]?.join := by
  induction icingaNames generalizing start index with
  | nil => rfl
  | cons value rest ih =>
    rw [List.zipIdx_cons, List.map_cons, lookup_sent_cons]
    cases index with
    | zero => simp [lookup_sent_earlier rest (Nat.lt_succ_self start)]
    | succ index =>
      have apart : icName (start + (index + 1)) ≠ icName start := icName_injective.ne (by omega)
      rw [if_neg apart, List.getElem?_cons_succ, ← ih (start + 1) index]
      congr 2
      omega

/-- `getByIcingaName` finds the nodes of that name. -/
theorem run_getByIcingaName (icingaName : Option String) (graph : List NetAssistNode) :
    (getByIcingaName icingaName).run graph =
      icingaName.map fun name => graph.filter fun node => node.icingaName = some name := by
  cases icingaName with
  | none => rfl
  | some name =>
    have found : (["ic_name"].mapM fun parameter =>
        (sent [("ic_name", some name)]).lookup parameter) = some [name] := rfl
    simp only [getByIcingaName, Query.run, List.cons_ne_nil, if_false, found, Option.map_some,
      Option.some.injEq]
    apply List.filter_congr
    intro node _
    cases node.icingaName <;> simp [eq_comm]

/-- Values read one by one under their numbers, all there or not. -/
theorem mapM_numbered {read : Nat → Option α} (values : List (Option α)) (start : Nat)
    (own : ∀ index, read (start + index) = values[index]?.join) :
    (List.range' start values.length).mapM read = values.mapM id := by
  induction values generalizing start with
  | nil => rfl
  | cons value rest ih =>
    have first : read start = value := own 0
    have later : ∀ index, read (start + 1 + index) = rest[index]?.join := by
      intro index
      have shifted : start + 1 + index = start + (index + 1) := by omega
      rw [shifted]
      exact own (index + 1)
    rw [List.length_cons, List.range'_succ, List.mapM_cons, List.mapM_cons, first,
      ih (start + 1) later]
    rfl

/-- Some is missing, or all are there. -/
theorem mapM_id (values : List (Option α)) :
    (none ∈ values ∧ values.mapM id = none) ∨
      ∃ there, values = there.map some ∧ values.mapM id = some there := by
  induction values with
  | nil => exact .inr ⟨[], rfl, rfl⟩
  | cons value rest ih =>
    cases value with
    | none => exact .inl ⟨List.mem_cons_self, rfl⟩
    | some value =>
      rcases ih with ⟨missing, failed⟩ | ⟨there, rfl, found⟩
      · refine .inl ⟨List.mem_cons_of_mem _ missing, ?_⟩
        rw [List.mapM_cons, failed]
        rfl
      · refine .inr ⟨value :: there, rfl, ?_⟩
        rw [List.mapM_cons, found]
        rfl

/-- `getByIcingaNames` finds the nodes of any of the names, when it is given some
names and none of them is undefined. -/
theorem run_getByIcingaNames (icingaNames : List (Option String)) (graph : List NetAssistNode) :
    (getByIcingaNames icingaNames).run graph =
      if icingaNames = [] ∨ none ∈ icingaNames then none
      else some (graph.filter fun node => node.icingaName ∈ icingaNames) := by
  have values : (getByIcingaNames icingaNames).disjuncts.mapM (fun parameter =>
      (getByIcingaNames icingaNames).parameters.lookup parameter) = icingaNames.mapM id := by
    have numbered : (List.range' 0 icingaNames.length).mapM (fun index =>
        (getByIcingaNames icingaNames).parameters.lookup (icName index)) = icingaNames.mapM id :=
      mapM_numbered icingaNames 0 (lookup_sent_own icingaNames 0)
    rw [← numbered, getByIcingaNames, List.range_eq_range', List.mapM_map]
    rfl
  unfold Query.run
  rw [values]
  by_cases empty : icingaNames = []
  · rw [if_pos (by simp [getByIcingaNames, empty]), if_pos (.inl empty)]
  · rw [if_neg (by simpa [getByIcingaNames] using empty)]
    rcases mapM_id icingaNames with ⟨missing, failed⟩ | ⟨there, rfl, found⟩
    · rw [failed, if_pos (.inr missing)]
      rfl
    · have all : none ∉ there.map some := by simp
      rw [found, if_neg (by simp [empty, all])]
      refine congrArg some (List.filter_congr ?_)
      intro node _
      cases node.icingaName <;> simp

/-! ## What the clients are told -/

/-- An answered notification, and the arrivals that it carries under their topic. -/
abbrev Handled (π : Type u) := (Notification π × Reply) × (String × List (Arrival π))

/-- What a message says of the arrivals that an answered notification carries. On
the graph that the database answered, the node of a simple one is the first of
its name, and the nodes of an aggregated one are those with a name of the batch. -/
inductive Tells (broadcastUser : Option String) :
    Emission π → Handled π → Prop
  | simple (body : Body π) (type : NotificationType) (aggTopic : String)
      (graph : List NetAssistNode) (node : NetAssistNode)
      (named : node.icingaName = hostNameOf type body) (known : node.icingaName ≠ none)
      (first : graph.find? (fun other => other.icingaName = node.icingaName) = some node)
      (everyone : body.user.name = broadcastUser) :
      Tells broadcastUser (.simple type node body)
        ((⟨.simple body, type⟩, .graph graph), (aggTopic, [(type, body)]))
  | aggregated (agg : AggBody) (type : NotificationType) (events : List (Body π))
      (graph : List NetAssistNode) (several : 2 ≤ events.length)
      (hosts : agg.hostNames = events.map (hostNameOf type))
      (services : agg.serviceNames =
        if type = .service then some (events.map Body.name) else none)
      (known : none ∉ agg.hostNames)
      (everyone : agg.aggUser = broadcastUser) :
      Tells broadcastUser
        (.aggregated type agg
          ((graph.filter fun node => node.icingaName ∈ agg.hostNames).map NetAssistNode.id))
        ((⟨.aggregated agg, type⟩, .graph graph),
          (topicOf type agg.aggStateId agg.aggLastStateId agg.aggUser,
            events.map fun body => (type, body)))

/-- Who a notification is for. -/
def userOf : Message π → Option String
  | .simple body => body.user.name
  | .aggregated body => body.aggUser

/-- The host names a notification asks for. -/
def namesOf (notification : Notification π) : List (Option String) :=
  match notification.body with
  | .simple body => [askedName notification.type body]
  | .aggregated body => body.hostNames

/-- Why an answered notification was not told: the query failed, or lacked a
name; there is no such node, for a simple one; or it is for one user only. -/
def Silent (broadcastUser : Option String) (answer : Notification π × Reply) : Prop :=
  answer.2 = .failure ∨ none ∈ namesOf answer.1 ∨
    (∃ body graph, answer.1.body = .simple body ∧ answer.2 = .graph graph ∧
      ∀ node ∈ graph, node.icingaName ≠ askedName answer.1.type body) ∨
    userOf answer.1.body ≠ broadcastUser

theorem askedName_eq (type : NotificationType) (body : Body π) :
    askedName type body = hostNameOf type body := by
  cases type <;> rfl

/-- An answered notification was told, or there is a reason why not. -/
theorem announce_cases (broadcastUser : Option String) {notification : Notification π}
    {batch : String × List (Arrival π)} (carries : Carries notification batch) (reply : Reply) :
    (∃ emission, announce broadcastUser notification reply = some emission ∧
        Tells broadcastUser emission ((notification, reply), batch)) ∨
      announce broadcastUser notification reply = none ∧
        Silent broadcastUser (notification, reply) := by
  cases reply with
  | failure =>
    refine .inr ⟨?_, .inl rfl⟩
    cases carries <;> rfl
  | graph graph =>
    cases carries with
    | simple body type aggTopic =>
      by_cases everyone : body.user.name = broadcastUser
      · cases asked : askedName type body with
        | none =>
          refine .inr ⟨?_, .inr (.inl ?_)⟩
          · simp [announce, Reply.rows, queryOf, run_getByIcingaName, asked,
              handleDatabaseNodeResponse]
          · simp [namesOf, asked]
        | some name =>
          have rows : (announce broadcastUser ⟨.simple body, type⟩ (.graph graph)) =
              handleDatabaseNodeResponse broadcastUser body type
                (some (graph.find? fun node => node.icingaName = some name)) := by
            simp [announce, Reply.rows, queryOf, run_getByIcingaName, asked,
              List.head?_filter]
          rw [rows]
          cases first : graph.find? fun node => node.icingaName = some name with
          | none =>
            refine .inr ⟨rfl, .inr (.inr (.inl ⟨body, graph, rfl, rfl, ?_⟩))⟩
            intro node member
            have other := List.find?_eq_none.mp first node member
            simpa [asked] using other
          | some node =>
            have named : node.icingaName = some name := by
              simpa using List.find?_some first
            refine .inl ⟨.simple type node body, by simp [handleDatabaseNodeResponse, everyone], ?_⟩
            refine .simple body type aggTopic graph node ?_ (by simp [named]) ?_ everyone
            · rw [named, ← asked, askedName_eq]
            · rw [named]
              exact first
      · refine .inr ⟨?_, .inr (.inr (.inr everyone))⟩
        simp only [announce, handleDatabaseNodeResponse]
        split <;> simp [everyone]
    | aggregated agg type events several hosts services =>
      by_cases everyone : agg.aggUser = broadcastUser
      · by_cases missing : none ∈ agg.hostNames
        · refine .inr ⟨?_, .inr (.inl missing)⟩
          simp [announce, Reply.rows, queryOf, run_getByIcingaNames, missing,
            handleDatabaseAggNodesResponse]
        · have some : agg.hostNames ≠ [] := by
            rw [hosts]
            rintro empty
            rw [List.map_eq_nil_iff.mp empty] at several
            simp at several
          refine .inl ⟨_, ?_, .aggregated agg type events graph several hosts services missing
            everyone⟩
          simp [announce, Reply.rows, queryOf, run_getByIcingaNames, missing, some,
            handleDatabaseAggNodesResponse, everyone]
      · refine .inr ⟨?_, .inr (.inr (.inr everyone))⟩
        simp only [announce, handleDatabaseAggNodesResponse]
        split <;> simp [everyone]

/-! ## Runs -/

theorem serviceAfter_concat (past : List (ServiceEvent π)) (event : ServiceEvent π) :
    serviceAfter config broadcastUser (past ++ [event]) =
      serve config broadcastUser (serviceAfter config broadcastUser past) event :=
  after_concat _ _ _ _

/-- The handler does not notice the database. -/
theorem serviceAfter_handler (history : List (ServiceEvent π)) :
    (serviceAfter config broadcastUser history).handler =
      handlerAfter config (history.filterMap handlerEvent) := by
  induction history using List.reverseRecOn with
  | nil => rfl
  | append_singleton past event ih =>
    rw [serviceAfter_concat, List.filterMap_append]
    cases event with
    | handler event =>
      rw [handlerAfter]
      simp only [List.filterMap_cons, handlerEvent, List.filterMap_nil]
      rw [after_concat, ← handlerAfter, ← ih]
      rfl
    | answer query reply =>
      simp only [List.filterMap_cons, handlerEvent, List.filterMap_nil, List.append_nil]
      exact ih

/-- What was emitted is what the callbacks of the answered queries announced. -/
theorem serviceAfter_emitted (history : List (ServiceEvent π)) :
    (serviceAfter config broadcastUser history).emitted =
      (serviceAfter config broadcastUser history).queries.answered.filterMap
        fun answer => announce broadcastUser answer.1 answer.2 := by
  induction history using List.reverseRecOn with
  | nil => rfl
  | append_singleton past event ih =>
    rw [serviceAfter_concat]
    cases event with
    | handler event => exact ih
    | answer query reply =>
      simp only [serve, InFlight.answer]
      cases flying : (serviceAfter config broadcastUser past).queries.flying[query]? with
      | none => simpa using ih
      | some notification =>
        rw [ih, List.filterMap_append]
        cases told : announce broadcastUser notification reply <;> simp [told]

section
variable (enabled : config.enabled = true) (queueing : config.overrate ≠ some "drop")
variable (positive : 1 ≤ config.rate)
include enabled queueing positive

/-- Every processed notification is asked for once. -/
theorem serviceAfter_asked (history : List (ServiceEvent π)) :
    (serviceAfter config broadcastUser history).queries.asked.Perm
      (serviceAfter config broadcastUser history).handler.processed := by
  induction history using List.reverseRecOn with
  | nil =>
    have none : (init config : State π).processed = [] := by
      unfold init
      split <;> rfl
    exact none ▸ List.Perm.refl _
  | append_singleton past event ih =>
    rw [serviceAfter_concat]
    cases event with
    | handler event =>
      have paced : Paced config (serviceAfter config broadcastUser past).handler := by
        rw [serviceAfter_handler]
        exact paced_handlerAfter enabled queueing positive _
      obtain ⟨more, grown⟩ := (advances_step paced event).processed
      simp only [serve, InFlight.asked_ask, ← grown, List.drop_left]
      exact ih.append_right more
    | answer query reply => exact (InFlight.asked_answer _ query reply).trans ih

end

/-- The answered notifications fall into those that were told and those that
were not, for a reason. -/
theorem answered_split (broadcastUser : Option String)
    {answered : List (Notification π × Reply)} {batches : List (String × List (Arrival π))}
    (carried : List.Forall₂ (fun answer batch => Carries answer.1 batch) answered batches) :
    ∃ told silent : List (Handled π), List.Forall₂ (Tells broadcastUser)
        (answered.filterMap fun answer => announce broadcastUser answer.1 answer.2) told ∧
      (∀ entry ∈ silent, Carries entry.1.1 entry.2 ∧ Silent broadcastUser entry.1) ∧
      (told.map Prod.fst).Sublist answered ∧
      answered.Perm (told.map Prod.fst ++ silent.map Prod.fst) ∧
      batches.Perm (told.map Prod.snd ++ silent.map Prod.snd) := by
  induction carried with
  | nil => exact ⟨[], [], .nil, by simp, List.Sublist.refl _, List.Perm.refl _, List.Perm.refl _⟩
  | @cons answer batch rest others carries _ ih =>
    obtain ⟨told, silent, tells, reasons, sub, split, dealt⟩ := ih
    rcases announce_cases broadcastUser carries answer.2 with
      ⟨emission, announced, message⟩ | ⟨nothing, reason⟩
    · refine ⟨(answer, batch) :: told, silent, ?_, reasons, sub.cons_cons answer,
        split.cons answer, dealt.cons batch⟩
      rw [List.filterMap_cons, announced]
      exact .cons message tells
    · refine ⟨told, (answer, batch) :: silent, ?_,
        List.forall_mem_cons.mpr ⟨⟨carries, reason⟩, reasons⟩, sub.cons answer, ?_, ?_⟩
      · rw [List.filterMap_cons, nothing]
        exact tells
      · exact (split.cons answer).trans List.perm_middle.symm
      · exact (dealt.cons batch).trans List.perm_middle.symm

/-- What batches carry under a topic does not depend on how they are dealt. -/
theorem carried_perm {batches others : List (String × List (Arrival π))}
    (reordered : batches.Perm others) (aggTopic : String) :
    (Batches.carried aggTopic batches).Perm (Batches.carried aggTopic others) :=
  (reordered.filter _).flatMap_right _

/-- What comes in during a history. -/
def arrived (history : List (ServiceEvent π)) : List (String × Arrival π) :=
  (history.filterMap handlerEvent).filterMap accepted

/-- What has arrived under each topic is, each arrival once: told to all clients
by one of the messages emitted, as its query was answered; answered by the
database and not told, for a reason; in flight to the database; queued; or
collected under the topic. Every answered query is told or has such a reason. -/
def Accounted (broadcastUser : Option String) (service : Service π)
    (arrived : List (String × Arrival π)) : Prop :=
  ∃ (told silent : List (Handled π)) (flying queued : List (String × List (Arrival π))),
    List.Forall₂ (Tells broadcastUser) service.emitted told ∧
    (∀ entry ∈ silent, Carries entry.1.1 entry.2 ∧ Silent broadcastUser entry.1) ∧
    (told.map Prod.fst).Sublist service.queries.answered ∧
    service.queries.answered.Perm (told.map Prod.fst ++ silent.map Prod.fst) ∧
    List.Forall₂ Carries service.queries.flying flying ∧
    List.Forall₂ Carries service.handler.queue queued ∧
    ∀ aggTopic, (Batches.under aggTopic arrived).Perm
      (Batches.carried aggTopic (told.map Prod.snd) ++
        Batches.carried aggTopic (silent.map Prod.snd) ++
        Batches.carried aggTopic flying ++ Batches.carried aggTopic queued ++
        pending service.handler aggTopic)

/-- **Every notification is accounted for**, after any history of the service,
whatever order notifications, timers and the database's answers came in. -/
theorem every_arrival_accounted_for (enabled : config.enabled = true)
    (queueing : config.overrate ≠ some "drop") (positive : 1 ≤ config.rate)
    (history : List (ServiceEvent π)) :
    Accounted broadcastUser (serviceAfter config broadcastUser history) (arrived history) := by
  let service := serviceAfter config broadcastUser history
  have asked : service.queries.asked.Perm service.handler.processed :=
    serviceAfter_asked enabled queueing positive history
  have same : service.handler = handlerAfter config (history.filterMap handlerEvent) :=
    serviceAfter_handler history
  have paced : Paced config service.handler := by
    rw [same]
    exact paced_handlerAfter enabled queueing positive _
  obtain ⟨batches, collected, all⟩ := collected_handlerAfter enabled queueing positive
    (history.filterMap handlerEvent)
  rw [← same] at collected
  -- the limiter passes on in order, the database answers in any
  have placed : (service.queries.asked ++ service.handler.queue).Perm service.handler.offered := by
    rw [← paced.inOrder]
    exact asked.append_right _
  obtain ⟨passed, carries, reordered⟩ := forall₂_reordered collected.carried placed
  obtain ⟨gone, queued, carriesGone, carriesQueued, rfl⟩ := forall₂_of_append carries
  obtain ⟨answered, flying, carriesAnswered, carriesFlying, rfl⟩ := forall₂_of_append carriesGone
  obtain ⟨told, silent, tells, reasons, sub, split, dealt⟩ :=
    answered_split broadcastUser (List.forall₂_map_left_iff.mp carriesAnswered)
  refine ⟨told, silent, flying, queued, ?_, reasons, sub, split, carriesFlying, carriesQueued, ?_⟩
  · rw [serviceAfter_emitted]
    exact tells
  · intro aggTopic
    have conserved := collected.conserved aggTopic
    rw [all, ← collected.waiting] at conserved
    rw [arrived, conserved]
    refine List.Perm.append_right _ ?_
    refine (carried_perm reordered.symm aggTopic).trans ?_
    rw [Batches.carried_append, Batches.carried_append,
      ← Batches.carried_append aggTopic (told.map Prod.snd)]
    exact ((carried_perm dealt aggTopic).append_right _).append_right _

/-- At a rate of three two hosts go down at once and a third is queued; the
database answers for the second of them and not yet for the first. -/
theorem three_down_accounted_for :
    let config : Config := ⟨true, 3, some "queue", false⟩
    let down (name : String) : ServiceEvent Unit :=
      .handler (.notifyHost ⟨some name, none, some "1", some "0", ⟨some "all", none⟩, ()⟩)
    let history := [down "a", down "b", down "c",
      .answer 1 (.graph [⟨7, some "switch", some "b"⟩])]
    let service := serviceAfter config (some "all") history
    service.emitted.length = 1 ∧ service.queries.flying.length = 1 ∧
      service.handler.queue.length = 1 ∧ Accounted (some "all") service (arrived history) := by
  intro config down history service
  exact ⟨by decide, by decide, by decide,
    every_arrival_accounted_for rfl (by decide) (by decide) history⟩

end NetGraphz.DeliveryProofs
