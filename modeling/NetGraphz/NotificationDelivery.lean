import NetGraphz.Base.InFlight
import NetGraphz.EventHandler

/-! What happens to a notification once it is processed: the graph database is
asked for the nodes it is about, and when the answer comes, at any later time,
the connected clients are told. -/
namespace NetGraphz.NotificationDelivery
open EventHandler

/-! ## Queries by Icinga name -/

/-- A `NetAssistNode`, with what is read of it on the way to the screen. -/
structure NetAssistNode where
  id : Int
  name : Option String
  icingaName : Option String
  deriving DecidableEq

/-- `MATCH (n:NetAssistNode) WHERE n.icinga_name = {p} OR n.icinga_name = {q} ..`:
the parameters named in the text, and the values that are sent for them. -/
structure Query where
  disjuncts : List String
  parameters : List (String × String)

/-- A parameter object as it is sent: what is undefined is left out. -/
def sent (parameters : List (String × Option String)) : List (String × String) :=
  parameters.filterMap fun (key, value) => value.map (Prod.mk key)

/-- The query of `getByIcingaName`. -/
def getByIcingaName (icingaName : Option String) : Query where
  disjuncts := ["ic_name"]
  parameters := sent [("ic_name", icingaName)]

/-- `'ic_name_' + i`. -/
def icName (index : Nat) : String := "ic_name_" ++ toString index

/-- The query of `getByIcingaNames`. -/
def getByIcingaNames (icingaNames : List (Option String)) : Query where
  disjuncts := (List.range icingaNames.length).map icName
  parameters := sent (icingaNames.zipIdx.map fun (value, index) => (icName index, value))

/-- The rows of a query, in the order in which the graph has its nodes; without
a disjunct the text is no Cypher, and a parameter that is not sent is missed. -/
def Query.run (query : Query) (graph : List NetAssistNode) : Option (List NetAssistNode) :=
  if query.disjuncts = [] then none
  else
    (query.disjuncts.mapM fun parameter => query.parameters.lookup parameter).map fun values =>
      graph.filter fun node => node.icingaName.any (values.contains ·)

/-- What the database does with a query: it fails, or runs it on the graph of
that time. -/
inductive Reply where
  | failure
  | graph (nodes : List NetAssistNode)

def Reply.rows (reply : Reply) (query : Query) : Option (List NetAssistNode) :=
  match reply with
  | .failure => none
  | .graph nodes => query.run nodes

/-! ## Responses -/

/-- What `notifyAllClients` emits. A simple one has `icinga_type` 0 or 1 by its
type, an aggregated one has 2, and its type as `agg_type`. -/
inductive Emission (π : Type u) where
  | simple (icingaType : NotificationType) (node : NetAssistNode) (icinga : Body π)
  | aggregated (aggType : NotificationType) (body : AggBody) (nodesId : List Int)

variable {π : Type u}

/-- `_handle_database_node_response`; `none` for an error, `some none` for no
node. What one user is notified by e-mail is a stub. -/
def handleDatabaseNodeResponse (broadcastUser : Option String) (body : Body π)
    (type : NotificationType) : Option (Option NetAssistNode) → Option (Emission π)
  | none => none
  | some none => none
  | some (some node) =>
    if body.user.name = broadcastUser then some (.simple type node body) else none

/-- `_handle_database_agg_nodes_response`. -/
def handleDatabaseAggNodesResponse (broadcastUser : Option String) (body : AggBody)
    (type : NotificationType) : Option (List Int) → Option (Emission π)
  | none => none
  | some nodesId =>
    if body.aggUser = broadcastUser then some (.aggregated type body nodesId) else none

/-- The name a simple notification asks for: `body.name`, or `body.host.name`. -/
def askedName (type : NotificationType) (body : Body π) : Option String :=
  match type with
  | .host => body.name
  | .service => body.hostName

/-- The query of `_process_host_notification` or `_process_service_notification`. -/
def queryOf (notification : Notification π) : Query :=
  match notification.body with
  | .simple body => getByIcingaName (askedName notification.type body)
  | .aggregated body => getByIcingaNames body.hostNames

/-- The callback of that query. -/
def announce (broadcastUser : Option String) (notification : Notification π) (reply : Reply) :
    Option (Emission π) :=
  let rows := reply.rows (queryOf notification)
  match notification.body with
  | .simple body =>
    handleDatabaseNodeResponse broadcastUser body notification.type (rows.map List.head?)
  | .aggregated body =>
    handleDatabaseAggNodesResponse broadcastUser body notification.type
      (rows.map (List.map NetAssistNode.id))

/-! ## The service -/

/-- The event handler, its queries, and what was emitted to the clients. -/
structure Service (π : Type u) where
  handler : State π
  queries : InFlight (Notification π) Reply := {}
  emitted : List (Emission π) := []

/-- What happens to the service: something happens to the handler, or one of the
queries in flight is answered. -/
inductive ServiceEvent (π : Type u) where
  | handler (event : Event π)
  | answer (query : Nat) (reply : Reply)

/-- One event. Whatever the handler processes is asked for. -/
def serve (config : Config) (broadcastUser : Option String) (service : Service π) :
    ServiceEvent π → Service π
  | .handler event =>
    let handler := step config service.handler event
    { service with
      handler := handler
      queries := service.queries.ask
        (handler.processed.drop service.handler.processed.length) }
  | .answer query reply =>
    let told := service.queries.flying[query]?.bind fun notification =>
      announce broadcastUser notification reply
    { service with
      queries := service.queries.answer query reply
      emitted := service.emitted ++ told.toList }

/-- The service after a history. -/
def serviceAfter (config : Config) (broadcastUser : Option String)
    (history : List (ServiceEvent π)) : Service π :=
  after (serve config broadcastUser) { handler := init config } history

/-- What a history has for the handler. -/
def handlerEvent : ServiceEvent π → Option (Event π)
  | .handler event => some event
  | .answer _ _ => none

end NetGraphz.NotificationDelivery
