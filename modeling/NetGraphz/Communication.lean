import NetGraphz.Base.JsValue
import NetGraphz.Base.ParseInt
import NetGraphz.NotificationDelivery

/-! What the web client does with the messages of the notification service: which
nodes it fetches anew, whether the view may follow them, and what it shows. -/
namespace NetGraphz.Communication
open EventHandler NotificationDelivery ParseInt

variable {π : Type u}

/-- What reading a table of states gives. Every object inherits some properties,
which are no state. -/
inductive NodeState where
  | number (value : Nat)
  | undefined
  | inherited (name : String)
  deriving DecidableEq

/-- `get_node_state_from_icinga`. -/
def getNodeStateFromIcinga (icingaStateId : Option String) : NodeState :=
  match text icingaStateId with
  | "0" => .number 0
  | "1" => .number 1
  | "2" => .number 5
  | key => if Table.standardNames.contains key then .inherited key else .undefined

/-- `core.node_state`. It has no `STATE_NODE_UNREACHABLE`, which reads as
undefined. -/
def stateNodeDown : NodeState := .number 1
def stateNodeUp : NodeState := .number 0
def stateNodeWarn : NodeState := .number 2
def stateNodeUnreachable : NodeState := .undefined

/-- A state that the view follows. -/
def hostProblem (state : NodeState) : Bool := state = stateNodeWarn || state = stateNodeDown

def serviceProblem (serviceState : Option Int) : Bool :=
  serviceState = some 1 || serviceState = some 2

/-- `sendSuccess`, `sendWarning`, `sendError` and `send`. -/
inductive Level where
  | success
  | warning
  | error
  | info
  deriving DecidableEq

structure Toast where
  level : Level
  title : String
  text : String
  deriving DecidableEq

/-- What a handler does: the calls of `performNodeUpdate`, and what is shown. -/
structure Reaction where
  updates : List (Int × Bool)
  shown : Option Toast
  deriving DecidableEq

/-- `parseInt` of a state id. -/
def serviceStateOf (stateId : Option String) : Option Int := parseInt (text stateId).toList

/-- The loop that joins the names. -/
def joinNames : List (Option String) → String
  | [] => ""
  | [name] => text name
  | name :: rest => text name ++ "," ++ joinNames rest

/-- `handleHostNotification`. -/
def handleHostNotification (node : NetAssistNode) (icinga : Body π) : Reaction :=
  let state := getNodeStateFromIcinga icinga.stateId
  let about := "Node: " ++ text node.name
  { updates := [(node.id, hostProblem state)]
    shown :=
      if state = stateNodeUp then some ⟨.success, "Graph node goes up", about⟩
      else if state = stateNodeWarn then some ⟨.warning, "Graph node has some problems!", about⟩
      else if state = stateNodeDown then
        some ⟨.error, if icinga.stateId = icinga.lastStateId then "Graph node still down"
          else "Graph node goes DOWN!", about⟩
      else if state = stateNodeUnreachable then some ⟨.info, "Graph node unreachable", about⟩
      else none }

/-- `handleServiceNotification`, with what reads `icinga.output`. -/
def handleServiceNotification (output : π → Option String) (node : NetAssistNode)
    (icinga : Body π) : Reaction :=
  let state := serviceStateOf icinga.stateId
  let named := "Service: " ++ text icinga.name ++ "\n" ++ "Node: " ++ text icinga.hostName ++ "\n"
  let about := named ++ "Output: " ++ text (output icinga.rest)
  { updates := [(node.id, serviceProblem state)]
    shown :=
      if state = some 0 then some ⟨.success, "Node service goes up", about⟩
      else if state = some 1 then some ⟨.warning, "Node service WARNING", about⟩
      else if state = some 2 then some ⟨.error, "Node service CRITICAL!", about⟩
      else if state = some 3 then some ⟨.info, "Node service state unknown!", named⟩
      else none }

/-- `handleAggregatedHostNotification`. -/
def handleAggregatedHostNotification (message : AggBody) (nodesId : List Int) : Reaction :=
  let state := getNodeStateFromIcinga message.aggStateId
  let preTitle := toString message.hostNames.length ++ " nodes"
  let about := "Nodes: " ++ joinNames message.hostNames
  { updates := nodesId.map fun id => (id, hostProblem state)
    shown :=
      if state = stateNodeUp then some ⟨.success, preTitle ++ " goes up", about⟩
      else if state = stateNodeWarn then some ⟨.warning, preTitle ++ " has some problems!", about⟩
      else if state = stateNodeDown then
        some ⟨.error, preTitle ++ if message.aggStateId = message.aggLastStateId then
          " still down" else " goes DOWN!", about⟩
      else if state = stateNodeUnreachable then some ⟨.info, preTitle ++ " unreachable", about⟩
      else none }

/-- `handleAggregatedServiceNotification`. -/
def handleAggregatedServiceNotification (message : AggBody) (nodesId : List Int) : Reaction :=
  let state := serviceStateOf message.aggStateId
  let preTitle := "[" ++ toString ((message.serviceNames.getD []).length) ++ "]" ++ " services"
  let about := "Nodes: " ++ joinNames message.hostNames ++ "\n"
  { updates := nodesId.map fun id => (id, serviceProblem state)
    shown :=
      if state = some 0 then some ⟨.success, preTitle ++ " goes UP", about⟩
      else if state = some 1 then some ⟨.warning, preTitle ++ " in WARNING state", about⟩
      else if state = some 2 then some ⟨.error, preTitle ++ "in CRITICAL state", about⟩
      else if state = some 3 then some ⟨.info, preTitle ++ "in unknown state", about⟩
      else none }

/-- `handleIcingaNotification`, for a message that the service emitted. -/
def handleIcingaNotification (output : π → Option String) : Emission π → Reaction
  | .simple .host node icinga => handleHostNotification node icinga
  | .simple .service node icinga => handleServiceNotification output node icinga
  | .aggregated .host message nodesId => handleAggregatedHostNotification message nodesId
  | .aggregated .service message nodesId => handleAggregatedServiceNotification message nodesId

end NetGraphz.Communication
