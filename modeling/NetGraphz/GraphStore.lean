import Mathlib.Logic.Function.Basic
import NetGraphz.Base.JsNumber

/-! The client's store as its picture of the network reads it: nodes with the
states and the metric values they came with, and links. -/
namespace NetGraphz.GraphStore

/-- A source's report on a node. -/
structure NodeStatus where
  source : String
  effective_state : Int
  time : Int
  deriving DecidableEq

/-- A metric and its values, which may be no array. -/
structure Metric (R : Type u) where
  name : String
  values : Option (List R)

/-- A node. `status` and `metrics` may be no arrays, and a type may be missing. -/
structure Node (R : Type u) where
  id : Int
  type : Option Int
  status : Option (List NodeStatus)
  metrics : Option (List (Metric R))

/-- A link, with the names of its metrics and the nodes it joins. -/
structure Link (R : Type u) where
  id : Int
  link_speed : Option R
  duplex : Option Bool
  rx_octets : String
  tx_octets : String
  src : Int
  dst : Int

/-- The store's tables. A metric that is there may be there as undefined. -/
structure Store (R : Type u) where
  nodesById : Int → Option (Node R)
  linksById : Int → Option (Link R)
  metrics : String → Option (Option (List R))

def newStore : Store R where
  nodesById _ := none
  linksById _ := none
  metrics _ := none

/-- `_metrics[name] = values`. Under `__proto__` this makes no entry. -/
def saveMetric (metrics : String → Option (Option (List R))) (metric : Metric R) :
    String → Option (Option (List R)) :=
  if metric.name = "__proto__" then metrics
  else Function.update metrics metric.name (some metric.values)

/-- `saveMetricsOfNode`. -/
def saveMetricsOfNode (metrics : String → Option (Option (List R))) (node : Node R) :
    String → Option (Option (List R)) :=
  (node.metrics.getD []).foldl saveMetric metrics

/-- What both updates and the initial load do with a node. -/
def Store.enterNode (store : Store R) (node : Node R) : Store R :=
  { store with
    nodesById := Function.update store.nodesById node.id (some node)
    metrics := saveMetricsOfNode store.metrics node }

def Store.enterLink (store : Store R) (link : Link R) : Store R :=
  { store with linksById := Function.update store.linksById link.id (some link) }

/-- `loadAll`. -/
def loadAll (store : Store R) (nodes : List (Node R)) (links : List (Link R)) : Store R :=
  links.foldl Store.enterLink (nodes.foldl Store.enterNode store)

/-- `getNodeById`. -/
def Store.getNodeById (store : Store R) (nodeId : Int) : Option (Node R) := store.nodesById nodeId

/-- `getLinkById`. -/
def Store.getLinkById (store : Store R) (linkId : Int) : Option (Link R) := store.linksById linkId

/-- `getMetricValues`; `none` is the exception that is thrown once a metric of
that name has taken the place of the table's method `hasOwnProperty`. -/
def Store.getMetricValues (store : Store R) (name : String) : Option (Option (List R)) :=
  if (store.metrics "hasOwnProperty").isSome then none
  else some ((store.metrics name).getD (some []))

/-- The report with the latest time after zero, or the first one. -/
def latest (first : NodeStatus) (rest : List NodeStatus) : NodeStatus :=
  ((first :: rest).foldl (fun (max_time, chosen) status =>
    if status.time > max_time then (status.time, status) else (max_time, chosen)) (0, first)).2

/-- `get_node_pref_effective_state`; `none` is null. -/
def getNodePrefEffectiveState (default_state_source : Option String) (node : Node R) :
    Option Int :=
  match node.status with
  | none => none
  | some [] => none
  | some (first :: rest) =>
    match default_state_source with
    | none => some (latest first rest).effective_state
    | some source =>
      match (first :: rest).find? fun status => status.source = source with
      | some status => some status.effective_state
      | none => some (latest first rest).effective_state

end NetGraphz.GraphStore
