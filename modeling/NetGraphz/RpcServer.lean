import NetGraphz.RpcFormater
import NetGraphz.StatusService

/-! The node service of the backend: one node by its id, or a page of nodes,
each with the states and the last metric values of its host. -/
namespace NetGraphz.RpcServer
open GraphStorage Metrics RpcFormater StateCache StatusService

/-- `MetricStorage`, as far as metrics are read from it. -/
structure MetricStorage where
  getMetricsByHost : String → Except String (List Metric)
  getLastMetricValues : Metric → (nSkip nGet : Int) → Except String (List MetricValue)

/-- The order in which one loop over the map of a host's metrics lists them. Go
takes another for every loop. -/
structure Listing where
  list : List Metric → List Metric
  perm : ∀ metrics, (list metrics).Perm metrics

/-- The storage as it answers one call of `GetMetricsByHost`. -/
def MetricStorage.listedIn (metricSrv : MetricStorage) (listing : Listing) : MetricStorage :=
  { metricSrv with
    getMetricsByHost := fun hostName => (metricSrv.getMetricsByHost hostName).map listing.list }

/-- `RPCServer`. -/
structure RPCServer where
  store : Storage
  statusSrv : Service
  metricSrv : MetricStorage

/-- `rpc.NodeByIdRequest`. -/
structure NodeByIdRequest where
  nodeId : Int32
  includeState : Bool
  includeMetrics : Int32

/-- `rpc.NodesAllRequest`. -/
structure NodesAllRequest where
  lastId : Int32
  nTake : Int32
  includeState : Bool
  includeLastMetrics : Int32

/-- One metric of `fetch_last_metrics`: the count to get grows with every
derived metric and stays so for the metrics after it. -/
def fetchMetric (metricSrv : MetricStorage) (fetched : UInt32 × MetricMap) (m : Metric) :
    UInt32 × MetricMap :=
  let (nGet, lastMetricValues) := fetched
  let derived := m.getType = METRIC_DERIVE
  let nGet := if derived then nGet + 1 else nGet
  match metricSrv.getLastMetricValues m 0 (nGet + 1).toNat with
  | .error _ => (nGet, lastMetricValues)
  | .ok values =>
    match if derived then deriveMetricValues values true else .ok values with
    | .error _ => (nGet, lastMetricValues)
    | .ok values => (nGet, lastMetricValues.insert (getMetricString m) values)

/-- `fetch_last_metrics`. -/
def fetchLastMetrics (metricSrv : MetricStorage) (hostName : String) (nGet : UInt32) :
    Except String MetricMap :=
  if nGet > 0 then do
    let metrics ← metricSrv.getMetricsByHost hostName
    return (metrics.foldl (fetchMetric metricSrv) (nGet, ∅)).2
  else .ok ∅

/-- `GetNodeById`, with the server it leaves; the metrics of the node come in the
order of the listing. -/
def getNodeById (s : RPCServer) (clock : Clock) (listing : Listing) (req : NodeByIdRequest) :
    RPCServer × Except String Node :=
  match s.store.getNodeById req.nodeId.toInt64 with
  | .error err => (s, .error err)
  | .ok node =>
    let (statusSrv, states) :=
      if req.includeState then getHostStatusByName s.statusSrv clock node.icingaName
      else (s.statusSrv, .ok [])
    let answer : Except String Node := do
      let states ← states
      let lastMetricValues ←
        fetchLastMetrics (s.metricSrv.listedIn listing) node.name req.includeMetrics.toUInt32
      return hostToRpc node states lastMetricValues
    ({ s with statusSrv := statusSrv }, answer)

/-- The node streamed for a host: what cannot be fetched is logged and left out. -/
def streamedNode (metricSrv : MetricStorage) (nGet : UInt32) (states : NameMap) (host : Host) :
    Node :=
  let lastMetricValues :=
    match fetchLastMetrics metricSrv host.name nGet with
    | .ok lastMetricValues => lastMetricValues
    | .error _ => ∅
  hostToRpc host (statesOf states host.icingaName) lastMetricValues

/-- `GetAllNodes`: the server it leaves, the stream, and the error. The metrics of
each node come in a listing of their own. -/
def getAllNodes (s : RPCServer) (clock : Clock) (listings : Nat → Listing)
    (req : NodesAllRequest) : RPCServer × List Node × Option String :=
  match s.store.getAllNodesFrom req.lastId.toInt64 req.nTake with
  | .error err => (s, [], some err)
  | .ok hosts =>
    let served :=
      if req.includeState then getHostsStatusByName s.statusSrv clock (hosts.map Host.icingaName)
      else ⟨s.statusSrv, ∅, none⟩
    let nGet := req.includeLastMetrics.toUInt32
    let stream := hosts.mapIdx fun i host =>
      streamedNode (s.metricSrv.listedIn (listings i)) nGet served.m host
    ({ s with statusSrv := served.srv }, stream, none)

end NetGraphz.RpcServer
