import NetGraphz.MemoryStorage

/-! The metrics service of the backend: the known metrics, from some position on
and up to some number. -/
namespace NetGraphz.MetricsEndpoint
open Metrics MemoryStorage

/-- `rpc.AllMetricsRequest`. -/
structure AllMetricsRequest where
  nSkip : Int
  nTake : Int
  filterHostName : Bool
  hostName : String

/-- `rpc.Metric`; the kind is its number, as `Metric_Kind` takes it over. -/
structure RpcMetric where
  name : String
  kind : Int32
  nRecords : Int
  timeLastRecord : Int
  deriving DecidableEq

/-- The time of the zero `MetricValue`, the first of January of the year 1. -/
def zeroTime : Time := -62135596800 * 1000000000

/-- What is sent of a metric, unless its values cannot be counted or read. -/
def describe (now : Time) (store : MemoryMetricStorage) (m : Metric) : Except String RpcMetric := do
  let count ← countValues store m
  let lastValue ← getLastMetricValue now store m
  return {
    name := getMetricString m
    kind := m.getType.toInt32
    nRecords := count
    timeLastRecord := (lastValue.elim zeroTime MetricValue.time).unix }

/-- The loop of `GetAllMetrics`: what it sends. -/
def sendLoop (now : Time) (store : MemoryMetricStorage) (req : AllMetricsRequest) :
    (nSkipCounter nTakeCounter : Int) → List Metric → List RpcMetric
  | _, _, [] => []
  | nSkipCounter, nTakeCounter, m :: rest =>
    if nSkipCounter < req.nSkip then sendLoop now store req (nSkipCounter + 1) nTakeCounter rest
    else if req.nTake ≥ 0 ∧ nTakeCounter = req.nTake then []
    else
      match describe now store m with
      | .error _ => sendLoop now store req nSkipCounter nTakeCounter rest
      | .ok out => out :: sendLoop now store req nSkipCounter (nTakeCounter + 1) rest

/-- The metrics a request selects. -/
def selected (order : RingOrder) (store : MemoryMetricStorage) (req : AllMetricsRequest) :
    List Metric :=
  if req.filterHostName then getMetricsByHost order store req.hostName
  else MemoryStorage.getAllMetrics order store

/-- `GetAllMetrics`: the stream. The storage's queries come without an error. -/
def getAllMetrics (order : RingOrder) (now : Time) (store : MemoryMetricStorage)
    (req : AllMetricsRequest) : List RpcMetric :=
  sendLoop now store req 0 0 (selected order store req)

end NetGraphz.MetricsEndpoint
