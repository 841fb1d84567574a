import NetGraphz.Metrics

/-! The metrics that collectd sends, and the writer that hands their values on
to the storages. -/
namespace NetGraphz.Collectd
open Metrics

/-- `api.Identifier`. -/
structure Identifier where
  host : String
  plugin : String
  pluginInstance : String
  type : String
  typeInstance : String
  deriving DecidableEq

/-- `CollectdMetric`. -/
structure CollectdMetric where
  identifier : Identifier
  dsName : String
  dataType : MetricDataType
  interval : Duration
  deriving DecidableEq

namespace CollectdMetric

/-- `GetCriterias`, in the order the map is filled. -/
def getCriterias (metric : CollectdMetric) : List (String × String) :=
  [("host", metric.identifier.host),
    ("plugin", metric.identifier.plugin),
    ("plugin_instance", metric.identifier.pluginInstance),
    ("type", metric.identifier.type),
    ("type_instance", metric.identifier.typeInstance)]

/-- What its methods answer as a `Metric`. -/
def toMetric (metric : CollectdMetric) : Metric where
  getAppName := "Collectd"
  getHost := metric.identifier.host
  getCriterias := metric.getCriterias
  getMeasurementName := metric.dsName
  getType := metric.dataType
  getDuration := metric.interval

end CollectdMetric

/-- `api.Value`, with a case for a type that the writer does not know. -/
inductive ApiValue where
  | derive (v : Int64)
  | gauge (bits : UInt64)
  | counter (v : UInt64)
  | other
  deriving DecidableEq

/-- `api.ValueList`. -/
structure ValueList where
  identifier : Identifier
  time : Time
  interval : Duration
  values : List ApiValue
  dsNames : List String

/-- `CollectdMetricSource`, as far as its writer reads it. -/
structure CollectdMetricSource (S : Type) where
  storages : List S
  filterEnable : Bool
  filterTypes : List String

/-- The type switch of `Write`: data type, value, and name of the value's type.
A value of an unknown type stays unset. -/
def readValue : ApiValue → MetricDataType × Value × String
  | .derive v => (METRIC_DERIVE, .int64 v, "int64")
  | .gauge bits => (METRIC_GAUGE, .float64 bits, "float64")
  | .counter v => (METRIC_COUNTER, .uint64 v, "uint64")
  | .other => (METRIC_ABSOLUTE, .other "<nil>" none, "")

/-- The metric and the sample made of the value at an index; `dsName` names the
data source there. -/
def sampleOf (dsName : ValueList → Nat → String) (vl : ValueList) (entry : ApiValue × Nat) :
    CollectdMetric × MetricValue :=
  let (val, i) := entry
  let (dataType, value, valueType) := readValue val
  (⟨vl.identifier, dsName vl i, dataType, vl.interval⟩,
    { name := dsName vl i, time := vl.time, kind := dataType, valueType := valueType, value := value })

/-- The metrics and samples of a value list. -/
def samples (dsName : ValueList → Nat → String) (vl : ValueList) :
    List (CollectdMetric × MetricValue) :=
  vl.values.zipIdx.map (sampleOf dsName vl)

/-- How often the loop over the filter types adds a sample. Its `break` stands
behind the `if`, so that the first turn is the last. -/
def filterLoop (type : String) : (filterTypes : List String) → Nat
  | [] => 0
  | filterType :: _ => if filterType = type then 1 else 0

/-- `CollectdMetricWriter.Write`: the calls of `AddMetricValue` it makes. -/
def write (dsName : ValueList → Nat → String) (source : CollectdMetricSource S) (vl : ValueList) :
    List (S × CollectdMetric × MetricValue) :=
  source.storages.flatMap fun s =>
    (samples dsName vl).flatMap fun sample =>
      let times :=
        if source.filterEnable then filterLoop sample.1.identifier.type source.filterTypes else 1
      List.replicate times (s, sample)

end NetGraphz.Collectd
