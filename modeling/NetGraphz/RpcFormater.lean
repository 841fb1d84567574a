import NetGraphz.Base.GoMap
import NetGraphz.GraphStorage
import NetGraphz.Metrics
import NetGraphz.StateCache

/-! The messages of the backend's node service, and how hosts, states and
metric values are written into them. -/
namespace NetGraphz.RpcFormater
open GoFloat GraphStorage Metrics StateCache

/-- `rpc.MetricVal`; enumerations are their int32 numbers. -/
structure MetricVal where
  name : String
  type : String
  kind : Int32
  time : UInt64
  gaugeValue : Option UInt32 := none
  deriveValue : Option Int64 := none
  counterValue : Option UInt64 := none
  otherValue : Option (List UInt8) := none
  deriving DecidableEq

/-- `rpc.MetricValCollection`. -/
structure MetricValCollection where
  name : String
  values : List MetricVal
  deriving DecidableEq

/-- `rpc.NodeState`. -/
structure NodeState where
  state : Int32
  hardState : Int32
  descriptiveState : Int32
  isHardState : Bool
  isReachable : Bool
  isFlapping : Bool
  isExecuting : Bool
  rtt : Float32Bits
  loss : Float32Bits
  time : UInt64
  source : String
  output : String
  numServices : Int32
  numServicesOk : Int32
  numServicesWarning : Int32
  numServicesPending : Int32
  numServicesCritical : Int32
  numServicesUnknown : Int32
  notes : String
  isDuplicate : Bool
  hasBeenChecked : Bool
  deriving DecidableEq

/-- `map[string]*rpc.MetricValCollection`. -/
abbrev CollectionMap := Finmap (fun _ : String => MetricValCollection)

/-- `rpc.Node`, less the port count, which is never set. -/
structure Node where
  id : Int32
  name : String
  address : String
  model : String
  macAddress : String
  ip4 : UInt32
  ip6 : Option (List UInt8)
  comment : String
  dbId : Int32
  icingaName : String
  serial : String
  states : List NodeState
  lastMetricValues : CollectionMap
  type : Int32
  deriving DecidableEq

/-- `ipv4_to_uint32`. -/
def ipv4ToUint32 (ip : NetIP) : UInt32 :=
  match ip.to4 with
  | some [a, b, c, d] => d.toUInt32 ||| a.toUInt32 <<< 24 ||| b.toUInt32 <<< 16 ||| c.toUInt32 <<< 8
  | _ => 0

/-- The low bytes of a number, the lowest first. -/
def littleEndian : (width : Nat) → (n : Nat) → List UInt8
  | 0, _ => []
  | width + 1, n => UInt8.ofNat n :: littleEndian width (n / 256)

/-- `binary.Write`, to an empty buffer and in little-endian order; there is no
format for the types without a fixed size. -/
def binaryWrite : Value → Option (List UInt8)
  | .int _ | .uint _ => none
  | .float32 bits => some (littleEndian 4 bits.toNat)
  | .float64 bits => some (littleEndian 8 bits.toNat)
  | .int32 v => some (littleEndian 4 v.toUInt32.toNat)
  | .int64 v => some (littleEndian 8 v.toUInt64.toNat)
  | .uint32 v => some (littleEndian 4 v.toNat)
  | .uint64 v => some (littleEndian 8 v.toNat)
  | .other _ bytes => bytes

/-- `metric_value_to_rpc`. A value of another type than its kind asks for
panics; that is recovered from, with the value left out and an error that the
caller drops. -/
def metricValueToRpc (m : MetricValue) : MetricVal :=
  let rpcVal : MetricVal :=
    { time := UInt64.ofInt m.time.unix
      kind := (m.kind + 1).toInt32
      name := m.name
      type := "host" }
  if m.kind = METRIC_GAUGE then
    match m.value with
    | .float64 bits =>
      { rpcVal with gaugeValue := some (float32OfFloat64 (Float.Model.ofBits bits)).toBits }
    | _ => rpcVal
  else if m.kind = METRIC_COUNTER then
    match m.value with
    | .uint64 v => { rpcVal with counterValue := some v }
    | _ => rpcVal
  else if m.kind = METRIC_DERIVE then
    match m.value with
    | .int64 v => { rpcVal with deriveValue := some v }
    | _ => rpcVal
  else { rpcVal with otherValue := binaryWrite m.value }

/-- One entry of `States`. -/
def stateToRpc (s : HostState) : NodeState where
  rtt := s.rtt
  loss := s.loss
  state := s.state.toInt32
  hardState := s.hardState.toInt32
  descriptiveState := s.effectiveState.toInt32
  isHardState := s.isHardState
  isFlapping := s.isFlapping
  isReachable := s.isReachable
  isExecuting := s.isExecuting
  time := UInt64.ofInt s.time.unix
  source := s.source
  output := s.output
  numServices := s.numServices
  numServicesOk := s.numServicesOk
  numServicesCritical := s.numServicesCritical
  numServicesWarning := s.numServicesWarning
  numServicesPending := s.numServicesPending
  numServicesUnknown := s.numServicesUnknown
  notes := s.notes
  hasBeenChecked := s.hasBeenChecked
  isDuplicate := s.isDuplicate

/-- `map[string][]metric.MetricValue`. -/
abbrev MetricMap := Finmap (fun _ : String => List MetricValue)

/-- The collection sent for an entry of the metric map, unless it is empty. -/
def collectionOf (key : String) (values : List MetricValue) : Option MetricValCollection :=
  if values = [] then none else some ⟨key, values.map metricValueToRpc⟩

/-- The loop over the metric map. -/
def lastMetricValuesToRpc (metrics : MetricMap) : CollectionMap :=
  GoMap.collect collectionOf metrics

/-- `host_to_rpc`. -/
def hostToRpc (host : Host) (states : List HostState) (metrics : MetricMap) : Node where
  id := host.id.toInt32
  name := host.name
  address := host.address
  model := host.model
  macAddress := host.macAddress
  comment := host.comment
  serial := host.serial
  ip4 := ipv4ToUint32 host.ip
  ip6 := host.ip6.to16
  dbId := host.dbImportSwitchId
  icingaName := host.icingaName
  type := host.type.toInt32
  states := states.map stateToRpc
  lastMetricValues := lastMetricValuesToRpc metrics

end NetGraphz.RpcFormater
