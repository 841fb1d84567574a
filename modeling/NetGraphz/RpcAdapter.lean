import Mathlib
import NetGraphz.Base.InetNtop
import NetGraphz.LookupById
import NetGraphz.RpcFormater

/-! The nodes of a page, made by the web application from the messages of the backend;
and what becomes of a node's addresses between the graph and the page. -/
namespace NetGraphz.RpcAdapter
open NetIP GraphStorage GraphLinks LookupById Metrics StateCache RpcFormater

/-! ## The adapter -/

/-- The value of a sample on a page; null where the message has none. -/
inductive ShownValue where
  | float32 (bits : UInt32)
  | int64 (v : Int64)
  | uint64 (v : UInt64)
  | bytes (octets : List UInt8)
  deriving DecidableEq

/-- `NodeMetricValue`, with its time as a time stamp. -/
structure NodeMetricValue where
  name : String
  type : String
  kind : Int32
  time : UInt64
  value : Option ShownValue
  deriving DecidableEq

/-- `getNodeMetricValue`. -/
def getNodeMetricValue (rpc_node_metric_val : MetricVal) : NodeMetricValue where
  name := rpc_node_metric_val.name
  type := rpc_node_metric_val.type
  kind := rpc_node_metric_val.kind
  time := rpc_node_metric_val.time
  value :=
    if rpc_node_metric_val.kind = 1 then rpc_node_metric_val.gaugeValue.map .float32
    else if rpc_node_metric_val.kind = 2 then rpc_node_metric_val.deriveValue.map .int64
    else if rpc_node_metric_val.kind = 3 then rpc_node_metric_val.counterValue.map .uint64
    else if rpc_node_metric_val.kind = 4 then rpc_node_metric_val.otherValue.map .bytes
    else none

/-- `NodeMetric`. -/
structure NodeMetric where
  name : String
  values : List NodeMetricValue

/-- `NodeStatus`, with its time as a time stamp. -/
structure NodeStatus where
  state : Int32
  hard_state : Int32
  effective_state : Int32
  packet_loss : Float32Bits
  avg_rtt_ms : Float32Bits
  dup : Bool
  source : String
  time : UInt64
  is_flapping : Bool
  is_reachable : Bool
  is_hard_state : Bool
  is_executing : Bool
  has_been_checked : Bool
  notes : String
  num_services : Int32
  num_services_ok : Int32
  num_services_warning : Int32
  num_services_critical : Int32
  num_services_unknown : Int32
  num_services_pending : Int32
  output : String

/-- `getNodeStatus`. -/
def getNodeStatus (rpc_node_status : NodeState) : NodeStatus where
  state := rpc_node_status.state
  hard_state := rpc_node_status.hardState
  effective_state := rpc_node_status.descriptiveState
  avg_rtt_ms := rpc_node_status.rtt
  packet_loss := rpc_node_status.loss
  dup := rpc_node_status.isDuplicate
  source := rpc_node_status.source
  time := rpc_node_status.time
  is_flapping := rpc_node_status.isFlapping
  is_hard_state := rpc_node_status.isHardState
  is_reachable := rpc_node_status.isReachable
  is_executing := rpc_node_status.isExecuting
  has_been_checked := rpc_node_status.hasBeenChecked
  notes := rpc_node_status.notes
  num_services := rpc_node_status.numServices
  num_services_ok := rpc_node_status.numServicesOk
  num_services_pending := rpc_node_status.numServicesPending
  num_services_unknown := rpc_node_status.numServicesUnknown
  num_services_warning := rpc_node_status.numServicesWarning
  num_services_critical := rpc_node_status.numServicesCritical
  output := rpc_node_status.output

/-- A node of a page, `NetAssist\Graph\Node`. -/
structure PageNode where
  id : Int32
  db_id : Int32
  name : String
  model : String
  serial : String
  icinga_name : String
  ip : String
  ip6 : Option String
  mac_address : String
  comment : String
  address : String
  type : Int32
  status : List NodeStatus
  metrics : List NodeMetric

/-- `long2ip`. -/
def long2ip (ip : UInt32) : String :=
  String.ofList (dotted [(ip >>> 24).toUInt8, (ip >>> 16).toUInt8, (ip >>> 8).toUInt8, ip.toUInt8])

/-- `getNode`. The metrics are a map on the wire, and come in any order. -/
def getNode (order : GoMap.Order fun _ : String => MetricValCollection) (rpc_node : Node) :
    PageNode where
  id := rpc_node.id
  db_id := rpc_node.dbId
  name := rpc_node.name
  model := rpc_node.model
  serial := rpc_node.serial
  icinga_name := rpc_node.icingaName
  ip := long2ip rpc_node.ip4
  ip6 := rpc_node.ip6.map inetNtop
  mac_address := rpc_node.macAddress
  comment := rpc_node.comment
  address := rpc_node.address
  type := rpc_node.type
  status := rpc_node.states.map getNodeStatus
  metrics := (order.entries rpc_node.lastMetricValues).map fun entry =>
    { name := entry.1
      values := entry.2.values.map getNodeMetricValue }

/-! ## Addresses -/

/-- The bytes of the word that four bytes are put into. -/
theorem bytes_of_word (a b c d : UInt8) :
    let word := d.toUInt32 ||| a.toUInt32 <<< 24 ||| b.toUInt32 <<< 16 ||| c.toUInt32 <<< 8
    (word >>> 24).toUInt8 = a ∧ (word >>> 16).toUInt8 = b ∧ (word >>> 8).toUInt8 = c ∧
      word.toUInt8 = d := by
  refine ⟨?_, ?_, ?_, ?_⟩ <;> apply UInt8.eq_of_toBitVec_eq <;> ext i within <;> simp <;>
    interval_cases i <;> simp

theorem long2ip_ipv4 {ip : NetIP} {four : List UInt8} (short : ip.to4 = some four) :
    long2ip (ipv4ToUint32 ip) = String.ofList (dotted four) := by
  match four, length_to4 short with
  | [a, b, c, d], _ =>
    obtain ⟨first, second, third, fourth⟩ := bytes_of_word a b c d
    simp only [ipv4ToUint32, short, long2ip, first, second, third, fourth]

/-- What is parsed and has a short form is the short form behind the prefix. -/
theorem parsed_of_to4 {text : String} {four : List UInt8} (short : (parseIP text).to4 = some four) :
    parseIP text = some (v4InV6Prefix ++ four) := by
  obtain ⟨whole, parsed, taken⟩ := Option.bind_eq_some_iff.mp short
  have sixteen := length_parseIP parsed
  rw [if_neg (by omega)] at taken
  split at taken
  · rename_i mapped
    cases taken
    rw [parsed, ← mapped.2, List.take_append_drop]
  · cases taken

theorem to16_parseIP (text : String) : (parseIP text).to16 = parseIP text := by
  cases parsed : parseIP text with
  | none => rfl
  | some bytes =>
    have sixteen := length_parseIP parsed
    simp [to16, sixteen]

/-- The addresses a page shows for a node of the graph. An IPv4 address is shown as a
text that reads as the stored one, and `0.0.0.0` where none is stored; an address under
`ip6_address`, of either kind, is shown as a text that reads as the stored one, and
left out exactly where none is stored. -/
theorem shown_addresses_read_back (row : NodeRow) (states : List HostState) (metrics : MetricMap)
    (order : GoMap.Order fun _ : String => MetricValCollection) :
    let node := getNode order (hostToRpc (readHostRow row) states metrics)
    let ip := parseIP (readStringProp row.properties "ip_address")
    let ip6 := parseIP (readStringProp row.properties "ip6_address")
    (ip.to4 ≠ none → parseIP node.ip = ip) ∧ (ip.to4 = none → node.ip = "0.0.0.0") ∧
      (node.ip6 = none ↔ ip6 = none) ∧ ∀ text, node.ip6 = some text → parseIP text = ip6 := by
  dsimp only
  refine ⟨?_, ?_, ?_, ?_⟩
  · intro short
    obtain ⟨four, isShort⟩ := Option.ne_none_iff_exists'.mp short
    have text : long2ip (ipv4ToUint32 (parseIP (readStringProp row.properties "ip_address"))) = _ :=
      long2ip_ipv4 isShort
    rw [parsed_of_to4 isShort]
    exact (congrArg parseIP text).trans (parseIP_dotted (length_to4 isShort))
  · intro long
    have word : ipv4ToUint32 (parseIP (readStringProp row.properties "ip_address")) = 0 := by
      simp [ipv4ToUint32, long]
    exact (congrArg long2ip word).trans rfl
  · simp [getNode, hostToRpc, readHostRow, to16_parseIP]
  · intro text shown
    obtain ⟨bytes, parsed, rfl⟩ := Option.map_eq_some_iff.mp shown
    have isParsed : parseIP (readStringProp row.properties "ip6_address") = some bytes :=
      (to16_parseIP _).symm.trans parsed
    rw [isParsed, parseIP_inetNtop (length_parseIP isParsed)]

end NetGraphz.RpcAdapter
