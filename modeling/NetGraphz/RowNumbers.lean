import NetGraphz.Base.GoIntegers
import NetGraphz.Base.IPText
import NetGraphz.GraphLinks
import NetGraphz.RpcFormater

/-! The numbers of nodes and links on their way from the database into the
messages of the node service: each is read as 64 bits, with a default where there
is no number, and then kept in fewer. -/
namespace NetGraphz.RowNumbers
open GoIntegers GraphLinks GraphStorage Metrics NetIP RpcFormater StateCache

/-- A row of the queries on nodes: `Id(n), n`. -/
structure HostRow where
  id : Int64
  properties : Properties := ∅

/-- `read_host_row`. -/
def readHostRow (row : HostRow) : Host where
  id := row.id
  dbImportSwitchId := (readInt64Prop row.properties "db_sw_id" (-1)).toInt32
  name := readStringProp row.properties "name"
  icingaName := readStringProp row.properties "icinga_name"
  ip := parseIP (readStringProp row.properties "ip_address")
  ip6 := parseIP (readStringProp row.properties "ip6_address")
  address := readStringProp row.properties "address"
  macAddress := readStringProp row.properties "mac_address"
  comment := readStringProp row.properties "comment"
  model := readStringProp row.properties "model"
  serial := readStringProp row.properties "serial"
  numPorts := (readInt64Prop row.properties "num_ports" (-1)).toInt16.toUInt16
  type := (readInt64Prop row.properties "type" 0).toInt16

/-- The number that is stored as a property, or the default for it. -/
def numberOf (properties : Properties) (prop : String) (defaultValue : Int) : Int :=
  match properties.lookup prop with
  | some (.int value) => value.toInt
  | some (.int64 value) => value.toInt
  | _ => defaultValue

theorem readInt64Prop_toInt (properties : Properties) (prop : String) (defaultValue : Int64) :
    (readInt64Prop properties prop defaultValue).toInt =
      numberOf properties prop defaultValue.toInt := by
  unfold readInt64Prop numberOf
  split <;> simp_all

/-- The numbers of the host and of its message are those of the node. -/
structure HostKeeps (row : HostRow) (host : Host) (message : Node) : Prop where
  dbImportSwitchId : host.dbImportSwitchId.toInt = numberOf row.properties "db_sw_id" (-1)
  numPorts : (host.numPorts.toNat : Int) = numberOf row.properties "num_ports" (-1)
  type : host.type.toInt = numberOf row.properties "type" 0
  dbId : message.dbId.toInt = numberOf row.properties "db_sw_id" (-1)
  messageType : message.type.toInt = numberOf row.properties "type" 0

/-- The numbers of the link and of its message are those of the row. -/
structure LinkKeeps (row : LinkRow) (link : Link) (message : RpcLink) : Prop where
  srcImportId : link.srcImportId.toInt = numberOf row.properties "db_sw_id" 0
  dstImportId : link.dstImportId.toInt = numberOf row.properties "db_ref_sw_id" 0
  srcPort : (link.srcPort.toNat : Int) = numberOf row.properties "port_id" 0
  dstPort : (link.dstPort.toNat : Int) = numberOf row.properties "ref_port_id" 1
  capacityMbit : link.capacityMbit.toInt = numberOf row.properties "speed" 0
  quality : link.quality.toInt = numberOf row.properties "quality" 0
  type : link.type.toInt = numberOf row.properties "link_type" 0
  dbStartId : message.dbStartId.toInt = numberOf row.properties "db_sw_id" 0
  dbEndId : message.dbEndId.toInt = numberOf row.properties "db_ref_sw_id" 0
  srcSwPort : message.srcSwPort.toInt = numberOf row.properties "port_id" 0
  dstSwPort : message.dstSwPort.toInt = numberOf row.properties "ref_port_id" 1
  messageCapacity : message.capacityMbit.toInt = numberOf row.properties "speed" 0
  messageQuality : message.quality.toInt = numberOf row.properties "quality" 0
  messageType : message.type.toInt = numberOf row.properties "link_type" 0

theorem hostKeeps_iff (row : HostRow) (states : List HostState) (metrics : MetricMap) :
    HostKeeps row (readHostRow row) (hostToRpc (readHostRow row) states metrics) ↔
      Signed 31 (numberOf row.properties "db_sw_id" (-1)) ∧
      Unsigned 16 (numberOf row.properties "num_ports" (-1)) ∧
      Signed 15 (numberOf row.properties "type" 0) := by
  have switch := toInt32_exact_iff (readInt64Prop row.properties "db_sw_id" (-1))
  have ports := toUInt16_exact_iff (readInt64Prop row.properties "num_ports" (-1))
  have kind := toInt16_exact_iff (readInt64Prop row.properties "type" 0)
  rw [readInt64Prop_toInt] at switch ports kind
  constructor
  · intro keeps
    exact ⟨switch.mp keeps.dbImportSwitchId, ports.mp keeps.numPorts, kind.mp keeps.type⟩
  · rintro ⟨fitsSwitch, fitsPorts, fitsKind⟩
    exact {
      dbImportSwitchId := switch.mpr fitsSwitch
      numPorts := ports.mpr fitsPorts
      type := kind.mpr fitsKind
      dbId := switch.mpr fitsSwitch
      messageType := (Int16.toInt_toInt32 _).trans (kind.mpr fitsKind) }

theorem linkKeeps_iff (row : LinkRow) :
    LinkKeeps row (readLinkRow row) (linkToRpc (readLinkRow row)) ↔
      Signed 31 (numberOf row.properties "db_sw_id" 0) ∧
      Signed 31 (numberOf row.properties "db_ref_sw_id" 0) ∧
      Unsigned 16 (numberOf row.properties "port_id" 0) ∧
      Unsigned 16 (numberOf row.properties "ref_port_id" 1) ∧
      Signed 31 (numberOf row.properties "speed" 0) ∧
      Signed 31 (numberOf row.properties "quality" 0) ∧
      Signed 15 (numberOf row.properties "link_type" 0) := by
  have start := toInt32_exact_iff (readInt64Prop row.properties "db_sw_id" 0)
  have stop := toInt32_exact_iff (readInt64Prop row.properties "db_ref_sw_id" 0)
  have src := toUInt16_exact_iff (readInt64Prop row.properties "port_id" 0)
  have dst := toUInt16_exact_iff (readInt64Prop row.properties "ref_port_id" 1)
  have speed := toInt32_exact_iff (readInt64Prop row.properties "speed" 0)
  have quality := toInt32_exact_iff (readInt64Prop row.properties "quality" 0)
  have kind := toInt16_exact_iff (readInt64Prop row.properties "link_type" 0)
  have whole := readInt64Prop_toInt row.properties "speed" 0
  rw [readInt64Prop_toInt] at start stop src dst speed quality kind
  constructor
  · intro keeps
    exact ⟨start.mp keeps.srcImportId, stop.mp keeps.dstImportId, src.mp keeps.srcPort,
      dst.mp keeps.dstPort, speed.mp keeps.messageCapacity, quality.mp keeps.quality,
      kind.mp keeps.type⟩
  · rintro ⟨fitsStart, fitsStop, fitsSrc, fitsDst, fitsSpeed, fitsQuality, fitsKind⟩
    exact {
      srcImportId := start.mpr fitsStart
      dstImportId := stop.mpr fitsStop
      srcPort := src.mpr fitsSrc
      dstPort := dst.mpr fitsDst
      capacityMbit := whole
      quality := quality.mpr fitsQuality
      type := kind.mpr fitsKind
      dbStartId := start.mpr fitsStart
      dbEndId := stop.mpr fitsStop
      srcSwPort := (widened_toInt _).trans (src.mpr fitsSrc)
      dstSwPort := (widened_toInt _).trans (dst.mpr fitsDst)
      messageCapacity := speed.mpr fitsSpeed
      messageQuality := quality.mpr fitsQuality
      messageType := (Int16.toInt_toInt32 _).trans (kind.mpr fitsKind) }

/-- The message has the numbers the node is stored under. -/
def HostIdKept (row : HostRow) (message : Node) : Prop := message.id.toInt = row.id.toInt

/-- The message has the numbers the link and its ends are stored under. -/
structure LinkIdsKept (row : LinkRow) (message : RpcLink) : Prop where
  id : message.id.toInt = row.id.toInt
  startNodeId : message.startNodeId.toInt = row.srcNodeId.toInt
  endNodeId : message.endNodeId.toInt = row.dstNodeId.toInt

theorem linkIdsKept_iff (row : LinkRow) :
    LinkIdsKept row (linkToRpc (readLinkRow row)) ↔
      Signed 31 row.id.toInt ∧ Signed 31 row.srcNodeId.toInt ∧ Signed 31 row.dstNodeId.toInt := by
  rw [← toInt32_exact_iff, ← toInt32_exact_iff, ← toInt32_exact_iff]
  constructor
  · rintro ⟨id, start, stop⟩
    exact ⟨id, start, stop⟩
  · rintro ⟨id, start, stop⟩
    exact ⟨id, start, stop⟩

/-- The numbers of a node and of a link arrive unchanged exactly when the types
on the way have them, the defaults included; and so do the numbers they are
stored under. -/
theorem numbers_kept_iff (row : HostRow) (states : List HostState) (metrics : MetricMap)
    (link : LinkRow) :
    ((HostKeeps row (readHostRow row) (hostToRpc (readHostRow row) states metrics) ↔
        Signed 31 (numberOf row.properties "db_sw_id" (-1)) ∧
        Unsigned 16 (numberOf row.properties "num_ports" (-1)) ∧
        Signed 15 (numberOf row.properties "type" 0)) ∧
      (HostIdKept row (hostToRpc (readHostRow row) states metrics) ↔ Signed 31 row.id.toInt)) ∧
    (LinkKeeps link (readLinkRow link) (linkToRpc (readLinkRow link)) ↔
      Signed 31 (numberOf link.properties "db_sw_id" 0) ∧
      Signed 31 (numberOf link.properties "db_ref_sw_id" 0) ∧
      Unsigned 16 (numberOf link.properties "port_id" 0) ∧
      Unsigned 16 (numberOf link.properties "ref_port_id" 1) ∧
      Signed 31 (numberOf link.properties "speed" 0) ∧
      Signed 31 (numberOf link.properties "quality" 0) ∧
      Signed 15 (numberOf link.properties "link_type" 0)) ∧
    (LinkIdsKept link (linkToRpc (readLinkRow link)) ↔
      Signed 31 link.id.toInt ∧ Signed 31 link.srcNodeId.toInt ∧ Signed 31 link.dstNodeId.toInt) :=
  ⟨⟨hostKeeps_iff row states metrics, toInt32_exact_iff row.id⟩, linkKeeps_iff link, linkIdsKept_iff link⟩

/-- A node without a number of ports is said to have 65535 of them. -/
theorem missing_ports_counted :
    (readHostRow { id := 1 }).numPorts = 65535 ∧
      ¬HostKeeps { id := 1 } (readHostRow { id := 1 })
        (hostToRpc (readHostRow { id := 1 }) [] ∅) := by
  refine ⟨rfl, fun keeps => ?_⟩
  have ports := keeps.numPorts
  contradiction

end NetGraphz.RowNumbers
