import Mathlib.Data.Finmap
import NetGraphz.NodeParts

/-! The links of the graph, from the rows of the database through the link
service to the list the web server renders, and the limit that list is fetched
with. -/
namespace NetGraphz.GraphLinks
open GraphStorage NodeParts

/-- `types.CypherValue`, as far as properties of links are read. -/
inductive CypherValue where
  | int (value : Int64)
  | int64 (value : Int64)
  | string (value : String)
  | other

abbrev Properties := Finmap (fun _ : String => CypherValue)

/-- `read_int64_prop`. -/
def readInt64Prop (properties : Properties) (prop : String) (defaultValue : Int64) : Int64 :=
  match properties.lookup prop with
  | some (.int value) => value
  | some (.int64 value) => value
  | _ => defaultValue

/-- `read_string_prop`. -/
def readStringProp (properties : Properties) (prop : String) : String :=
  match properties.lookup prop with
  | some (.string value) => value
  | _ => ""

/-- `Link`. -/
structure Link where
  id : Int64
  srcImportId : Int32
  dstImportId : Int32
  srcPort : UInt16
  dstPort : UInt16
  srcNodeId : Int64
  dstNodeId : Int64
  capacityMbit : Int64
  quality : Int32
  type : Int16
  comment : String
  rxOctetsMetric : String
  txOctetsMetric : String

/-- A row of the query on links: `Id(r), Id(n), Id(c), r`. -/
structure LinkRow where
  id : Int64
  srcNodeId : Int64
  dstNodeId : Int64
  properties : Properties := ∅

/-- `read_link_row`. -/
def readLinkRow (row : LinkRow) : Link where
  id := row.id
  srcNodeId := row.srcNodeId
  dstNodeId := row.dstNodeId
  quality := (readInt64Prop row.properties "quality" 0).toInt32
  srcImportId := (readInt64Prop row.properties "db_sw_id" 0).toInt32
  dstImportId := (readInt64Prop row.properties "db_ref_sw_id" 0).toInt32
  srcPort := (readInt64Prop row.properties "port_id" 0).toInt16.toUInt16
  dstPort := (readInt64Prop row.properties "ref_port_id" 1).toInt16.toUInt16
  capacityMbit := readInt64Prop row.properties "speed" 0
  comment := readStringProp row.properties "comment"
  type := (readInt64Prop row.properties "link_type" 0).toInt16
  rxOctetsMetric := readStringProp row.properties "rx_metric"
  txOctetsMetric := readStringProp row.properties "tx_metric"

/-- A graph with its links: rows with different ids, from zero on, between nodes
of the graph. -/
structure LinkedGraph extends Graph where
  links : List LinkRow
  linksDistinct : (links.map LinkRow.id).Nodup
  linksNatural : ∀ row ∈ links, 0 ≤ row.id
  linksBetween : ∀ row ∈ links,
    row.srcNodeId ∈ nodes.map Host.id ∧ row.dstNodeId ∈ nodes.map Host.id

/-- The queries that count. -/
inductive CountQuery where
  | nodesCount
  | linksCount

/-- Neo4j with a graph: without `ORDER BY`, rows come in an order of its own. -/
structure Neo4j where
  graph : LinkedGraph
  order : List LinkRow → List LinkRow
  complete : ∀ rows, (order rows).Perm rows

def Neo4j.count (neo4j : Neo4j) : CountQuery → Nat
  | .nodesCount => neo4j.graph.nodes.length
  | .linksCount => neo4j.graph.links.length

/-- `CYPHER_LINKS_FROM_ID`. -/
def Neo4j.linksFrom (neo4j : Neo4j) (fromId : Int64) (limit : Nat) : List LinkRow :=
  (neo4j.order (neo4j.graph.links.filter fun row => fromId < row.id)).take limit

/-- `Scan` of a count into 32 bits. -/
def scanInt32 (count : Nat) : Except String Int32 :=
  if count < 2 ^ 31 then .ok (Int32.ofNat count) else .error "value out of range"

/-- `queryInt32Noparam`: the query it is given is not the one it prepares. -/
def queryInt32Noparam (neo4j : Neo4j) (_query : CountQuery) : Except String Int32 :=
  scanInt32 (neo4j.count .nodesCount)

def getNodesCount (neo4j : Neo4j) : Except String Int32 := queryInt32Noparam neo4j .nodesCount

def getLinksCount (neo4j : Neo4j) : Except String Int32 := queryInt32Noparam neo4j .linksCount

/-- `GetAllLinksFrom`; a negative limit is refused. -/
def getAllLinksFrom (neo4j : Neo4j) (fromId : Int64) (nTake : Int32) :
    Except String (List Link) :=
  if nTake < 0 then .error "Invalid limit"
  else .ok ((neo4j.linksFrom fromId nTake.toInt.toNat).map readLinkRow)

/-- `rpc.Link`. -/
structure RpcLink where
  id : Int32
  startNodeId : Int32
  endNodeId : Int32
  dbStartId : Int32
  dbEndId : Int32
  quality : Int32
  srcSwPort : Int32
  dstSwPort : Int32
  comment : String
  type : Int32
  capacityMbit : Int32
  rxOctetsMetric : String
  txOctetsMetric : String

/-- `link_to_rpc`. -/
def linkToRpc (link : Link) : RpcLink where
  id := link.id.toInt32
  startNodeId := link.srcNodeId.toInt32
  endNodeId := link.dstNodeId.toInt32
  dbStartId := link.srcImportId
  dbEndId := link.dstImportId
  quality := link.quality
  srcSwPort := link.srcPort.toUInt32.toInt32
  dstSwPort := link.dstPort.toUInt32.toInt32
  comment := link.comment
  type := link.type.toInt32
  capacityMbit := link.capacityMbit.toInt32
  rxOctetsMetric := link.rxOctetsMetric
  txOctetsMetric := link.txOctetsMetric

/-- `rpc.LinksAllRequest`. -/
structure LinksAllRequest where
  lastId : Int32
  nTake : Int32

/-- `GetAllLinks`: the stream, and the error. -/
def getAllLinks (neo4j : Neo4j) (req : LinksAllRequest) : List RpcLink × Option String :=
  match getAllLinksFrom neo4j req.lastId.toInt64 req.nTake with
  | .error err => ([], some err)
  | .ok links => (links.map linkToRpc, none)

/-- `rpc.StatusResponse`. -/
structure StatusResponse where
  nNodes : Int32
  nLinks : Int32
  nMetrics : Int32

/-- `GetStatus`; `nMetrics` is what the metric storage counts. -/
def getStatus (neo4j : Neo4j) (nMetrics : Int32) : Except String StatusResponse := do
  let nLinks ← getLinksCount neo4j
  let nNodes ← getNodesCount neo4j
  return { nNodes := nNodes, nLinks := nLinks, nMetrics := nMetrics }

/-- One end of a link as it is rendered. -/
structure LinkEnd where
  id : Int32
  dbSwId : Int32
  portId : Int32

/-- A link as it is rendered: `jsonSerialize`. -/
structure JsonLink where
  id : Int32
  comment : String
  src : LinkEnd
  dst : LinkEnd
  linkSpeed : Int32
  rxOctets : String
  txOctets : String

/-- `getLink` of the adapter, as the link is rendered later. -/
def getLink (rpcLink : RpcLink) : JsonLink where
  id := rpcLink.id
  comment := rpcLink.comment
  src := ⟨rpcLink.startNodeId, rpcLink.dbStartId, rpcLink.srcSwPort⟩
  dst := ⟨rpcLink.endNodeId, rpcLink.dbEndId, rpcLink.dstSwPort⟩
  linkSpeed := rpcLink.capacityMbit
  rxOctets := rpcLink.rxOctetsMetric
  txOctets := rpcLink.txOctetsMetric

/-- `CountAllLinks`. When the status call fails there is no reply to read; that
is fatal. -/
def countAllLinks (neo4j : Neo4j) (nMetrics : Int32) : Option Int :=
  match getStatus neo4j nMetrics with
  | .error _ => none
  | .ok reply => some reply.nLinks.toInt

/-- `GetAllByLastId` of the links repository. An error that ends the stream is
not looked at. -/
def getAllByLastId (neo4j : Neo4j) (lastId nTake : Int) : List JsonLink :=
  (getAllLinks neo4j ⟨Int32.ofInt lastId, Int32.ofInt nTake⟩).1.map getLink

/-- `fetchAllLinksAction`: the links it renders, unless it ends fatally. -/
def fetchAllLinksAction (neo4j : Neo4j) (nMetrics : Int32) : Option (List JsonLink) :=
  match countAllLinks neo4j nMetrics with
  | none => none
  | some count => some (getAllByLastId neo4j 0 (count * 2 + 1))

/-- A link of the graph as it is rendered. -/
def renderedLink (row : LinkRow) : JsonLink := getLink (linkToRpc (readLinkRow row))

/-- Every link of the graph is rendered once. -/
def RendersEveryLink (neo4j : Neo4j) (nMetrics : Int32) : Prop :=
  ∃ links, fetchAllLinksAction neo4j nMetrics = some links ∧
    links.Perm (neo4j.graph.links.map renderedLink)

/-- The limit is derived from the number of nodes: the links must not be many
more, none may have the id zero, and the limit must fit. -/
structure LinksFit (graph : LinkedGraph) : Prop where
  noneAtStart : ∀ row ∈ graph.links, row.id ≠ 0
  fewEnough : (graph.nodes.length < 2 ^ 30 ∧ graph.links.length ≤ 2 * graph.nodes.length + 1) ∨
    (graph.nodes.length < 2 ^ 31 ∧ graph.links = [])

/-- The limit that arrives in the query. -/
def arrivingLimit (nodes : Nat) : Nat := (Int32.ofInt ((nodes : Int) * 2 + 1)).toInt.toNat

theorem arrivingLimit_of_small (small : nodes < 2 ^ 30) : arrivingLimit nodes = 2 * nodes + 1 := by
  unfold arrivingLimit
  rw [Int32.toInt_ofInt_of_le (by omega) (by omega)]
  omega

/-- From 2^30 nodes on, the limit is taken for a negative one. -/
theorem arrivingLimit_of_large (large : 2 ^ 30 ≤ nodes) (counted : nodes < 2 ^ 31) :
    arrivingLimit nodes = 0 := by
  unfold arrivingLimit
  have wrapped : ((nodes : Int) * 2 + 1).bmod Int32.size = (nodes : Int) * 2 + 1 - 2 ^ 32 := by
    rw [← Int.sub_bmod_right]
    exact Int.bmod_eq_of_le (by simp [Int32.size]; omega) (by simp [Int32.size]; omega)
  rw [Int32.toInt_ofInt, wrapped]
  omega

theorem scanInt32_ok (fits : count < 2 ^ 31) : scanInt32 count = .ok (Int32.ofNat count) :=
  if_pos fits

theorem scanInt32_error (large : ¬ count < 2 ^ 31) :
    scanInt32 count = .error "value out of range" := if_neg large

/-- What the action renders when the nodes can be counted. -/
theorem fetchAllLinksAction_eq (neo4j : Neo4j) (nMetrics : Int32)
    (counted : neo4j.graph.nodes.length < 2 ^ 31) :
    fetchAllLinksAction neo4j nMetrics =
      some ((neo4j.linksFrom 0 (arrivingLimit neo4j.graph.nodes.length)).map renderedLink) := by
  have count : countAllLinks neo4j nMetrics = some (neo4j.graph.nodes.length : Int) := by
    have back := Int32.toInt_ofNat_of_lt counted
    simp only [countAllLinks, getStatus, getLinksCount, getNodesCount, queryInt32Noparam,
      Neo4j.count, scanInt32_ok counted, bind, Except.bind, pure, Except.pure, back]
  unfold fetchAllLinksAction
  rw [count]
  simp only [getAllByLastId, getAllLinks, getAllLinksFrom, arrivingLimit]
  split
  · rename_i refused
    split at refused
    · rename_i negative
      have below := Int32.lt_iff_toInt_lt.mp negative
      rw [Int32.toInt_zero] at below
      have zero : (Int32.ofInt ((neo4j.graph.nodes.length : Int) * 2 + 1)).toInt.toNat = 0 := by
        omega
      simp only [zero, Neo4j.linksFrom, List.take_zero, List.map_nil]
    · cases refused
  · rename_i links listed
    split at listed
    · cases listed
    · cases listed
      have zero : (Int32.ofInt 0).toInt64 = 0 := by decide
      simp only [zero, List.map_map]
      rfl

/-- The action renders every link exactly when none has the id zero and the links
are at most one more than twice the nodes, whose number is below 2^30; above, it
renders none. -/
theorem renders_every_link_iff (neo4j : Neo4j) (nMetrics : Int32) :
    RendersEveryLink neo4j nMetrics ↔ LinksFit neo4j.graph := by
  have filtered := (neo4j.complete (neo4j.graph.links.filter fun row => 0 < row.id))
  have few := List.length_filter_le (fun row : LinkRow => decide (0 < row.id)) neo4j.graph.links
  by_cases counted : neo4j.graph.nodes.length < 2 ^ 31
  · unfold RendersEveryLink
    rw [fetchAllLinksAction_eq neo4j nMetrics counted]
    constructor
    · rintro ⟨links, rendered, perm⟩
      cases rendered
      have lengths := perm.length_eq
      rw [List.length_map, List.length_map, Neo4j.linksFrom, List.length_take,
        filtered.length_eq] at lengths
      refine ⟨?_, ?_⟩
      · intro row member zero
        have all := List.length_filter_eq_length_iff.mp (by omega :
          (neo4j.graph.links.filter fun row => 0 < row.id).length = neo4j.graph.links.length)
        have positive := all row member
        rw [zero] at positive
        simp at positive
      · by_cases small : neo4j.graph.nodes.length < 2 ^ 30
        · rw [arrivingLimit_of_small small] at lengths
          exact Or.inl ⟨small, by omega⟩
        · rw [arrivingLimit_of_large (not_lt.mp small) counted] at lengths
          exact Or.inr ⟨counted, List.length_eq_zero_iff.mp (by omega)⟩
    · rintro ⟨noneAtStart, fewEnough⟩
      refine ⟨_, rfl, ?_⟩
      have kept : (neo4j.graph.links.filter fun row => 0 < row.id) = neo4j.graph.links := by
        apply List.filter_eq_self.mpr
        intro row member
        have natural := Int64.le_iff_toInt_le.mp (neo4j.graph.linksNatural row member)
        have nonzero : row.id.toInt ≠ 0 := fun zero =>
          noneAtStart row member (Int64.toInt_inj.mp (by rw [zero, Int64.toInt_zero]))
        rw [Int64.toInt_zero] at natural
        rw [decide_eq_true_iff, Int64.lt_iff_toInt_lt, Int64.toInt_zero]
        omega
      rw [kept] at filtered
      have enough : neo4j.graph.links.length ≤ arrivingLimit neo4j.graph.nodes.length := by
        rcases fewEnough with ⟨small, few⟩ | ⟨_, none⟩
        · rw [arrivingLimit_of_small small]
          omega
        · simp [none]
      unfold Neo4j.linksFrom
      rw [kept, List.take_of_length_le (by rw [filtered.length_eq]; exact enough)]
      exact filtered.map renderedLink
  · have fatal : fetchAllLinksAction neo4j nMetrics = none := by
      simp only [fetchAllLinksAction, countAllLinks, getStatus, getLinksCount, queryInt32Noparam,
        Neo4j.count, scanInt32_error counted, bind, Except.bind]
    constructor
    · rintro ⟨links, rendered, _⟩
      rw [fatal] at rendered
      cases rendered
    · rintro ⟨_, ⟨small, _⟩ | ⟨small, _⟩⟩
      · omega
      · exact absurd small counted

/-- Two nodes with six links between them. -/
def sixParallelLinks : Neo4j where
  graph :=
    { nodes := [{ id := 1 }, { id := 2 }]
      distinct := by decide
      links := [⟨1, 1, 2, ∅⟩, ⟨2, 1, 2, ∅⟩, ⟨3, 1, 2, ∅⟩, ⟨4, 1, 2, ∅⟩, ⟨5, 1, 2, ∅⟩, ⟨6, 1, 2, ∅⟩]
      linksDistinct := by decide
      linksNatural := by decide
      linksBetween := by decide }
  order := id
  complete := fun rows => List.Perm.refl rows

/-- One of the six links is not rendered. -/
theorem six_links_cut : ¬ RendersEveryLink sixParallelLinks 0 := by
  rintro ⟨links, rendered, perm⟩
  rw [fetchAllLinksAction_eq sixParallelLinks 0 (by decide)] at rendered
  cases rendered
  have lengths := perm.length_eq
  revert lengths
  decide

end NetGraphz.GraphLinks
