import NetGraphz.Base.Paging
import NetGraphz.RpcServer

/-! The parts the web client fetches the nodes in: what reaches it for a
position and a part size, through the web server, the node service and the
query on the nodes. -/
namespace NetGraphz.NodeParts
open GraphStorage RpcServer StatusService

/-- A part size of the settings, and the limit that arrives for it in the query
after the URL, `intval` and a field of 32 bits: what fits arrives unchanged. -/
structure PartSize where
  size : Nat
  positive : 0 < size
  limit : Int32
  carried : size < 2 ^ 31 → limit.toInt = size

/-- A graph as Neo4j numbers it, from zero on. -/
structure NeoGraph extends Graph where
  natural : ∀ node ∈ nodes, 0 ≤ node.id

/-- The `id` of the node that is shown for a host. -/
def shownId (node : Host) : Int := node.id.toInt32.toInt

def storedId (node : Host) : Int := node.id.toInt

/-- The request behind `/Nodes/GetAllFrom/`. -/
def partRequest (lastId : Int) (parts : PartSize) : NodesAllRequest where
  lastId := Int32.ofInt lastId
  nTake := parts.limit
  includeState := true
  includeLastMetrics := 3

/-- The nodes of the part after an id. A limit that the query refuses ends the
stream at once, which reaches the client as an empty part. -/
def part (graph : Graph) (lastId : Int) (parts : PartSize) : List Host :=
  graph.nodesFrom (partRequest lastId parts).lastId.toInt64 (partRequest lastId parts).nTake

/-- The stream of the node service shows the nodes of the part. -/
theorem getAllNodes_shows_part (s : RPCServer) (clock : Clock) (listings : Nat → Listing)
    (graph : Graph) (stored : s.store = graph.storage) (lastId : Int) (parts : PartSize) :
    (getAllNodes s clock listings (partRequest lastId parts)).2.1.map
        (fun node => node.id.toInt) = (part graph lastId parts).map shownId := by
  unfold getAllNodes part
  rw [stored]
  unfold Graph.storage
  by_cases refused : (partRequest lastId parts).nTake < 0
  · have none : (partRequest lastId parts).nTake.toInt.toNat = 0 := by
      have below := Int32.lt_iff_toInt_lt.mp refused
      rw [Int32.toInt_zero] at below
      omega
    simp [refused, Graph.nodesFrom, none]
  · apply List.ext_getElem?
    intro i
    simp only [refused, if_false, List.getElem?_map, List.getElem?_mapIdx, Option.map_map]
    rfl

theorem shownId_lt (node : Host) : shownId node < 2 ^ 31 := Int32.toInt_lt _

/-- An id that fits is shown as it is. -/
theorem shownId_eq (natural : 0 ≤ node.id) (fits : storedId node < 2 ^ 31) :
    shownId node = storedId node := by
  unfold shownId storedId at *
  have low := Int64.le_iff_toInt_le.mp natural
  rw [Int64.toInt_zero] at low
  rw [Int64.toInt_toInt32]
  exact Int.bmod_eq_of_le (by omega) (by omega)

/-- An id that does not fit is shown as a smaller one. -/
theorem shownId_lt_storedId (large : 2 ^ 31 ≤ storedId node) : shownId node < storedId node :=
  lt_of_lt_of_le (shownId_lt node) large

theorem storedId_distinct (graph : Graph) : (graph.nodes.map storedId).Nodup := by
  have composed : graph.nodes.map storedId = (graph.nodes.map Host.id).map Int64.toInt := by
    simp [storedId, Function.comp_def]
  rw [composed]
  exact graph.distinct.map fun _ _ same => Int64.toInt_inj.mp same

/-- A part is a page of the nodes, in the order of their ids. -/
theorem part_eq_page (graph : Graph) (parts : PartSize) (low : 0 ≤ lastId)
    (high : lastId < 2 ^ 31) :
    part graph lastId parts =
      Paging.page storedId graph.nodes lastId parts.limit.toInt.toNat := by
  have position : (Int32.ofInt lastId).toInt64.toInt = lastId := by
    rw [Int32.toInt_toInt64, Int32.toInt_ofInt_of_le (by omega) (by omega)]
  unfold part Graph.nodesFrom Paging.page Paging.ascending storedId partRequest
  simp only [Int64.lt_iff_toInt_lt, Int64.le_iff_toInt_le, position]

end NetGraphz.NodeParts
