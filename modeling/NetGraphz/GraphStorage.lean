import Mathlib.Data.List.Sort
import NetGraphz.Base.GoNet
import NetGraphz.Base.Keyed

/-! The nodes of the graph and the storage they are read from. -/
namespace NetGraphz.GraphStorage

/-- `Host`. -/
structure Host where
  id : Int64
  dbImportSwitchId : Int32 := -1
  name : String := ""
  icingaName : String := ""
  ip : NetIP := none
  ip6 : NetIP := none
  macAddress : String := ""
  address : String := ""
  comment : String := ""
  model : String := ""
  serial : String := ""
  numPorts : UInt16 := 0
  type : Int16 := 0
  deriving DecidableEq

/-- `GraphStorage`, as far as nodes are read from it: a node it lists is the
one it has under that id. -/
structure Storage where
  getNodeById : Int64 → Except String Host
  getAllNodesFrom : Int64 → Int32 → Except String (List Host)
  consistent : ∀ {fromId nTake hosts}, getAllNodesFrom fromId nTake = .ok hosts →
    ∀ host ∈ hosts, getNodeById host.id = .ok host

/-- A graph: nodes with different ids. -/
structure Graph where
  nodes : List Host
  distinct : (nodes.map Host.id).Nodup

/-- The node with an id. -/
def Graph.nodeById (graph : Graph) (id : Int64) : Except String Host :=
  match graph.nodes.find? fun node => node.id = id with
  | some node => .ok node
  | none => .error "Node not found"

/-- Up to so many nodes with ids after one, in the order of their ids. -/
def Graph.nodesFrom (graph : Graph) (fromId : Int64) (nTake : Int32) : List Host :=
  let later := graph.nodes.filter fun node => fromId < node.id
  (later.insertionSort fun node other => node.id ≤ other.id).take nTake.toInt.toNat

theorem Graph.nodeById_of_mem (graph : Graph) (member : host ∈ graph.nodes) :
    graph.nodeById host.id = .ok host := by
  unfold nodeById
  rw [Keyed.find_of_mem graph.distinct member]

theorem Graph.mem_nodesFrom (graph : Graph) (listed : host ∈ graph.nodesFrom fromId nTake) :
    host ∈ graph.nodes := by
  have later := (List.mem_insertionSort _).mp (List.mem_of_mem_take listed)
  exact (List.mem_filter.mp later).1

/-- The storage of an unchanging graph; a negative limit is refused. -/
def Graph.storage (graph : Graph) : Storage where
  getNodeById := graph.nodeById
  getAllNodesFrom fromId nTake :=
    if nTake < 0 then .error "Invalid limit" else .ok (graph.nodesFrom fromId nTake)
  consistent := by
    intro fromId nTake hosts listed host member
    split at listed
    · cases listed
    · cases listed
      exact graph.nodeById_of_mem (graph.mem_nodesFrom member)

end NetGraphz.GraphStorage
