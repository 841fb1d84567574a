import Mathlib.Data.Finmap

/-! The generator of the Icinga configuration: its search through the graph, and
the nodes and connections it collects for the files it writes. -/
namespace NetGraphz.ConfigGenerator

/-- A node as the generator gets it, with the properties it looks at. -/
structure Node where
  name : Option String := none
  icingaName : Option String := none
  ipAddress : Option String := none
  deriving DecidableEq

/-- What `strip` takes away from a text of Python 2. -/
def isSpace (c : Char) : Bool :=
  let code := c.toNat
  (9 ≤ code && code ≤ 13) || (28 ≤ code && code ≤ 32) || code = 0x85 || code = 0xa0 ||
    code = 0x1680 || code = 0x180e || (0x2000 ≤ code && code ≤ 0x200a) || code = 0x2028 ||
    code = 0x2029 || code = 0x202f || code = 0x205f || code = 0x3000

/-- `strip`, as a list of characters. -/
def strip (text : String) : List Char :=
  ((text.toList.dropWhile isSpace).reverse.dropWhile isSpace).reverse

/-- `need_make_cfg`. -/
def needMakeCfg (node : Node) : Bool :=
  match node.icingaName, node.ipAddress with
  | some icingaName, some ipAddress =>
    0 < (strip ipAddress).length && 0 < (strip icingaName).length
  | _, _ => false

/-- All characters of the text are ASCII. -/
def isAscii (text : String) : Bool := text.toList.all fun c => c.toNat < 128

abbrev Connections := Finmap (fun _ : Nat => List Nat)

/-- `add_connection`. -/
def addConnection (connections : Connections) (nodeFrom nodeTo : Nat) : Connections :=
  match connections.lookup nodeFrom with
  | some children =>
    if nodeTo ∈ children then connections
    else connections.insert nodeFrom (children ++ [nodeTo])
  | none => connections.insert nodeFrom [nodeTo]

/-- The lists and tables the generator fills. -/
structure State where
  scannedNodesId : List Nat := []
  nodes : List Nat := []
  connections : Connections := ∅
  nodesById : Finmap (fun _ : Nat => Node) := ∅

/-- The graph: the nodes that are stored, by id, and where the links of each
lead, in the order they are matched in, which is always to stored nodes. -/
structure Graph where
  stored : List (Nat × Node)
  links : Nat → List Nat
  linked : ∀ nodeId, ∀ endNode ∈ links nodeId, endNode ∈ stored.map Prod.fst

/-- `get_node_full`. -/
def getNodeFull (graph : Graph) (nodeId : Nat) : Option Node := graph.stored.lookup nodeId

/-- What stops the search: a node that is not stored, too deep a recursion, or a
name that is not ASCII. -/
inductive Stop where
  | missing
  | depth
  | encode

/-- Printing a text with the name of a node in it. The text is one of bytes, so
`format` encodes the name as ASCII; a name that is not there reads as `None`. -/
def printName (node : Node) : Except Stop Unit :=
  if isAscii (node.name.getD "None") then .ok () else .error .encode

/-- What `dfs` does with a node before it looks at the links: the state, and the
parent that can be used below. -/
def enter (state : State) (nodeId : Nat) (node : Node) (usableParentId : Option Nat) :
    State × Option Nat :=
  let state :=
    { state with
      nodesById := state.nodesById.insert nodeId node
      scannedNodesId := state.scannedNodesId ++ [nodeId] }
  let state :=
    match usableParentId with
    | none => state
    | some parent => { state with connections := addConnection state.connections parent nodeId }
  if needMakeCfg node then ({ state with nodes := state.nodes ++ [nodeId] }, some nodeId)
  else (state, usableParentId)

/-- The print of the node a link leads to. -/
def printEndNode (graph : Graph) (endNode : Nat) : Except Stop Unit :=
  match getNodeFull graph endNode with
  | none => .error .missing
  | some node => printName node

/-- `dfs`, with a bound on the depth of the recursion. -/
def dfs (graph : Graph) : Nat → Nat → Option Nat → State → Except Stop State
  | 0, _, _, _ => .error .depth
  | depth + 1, nodeId, usableParentId, state =>
    match getNodeFull graph nodeId with
    | none => .error .missing
    | some node => do
      let (state, usableParentId) := enter state nodeId node usableParentId
      printName node
      let state ← (graph.links nodeId).foldlM
        (fun state endNode =>
          if endNode ∈ state.scannedNodesId then .ok state
          else do
            printEndNode graph endNode
            dfs graph depth endNode usableParentId state)
        state
      printName node
      return state

end NetGraphz.ConfigGenerator
