import NetGraphz.Base.History
import NetGraphz.GraphStore

/-! The picture of the network: how nodes and links are drawn at first, and how
the renderer repaints them when the store announces an update, before it makes
the update. -/
namespace NetGraphz.GraphRenderer
open GraphStore JsNumber

/-- The setting the renderer's decisions depend on, and `Math.log10`. -/
structure Settings (R : Type u) where
  default_state_source : Option String
  log10 : R → R

/-- The style of an edge as `_prepare_edge_style` returns it. -/
structure Style where
  lineColor : String
  sourceArrowColor : String
  targetArrowColor : String
  width : Option String
  deriving DecidableEq

/-- The properties set on an edge so far. -/
structure Css where
  lineColor : Option String := none
  sourceArrowColor : Option String := none
  targetArrowColor : Option String := none
  width : Option String := none
  deriving DecidableEq

/-- `css`, which leaves alone what the style does not have. -/
def Css.set (css : Css) (style : Style) : Css where
  lineColor := some style.lineColor
  sourceArrowColor := some style.sourceArrowColor
  targetArrowColor := some style.targetArrowColor
  width := style.width.or css.width

/-- A node in the graph, with the words of its `class`. -/
structure DrawnNode where
  id : Int
  classes : List String
  deriving DecidableEq

/-- An edge in the graph; `style` is the style it was made with. -/
structure DrawnEdge where
  real_id : Int
  source : Int
  target : Int
  style : Style
  css : Css
  deriving DecidableEq

structure Graph where
  nodes : List DrawnNode
  edges : List DrawnEdge
  deriving DecidableEq

/-! ## Colors -/

section
variable [JsNumber R]

/-- `hsvToRgb`. -/
def hsvToRgb (h s v : R) : List Whole :=
  let h := max (lit 0) (min (lit 360) h)
  let s := max (lit 0) (min (lit 100) s)
  let v := max (lit 0) (min (lit 100) v)
  let s := s / lit 100
  let v := v / lit 100
  let rounded (r g b : R) := [round (r * lit 255), round (g * lit 255), round (b * lit 255)]
  if equal s (lit 0) then rounded v v v
  else
    let h := h / lit 60
    let i := floor h
    let f := h - ofWhole i
    let p := v * (lit 1 - s)
    let q := v * (lit 1 - s * f)
    let t := v * (lit 1 - s * (lit 1 - f))
    match i with
    | .number 0 => rounded v t p
    | .number 1 => rounded q v p
    | .number 2 => rounded p v t
    | .number 3 => rounded p q v
    | .number 4 => rounded t p v
    | _ => rounded v p q

/-- A color as the style sheet spells it. -/
def rgbText (color : List Whole) : String :=
  "rgb(" ++ String.intercalate "," (color.map Whole.text) ++ ")"

/-- `get_edge_color_class`. -/
def getEdgeColorClass (rx_rate tx_rate capacity : R) (duplex : Bool) : Style :=
  if equal capacity (lit 0) || (equal tx_rate (lit (-1)) && equal rx_rate (lit (-1))) then
    { lineColor := "#C0C0C0"
      sourceArrowColor := "#C0C0C0"
      targetArrowColor := "#C0C0C0"
      width := none }
  else
    let rx_load := min (lit 1) (rx_rate / capacity)
    let tx_load := min (lit 1) (tx_rate / capacity)
    let load := if !duplex then (rx_rate + tx_rate) / capacity else max rx_load tx_load
    let color (load : R) : String :=
      rgbText (hsvToRgb (ofWhole (round (lit 100 * (lit 1 - load))) : R) (lit 100) (lit 85))
    { lineColor := color load
      sourceArrowColor := color rx_load
      targetArrowColor := color tx_load
      width := none }

variable (settings : Settings R) (store : Store R)

/-- The rate of one direction, in megabits: of its metric's first value, or -1. -/
def rateOf (name : String) : Option R :=
  if name ≠ "" then
    match store.getMetricValues name with
    | none => none
    | some (some (value :: _)) => some (value * lit 8 / lit 1000000)
    | some _ => some (lit (-1))
  else some (lit (-1))

/-- `e.link_speed || 0`. -/
def capacityOf (link : Link R) : R :=
  match link.link_speed with
  | some speed => if truthy speed then speed else lit 0
  | none => lit 0

/-- `_prepare_edge_style`; `none` is the exception of `getMetricValues`. -/
def prepareEdgeStyle (link : Link R) : Option Style :=
  match rateOf store link.rx_octets, rateOf store link.tx_octets with
  | some rx_load, some tx_load =>
    let capacity := capacityOf link
    let css := getEdgeColorClass rx_load tx_load capacity (link.duplex.getD true)
    some { css with
      width :=
        if equal capacity (lit 10) || less (lit 10) capacity then
          some ((round (settings.log10 capacity)).text ++ "px")
        else none }
  | _, _ => none

/-! ## The first drawing -/

/-- `state_classes`. -/
def stateClasses : Int → Option String
  | 0 => some "node_up"
  | 1 => some "node_down"
  | 2 => some "node_warn"
  | 3 => some "node_unknown"
  | 4 => some "node_flap"
  | _ => none

/-- The class `state_classes` gives for a node's state. -/
def stateClass (node : Node R) : Option String :=
  (getNodePrefEffectiveState settings.default_state_source node).bind stateClasses

/-- The words of the classes a node is drawn with. A state that has no class
leaves `undefined` in the text a type is added to. -/
def initialClasses (node : Node R) : List String :=
  let classes : Option (List String) :=
    match getNodePrefEffectiveState settings.default_state_source node with
    | none => some []
    | some ef_state => (stateClasses ef_state).map fun name => [name]
  if node.type = some 3 then classes.getD ["undefined"] ++ ["transport"] else classes.getD []

/-- A node is added, unless one with its identifier is there. -/
def drawNode (drawn : List DrawnNode) (node : Node R) : List DrawnNode :=
  if node.id ∈ drawn.map DrawnNode.id then drawn
  else drawn ++ [{ id := node.id, classes := initialClasses settings node }]

/-- One turn of the loop over the links: of the links between two nodes that
are drawn the first one is, unless an edge with its identifier is there. -/
def drawEdge (nodes : List (Node R)) (progress : List (Int × Int) × List DrawnEdge)
    (link : Link R) : Option (List (Int × Int) × List DrawnEdge) :=
  let (ex_links, drawn) := progress
  if (link.src, link.dst) ∈ ex_links ∨ (link.dst, link.src) ∈ ex_links then some progress
  else if link.src ∈ nodes.map Node.id ∧ link.dst ∈ nodes.map Node.id then
    match prepareEdgeStyle settings store link with
    | none => none
    | some style =>
      let ex_links := (link.src, link.dst) :: ex_links
      if link.id ∈ drawn.map DrawnEdge.real_id then some (ex_links, drawn)
      else
        let edge :=
          { real_id := link.id, source := link.src, target := link.dst, style, css := {} }
        some (ex_links, drawn ++ [edge])
  else some progress

/-- `render_graph`; `none` when it throws. -/
def renderGraph (nodes : List (Node R)) (edges : List (Link R)) : Option Graph :=
  match edges.foldlM (drawEdge settings store nodes) ([], []) with
  | none => none
  | some (_, drawn) => some { nodes := nodes.foldl (drawNode settings) [], edges := drawn }

/-! ## Repainting -/

/-- One turn of the loop of `_update_node_links_status`. A link that is not
found is null, which the code does not provide for. -/
def paintEdge (edge : DrawnEdge) : Option DrawnEdge :=
  match store.getLinkById edge.real_id with
  | none => none
  | some link =>
    if (link.rx_octets = "" ∧ link.tx_octets = "") ∨ !(link.link_speed.any truthy) then some edge
    else (prepareEdgeStyle settings store link).map fun style =>
      { edge with css := edge.css.set style }

/-- The edge is one of the node's `connectedEdges`. -/
def DrawnEdge.Incident (edge : DrawnEdge) (id : Int) : Prop := edge.source = id ∨ edge.target = id

instance (edge : DrawnEdge) (id : Int) : Decidable (edge.Incident id) :=
  inferInstanceAs (Decidable (_ ∨ _))

/-- `_update_node_links_status`, and whether it threw. -/
def updateNodeLinksStatus (id : Int) : List DrawnEdge → List DrawnEdge × Bool
  | [] => ([], false)
  | edge :: rest =>
    if edge.Incident id then
      match paintEdge settings store edge with
      | none => (edge :: rest, true)
      | some painted =>
        let (rest, threw) := updateNodeLinksStatus id rest
        (painted :: rest, threw)
    else
      let (rest, threw) := updateNodeLinksStatus id rest
      (edge :: rest, threw)

/-- The classes that are removed before one of them is added. -/
def stateClassNames : List String :=
  ["node_unknown", "node_down", "node_up", "node_warn", "node_flap"]

/-- `_update_node_status`. -/
def updateNodeStatus (nodes : List DrawnNode) (node : Node R) : List DrawnNode :=
  nodes.map fun drawn =>
    if drawn.id = node.id then
      { drawn with
        classes := (drawn.classes.filter fun name => name ∉ stateClassNames) ++
          (stateClass settings node).toList }
    else drawn

/-- `requires_update`: the node is new, or its state is not that of the stored one. -/
def requiresUpdate (node : Node R) : Bool :=
  match store.getNodeById node.id with
  | none => true
  | some prevNode =>
    getNodePrefEffectiveState settings.default_state_source node ≠
      getNodePrefEffectiveState settings.default_state_source prevNode

/-- The renderer's `update_node`, and whether it threw. -/
def update_node (graph : Graph) (node : Node R) : Graph × Bool :=
  match updateNodeLinksStatus settings store node.id graph.edges with
  | (edges, true) => ({ graph with edges }, true)
  | (edges, false) =>
    if requiresUpdate settings store node then
      ({ nodes := updateNodeStatus settings graph.nodes node, edges }, false)
    else ({ graph with edges }, false)

/-- The renderer's `update_batch_nodes`, up to where it throws. -/
def update_batch_nodes (graph : Graph) : List (Node R) → Graph
  | [] => graph
  | node :: rest =>
    match update_node settings store graph node with
    | (graph, true) => graph
    | (graph, false) => update_batch_nodes graph rest

/-! ## The store and its subscriber -/

/-- The store and the graph that is drawn. -/
structure Page (R : Type u) where
  store : Store R
  graph : Graph

/-- `updateNode`. What the subscriber throws is thrown later, out of the
store's sight. -/
def updateNode (page : Page R) (node : Node R) : Page R where
  store := page.store.enterNode node
  graph :=
    if (page.store.nodesById node.id).isSome then
      (update_node settings page.store page.graph node).1
    else page.graph

/-- `updateNodes`. -/
def updateNodes (page : Page R) (nodes : List (Node R)) : Page R where
  store := nodes.foldl Store.enterNode page.store
  graph := update_batch_nodes settings page.store page.graph nodes

/-- The callback of the timer `render_graph` sets, "make it more colorful". -/
def colorful (page : Page R) : Page R :=
  { page with
    graph := { page.graph with
      edges := page.graph.edges.map fun edge => { edge with css := edge.css.set edge.style } } }

/-- What happens to a page. A batch names each node once. -/
inductive Event (R : Type u) where
  | updateNode (node : Node R)
  | updateNodes (nodes : List (Node R)) (distinct : (nodes.map Node.id).Nodup)
  | colorful

def step (page : Page R) : Event R → Page R
  | .updateNode node => updateNode settings page node
  | .updateNodes nodes _ => updateNodes settings page nodes
  | .colorful => colorful page

/-- The page after a history, from the drawing of what was loaded. -/
def afterEvents (nodes : List (Node R)) (links : List (Link R)) (graph : Graph)
    (history : List (Event R)) : Page R :=
  after (step settings) { store := loadAll newStore nodes links, graph } history

end

end NetGraphz.GraphRenderer
