import NetGraphz.GraphRenderer

/-! What no update changes in the picture: which nodes and edges are drawn, and
that the store knows them. And what makes a repaint throw: a metric that has
taken the name of the method the metrics are looked up with. -/
namespace NetGraphz.RendererProofs
open GraphStore GraphRenderer JsNumber

variable {R : Type u} {store : Store R}

/-! ## The store -/

theorem enterNode_nodesById (store : Store R) (node : Node R) (id : Int) :
    (store.enterNode node).nodesById id = if id = node.id then some node else store.nodesById id :=
  Function.update_apply ..

theorem enterLink_linksById (store : Store R) (link : Link R) (id : Int) :
    (store.enterLink link).linksById id = if id = link.id then some link else store.linksById id :=
  Function.update_apply ..

/-- The last of the nodes entered under an identifier is the stored one. -/
theorem enterNodes_nodesById (nodes : List (Node R)) (store : Store R) (id : Int) :
    (nodes.foldl Store.enterNode store).nodesById id =
      (nodes.reverse.find? fun node => node.id = id).or (store.nodesById id) := by
  induction nodes using List.reverseRecOn with
  | nil => simp
  | append_singleton nodes node ih =>
    rw [List.foldl_append, List.reverse_concat, List.find?_cons]
    change ((nodes.foldl Store.enterNode store).enterNode node).nodesById id = _
    rw [enterNode_nodesById]
    by_cases same : node.id = id
    · simp [same]
    · rw [if_neg (Ne.symm same), ih]
      simp [same]

theorem enterNodes_linksById (nodes : List (Node R)) (store : Store R) :
    (nodes.foldl Store.enterNode store).linksById = store.linksById := by
  induction nodes generalizing store with
  | nil => rfl
  | cons node nodes ih => exact ih _

theorem enterLinks_nodesById (links : List (Link R)) (store : Store R) :
    (links.foldl Store.enterLink store).nodesById = store.nodesById := by
  induction links generalizing store with
  | nil => rfl
  | cons link links ih => exact ih _

/-- A node that is stored stays stored, in some version. -/
theorem enterNodes_known {nodes : List (Node R)} {id : Int}
    (known : (store.nodesById id).isSome) :
    ((nodes.foldl Store.enterNode store).nodesById id).isSome := by
  rw [enterNodes_nodesById, Option.isSome_or, known, Bool.or_true]

theorem enterLinks_linksById {links : List (Link R)} {link : Link R} (held : link ∈ links)
    (store : Store R) : ((links.foldl Store.enterLink store).linksById link.id).isSome := by
  induction links using List.reverseRecOn with
  | nil => cases held
  | append_singleton links last ih =>
    rw [List.foldl_append]
    change (((links.foldl Store.enterLink store).enterLink last).linksById link.id).isSome
    rw [enterLink_linksById]
    split
    · rfl
    · rename_i same
      rcases List.mem_append.mp held with before | now
      · exact ih before
      · exact absurd (congrArg Link.id (List.mem_singleton.mp now)) same

/-- What was loaded is found. -/
theorem loadAll_nodesById (nodes : List (Node R)) (links : List (Link R)) (id : Int) :
    (loadAll newStore nodes links).nodesById id =
      nodes.reverse.find? fun node => node.id = id := by
  unfold loadAll
  rw [enterLinks_nodesById, enterNodes_nodesById]
  exact Option.or_none

/-! ## Exceptions -/

/-- A metric has taken the place of the table's method. -/
def Shadowed (store : Store R) : Prop := (store.metrics "hasOwnProperty").isSome

theorem getMetricValues_eq_none (name : String) :
    store.getMetricValues name = none ↔ Shadowed store := by
  unfold Store.getMetricValues Shadowed
  split <;> simp [*]

variable [JsNumber R] {settings : Settings R}

/-- The link has a speed and the name of a metric. -/
def Metered (link : Link R) : Prop :=
  (link.rx_octets ≠ "" ∨ link.tx_octets ≠ "") ∧ link.link_speed.any truthy = true

theorem rateOf_eq_none (store : Store R) (name : String) :
    rateOf store name = none ↔ name ≠ "" ∧ Shadowed store := by
  unfold rateOf
  split
  · rename_i named
    cases found : store.getMetricValues name with
    | none => simp [named, (getMetricValues_eq_none name).mp found]
    | some values =>
      have clear : ¬ Shadowed store := by
        rw [← getMetricValues_eq_none name, found]
        simp
      rcases values with _ | ⟨_ | ⟨value, rest⟩⟩ <;> simp [clear]
  · rename_i unnamed
    simp [not_not.mp unnamed]

theorem prepareEdgeStyle_eq_none (link : Link R) :
    prepareEdgeStyle settings store link = none ↔
      Shadowed store ∧ (link.rx_octets ≠ "" ∨ link.tx_octets ≠ "") := by
  have rx := rateOf_eq_none store link.rx_octets
  have tx := rateOf_eq_none store link.tx_octets
  unfold prepareEdgeStyle
  cases rxRate : rateOf store link.rx_octets <;> cases txRate : rateOf store link.tx_octets <;>
    simp only [rxRate, txRate, reduceCtorEq, true_iff, false_iff] at rx tx ⊢ <;> tauto

/-- The repaint of an edge throws when its link's metrics cannot be looked up. -/
theorem paintEdge_eq_none {edge : DrawnEdge} {link : Link R}
    (found : store.getLinkById edge.real_id = some link) :
    paintEdge settings store edge = none ↔ Shadowed store ∧ Metered link := by
  unfold paintEdge Metered
  rw [found]
  dsimp only
  split
  · rename_i skipped
    simp only [reduceCtorEq, false_iff]
    rintro ⟨-, named, speed⟩
    rcases skipped with ⟨rx, tx⟩ | slow
    · tauto
    · simp [speed] at slow
  · rename_i taken
    rw [Option.map_eq_none_iff, prepareEdgeStyle_eq_none]
    simp only [not_or, Bool.not_eq_true', Bool.not_eq_false] at taken
    tauto

/-! ## Repaints -/

/-- An edge but for what is painted on it. -/
def bare (edge : DrawnEdge) : DrawnEdge := { edge with css := {} }

/-- What can be told of edges that differ in their paint only. -/
theorem exists_bare {edges edges' : List DrawnEdge} (same : edges'.map bare = edges.map bare)
    (property : DrawnEdge → Prop) (told : ∀ edge, property (bare edge) ↔ property edge) :
    (∃ edge ∈ edges', property edge) ↔ ∃ edge ∈ edges, property edge := by
  have onBare (edges : List DrawnEdge) :
      (∃ edge ∈ edges.map bare, property edge) ↔ ∃ edge ∈ edges, property edge := by
    simp [told]
  rw [← onBare edges, ← onBare edges', same]

theorem paintEdge_bare {edge painted : DrawnEdge}
    (repainted : paintEdge settings store edge = some painted) : bare painted = bare edge := by
  unfold paintEdge at repainted
  split at repainted
  · cases repainted
  · split at repainted
    · cases repainted
      rfl
    · obtain ⟨style, _, rfl⟩ := Option.map_eq_some_iff.mp repainted
      rfl

theorem updateNodeLinksStatus_bare (settings : Settings R) (store : Store R) (id : Int)
    (edges : List DrawnEdge) :
    (updateNodeLinksStatus settings store id edges).1.map bare = edges.map bare := by
  induction edges with
  | nil => rfl
  | cons edge rest ih =>
    unfold updateNodeLinksStatus
    split
    · split
      · rfl
      · rename_i painted repainted
        rw [List.map_cons, List.map_cons, ih, paintEdge_bare repainted]
    · rw [List.map_cons, List.map_cons, ih]

theorem updateNodeLinksStatus_threw (id : Int) (edges : List DrawnEdge) :
    (updateNodeLinksStatus settings store id edges).2 = true ↔
      ∃ edge ∈ edges, edge.Incident id ∧ paintEdge settings store edge = none := by
  induction edges with
  | nil => simp [updateNodeLinksStatus]
  | cons edge rest ih =>
    unfold updateNodeLinksStatus
    simp only [List.mem_cons, exists_eq_or_imp]
    split
    · rename_i incident
      cases repainted : paintEdge settings store edge with
      | none => simp [incident]
      | some painted => simpa [incident] using ih
    · rename_i apart
      simpa [apart] using ih

/-- Repainting the node's edges throws. -/
def Blocked (store : Store R) (edges : List DrawnEdge) (id : Int) : Prop :=
  Shadowed store ∧ ∃ edge ∈ edges, edge.Incident id ∧
    ∃ link, store.getLinkById edge.real_id = some link ∧ Metered link

/-- The store has a link for every edge and a node for every drawn node. -/
structure Sound (store : Store R) (graph : Graph) : Prop where
  links : ∀ edge ∈ graph.edges, ∃ link, store.getLinkById edge.real_id = some link
  nodes : ∀ drawn ∈ graph.nodes, ∃ node, store.getNodeById drawn.id = some node

theorem updateNodeLinksStatus_blocked {graph : Graph} (sound : Sound store graph) (id : Int) :
    (updateNodeLinksStatus settings store id graph.edges).2 = true ↔
      Blocked store graph.edges id := by
  rw [updateNodeLinksStatus_threw]
  constructor
  · rintro ⟨edge, held, incident, failed⟩
    obtain ⟨link, found⟩ := sound.links edge held
    obtain ⟨shadowed, metered⟩ := (paintEdge_eq_none found).mp failed
    exact ⟨shadowed, edge, held, incident, link, found, metered⟩
  · rintro ⟨shadowed, edge, held, incident, link, found, metered⟩
    exact ⟨edge, held, incident, (paintEdge_eq_none found).mpr ⟨shadowed, metered⟩⟩

omit [JsNumber R] in
theorem updateNodeStatus_ids (nodes : List DrawnNode) (node : Node R) :
    (updateNodeStatus settings nodes node).map DrawnNode.id = nodes.map DrawnNode.id := by
  unfold updateNodeStatus
  rw [List.map_map]
  apply List.map_congr_left
  intro drawn _
  dsimp only [Function.comp]
  split <;> rfl

/-- A graph with the same nodes and edges, painted differently. -/
structure SameGraph (graph graph' : Graph) : Prop where
  nodes : graph'.nodes.map DrawnNode.id = graph.nodes.map DrawnNode.id
  edges : graph'.edges.map bare = graph.edges.map bare

theorem sameGraph_refl (graph : Graph) : SameGraph graph graph := ⟨rfl, rfl⟩

theorem sameGraph_trans {graph between graph' : Graph} (first : SameGraph graph between)
    (second : SameGraph between graph') : SameGraph graph graph' :=
  ⟨second.nodes.trans first.nodes, second.edges.trans first.edges⟩

theorem update_node_sameGraph (settings : Settings R) (store : Store R) (graph : Graph)
    (node : Node R) :
    SameGraph graph (update_node settings store graph node).1 := by
  have edges := updateNodeLinksStatus_bare settings store node.id graph.edges
  unfold update_node
  split
  · rename_i painted result
    rw [result] at edges
    exact ⟨rfl, edges⟩
  · rename_i painted result
    rw [result] at edges
    split
    · exact ⟨updateNodeStatus_ids graph.nodes node, edges⟩
    · exact ⟨rfl, edges⟩

theorem update_batch_nodes_sameGraph (settings : Settings R) (store : Store R) (graph : Graph)
    (nodes : List (Node R)) :
    SameGraph graph (update_batch_nodes settings store graph nodes) := by
  induction nodes generalizing graph with
  | nil => exact sameGraph_refl graph
  | cons node rest ih =>
    have first := update_node_sameGraph settings store graph node
    unfold update_batch_nodes
    split
    · rename_i graph' result
      rw [result] at first
      exact first
    · rename_i graph' result
      rw [result] at first
      exact sameGraph_trans first (ih graph')

theorem step_sameGraph (settings : Settings R) (page : Page R) (event : Event R) :
    SameGraph page.graph (step settings page event).graph := by
  cases event with
  | updateNode node =>
    change SameGraph page.graph (updateNode settings page node).graph
    unfold updateNode
    dsimp only
    split
    · exact update_node_sameGraph settings page.store page.graph node
    · exact sameGraph_refl page.graph
  | updateNodes nodes distinct =>
    exact update_batch_nodes_sameGraph settings page.store page.graph nodes
  | colorful =>
    refine ⟨rfl, ?_⟩
    change (page.graph.edges.map _).map bare = _
    rw [List.map_map]
    rfl

/-- The nodes an event delivers. -/
def delivered : Event R → List (Node R)
  | .updateNode node => [node]
  | .updateNodes nodes _ => nodes
  | .colorful => []

/-- What the store makes of an event. -/
theorem step_store (page : Page R) (event : Event R) :
    (step settings page event).store = (delivered event).foldl Store.enterNode page.store := by
  cases event <;> rfl

/-- An update leaves every link, and every node in some version. -/
theorem sound_step {page : Page R} (sound : Sound page.store page.graph) (event : Event R) :
    Sound (step settings page event).store (step settings page event).graph := by
  have same := step_sameGraph settings page event
  rw [step_store]
  constructor
  · intro edge held
    obtain ⟨old, oldHeld, real_id⟩ :=
      (exists_bare same.edges (fun other => other.real_id = edge.real_id) fun _ => Iff.rfl).mp
        ⟨edge, held, rfl⟩
    rw [← real_id, Store.getLinkById, enterNodes_linksById]
    exact sound.links old oldHeld
  · intro drawn held
    have ids : drawn.id ∈ page.graph.nodes.map DrawnNode.id := by
      rw [← same.nodes]
      exact List.mem_map_of_mem held
    obtain ⟨old, oldHeld, id⟩ := List.mem_map.mp ids
    obtain ⟨node, found⟩ := sound.nodes old oldHeld
    rw [id] at found
    apply Option.isSome_iff_exists.mp
    exact enterNodes_known (Option.isSome_iff_exists.mpr ⟨node, found⟩)

/-! ## The first drawing -/

omit [JsNumber R] in
theorem drawNode_ids (drawn : List DrawnNode) (node : Node R) (id : Int) :
    id ∈ (drawNode settings drawn node).map DrawnNode.id ↔
      id ∈ drawn.map DrawnNode.id ∨ id = node.id := by
  unfold drawNode
  split
  · rename_i known
    exact ⟨Or.inl, fun either => either.elim (fun there => there) fun same => same ▸ known⟩
  · simp

omit [JsNumber R] in
theorem drawNodes_ids (drawn : List DrawnNode) (nodes : List (Node R)) (id : Int) :
    id ∈ (nodes.foldl (drawNode settings) drawn).map DrawnNode.id ↔
      id ∈ drawn.map DrawnNode.id ∨ id ∈ nodes.map Node.id := by
  induction nodes generalizing drawn with
  | nil => simp
  | cons node rest ih =>
    rw [List.foldl_cons, ih, drawNode_ids, or_assoc, List.map_cons, List.mem_cons]

omit [JsNumber R] in
/-- Of the nodes with one identifier the first one is drawn. -/
theorem drawNodes_first {drawn : List DrawnNode} {nodes : List (Node R)} {shown : DrawnNode}
    (held : shown ∈ nodes.foldl (drawNode settings) drawn) :
    shown ∈ drawn ∨ shown.id ∉ drawn.map DrawnNode.id ∧
      ∃ node, nodes.find? (fun node => node.id = shown.id) = some node ∧
        shown.classes = initialClasses settings node := by
  induction nodes generalizing drawn with
  | nil => exact Or.inl held
  | cons node rest ih =>
    rcases ih held with now | ⟨new, later, found, classes⟩
    · unfold drawNode at now
      split at now
      · exact Or.inl now
      · rename_i unknown
        rcases List.mem_append.mp now with before | this
        · exact Or.inl before
        · rw [List.mem_singleton] at this
          subst this
          exact Or.inr ⟨unknown, node, by simp, rfl⟩
    · rw [drawNode_ids, not_or] at new
      refine Or.inr ⟨new.1, later, ?_, classes⟩
      rw [List.find?_cons_of_neg (by simpa using Ne.symm new.2)]
      exact found

theorem drawEdges_links {nodes : List (Node R)} {links : List (Link R)}
    {progress result : List (Int × Int) × List DrawnEdge}
    (drawn : links.foldlM (drawEdge settings store nodes) progress = some result) :
    ∀ edge ∈ result.2, edge ∈ progress.2 ∨ ∃ link ∈ links, edge.real_id = link.id := by
  induction links generalizing progress with
  | nil =>
    cases drawn
    exact fun edge held => Or.inl held
  | cons link rest ih =>
    intro edge held
    rw [List.foldlM_cons] at drawn
    obtain ⟨between, now, later⟩ := Option.bind_eq_some_iff.mp drawn
    rcases ih later edge held with before | ⟨other, otherHeld, same⟩
    · unfold drawEdge at now
      dsimp only at now
      split at now
      · cases now
        exact Or.inl before
      · split at now
        · split at now
          · cases now
          · split at now
            · cases now
              exact Or.inl before
            · cases now
              rcases List.mem_append.mp before with old | this
              · exact Or.inl old
              · rw [List.mem_singleton] at this
                exact Or.inr ⟨link, List.mem_cons_self, this ▸ rfl⟩
        · cases now
          exact Or.inl before
    · exact Or.inr ⟨other, List.mem_cons_of_mem link otherHeld, same⟩

/-- The first drawing shows what the store was loaded with. -/
theorem sound_renderGraph {nodes : List (Node R)} {links : List (Link R)} {graph : Graph}
    (rendered : renderGraph settings (loadAll newStore nodes links) nodes links = some graph) :
    Sound (loadAll newStore nodes links) graph := by
  unfold renderGraph at rendered
  split at rendered
  · cases rendered
  · rename_i ex_links drawn edges
    cases rendered
    constructor
    · intro edge held
      rcases drawEdges_links edges edge held with nothing | ⟨link, linkHeld, same⟩
      · cases nothing
      · rw [same]
        exact Option.isSome_iff_exists.mp (enterLinks_linksById linkHeld _)
    · intro shown held
      rcases drawNodes_first held with nothing | ⟨_, node, found, _⟩
      · cases nothing
      · have nodeHeld := List.mem_of_find?_eq_some found
        have named : node.id = shown.id := by simpa using List.find?_some found
        rw [Store.getNodeById, loadAll_nodesById]
        apply Option.isSome_iff_exists.mp
        rw [List.find?_isSome]
        exact ⟨node, List.mem_reverse.mpr nodeHeld, by simpa using named⟩

theorem sound_afterEvents {nodes : List (Node R)} {links : List (Link R)} {graph : Graph}
    (rendered : renderGraph settings (loadAll newStore nodes links) nodes links = some graph)
    (history : List (Event R)) :
    Sound (afterEvents settings nodes links graph history).store
      (afterEvents settings nodes links graph history).graph :=
  after_invariant (step settings) (fun page => Sound page.store page.graph)
    (sound_renderGraph rendered) (fun _ event sound => sound_step sound event) history

/-! ## Two nodes and a link -/

/-- The settings as shipped; no link below is fast enough for its width to need
a logarithm. -/
def shipped : Settings Float.Model where
  default_state_source := none
  log10 x := x

/-- A node one source reports on. -/
def reported (id effective_state : Int) (metrics : List (Metric Float.Model)) :
    Node Float.Model where
  id := id
  type := none
  status := some [{ source := "icinga", effective_state := effective_state, time := 1 }]
  metrics := some metrics

/-- A link of five megabits, with a metric for one direction. -/
def slowLink : Link Float.Model where
  id := 1
  link_speed := some (lit 5)
  duplex := none
  rx_octets := "rx"
  tx_octets := ""
  src := 1
  dst := 2

def twoNodes : List (Node Float.Model) := [reported 1 0 [], reported 2 0 []]

def grey : Style where
  lineColor := "#C0C0C0"
  sourceArrowColor := "#C0C0C0"
  targetArrowColor := "#C0C0C0"
  width := none

def twoNodesDrawn : Graph where
  nodes := [{ id := 1, classes := ["node_up"] }, { id := 2, classes := ["node_up"] }]
  edges := [{ real_id := 1, source := 1, target := 2, style := grey, css := {} }]

theorem twoNodes_rendered : renderGraph shipped (loadAll newStore twoNodes [slowLink]) twoNodes
    [slowLink] = some twoNodesDrawn := by decide

end NetGraphz.RendererProofs
