import NetGraphz.RendererProofs

/-! The style of the edges after an update of a node. They are repainted when
the update is announced, with the metric values from before it. -/
namespace NetGraphz.EdgePainting
open GraphStore GraphRenderer RendererProofs JsNumber

variable {R : Type u} [JsNumber R] {settings : Settings R} {store : Store R} {page : Page R}

/-- What is set on an edge includes the style. -/
structure Shows (css : Css) (style : Style) : Prop where
  lineColor : css.lineColor = some style.lineColor
  sourceArrowColor : css.sourceArrowColor = some style.sourceArrowColor
  targetArrowColor : css.targetArrowColor = some style.targetArrowColor
  width : ∀ width, style.width = some width → css.width = some width

/-- Every edge of the node has the style its link's metrics in the store give. -/
def EdgesCurrent (settings : Settings R) (page : Page R) (id : Int) : Prop :=
  ∀ edge ∈ page.graph.edges, edge.Incident id →
    ∃ link style, page.store.getLinkById edge.real_id = some link ∧
      prepareEdgeStyle settings page.store link = some style ∧ Shows edge.css style

/-- The metrics of an update give the node's links the styles they had by the
metrics before it. -/
def StylesKept (settings : Settings R) (page : Page R) (node : Node R) : Prop :=
  ∀ edge ∈ page.graph.edges, edge.Incident node.id →
    ∃ link style, page.store.getLinkById edge.real_id = some link ∧
      prepareEdgeStyle settings page.store link = some style ∧
      prepareEdgeStyle settings (page.store.enterNode node) link = some style

/-- All links of the node have a speed and the name of a metric. -/
def AllMetered (page : Page R) (id : Int) : Prop :=
  ∀ edge ∈ page.graph.edges, edge.Incident id →
    ∀ link, page.store.getLinkById edge.real_id = some link → Metered link

omit [JsNumber R] in
theorem saveMetrics_shadowed {metrics : String → Option (Option (List R))}
    (shadowed : (metrics "hasOwnProperty").isSome) (node : Node R) :
    (saveMetricsOfNode metrics node "hasOwnProperty").isSome := by
  unfold saveMetricsOfNode
  induction node.metrics.getD [] generalizing metrics with
  | nil => exact shadowed
  | cons metric rest ih =>
    apply ih
    unfold saveMetric
    split
    · exact shadowed
    · rw [Function.update_apply]
      split
      · rfl
      · exact shadowed

omit [JsNumber R] in
/-- Once the method is gone it does not come back. -/
theorem enterNode_shadowed (shadowed : Shadowed store) (node : Node R) :
    Shadowed (store.enterNode node) :=
  saveMetrics_shadowed shadowed node

/-- The width of an edge is a matter of the link alone. -/
theorem prepareEdgeStyle_width {store' : Store R} {link : Link R} {style style' : Style}
    (one : prepareEdgeStyle settings store link = some style)
    (other : prepareEdgeStyle settings store' link = some style') : style.width = style'.width := by
  unfold prepareEdgeStyle at one other
  split at one
  · split at other
    · cases one
      cases other
      rfl
    · cases other
  · cases one

/-- A style shows where another one was just set exactly if it is the same. -/
theorem shows_set_iff {store' : Store R} {link : Link R} {style style' : Style} (css : Css)
    (one : prepareEdgeStyle settings store link = some style)
    (other : prepareEdgeStyle settings store' link = some style') :
    Shows (css.set style) style' ↔ style = style' := by
  have width := prepareEdgeStyle_width one other
  constructor
  · intro shows
    obtain ⟨line, sourceArrow, targetArrow, _⟩ := shows
    simp only [Css.set, Option.some.injEq] at line sourceArrow targetArrow
    cases style
    cases style'
    simp_all
  · rintro rfl
    exact ⟨rfl, rfl, rfl, fun width given => by simp [Css.set, given]⟩

/-- A link with a speed and a metric is not passed over. -/
theorem paintEdge_metered {edge : DrawnEdge} {link : Link R}
    (found : store.getLinkById edge.real_id = some link) (metered : Metered link) :
    paintEdge settings store edge = (prepareEdgeStyle settings store link).map fun style =>
      { edge with css := edge.css.set style } := by
  obtain ⟨named, speed⟩ := metered
  have taken : ¬ ((link.rx_octets = "" ∧ link.tx_octets = "") ∨ !(link.link_speed.any truthy)) := by
    rw [speed]
    tauto
  unfold paintEdge
  rw [found]
  dsimp only
  rw [if_neg taken]

/-- Where nothing throws, every edge of the node is repainted. -/
theorem updateNodeLinksStatus_eq (id : Int) (edges : List DrawnEdge)
    (clear : ∀ edge ∈ edges, edge.Incident id → paintEdge settings store edge ≠ none) :
    (updateNodeLinksStatus settings store id edges).1 = edges.map fun edge =>
      if edge.Incident id then (paintEdge settings store edge).getD edge else edge := by
  induction edges with
  | nil => rfl
  | cons edge rest ih =>
    have ih := ih fun later held => clear later (List.mem_cons_of_mem edge held)
    unfold updateNodeLinksStatus
    rw [List.map_cons, ← ih]
    by_cases incident : edge.Incident id
    · rw [if_pos incident, if_pos incident]
      have paints := clear edge List.mem_cons_self incident
      cases result : paintEdge settings store edge with
      | none => exact absurd result paints
      | some painted => rfl
    · rw [if_neg incident, if_neg incident]

theorem update_node_edges (graph : Graph) (node : Node R) :
    (update_node settings store graph node).1.edges =
      (updateNodeLinksStatus settings store node.id graph.edges).1 := by
  unfold update_node
  rcases updateNodeLinksStatus settings store node.id graph.edges with ⟨edges, threw⟩
  cases threw with
  | true => rfl
  | false =>
    dsimp only
    split <;> rfl

/-- Once lookups throw, no edge has a style. -/
theorem prepareEdgeStyle_shadowed (shadowed : Shadowed store) {link : Link R}
    (metered : Metered link) : prepareEdgeStyle settings store link = none :=
  (prepareEdgeStyle_eq_none link).mpr ⟨shadowed, metered.1⟩

/-- What asks for a style of each of the node's edges then asks for no edges. -/
theorem styles_shadowed {id : Int} (shadowed : Shadowed page.store) (metered : AllMetered page id)
    (also : DrawnEdge → Link R → Style → Prop) :
    (∀ edge ∈ page.graph.edges, edge.Incident id →
        ∃ link style, page.store.getLinkById edge.real_id = some link ∧
          prepareEdgeStyle settings page.store link = some style ∧ also edge link style) ↔
      ¬ ∃ edge ∈ page.graph.edges, edge.Incident id := by
  constructor
  · rintro styles ⟨edge, held, incident⟩
    obtain ⟨link, style, found, styled, _⟩ := styles edge held incident
    rw [prepareEdgeStyle_shadowed shadowed (metered edge held incident link found)] at styled
    cases styled
  · intro nothing edge held incident
    exact absurd ⟨edge, held, incident⟩ nothing

theorem allMetered_updateNode {node : Node R} (metered : AllMetered page node.id) :
    AllMetered (updateNode settings page node) node.id := by
  intro edge' held' incident' link found
  obtain ⟨edge, held, incident, real_id⟩ :=
    (exists_bare (step_sameGraph settings page (.updateNode node)).edges
      (fun other => other.Incident node.id ∧ other.real_id = edge'.real_id) fun _ => Iff.rfl).mp
        ⟨edge', held', incident', rfl⟩
  exact metered edge held incident link (real_id ▸ found)

/-- Where lookups do not throw, an edge is repainted by the metrics from before. -/
theorem paintEdge_clear (settings : Settings R) (clear : ¬ Shadowed store) {edge : DrawnEdge}
    {link : Link R} (found : store.getLinkById edge.real_id = some link) (metered : Metered link) :
    ∃ style, prepareEdgeStyle settings store link = some style ∧
      paintEdge settings store edge = some { edge with css := edge.css.set style } := by
  cases styled : prepareEdgeStyle settings store link with
  | none => exact absurd ((prepareEdgeStyle_eq_none link).mp styled).1 clear
  | some style =>
    refine ⟨style, rfl, ?_⟩
    rw [paintEdge_metered found metered, styled]
    rfl

/-- The edges after an update whose repaint does not throw. -/
theorem updateNode_edges (sound : Sound page.store page.graph) (clear : ¬ Shadowed page.store)
    {node : Node R} (known : (page.store.nodesById node.id).isSome)
    (metered : AllMetered page node.id) :
    (updateNode settings page node).graph.edges = page.graph.edges.map fun edge =>
      if edge.Incident node.id then (paintEdge settings page.store edge).getD edge else edge := by
  have paints : ∀ edge ∈ page.graph.edges, edge.Incident node.id →
      paintEdge settings page.store edge ≠ none := by
    intro edge held incident
    obtain ⟨link, found⟩ := sound.links edge held
    obtain ⟨style, _, painted⟩ :=
      paintEdge_clear settings clear found (metered edge held incident link found)
    rw [painted]
    exact Option.some_ne_none _
  unfold updateNode
  rw [if_pos known, update_node_edges, updateNodeLinksStatus_eq node.id page.graph.edges paints]

/-- **One update.** The node's edges show the metrics that came with it exactly
if these change nothing about the styles. -/
theorem edgesCurrent_updateNode_iff (sound : Sound page.store page.graph) {node : Node R}
    (drawn : node.id ∈ page.graph.nodes.map DrawnNode.id) (metered : AllMetered page node.id) :
    EdgesCurrent settings (updateNode settings page node) node.id ↔
      StylesKept settings page node := by
  by_cases shadowed : Shadowed page.store
  · have same := not_congr (exists_bare (step_sameGraph settings page (.updateNode node)).edges
      (fun edge => edge.Incident node.id) fun _ => Iff.rfl)
    exact (styles_shadowed (enterNode_shadowed shadowed node) (allMetered_updateNode metered)
      fun edge _ style => Shows edge.css style).trans
        (same.trans (styles_shadowed shadowed metered fun _ link style =>
          prepareEdgeStyle settings (page.store.enterNode node) link = some style).symm)
  · obtain ⟨shown, shownHeld, shownId⟩ := List.mem_map.mp drawn
    have known : (page.store.nodesById node.id).isSome := by
      rw [← shownId]
      exact Option.isSome_iff_exists.mpr (sound.nodes shown shownHeld)
    unfold EdgesCurrent StylesKept
    rw [updateNode_edges sound shadowed known metered, List.forall_mem_map]
    apply forall₂_congr
    intro edge held
    by_cases incident : edge.Incident node.id
    · obtain ⟨link, found⟩ := sound.links edge held
      obtain ⟨style, styled, paints⟩ :=
        paintEdge_clear settings shadowed found (metered edge held incident link found)
      rw [if_pos incident, paints]
      have same (style' : Style)
          (now : prepareEdgeStyle settings (page.store.enterNode node) link = some style') :
          Shows (edge.css.set style) style' ↔ style = style' := shows_set_iff edge.css styled now
      constructor
      · intro current _
        obtain ⟨other, style', foundOther, now, shows⟩ := current incident
        cases Option.some.inj (found.symm.trans foundOther)
        cases (same style' now).mp shows
        exact ⟨link, style, found, styled, now⟩
      · intro kept _
        obtain ⟨other, style', foundOther, before, now⟩ := kept incident
        cases Option.some.inj (found.symm.trans foundOther)
        cases Option.some.inj (styled.symm.trans before)
        exact ⟨link, style, found, now, (same style now).mpr rfl⟩
    · rw [if_neg incident]
      simp [incident]

/-- **Every run.** After an update of a drawn node whose links all have a speed
and a metric, its edges have the styles of the values now stored, exactly if
these are the styles of the values stored before. -/
theorem edges_current_after_update_iff (settings : Settings R) {nodes : List (Node R)}
    {links : List (Link R)} {graph : Graph}
    (rendered : renderGraph settings (loadAll newStore nodes links) nodes links = some graph)
    (past : List (Event R)) (node : Node R)
    (drawn : node.id ∈
      (afterEvents settings nodes links graph past).graph.nodes.map DrawnNode.id)
    (metered : AllMetered (afterEvents settings nodes links graph past) node.id) :
    EdgesCurrent settings (afterEvents settings nodes links graph (past ++ [.updateNode node]))
        node.id ↔
      StylesKept settings (afterEvents settings nodes links graph past) node := by
  have concat : afterEvents settings nodes links graph (past ++ [.updateNode node]) =
      updateNode settings (afterEvents settings nodes links graph past) node := after_concat ..
  rw [concat]
  exact edgesCurrent_updateNode_iff (sound_afterEvents rendered past) drawn metered

/-- An update with a value for the link's metric: a quarter of a megabit. -/
def busyNode : Node Float.Model := reported 1 0 [{ name := "rx", values := some [lit 31250] }]

theorem slowLink_metered :
    AllMetered (afterEvents shipped twoNodes [slowLink] twoNodesDrawn []) busyNode.id := by
  intro edge held _ link found
  cases List.mem_singleton.mp held
  cases Option.some.inj (found.symm.trans (rfl : _ = some slowLink))
  exact ⟨Or.inl (by decide), by decide⟩

/-- Before any update, the condition decides about the first one. -/
theorem busy_link_current_iff :
    EdgesCurrent shipped
        (afterEvents shipped twoNodes [slowLink] twoNodesDrawn ([] ++ [.updateNode busyNode]))
        busyNode.id ↔
      StylesKept shipped (afterEvents shipped twoNodes [slowLink] twoNodesDrawn []) busyNode :=
  edges_current_after_update_iff shipped twoNodes_rendered [] busyNode (by decide) slowLink_metered

/-- The edge is painted grey, and the metric that came makes it green. -/
theorem busy_link_stays_grey :
    renderGraph shipped (loadAll newStore twoNodes [slowLink]) twoNodes [slowLink] =
        some twoNodesDrawn ∧
      AllMetered (afterEvents shipped twoNodes [slowLink] twoNodesDrawn []) busyNode.id ∧
      ¬ EdgesCurrent shipped
        (afterEvents shipped twoNodes [slowLink] twoNodesDrawn [.updateNode busyNode])
        busyNode.id := by
  refine ⟨twoNodes_rendered, slowLink_metered, ?_⟩
  intro current
  have shown : { real_id := 1, source := 1, target := 2, style := grey, css := ({} : Css).set grey } ∈
      (afterEvents shipped twoNodes [slowLink] twoNodesDrawn [.updateNode busyNode]).graph.edges := by
    decide
  obtain ⟨link, style, found, styled, shows⟩ := current _ shown (Or.inl rfl)
  cases Option.some.inj (found.symm.trans (rfl : _ = some slowLink))
  have green : (prepareEdgeStyle shipped
      ((loadAll newStore twoNodes [slowLink]).enterNode busyNode) slowLink).map Style.lineColor =
        some "rgb(90,217,0)" := by decide +kernel
  have color : style.lineColor = "rgb(90,217,0)" := by
    rw [show prepareEdgeStyle shipped ((loadAll newStore twoNodes [slowLink]).enterNode busyNode)
      slowLink = some style from styled] at green
    exact Option.some.inj green
  have painted := shows.lineColor
  rw [color] at painted
  simp [Css.set, grey] at painted

end NetGraphz.EdgePainting
