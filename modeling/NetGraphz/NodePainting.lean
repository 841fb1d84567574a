import NetGraphz.Base.Keyed
import NetGraphz.RendererProofs

/-! The class a drawn node carries, along a run of updates. A repaint decides by
the state of the node still in the store; it goes wrong only where an exception
on the way to it leaves a changed state unpainted. -/
namespace NetGraphz.NodePainting
open GraphStore GraphRenderer RendererProofs JsNumber

variable {R : Type u} {settings : Settings R}

/-- Of the state classes, the words contain the given one and no other. -/
def Carries (classes : List String) (state : Option String) : Prop :=
  ∀ name ∈ stateClassNames, name ∈ classes ↔ state = some name

theorem stateClasses_mem {ef_state : Int} {name : String}
    (given : stateClasses ef_state = some name) : name ∈ stateClassNames := by
  unfold stateClasses at given
  split at given <;> cases given <;> decide

theorem stateClass_mem {node : Node R} {name : String}
    (given : stateClass settings node = some name) : name ∈ stateClassNames := by
  obtain ⟨ef_state, _, given⟩ := Option.bind_eq_some_iff.mp given
  exact stateClasses_mem given

/-- Words carry the class of one node at most. -/
theorem carries_unique {classes : List String} {node other : Node R}
    (one : Carries classes (stateClass settings node)) :
    Carries classes (stateClass settings other) ↔
      stateClass settings node = stateClass settings other := by
  constructor
  · intro two
    apply Option.ext
    intro name
    constructor
    · intro given
      have named := stateClass_mem given
      exact (two name named).mp ((one name named).mpr given)
    · intro given
      have named := stateClass_mem given
      exact (one name named).mp ((two name named).mpr given)
  · intro same
    rw [← same]
    exact one

theorem carries_initialClasses (node : Node R) :
    Carries (initialClasses settings node) (stateClass settings node) := by
  intro name named
  have apart : name ≠ "transport" ∧ name ≠ "undefined" := by
    revert name
    decide
  unfold initialClasses stateClass
  cases getNodePrefEffectiveState settings.default_state_source node with
  | none =>
    dsimp only
    split <;> simp [apart]
  | some ef_state =>
    dsimp only [Option.bind_some]
    cases stateClasses ef_state with
    | none => split <;> simp [apart]
    | some word => split <;> simp [apart, eq_comm]

section
variable [JsNumber R]

/-- The state class of every drawn node is that of the node in the store. -/
def Painted (settings : Settings R) (page : Page R) : Prop :=
  ∀ drawn ∈ page.graph.nodes, ∃ node, page.store.getNodeById drawn.id = some node ∧
    Carries drawn.classes (stateClass settings node)

/-! ## One event -/

variable {store : Store R} {page : Page R}

/-- What an update of the node makes of a drawn one, if nothing is thrown. -/
def repaint (settings : Settings R) (store : Store R) (node : Node R) (drawn : DrawnNode) :
    DrawnNode :=
  if drawn.id = node.id ∧ requiresUpdate settings store node then
    { drawn with
      classes := (drawn.classes.filter fun name => name ∉ stateClassNames) ++
        (stateClass settings node).toList }
  else drawn

/-- What a batch makes of a drawn node, up to where it throws. -/
def shownAfter (settings : Settings R) (store : Store R) (edges : List DrawnEdge)
    (drawn : DrawnNode) : List (Node R) → DrawnNode
  | [] => drawn
  | node :: rest =>
    if (updateNodeLinksStatus settings store node.id edges).2 then drawn
    else shownAfter settings store edges (repaint settings store node drawn) rest

omit [JsNumber R] in
theorem repaint_id (node : Node R) (drawn : DrawnNode) :
    (repaint settings store node drawn).id = drawn.id := by
  unfold repaint
  split <;> rfl

omit [JsNumber R] in
theorem repaint_other {node : Node R} {drawn : DrawnNode} (other : drawn.id ≠ node.id) :
    repaint settings store node drawn = drawn := by
  unfold repaint
  rw [if_neg fun both => other both.1]

theorem update_node_nodes (settings : Settings R) (store : Store R) (graph : Graph)
    (node : Node R) :
    (update_node settings store graph node).1.nodes =
        if (updateNodeLinksStatus settings store node.id graph.edges).2 then graph.nodes
        else graph.nodes.map (repaint settings store node) := by
  unfold update_node
  rcases updateNodeLinksStatus settings store node.id graph.edges with ⟨edges, threw⟩
  cases threw with
  | true => rfl
  | false =>
    cases required : requiresUpdate settings store node with
    | true => simp [updateNodeStatus, repaint, required]
    | false =>
      have unchanged : repaint settings store node = id := by
        funext drawn
        simp [repaint, required]
      simp [unchanged]

theorem update_node_threw (settings : Settings R) (store : Store R) (graph : Graph)
    (node : Node R) :
    (update_node settings store graph node).2 =
      (updateNodeLinksStatus settings store node.id graph.edges).2 := by
  unfold update_node
  rcases updateNodeLinksStatus settings store node.id graph.edges with ⟨edges, threw⟩
  cases threw with
  | true => rfl
  | false =>
    dsimp only
    split <;> rfl

/-- Whether a repaint throws is not a matter of paint. -/
theorem threw_bare {edges edges' : List DrawnEdge} (same : edges'.map bare = edges.map bare)
    (id : Int) : (updateNodeLinksStatus settings store id edges').2 =
      (updateNodeLinksStatus settings store id edges).2 := by
  rw [Bool.eq_iff_iff, updateNodeLinksStatus_threw, updateNodeLinksStatus_threw]
  apply exists_bare same (fun edge => edge.Incident id ∧ paintEdge settings store edge = none)
  intro edge
  apply and_congr Iff.rfl
  unfold paintEdge
  have known : (bare edge).real_id = edge.real_id := rfl
  rw [known]
  cases store.getLinkById edge.real_id with
  | none => exact Iff.rfl
  | some link =>
    dsimp only
    split
    · simp
    · simp

theorem shownAfter_bare {edges edges' : List DrawnEdge} (same : edges'.map bare = edges.map bare)
    (nodes : List (Node R)) (drawn : DrawnNode) :
    shownAfter settings store edges' drawn nodes = shownAfter settings store edges drawn nodes := by
  induction nodes generalizing drawn with
  | nil => rfl
  | cons node rest ih =>
    unfold shownAfter
    rw [threw_bare same, ih]

theorem update_batch_nodes_nodes (graph : Graph) (nodes : List (Node R)) :
    (update_batch_nodes settings store graph nodes).nodes =
      graph.nodes.map fun drawn => shownAfter settings store graph.edges drawn nodes := by
  induction nodes generalizing graph with
  | nil => exact (List.map_id' graph.nodes).symm
  | cons node rest ih =>
    have threw := update_node_threw settings store graph node
    have painted := update_node_nodes settings store graph node
    have same := update_node_sameGraph settings store graph node
    unfold update_batch_nodes shownAfter
    rw [← threw] at painted ⊢
    rcases result : update_node settings store graph node with ⟨graph', stopped⟩
    rw [result] at painted same
    cases stopped with
    | true => simpa using painted
    | false =>
      have painted : graph'.nodes = graph.nodes.map (repaint settings store node) := by
        simpa using painted
      simp only [Bool.false_eq_true, ↓reduceIte]
      rw [ih graph', painted, List.map_map]
      apply List.map_congr_left
      intro drawn _
      exact shownAfter_bare same.edges rest _

/-- A node the batch does not name stays as it is. -/
theorem shownAfter_other {edges : List DrawnEdge} {nodes : List (Node R)} {drawn : DrawnNode}
    (absent : ∀ node ∈ nodes, node.id ≠ drawn.id) :
    shownAfter settings store edges drawn nodes = drawn := by
  induction nodes with
  | nil => rfl
  | cons node rest ih =>
    unfold shownAfter
    rw [repaint_other (Ne.symm (absent node List.mem_cons_self)), ite_eq_left_iff]
    exact fun _ => ih fun later held => absent later (List.mem_cons_of_mem node held)

/-- One that it names is repainted, unless the batch has thrown by then. -/
theorem shownAfter_named {edges : List DrawnEdge} {before rest : List (Node R)} {node : Node R}
    {drawn : DrawnNode} (same : drawn.id = node.id)
    (distinct : ((before ++ node :: rest).map Node.id).Nodup) :
    shownAfter settings store edges drawn (before ++ node :: rest) =
      if ∃ reached ∈ before ++ [node], (updateNodeLinksStatus settings store reached.id edges).2
      then drawn else repaint settings store node drawn := by
  induction before with
  | nil =>
    obtain ⟨new, _⟩ := List.nodup_cons.mp distinct
    have absent : ∀ later ∈ rest, later.id ≠ (repaint settings store node drawn).id := by
      intro later held equal
      rw [repaint_id, same] at equal
      exact new (equal ▸ List.mem_map_of_mem held)
    simp only [List.nil_append, shownAfter, List.mem_singleton, exists_eq_left]
    rw [shownAfter_other absent]
  | cons first before ih =>
    obtain ⟨new, distinct⟩ := List.nodup_cons.mp distinct
    have other : drawn.id ≠ first.id := by
      intro equal
      rw [same] at equal
      exact new (equal ▸ List.mem_map_of_mem (List.mem_append_right before List.mem_cons_self))
    simp only [List.cons_append, shownAfter, List.mem_cons, exists_eq_or_imp]
    rw [repaint_other other, ih distinct]
    by_cases threw : (updateNodeLinksStatus settings store first.id edges).2 = true <;> simp [threw]

/-- What an event makes of the drawn nodes. -/
theorem step_nodes (sound : Sound page.store page.graph) (event : Event R) :
    (step settings page event).graph.nodes = page.graph.nodes.map fun drawn =>
      shownAfter settings page.store page.graph.edges drawn (delivered event) := by
  cases event with
  | updateNode node =>
    change (updateNode settings page node).graph.nodes = _
    unfold updateNode
    dsimp only
    split
    · rw [update_node_nodes]
      simp only [delivered, shownAfter]
      split
      · exact (List.map_id' _).symm
      · rfl
    · rename_i unknown
      -- a node the store does not know is not drawn either
      have absent : ∀ drawn ∈ page.graph.nodes, shownAfter settings page.store page.graph.edges
          drawn (delivered (.updateNode node)) = drawn := by
        intro drawn held
        apply shownAfter_other
        intro other same equal
        cases List.mem_singleton.mp same
        obtain ⟨stored, found⟩ := sound.nodes drawn held
        rw [← equal] at found
        exact unknown (Option.isSome_iff_exists.mpr ⟨stored, found⟩)
      exact ((List.map_congr_left absent).trans (List.map_id' _)).symm
  | updateNodes nodes distinct => exact update_batch_nodes_nodes page.graph nodes
  | colorful => exact (List.map_id' _).symm

omit [JsNumber R] in
theorem delivered_distinct (event : Event R) : ((delivered event).map Node.id).Nodup := by
  cases event with
  | updateNode node => exact List.nodup_singleton _
  | updateNodes nodes distinct => exact distinct
  | colorful => exact List.nodup_nil

/-- A node whose repaint an exception prevents, its own or that of a node before
it in the batch, comes with the class of the stored one. -/
def NothingMissed (settings : Settings R) (page : Page R) (event : Event R) : Prop :=
  ∀ before node rest, delivered event = before ++ node :: rest →
    node.id ∈ page.graph.nodes.map DrawnNode.id →
      (∃ reached ∈ before ++ [node], Blocked page.store page.graph.edges reached.id) →
        ∀ prevNode, page.store.getNodeById node.id = some prevNode →
          stateClass settings prevNode = stateClass settings node

omit [JsNumber R] in
/-- A repaint shows the class of its node, if the former one was shown. -/
theorem carries_repaint {drawn : DrawnNode} {node prevNode : Node R} (same : drawn.id = node.id)
    (stored : store.getNodeById node.id = some prevNode)
    (carries : Carries drawn.classes (stateClass settings prevNode)) :
    Carries (repaint settings store node drawn).classes (stateClass settings node) := by
  unfold repaint
  split
  · intro name named
    rw [List.mem_append, List.mem_filter, Option.mem_toList]
    simp [named]
  · rename_i kept
    have state : getNodePrefEffectiveState settings.default_state_source node =
        getNodePrefEffectiveState settings.default_state_source prevNode := by
      simpa [same, requiresUpdate, stored] using kept
    rw [stateClass, state]
    exact carries

/-- In the store, a batch leaves each of its nodes. -/
theorem delivered_stored (settings : Settings R) (page : Page R) {event : Event R} {node : Node R}
    (held : node ∈ delivered event) :
    (step settings page event).store.getNodeById node.id = some node := by
  have distinct : ((delivered event).reverse.map Node.id).Nodup := by
    rw [List.map_reverse]
    exact List.nodup_reverse.mpr (delivered_distinct event)
  rw [step_store, Store.getNodeById, enterNodes_nodesById,
    Keyed.find_of_mem distinct (List.mem_reverse.mpr held)]
  rfl

theorem undelivered_stored (settings : Settings R) (page : Page R) {event : Event R} {id : Int}
    (absent : ∀ node ∈ delivered event, node.id ≠ id) :
    (step settings page event).store.getNodeById id = page.store.getNodeById id := by
  have found : (delivered event).reverse.find? (fun node => node.id = id) = none := by
    rw [List.find?_eq_none]
    intro node held
    simpa using absent node (List.mem_reverse.mp held)
  rw [step_store, Store.getNodeById, enterNodes_nodesById, found]
  rfl

theorem shownAfter_id (edges : List DrawnEdge) (nodes : List (Node R)) (drawn : DrawnNode) :
    (shownAfter settings store edges drawn nodes).id = drawn.id := by
  induction nodes generalizing drawn with
  | nil => rfl
  | cons node rest ih =>
    unfold shownAfter
    split
    · rfl
    · rw [ih, repaint_id]

/-- A drawn node that was right and is named by an event is right after it, if
its repaint was reached or its class has not changed. -/
theorem carries_shown_iff (sound : Sound page.store page.graph) {event : Event R}
    {before rest : List (Node R)} {node prevNode : Node R} {drawn : DrawnNode}
    (split : delivered event = before ++ node :: rest) (same : drawn.id = node.id)
    (stored : page.store.getNodeById node.id = some prevNode)
    (carried : Carries drawn.classes (stateClass settings prevNode)) :
    Carries (shownAfter settings page.store page.graph.edges drawn (delivered event)).classes
        (stateClass settings node) ↔
      ((∃ reached ∈ before ++ [node], Blocked page.store page.graph.edges reached.id) →
        stateClass settings prevNode = stateClass settings node) := by
  have stopped : (∃ reached ∈ before ++ [node],
        (updateNodeLinksStatus settings page.store reached.id page.graph.edges).2 = true) ↔
      ∃ reached ∈ before ++ [node], Blocked page.store page.graph.edges reached.id :=
    exists_congr fun reached => and_congr_right fun _ =>
      updateNodeLinksStatus_blocked sound reached.id
  have distinct := delivered_distinct event
  rw [split] at distinct ⊢
  rw [shownAfter_named same distinct]
  by_cases threw : ∃ reached ∈ before ++ [node], Blocked page.store page.graph.edges reached.id
  · rw [if_pos (stopped.mpr threw), carries_unique carried]
    exact ⟨fun unchanged _ => unchanged, fun unchanged => unchanged threw⟩
  · rw [if_neg (mt stopped.mp threw)]
    exact iff_of_true (carries_repaint same stored carried) fun missed => absurd missed threw

/-- **One event.** A picture that is right stays right exactly if nothing that
changes is missed. -/
theorem painted_step_iff (sound : Sound page.store page.graph) (painted : Painted settings page)
    (event : Event R) :
    Painted settings (step settings page event) ↔ NothingMissed settings page event := by
  constructor
  · intro after before node rest split drawnId threw prevNode stored
    obtain ⟨drawn, held, same⟩ := List.mem_map.mp drawnId
    have delivers : node ∈ delivered event := by simp [split]
    obtain ⟨former, foundFormer, carried⟩ := painted drawn held
    rw [same, stored, Option.some.injEq] at foundFormer
    subst foundFormer
    obtain ⟨now, found, carries⟩ := after _ (by
      rw [step_nodes sound]
      exact List.mem_map_of_mem held)
    rw [shownAfter_id, same, delivered_stored settings page delivers, Option.some.injEq] at found
    subst found
    exact (carries_shown_iff sound split same stored carried).mp carries threw
  · intro nothing shown held
    rw [step_nodes sound] at held
    obtain ⟨drawn, drawnHeld, rfl⟩ := List.mem_map.mp held
    obtain ⟨prevNode, stored, carried⟩ := painted drawn drawnHeld
    rw [shownAfter_id]
    by_cases named : ∃ node ∈ delivered event, node.id = drawn.id
    · obtain ⟨node, delivers, same⟩ := named
      obtain ⟨before, rest, split⟩ := List.append_of_mem delivers
      have now := delivered_stored settings page delivers
      have drawnId : node.id ∈ page.graph.nodes.map DrawnNode.id := by
        rw [same]
        exact List.mem_map_of_mem drawnHeld
      rw [← same] at stored ⊢
      refine ⟨node, now, (carries_shown_iff sound split same.symm stored carried).mpr ?_⟩
      exact fun threw => nothing before node rest split drawnId threw prevNode stored
    · have absent : ∀ node ∈ delivered event, node.id ≠ drawn.id := by
        intro node delivers same
        exact named ⟨node, delivers, same⟩
      rw [shownAfter_other absent]
      exact ⟨prevNode, (undelivered_stored settings page absent).trans stored, carried⟩

/-! ## All along a run -/

/-- Nodes loaded under one identifier have one class: of them the first is
drawn, and the last is stored. -/
def LoadedAlike (settings : Settings R) (nodes : List (Node R)) : Prop :=
  ∀ id first last, nodes.find? (fun node => node.id = id) = some first →
    nodes.reverse.find? (fun node => node.id = id) = some last →
      stateClass settings first = stateClass settings last

variable {nodes : List (Node R)} {links : List (Link R)} {graph : Graph}

theorem painted_first_iff
    (rendered : renderGraph settings (loadAll newStore nodes links) nodes links = some graph) :
    Painted settings (afterEvents settings nodes links graph []) ↔ LoadedAlike settings nodes := by
  have drawn : graph.nodes = nodes.foldl (drawNode settings) [] := by
    unfold renderGraph at rendered
    split at rendered
    · cases rendered
    · cases rendered
      rfl
  have stored (id : Int) : (loadAll newStore nodes links).getNodeById id =
      nodes.reverse.find? fun node => node.id = id := loadAll_nodesById nodes links id
  constructor
  · intro painted id first last isFirst isLast
    have known : id ∈ graph.nodes.map DrawnNode.id := by
      have held := List.mem_of_find?_eq_some isFirst
      have named : first.id = id := by simpa using List.find?_some isFirst
      rw [drawn, drawNodes_ids, ← named]
      exact Or.inr (List.mem_map_of_mem held)
    obtain ⟨shown, held, rfl⟩ := List.mem_map.mp known
    obtain ⟨node, found, carries⟩ := painted shown held
    have isNode : (loadAll newStore nodes links).getNodeById shown.id = some node := found
    rw [stored, isLast, Option.some.injEq] at isNode
    rw [drawn] at held
    rcases drawNodes_first held with nothing | ⟨_, drawnNode, foundDrawn, classes⟩
    · cases nothing
    · rw [isFirst, Option.some.injEq] at foundDrawn
      subst isNode foundDrawn
      rw [classes] at carries
      exact (carries_unique (carries_initialClasses first)).mp carries
  · intro alike shown held
    change shown ∈ graph.nodes at held
    obtain ⟨node, found⟩ := (sound_renderGraph rendered).nodes shown held
    refine ⟨node, found, ?_⟩
    rw [stored] at found
    rw [drawn] at held
    rcases drawNodes_first held with nothing | ⟨_, first, isFirst, classes⟩
    · cases nothing
    · rw [classes]
      exact (carries_unique (carries_initialClasses first)).mpr
        (alike shown.id first node isFirst found)

/-- **The picture is right all along a run** exactly if the nodes loaded under
one identifier are of one class, and no event changes the class of a node whose
repaint throws. -/
theorem painted_throughout_iff (settings : Settings R)
    (rendered : renderGraph settings (loadAll newStore nodes links) nodes links = some graph)
    (history : List (Event R)) :
    (∀ past, past <+: history → Painted settings (afterEvents settings nodes links graph past)) ↔
      LoadedAlike settings nodes ∧
        ∀ past event, past ++ [event] <+: history →
          NothingMissed settings (afterEvents settings nodes links graph past) event := by
  by_cases alike : LoadedAlike settings nodes
  · simp only [alike, true_and]
    apply throughout_iff_each_step
      (fun past => Painted settings (afterEvents settings nodes links graph past))
      (fun past event => NothingMissed settings (afterEvents settings nodes links graph past) event)
      ((painted_first_iff rendered).mpr alike)
    intro past event painted
    have concat : afterEvents settings nodes links graph (past ++ [event]) =
        step settings (afterEvents settings nodes links graph past) event := after_concat ..
    rw [concat]
    exact painted_step_iff (sound_afterEvents rendered past) painted event
  · refine iff_of_false ?_ fun both => alike both.1
    intro throughout
    exact alike ((painted_first_iff rendered).mp (throughout [] List.nil_prefix))

end

/-! ## A node that is loaded twice -/

/-- A node was up when it was loaded first, and down when it was loaded again. -/
def loadedTwice : List (Node Float.Model) := [reported 1 0 [], reported 2 0 [], reported 1 1 []]

/-- A node goes down, and another comes up again. -/
def downAndUp : List (Event Float.Model) :=
  [.updateNode (reported 1 1 []), .updateNodes [reported 2 0 [], reported 1 0 []] (by decide)]

/-- On this run the condition decides. -/
theorem twoNodes_painted_iff :
    (∀ past, past <+: downAndUp →
        Painted shipped (afterEvents shipped twoNodes [slowLink] twoNodesDrawn past)) ↔
      LoadedAlike shipped twoNodes ∧
        ∀ past event, past ++ [event] <+: downAndUp →
          NothingMissed shipped (afterEvents shipped twoNodes [slowLink] twoNodesDrawn past) event :=
  painted_throughout_iff shipped twoNodes_rendered downAndUp

/-- It is drawn as up when it is down. -/
theorem node_loaded_twice_stays_up :
    renderGraph shipped (loadAll newStore loadedTwice [slowLink]) loadedTwice [slowLink] =
        some twoNodesDrawn ∧
      ¬Painted shipped (afterEvents shipped loadedTwice [slowLink] twoNodesDrawn []) := by
  refine ⟨by decide, ?_⟩
  intro painted
  obtain ⟨node, found, carries⟩ := painted { id := 1, classes := ["node_up"] } List.mem_cons_self
  have stored : node = reported 1 1 [] := (Option.some.inj found).symm
  subst stored
  have down := (carries "node_down" (by decide)).mpr rfl
  simp at down

end NetGraphz.NodePainting
