import NetGraphz.Base.DepthFirst
import NetGraphz.Base.Fallible
import NetGraphz.ConfigGenerator

/-! The generator's search is a depth-first search, and the lists and tables it
fills are read off the visits of its tree. -/
namespace NetGraphz.ConfigGeneratorProofs
open ConfigGenerator DepthFirst

/-- The generator makes a configuration for this node. -/
def configurable (graph : Graph) (nodeId : Nat) : Bool :=
  (getNodeFull graph nodeId).any needMakeCfg

/-- The nearest ancestor that has a configuration. -/
def nearestConfigurable (graph : Graph) (ancestors : List Nat) : Option Nat :=
  ancestors.find? (configurable graph)

/-- What one visit leaves in the lists and tables. -/
def record (graph : Graph) (state : State) (visit : Visit Nat) : State where
  scannedNodesId := state.scannedNodesId ++ [visit.node]
  nodes := if configurable graph visit.node then state.nodes ++ [visit.node] else state.nodes
  connections :=
    match nearestConfigurable graph visit.ancestors with
    | none => state.connections
    | some parent => addConnection state.connections parent visit.node
  nodesById :=
    match getNodeFull graph visit.node with
    | none => state.nodesById
    | some node => state.nodesById.insert visit.node node

/-- The name of the node, where it is stored and has one, is ASCII. -/
def Printable (graph : Graph) (nodeId : Nat) : Prop :=
  ∀ node, getNodeFull graph nodeId = some node → ∀ name, node.name = some name → isAscii name

theorem printName_ok_iff (found : getNodeFull graph nodeId = some node) :
    printName node = .ok () ↔ Printable graph nodeId := by
  unfold printName Printable
  simp only [found, Option.some.injEq, forall_eq']
  cases named : node.name with
  | none => simp [isAscii]
  | some name => simp

theorem printEndNode_ok_iff (found : getNodeFull graph nodeId = some node) :
    printEndNode graph nodeId = .ok () ↔ Printable graph nodeId := by
  rw [← printName_ok_iff found]
  simp only [printEndNode, found]

theorem nearestConfigurable_cons (graph : Graph) (nodeId : Nat) (ancestors : List Nat) :
    nearestConfigurable graph (nodeId :: ancestors) =
      if configurable graph nodeId then some nodeId else nearestConfigurable graph ancestors := by
  unfold nearestConfigurable
  rw [List.find?_cons]
  cases configurable graph nodeId <;> rfl

/-- A node is entered the way its visit is recorded, and its links are followed
with the parent that its path gives. -/
theorem enter_eq (graph : Graph) (state : State) (ancestors : List Nat)
    (found : getNodeFull graph nodeId = some node) :
    enter state nodeId node (nearestConfigurable graph ancestors) =
      (record graph state ⟨nodeId, ancestors⟩,
        nearestConfigurable graph (nodeId :: ancestors)) := by
  have isConfigurable : configurable graph nodeId = needMakeCfg node := by
    simp [configurable, found]
  rw [nearestConfigurable_cons, isConfigurable]
  unfold enter record
  simp only [found, isConfigurable]
  cases nearestConfigurable graph ancestors <;> cases needMakeCfg node <;> rfl

theorem scanned_record (graph : Graph) (visits : List (Visit Nat)) (state : State) :
    (visits.foldl (record graph) state).scannedNodesId =
      state.scannedNodesId ++ visits.map Visit.node := by
  induction visits generalizing state with
  | nil => simp
  | cons visit visits ih =>
    rw [List.foldl_cons, ih]
    simp [record]

/-- The loop over the links, once each call below it is known to search. -/
theorem loop_explores (graph : Graph) (depth : Nat) (ancestors : List Nat)
    (searches : ∀ nodeId state state',
      dfs graph depth nodeId (nearestConfigurable graph ancestors) state = .ok state' →
      Printable graph nodeId ∧
        ∃ inside, Explores graph.links (state.scannedNodesId ++ [nodeId]) (nodeId :: ancestors)
            (graph.links nodeId) inside ∧
          (∀ visit ∈ inside, Printable graph visit.node) ∧
            state' = (⟨nodeId, ancestors⟩ :: inside).foldl (record graph) state) :
    ∀ todo state state',
      todo.foldlM (fun state endNode =>
        if endNode ∈ state.scannedNodesId then .ok state
        else do
          printEndNode graph endNode
          dfs graph depth endNode (nearestConfigurable graph ancestors) state) state =
          .ok state' →
      ∃ visits, Explores graph.links state.scannedNodesId ancestors todo visits ∧
        (∀ visit ∈ visits, Printable graph visit.node) ∧
          state' = visits.foldl (record graph) state := by
  intro todo
  induction todo with
  | nil =>
    intro state state' returned
    cases returned
    exact ⟨[], .done, by simp, rfl⟩
  | cons endNode todo ih =>
    intro state state' returned
    rw [List.foldlM_cons] at returned
    by_cases scanned : endNode ∈ state.scannedNodesId
    · rw [if_pos scanned] at returned
      obtain ⟨visits, explores, printable, result⟩ := ih state state' returned
      exact ⟨visits, .skip scanned explores, printable, result⟩
    · rw [if_neg scanned] at returned
      obtain ⟨middle, entered, returned⟩ := bind_eq_ok.mp returned
      obtain ⟨-, -, below⟩ := bind_eq_ok.mp entered
      obtain ⟨shown, inside, exploresBelow, shownBelow, reached⟩ :=
        searches endNode state middle below
      obtain ⟨visits, explores, printable, result⟩ := ih middle state' returned
      have seen : middle.scannedNodesId =
          state.scannedNodesId ++ endNode :: inside.map Visit.node := by
        rw [reached, scanned_record]
        simp
      rw [seen] at explores
      refine ⟨_, .enter scanned exploresBelow explores, ?_, ?_⟩
      · simp only [List.mem_cons, List.mem_append]
        rintro visit (rfl | within | later)
        · exact shown
        · exact shownBelow visit within
        · exact printable visit later
      · rw [result, reached, ← List.cons_append, List.foldl_append]

/-- What `dfs` does is record the visits of a depth-first search. -/
theorem dfs_explores (graph : Graph) (depth : Nat) :
    ∀ nodeId ancestors state state',
      dfs graph depth nodeId (nearestConfigurable graph ancestors) state = .ok state' →
      Printable graph nodeId ∧
        ∃ inside, Explores graph.links (state.scannedNodesId ++ [nodeId]) (nodeId :: ancestors)
            (graph.links nodeId) inside ∧
          (∀ visit ∈ inside, Printable graph visit.node) ∧
            state' = (⟨nodeId, ancestors⟩ :: inside).foldl (record graph) state := by
  induction depth with
  | zero =>
    intro nodeId ancestors state state' returned
    cases returned
  | succ depth ih =>
    intro nodeId ancestors state state' returned
    unfold dfs at returned
    cases found : getNodeFull graph nodeId with
    | none =>
      rw [found] at returned
      cases returned
    | some node =>
      rw [found] at returned
      simp only [enter_eq graph state ancestors found] at returned
      obtain ⟨⟨⟩, printed, returned⟩ := bind_eq_ok.mp returned
      obtain ⟨after, looped, returned⟩ := bind_eq_ok.mp returned
      obtain ⟨⟨⟩, -, finished⟩ := bind_eq_ok.mp returned
      cases finished
      have explored := loop_explores graph depth (nodeId :: ancestors)
        (fun below => ih below (nodeId :: ancestors)) (graph.links nodeId) _ state' looped
      exact ⟨(printName_ok_iff found).mp printed, explored⟩

theorem nodes_record (graph : Graph) (visits : List (Visit Nat)) (state : State) :
    (visits.foldl (record graph) state).nodes =
      state.nodes ++ (visits.map Visit.node).filter (configurable graph) := by
  induction visits generalizing state with
  | nil => simp
  | cons visit visits ih =>
    rw [List.foldl_cons, ih]
    by_cases made : configurable graph visit.node <;> simp [record, made]

/-- A connection stands in the table. -/
def Recorded (connections : Connections) (parent child : Nat) : Prop :=
  ∃ children, connections.lookup parent = some children ∧ child ∈ children

theorem recorded_addConnection (connections : Connections) (nodeFrom nodeTo : Nat) :
    Recorded (addConnection connections nodeFrom nodeTo) parent child ↔
      Recorded connections parent child ∨ (parent = nodeFrom ∧ child = nodeTo) := by
  have inserted (children : List Nat) :
      Recorded (connections.insert nodeFrom children) parent child ↔
        (parent ≠ nodeFrom ∧ Recorded connections parent child) ∨
          (parent = nodeFrom ∧ child ∈ children) := by
    unfold Recorded
    by_cases same : parent = nodeFrom
    · subst same
      simp
    · simp [Finmap.lookup_insert_of_ne _ same, same]
  unfold addConnection
  cases held : connections.lookup nodeFrom with
  | none =>
    have noneHeld : parent = nodeFrom → ¬ Recorded connections parent child := by
      rintro rfl ⟨children, found, _⟩
      rw [held] at found
      cases found
    simp only [inserted, List.mem_singleton]
    tauto
  | some children =>
    have whenHeld : parent = nodeFrom → (Recorded connections parent child ↔ child ∈ children) := by
      rintro rfl
      simp [Recorded, held]
    by_cases known : nodeTo ∈ children
    · simp only [known, ↓reduceIte]
      constructor
      · exact Or.inl
      · rintro (before | ⟨rfl, rfl⟩)
        · exact before
        · exact ⟨children, held, known⟩
    · simp only [known, ↓reduceIte, inserted, List.mem_append, List.mem_singleton]
      tauto

/-- The table has the nearest configurable ancestor of each visit that has one. -/
theorem recorded_record (graph : Graph) (visits : List (Visit Nat)) (state : State) :
    Recorded (visits.foldl (record graph) state).connections parent child ↔
      Recorded state.connections parent child ∨
        ∃ visit ∈ visits, visit.node = child ∧
          nearestConfigurable graph visit.ancestors = some parent := by
  induction visits generalizing state with
  | nil => simp
  | cons visit visits ih =>
    rw [List.foldl_cons, ih]
    have one : Recorded (record graph state visit).connections parent child ↔
        Recorded state.connections parent child ∨
          (visit.node = child ∧ nearestConfigurable graph visit.ancestors = some parent) := by
      unfold record
      cases nearest : nearestConfigurable graph visit.ancestors with
      | none => simp
      | some above =>
        simp only [recorded_addConnection, Option.some.injEq]
        constructor
        · rintro (before | ⟨rfl, rfl⟩)
          · exact Or.inl before
          · exact Or.inr ⟨rfl, rfl⟩
        · rintro (before | ⟨rfl, rfl⟩)
          · exact Or.inl before
          · exact Or.inr ⟨rfl, rfl⟩
    rw [one, List.exists_mem_cons_iff, or_assoc]

/-- The stored nodes that are not scanned yet. -/
def unscanned (graph : Graph) (state : State) : Nat :=
  (graph.stored.map Prod.fst).countP fun nodeId => nodeId ∉ state.scannedNodesId

theorem unscanned_mono (graph : Graph) {state state' : State}
    (grown : state.scannedNodesId ⊆ state'.scannedNodesId) :
    unscanned graph state' ≤ unscanned graph state := by
  apply List.countP_mono_left
  intro nodeId _ notScanned
  simp only [decide_eq_true_eq] at notScanned ⊢
  exact fun scanned => notScanned (grown scanned)

theorem unscanned_lt (graph : Graph) {state state' : State}
    (stored : nodeId ∈ graph.stored.map Prod.fst) (fresh : nodeId ∉ state.scannedNodesId)
    (grown : state'.scannedNodesId = state.scannedNodesId ++ [nodeId]) :
    unscanned graph state' < unscanned graph state := by
  obtain ⟨front, back, split⟩ := List.append_of_mem stored
  have fewer (nodeIds : List Nat) :
      nodeIds.countP (fun nodeId => nodeId ∉ state'.scannedNodesId) ≤
        nodeIds.countP fun nodeId => nodeId ∉ state.scannedNodesId := by
    apply List.countP_mono_left
    intro other _ notScanned
    simp only [decide_eq_true_eq, grown] at notScanned ⊢
    exact fun scanned => notScanned (List.mem_append_left _ scanned)
  have scannedNow : nodeId ∈ state'.scannedNodesId := by simp [grown]
  unfold unscanned
  rw [split, List.countP_append, List.countP_append,
    List.countP_cons_of_neg (by simpa using scannedNow),
    List.countP_cons_of_pos (by simpa using fresh)]
  have before := fewer front
  have behind := fewer back
  omega

theorem getNodeFull_of_stored (graph : Graph) (stored : nodeId ∈ graph.stored.map Prod.fst) :
    ∃ node, getNodeFull graph nodeId = some node := by
  obtain ⟨entry, member, rfl⟩ := List.mem_map.mp stored
  exact Option.isSome_iff_exists.mp (List.lookup_isSome_iff.mpr ⟨entry, member, beq_self_eq_true _⟩)

/-- The nodes that links lead to from a start. -/
def Reaches (graph : Graph) : Nat → Nat → Prop := Relation.ReflTransGen (Leads graph.links)

/-- With enough depth the loop comes to its end. -/
theorem loop_returns (graph : Graph) (start depth : Nat) (usableParentId : Option Nat)
    (printable : ∀ nodeId, Reaches graph start nodeId → Printable graph nodeId)
    (below : ∀ nodeId state, Reaches graph start nodeId → nodeId ∈ graph.stored.map Prod.fst →
      nodeId ∉ state.scannedNodesId → unscanned graph state ≤ depth →
      ∃ state', dfs graph depth nodeId usableParentId state = .ok state' ∧
        state.scannedNodesId ⊆ state'.scannedNodesId) :
    ∀ (todo : List Nat) (state : State),
      (∀ endNode ∈ todo, Reaches graph start endNode ∧ endNode ∈ graph.stored.map Prod.fst) →
      unscanned graph state ≤ depth →
      ∃ state', todo.foldlM (fun state endNode =>
          if endNode ∈ state.scannedNodesId then .ok state
          else do
            printEndNode graph endNode
            dfs graph depth endNode usableParentId state) state = .ok state' ∧
        state.scannedNodesId ⊆ state'.scannedNodesId := by
  intro todo
  induction todo with
  | nil =>
    intro state _ _
    exact ⟨state, rfl, fun _ scanned => scanned⟩
  | cons endNode todo ih =>
    intro state linked enough
    have rest := fun other listed => linked other (List.mem_cons_of_mem endNode listed)
    rw [List.foldlM_cons]
    by_cases scanned : endNode ∈ state.scannedNodesId
    · rw [if_pos scanned]
      exact ih state rest enough
    · rw [if_neg scanned]
      obtain ⟨reached, stored⟩ := linked endNode List.mem_cons_self
      obtain ⟨node, found⟩ := getNodeFull_of_stored graph stored
      obtain ⟨middle, searched, grown⟩ := below endNode state reached stored scanned enough
      obtain ⟨state', returned, grown'⟩ :=
        ih middle rest (le_trans (unscanned_mono graph grown) enough)
      have printed := (printEndNode_ok_iff found).mpr (printable endNode reached)
      refine ⟨state', ?_, fun _ held => grown' (grown held)⟩
      refine bind_eq_ok.mpr ⟨middle, ?_, returned⟩
      exact bind_eq_ok.mpr ⟨(), printed, searched⟩

theorem enter_scanned (state : State) (nodeId : Nat) (node : Node) (usableParentId : Option Nat) :
    (enter state nodeId node usableParentId).1.scannedNodesId =
      state.scannedNodesId ++ [nodeId] := by
  unfold enter
  cases usableParentId <;> cases needMakeCfg node <;> rfl

/-- A recursion as deep as there are unscanned nodes is enough. -/
theorem dfs_returns (graph : Graph) (start depth : Nat)
    (printable : ∀ nodeId, Reaches graph start nodeId → Printable graph nodeId) :
    ∀ nodeId usableParentId state, Reaches graph start nodeId →
      nodeId ∈ graph.stored.map Prod.fst → nodeId ∉ state.scannedNodesId →
      unscanned graph state ≤ depth →
      ∃ state', dfs graph depth nodeId usableParentId state = .ok state' ∧
        state.scannedNodesId ⊆ state'.scannedNodesId := by
  induction depth with
  | zero =>
    intro nodeId usableParentId state _ stored fresh enough
    have less := unscanned_lt graph stored fresh (enter_scanned state nodeId {} none)
    omega
  | succ depth ih =>
    intro nodeId usableParentId state reached stored fresh enough
    obtain ⟨node, found⟩ := getNodeFull_of_stored graph stored
    have scanned := enter_scanned state nodeId node usableParentId
    have less := unscanned_lt graph stored fresh scanned
    have linked : ∀ endNode ∈ graph.links nodeId,
        Reaches graph start endNode ∧ endNode ∈ graph.stored.map Prod.fst := by
      intro endNode listed
      exact ⟨reached.tail listed, graph.linked nodeId endNode listed⟩
    obtain ⟨state', looped, grown⟩ := loop_returns graph start depth
      (enter state nodeId node usableParentId).2 printable (fun below => ih below _)
      (graph.links nodeId) (enter state nodeId node usableParentId).1 linked (by omega)
    have printed := (printName_ok_iff found).mpr (printable nodeId reached)
    refine ⟨state', ?_, fun _ held => grown (scanned ▸ List.mem_append_left _ held)⟩
    unfold dfs
    simp only [found]
    refine bind_eq_ok.mpr ⟨(), printed, bind_eq_ok.mpr ⟨state', looped, ?_⟩⟩
    exact bind_eq_ok.mpr ⟨(), printed, rfl⟩

/-- What the search leaves, read off its tree. -/
structure Collected (graph : Graph) (start : Nat) (visits : List (Visit Nat)) (state : State) :
    Prop where
  tree : DepthFirst.Tree graph.links start visits
  scanned : state.scannedNodesId = visits.map Visit.node
  scannedOnce : state.scannedNodesId.Nodup
  scannedReached : ∀ nodeId, nodeId ∈ state.scannedNodesId ↔ Reaches graph start nodeId
  nodesOnce : state.nodes.Nodup
  nodesReached : ∀ nodeId, nodeId ∈ state.nodes ↔
    Reaches graph start nodeId ∧ configurable graph nodeId
  connected : ∀ parent child, Recorded state.connections parent child ↔
    ∃ visit ∈ visits, visit.node = child ∧ nearestConfigurable graph visit.ancestors = some parent
  oneParent : ∀ parent other child, Recorded state.connections parent child →
    Recorded state.connections other child → parent = other
  acyclic : ∀ nodeId, ¬ Relation.TransGen (Recorded state.connections) nodeId nodeId

/-- A search that returns leaves what its tree says, visit by visit, and has printed
the names of all its nodes. -/
theorem collected_of_returned (returned : dfs graph depth start none {} = .ok state) :
    ∃ visits, Collected graph start visits state ∧ state = visits.foldl (record graph) {} ∧
      ∀ nodeId, Reaches graph start nodeId → Printable graph nodeId := by
  obtain ⟨printed, inside, explores, printable, result⟩ :=
    dfs_explores graph depth start [] {} state returned
  have tree : DepthFirst.Tree graph.links start (⟨start, []⟩ :: inside) := by
    have whole := Explores.enter (by simp) explores .done
    simpa [DepthFirst.Tree] using whole
  have scanned : state.scannedNodesId = (⟨start, []⟩ :: inside : List (Visit Nat)).map Visit.node := by
    rw [result, scanned_record]
    rfl
  have reached (nodeId : Nat) : nodeId ∈ state.scannedNodesId ↔ Reaches graph start nodeId := by
    rw [scanned]
    exact tree.visited_iff nodeId
  have nodes : state.nodes = state.scannedNodesId.filter (configurable graph) := by
    rw [scanned, result, nodes_record]
    rfl
  have scannedOnce : state.scannedNodesId.Nodup := by
    rw [scanned]
    exact tree.distinct
  have connected (parent child : Nat) : Recorded state.connections parent child ↔
      ∃ visit ∈ (⟨start, []⟩ :: inside : List (Visit Nat)), visit.node = child ∧
        nearestConfigurable graph visit.ancestors = some parent := by
    rw [result, recorded_record]
    constructor
    · rintro (⟨children, found, _⟩ | recorded)
      · rw [Finmap.lookup_empty] at found
        cases found
      · exact recorded
    · exact Or.inr
  refine ⟨⟨start, []⟩ :: inside, ⟨tree, scanned, scannedOnce, reached, ?_, ?_, connected, ?_, ?_⟩,
    result, ?_⟩
  · rw [nodes]
    exact scannedOnce.filter _
  · intro nodeId
    rw [nodes, List.mem_filter, reached]
  · intro parent other child isParent isOther
    obtain ⟨visit, visited, isChild, nearest⟩ := (connected parent child).mp isParent
    obtain ⟨visit', visited', isChild', nearest'⟩ := (connected other child).mp isOther
    have same := tree.ancestors_unique visited visited' (isChild.trans isChild'.symm)
    rw [same, nearest'] at nearest
    exact (Option.some.inj nearest).symm
  · intro nodeId cycle
    refine tree.acyclic (nearestConfigurable graph) ?_ nodeId ?_
    · intro ancestors above nearest
      exact List.mem_of_find?_eq_some nearest
    · exact Relation.TransGen.mono (fun parent child => (connected parent child).mp) _ _ cycle
  · intro nodeId isReached
    obtain ⟨visit, visited, rfl⟩ := List.mem_map.mp ((tree.visited_iff nodeId).mpr isReached)
    rcases List.mem_cons.mp visited with rfl | below
    · exact printed
    · exact printable visit below

/-- Where all names that are printed are ASCII, a search from a stored node
returns, however deep it may recurse beyond the number of nodes. -/
theorem dfs_collects (stored : start ∈ graph.stored.map Prod.fst)
    (enough : graph.stored.length ≤ depth)
    (printable : ∀ nodeId, Reaches graph start nodeId → Printable graph nodeId) :
    ∃ state visits, dfs graph depth start none {} = .ok state ∧
      Collected graph start visits state := by
  have room : unscanned graph {} ≤ depth := by
    apply le_trans List.countP_le_length
    simpa using enough
  obtain ⟨state, returned, _⟩ :=
    dfs_returns graph start depth printable start none {} .refl stored (by simp) room
  obtain ⟨visits, collected, -, -⟩ := collected_of_returned returned
  exact ⟨state, visits, returned, collected⟩

/-- **The search prints the names of the nodes it visits.** From every stored node,
however deep it may recurse beyond the number of nodes, it returns and leaves
what its tree says exactly if the names of all nodes it can reach are ASCII. -/
theorem collects_iff_printable (graph : Graph) (start : Nat)
    (stored : start ∈ graph.stored.map Prod.fst) (depth : Nat)
    (enough : graph.stored.length ≤ depth) :
    (∃ state visits, dfs graph depth start none {} = .ok state ∧
      Collected graph start visits state) ↔
        ∀ nodeId, Reaches graph start nodeId → Printable graph nodeId := by
  constructor
  · rintro ⟨state, _, returned, _⟩
    obtain ⟨_, -, -, printable⟩ := collected_of_returned returned
    exact printable
  · exact dfs_collects stored enough

/-- Two monitored nodes on a cycle, with one between them that is not monitored
and links to itself. -/
def smallCycle : Graph where
  stored := [(4, { icingaName := some "core", ipAddress := some "10.0.0.1" }),
    (7, { name := some "Patch panel", icingaName := some "patch" }),
    (9, { icingaName := some "edge", ipAddress := some "10.0.0.2" })]
  links := fun nodeId =>
    if nodeId = 4 then [7, 7] else if nodeId = 7 then [7, 9] else if nodeId = 9 then [4] else []
  linked := by
    intro nodeId endNode listed
    split at listed
    · simp at listed
      simp [listed]
    · split at listed
      · simp at listed
        rcases listed with rfl | rfl <;> simp
      · split at listed
        · simp at listed
          simp [listed]
        · simp at listed

theorem small_cycle_is_collected : ∃ state visits,
    dfs smallCycle 3 4 none {} = .ok state ∧ Collected smallCycle 4 visits state := by
  refine (collects_iff_printable smallCycle 4 (by simp [smallCycle]) 3 (by simp [smallCycle])).mpr ?_
  intro nodeId _ node found name named
  obtain ⟨_, _, split, -⟩ := List.lookup_eq_some_iff.mp found
  have stored : (nodeId, node) ∈ smallCycle.stored := by simp [split]
  simp only [smallCycle, List.mem_cons, List.not_mem_nil, or_false, Prod.mk.injEq] at stored
  rcases stored with ⟨-, rfl⟩ | ⟨-, rfl⟩ | ⟨-, rfl⟩ <;> cases named
  decide

/-- One node with a name that is not ASCII. -/
def namedCity : Graph where
  stored := [(4, { name := some "Київ", icingaName := some "kyiv", ipAddress := some "10.0.0.1" })]
  links _ := []
  linked _ _ := nofun

/-- Its name cannot be printed. -/
theorem named_city_stops_search : ¬ ∀ (graph : Graph) (start : Nat),
    start ∈ graph.stored.map Prod.fst → ∀ depth, graph.stored.length ≤ depth →
      ∃ state visits, dfs graph depth start none {} = .ok state ∧
        Collected graph start visits state := by
  intro claimed
  obtain ⟨_, _, returned, _⟩ := claimed namedCity 4 (List.mem_singleton_self 4) 1 le_rfl
  cases returned

end NetGraphz.ConfigGeneratorProofs
