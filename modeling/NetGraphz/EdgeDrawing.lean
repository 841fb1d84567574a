import Mathlib.Data.Sym.Sym2
import NetGraphz.RendererProofs
import NetGraphz.Base.Keyed
import NetGraphz.Base.PairText

/-! Which links are drawn. The loop remembers the ends of the links it has drawn
as one ordered pair each and asks for both orders, so a link is drawn exactly if
no link before it joins the same two known nodes. -/
namespace NetGraphz.EdgeDrawing
open GraphStore GraphRenderer RendererProofs Keyed

variable {R : Type u}

/-- The nodes a link joins, in either order. -/
def pair (link : Link R) : Sym2 Int := s(link.src, link.dst)

/-- The nodes an edge joins, in either order. -/
def DrawnEdge.pair (edge : DrawnEdge) : Sym2 Int := s(edge.source, edge.target)

/-- Both ends are among the nodes. -/
def Known (nodes : List (Node R)) (link : Link R) : Prop :=
  link.src ∈ nodes.map Node.id ∧ link.dst ∈ nodes.map Node.id

instance (nodes : List (Node R)) (link : Link R) : Decidable (Known nodes link) :=
  inferInstanceAs (Decidable (_ ∧ _))

/-- The first of the links between its two nodes. -/
def IsFirst (links : List (Link R)) (link : Link R) : Prop :=
  links.find? (fun other => pair other = pair link) = some link

/-- No two edges join the same nodes, every edge joins nodes that are drawn, and
for every link between known nodes the first link between them is an edge. -/
structure EachPairOnce (nodes : List (Node R)) (links : List (Link R)) (graph : Graph) : Prop where
  apart : (graph.edges.map DrawnEdge.pair).Nodup
  drawn : ∀ edge ∈ graph.edges, edge.source ∈ graph.nodes.map DrawnNode.id ∧
    edge.target ∈ graph.nodes.map DrawnNode.id
  joined : ∀ link ∈ links, Known nodes link →
    ∃ first, IsFirst links first ∧ pair first = pair link ∧
      ∃ edge ∈ graph.edges, edge.real_id = first.id ∧ edge.source = first.src ∧
        edge.target = first.dst

/-! ## Pairs as property names

`ex_links` is an object, and a pair of ids is turned into text before it is a
name in it. No two pairs have the same text, so the pairs can stand for it. -/

section
variable [JsNumber R] (settings : Settings R) (store : Store R) (nodes : List (Node R))

/-- One turn of the loop over the links, with the names in `ex_links`. -/
def drawEdgeByName (progress : List String × List DrawnEdge) (link : Link R) :
    Option (List String × List DrawnEdge) :=
  let (ex_links, drawn) := progress
  if pairText (link.src, link.dst) ∈ ex_links ∨ pairText (link.dst, link.src) ∈ ex_links then
    some progress
  else if link.src ∈ nodes.map Node.id ∧ link.dst ∈ nodes.map Node.id then
    match prepareEdgeStyle settings store link with
    | none => none
    | some style =>
      let ex_links := pairText (link.src, link.dst) :: ex_links
      if link.id ∈ drawn.map DrawnEdge.real_id then some (ex_links, drawn)
      else
        let edge :=
          { real_id := link.id, source := link.src, target := link.dst, style, css := {} }
        some (ex_links, drawn ++ [edge])
  else some progress

/-- The names of the pairs. -/
def named (progress : List (Int × Int) × List DrawnEdge) : List String × List DrawnEdge :=
  (progress.1.map pairText, progress.2)

theorem drawEdgeByName_named (progress : List (Int × Int) × List DrawnEdge) (link : Link R) :
    drawEdgeByName settings store nodes (named progress) link =
      (drawEdge settings store nodes progress link).map named := by
  obtain ⟨ex_links, drawn⟩ := progress
  have names (a b : Int) : pairText (a, b) ∈ ex_links.map pairText ↔ (a, b) ∈ ex_links :=
    List.mem_map_of_injective pairText_injective
  unfold drawEdgeByName drawEdge named
  simp only [names]
  split
  · rfl
  · split
    · cases prepareEdgeStyle settings store link with
      | none => rfl
      | some style =>
        dsimp only
        split <;> rfl
    · rfl

/-- The loop over names draws what the loop over pairs draws. -/
theorem drawEdgesByName (links : List (Link R)) (progress : List (Int × Int) × List DrawnEdge) :
    links.foldlM (drawEdgeByName settings store nodes) (named progress) =
      (links.foldlM (drawEdge settings store nodes) progress).map named := by
  induction links generalizing progress with
  | nil => rfl
  | cons link rest ih =>
    rw [List.foldlM_cons, List.foldlM_cons, drawEdgeByName_named]
    cases drawEdge settings store nodes progress link with
    | none => rfl
    | some progress => exact ih progress

/-- `render_graph`, with the names in `ex_links`. -/
def renderGraphByName (edges : List (Link R)) : Option Graph :=
  match edges.foldlM (drawEdgeByName settings store nodes) ([], []) with
  | none => none
  | some (_, drawn) => some { nodes := nodes.foldl (drawNode settings) [], edges := drawn }

theorem renderGraphByName_eq (edges : List (Link R)) :
    renderGraphByName settings store nodes edges = renderGraph settings store nodes edges := by
  have loops := drawEdgesByName settings store nodes edges ([], [])
  have start : named ([], []) = ([], []) := rfl
  rw [start] at loops
  unfold renderGraphByName renderGraph
  rw [loops]
  cases edges.foldlM (drawEdge settings store nodes) ([], []) with
  | none => rfl
  | some progress => rfl

end

/-! ## What the loop keeps -/

/-- What of a link its edge shows. -/
def outlineOf (link : Link R) : Int × Int × Int := (link.id, link.src, link.dst)

def outline (edge : DrawnEdge) : Int × Int × Int := (edge.real_id, edge.source, edge.target)

/-- The links that are to be drawn. -/
def chosen (nodes : List (Node R)) (links : List (Link R)) : List (Link R) :=
  firstOfEach pair (links.filter fun link => Known nodes link)

/-- The pairs of nodes that the links join. -/
def joins (nodes : List (Node R)) (links : List (Link R)) : List (Sym2 Int) :=
  (links.filter fun link => Known nodes link).map pair

/-- The loop has drawn what is to be drawn, and marked it. -/
structure Drawn (nodes : List (Node R)) (links : List (Link R))
    (progress : List (Int × Int) × List DrawnEdge) : Prop where
  marked : ∀ a b, ((a, b) ∈ progress.1 ∨ (b, a) ∈ progress.1) ↔ s(a, b) ∈ joins nodes links
  outlines : progress.2.map outline = (chosen nodes links).map outlineOf

variable {nodes : List (Node R)} {links : List (Link R)}
  {progress : List (Int × Int) × List DrawnEdge}

/-- Links between the same nodes are known alike. -/
theorem known_of_pair {link other : Link R} (same : pair other = pair link)
    (known : Known nodes link) : Known nodes other := by
  rcases Sym2.eq_iff.mp same with ⟨src, dst⟩ | ⟨src, dst⟩
  · exact ⟨src ▸ known.1, dst ▸ known.2⟩
  · exact ⟨src ▸ known.2, dst ▸ known.1⟩

theorem mem_chosen (link : Link R) :
    link ∈ chosen nodes links ↔ Known nodes link ∧ IsFirst links link := by
  rw [chosen, mem_firstOfEach, List.find?_filter, IsFirst]
  constructor
  · intro found
    have own : Known nodes link := by
      have both := List.find?_some found
      simpa using both
    refine ⟨own, ?_⟩
    rw [← found]
    congr 1
    funext other
    by_cases same : pair other = pair link
    · simp [same, known_of_pair same own]
    · simp [same]
  · rintro ⟨own, found⟩
    rw [← found]
    congr 1
    funext other
    by_cases same : pair other = pair link
    · simp [same, known_of_pair same own]
    · simp [same]

theorem joins_concat (link : Link R) :
    joins nodes (links ++ [link]) =
      if Known nodes link then joins nodes links ++ [pair link] else joins nodes links := by
  unfold joins
  rw [List.filter_append, List.map_append]
  split <;> simp [*]

theorem chosen_concat (link : Link R) :
    chosen nodes (links ++ [link]) =
      if Known nodes link ∧ pair link ∉ joins nodes links then chosen nodes links ++ [link]
      else chosen nodes links := by
  unfold chosen joins
  rw [List.filter_append]
  by_cases known : Known nodes link
  · have kept : [link].filter (fun link => Known nodes link) = [link] := by simp [known]
    rw [kept, firstOfEach_concat]
    split <;> simp_all
  · simp [known]

theorem drawn_nil (nodes : List (Node R)) : Drawn nodes [] ([], []) where
  marked a b := by simp [joins]
  outlines := rfl

/-- A link that is not to be drawn changes nothing. -/
theorem Drawn.skip (before : Drawn nodes links progress) {link : Link R}
    (skipped : ¬(Known nodes link ∧ pair link ∉ joins nodes links)) :
    Drawn nodes (links ++ [link]) progress where
  marked a b := by
    rw [before.marked, joins_concat]
    split
    · rename_i known
      have joined : pair link ∈ joins nodes links := not_not.mp fun fresh => skipped ⟨known, fresh⟩
      rw [List.mem_append, List.mem_singleton]
      exact ⟨.inl, fun either => either.elim id fun same => same ▸ joined⟩
    · rfl
  outlines := by rw [before.outlines, chosen_concat, if_neg skipped]

/-- A link that is to be drawn becomes an edge. -/
theorem Drawn.add (before : Drawn nodes links progress) {link : Link R}
    (known : Known nodes link) (fresh : pair link ∉ joins nodes links) {edge : DrawnEdge}
    (shows : outline edge = outlineOf link) :
    Drawn nodes (links ++ [link]) ((link.src, link.dst) :: progress.1, progress.2 ++ [edge]) where
  marked a b := by
    have others := before.marked a b
    rw [joins_concat, if_pos known, List.mem_append, List.mem_singleton, ← others, pair,
      Sym2.eq_iff]
    simp only [List.mem_cons, Prod.mk.injEq]
    tauto
  outlines := by
    rw [chosen_concat, if_pos ⟨known, fresh⟩, List.map_append, List.map_append, before.outlines]
    simp [shows]

/-- The drawn edges have ids of links. -/
theorem Drawn.ids (before : Drawn nodes links progress) :
    ∀ id ∈ progress.2.map DrawnEdge.real_id, id ∈ links.map Link.id := by
  have same : progress.2.map DrawnEdge.real_id = (chosen nodes links).map Link.id := by
    have outlines := congrArg (List.map Prod.fst) before.outlines
    simpa [Function.comp_def, outline, outlineOf] using outlines
  intro id held
  rw [same] at held
  obtain ⟨link, isChosen, rfl⟩ := List.mem_map.mp held
  exact List.mem_map_of_mem (List.mem_of_find?_eq_some ((mem_chosen link).mp isChosen).2)

variable [JsNumber R] {settings : Settings R} {store : Store R}

theorem drawEdge_skip (before : Drawn nodes links progress) {link : Link R}
    (skipped : ¬(Known nodes link ∧ pair link ∉ joins nodes links)) :
    drawEdge settings store nodes progress link = some progress := by
  obtain ⟨ex_links, drawn⟩ := progress
  have marked := before.marked link.src link.dst
  unfold drawEdge
  dsimp only at marked ⊢
  split
  · rfl
  · rename_i unmarked
    split
    · rename_i known
      exact absurd ⟨known, fun joined => unmarked (marked.mpr joined)⟩ skipped
    · rfl

/-- The edge a link is drawn as. -/
def edgeOf (link : Link R) (style : Style) : DrawnEdge :=
  { real_id := link.id, source := link.src, target := link.dst, style, css := {} }

theorem drawEdge_add (before : Drawn nodes links progress) {link : Link R}
    (newId : link.id ∉ links.map Link.id) (known : Known nodes link)
    (fresh : pair link ∉ joins nodes links) :
    drawEdge settings store nodes progress link =
      (prepareEdgeStyle settings store link).map fun style =>
        ((link.src, link.dst) :: progress.1, progress.2 ++ [edgeOf link style]) := by
  obtain ⟨ex_links, drawn⟩ := progress
  have unmarked : ¬((link.src, link.dst) ∈ ex_links ∨ (link.dst, link.src) ∈ ex_links) :=
    fun marked => fresh ((before.marked link.src link.dst).mp marked)
  have unused : link.id ∉ drawn.map DrawnEdge.real_id := fun used => newId (before.ids _ used)
  have ends : link.src ∈ nodes.map Node.id ∧ link.dst ∈ nodes.map Node.id := known
  unfold drawEdge
  dsimp only
  rw [if_neg unmarked, if_pos ends]
  cases prepareEdgeStyle settings store link with
  | none => rfl
  | some style =>
    dsimp only
    rw [if_neg unused]
    rfl

/-- The loop draws what is to be drawn, or throws at a link that is. -/
theorem drawEdges (settings : Settings R) (store : Store R) (nodes : List (Node R))
    (distinct : (links.map Link.id).Nodup) :
    (∃ progress, links.foldlM (drawEdge settings store nodes) ([], []) = some progress ∧
      Drawn nodes links progress ∧
      ∀ link ∈ chosen nodes links, prepareEdgeStyle settings store link ≠ none) ∨
    (links.foldlM (drawEdge settings store nodes) ([], []) = none ∧
      ∃ link ∈ chosen nodes links, prepareEdgeStyle settings store link = none) := by
  induction links using List.reverseRecOn with
  | nil => exact .inl ⟨_, rfl, drawn_nil nodes, by rintro link ⟨⟩⟩
  | append_singleton links last ih =>
    have split := List.nodup_append.mp (List.map_append ▸ distinct)
    have newId : last.id ∉ links.map Link.id :=
      fun used => split.2.2 _ used _ (List.mem_singleton_self _) rfl
    have concat (progress : List (Int × Int) × List DrawnEdge) :
        [last].foldlM (drawEdge settings store nodes) progress =
          drawEdge settings store nodes progress last := by
      rw [List.foldlM_cons]
      cases drawEdge settings store nodes progress last <;> rfl
    rw [List.foldlM_append, chosen_concat]
    rcases ih split.1 with ⟨progress, ran, drawn, styled⟩ | ⟨threw, link, isChosen, unstyled⟩
    · rw [ran, Option.bind_eq_bind, Option.bind_some, concat]
      by_cases adds : Known nodes last ∧ pair last ∉ joins nodes links
      · rw [if_pos adds, drawEdge_add drawn newId adds.1 adds.2]
        cases style : prepareEdgeStyle settings store last with
        | none => exact .inr ⟨rfl, last, List.mem_append_right _ (List.mem_singleton_self _), style⟩
        | some painted =>
          refine .inl ⟨_, rfl, drawn.add adds.1 adds.2 rfl, ?_⟩
          intro link held
          rcases List.mem_append.mp held with before | this
          · exact styled link before
          · rw [List.mem_singleton.mp this, style]
            exact Option.some_ne_none painted
      · rw [if_neg adds, drawEdge_skip drawn adds]
        exact .inl ⟨progress, rfl, drawn.skip adds, styled⟩
    · rw [threw]
      refine .inr ⟨rfl, link, ?_, unstyled⟩
      split
      · exact List.mem_append_left _ isChosen
      · exact isChosen

omit [JsNumber R] in
/-- What is to be drawn joins each pair of nodes once. -/
theorem Drawn.eachPairOnce (drawn : Drawn nodes links progress) :
    EachPairOnce nodes links
      { nodes := nodes.foldl (drawNode settings) [], edges := progress.2 } where
  apart := by
    have same : progress.2.map DrawnEdge.pair = (chosen nodes links).map pair := by
      have outlines := congrArg (List.map fun o : Int × Int × Int => s(o.2.1, o.2.2))
        drawn.outlines
      rw [List.map_map, List.map_map] at outlines
      exact outlines
    rw [same]
    exact firstOfEach_distinct pair _
  drawn := by
    intro edge held
    have shown : outline edge ∈ (chosen nodes links).map outlineOf :=
      drawn.outlines ▸ List.mem_map_of_mem held
    obtain ⟨link, isChosen, same⟩ := List.mem_map.mp shown
    obtain ⟨src, dst⟩ := ((mem_chosen link).mp isChosen).1
    simp only [outlineOf, outline, Prod.mk.injEq] at same
    obtain ⟨_, rfl', rfl''⟩ := same
    rw [← rfl', ← rfl'']
    exact ⟨(drawNodes_ids [] nodes _).mpr (.inr src), (drawNodes_ids [] nodes _).mpr (.inr dst)⟩
  joined := by
    intro link held known
    have there : (links.find? fun other => pair other = pair link).isSome :=
      List.find?_isSome.mpr ⟨link, held, by simp⟩
    obtain ⟨first, found⟩ := Option.isSome_iff_exists.mp there
    have same : pair first = pair link := by simpa using List.find?_some found
    have isFirst : IsFirst links first := by
      rw [IsFirst, same]
      exact found
    have shown : outlineOf first ∈ progress.2.map outline := by
      rw [drawn.outlines]
      exact List.mem_map_of_mem ((mem_chosen first).mpr ⟨known_of_pair same known, isFirst⟩)
    obtain ⟨edge, isEdge, shows⟩ := List.mem_map.mp shown
    simp only [outlineOf, outline, Prod.mk.injEq] at shows
    exact ⟨first, isFirst, same, edge, isEdge, shows⟩

/-- The drawing joins each pair of known nodes once, by the first link between
them, exactly unless the metrics cannot be looked up and one of these links has
the name of a metric. -/
theorem each_pair_once_iff (settings : Settings R) (store : Store R) (nodes : List (Node R))
    (links : List (Link R)) (distinct : (links.map Link.id).Nodup) :
    (∃ graph, renderGraph settings store nodes links = some graph ∧
      EachPairOnce nodes links graph) ↔
      ¬(Shadowed store ∧ ∃ link ∈ links, Known nodes link ∧ IsFirst links link ∧
        (link.rx_octets ≠ "" ∨ link.tx_octets ≠ "")) := by
  rcases drawEdges settings store nodes distinct with
    ⟨progress, ran, drawn, styled⟩ | ⟨threw, link, isChosen, unstyled⟩
  · refine iff_of_true ⟨_, by rw [renderGraph, ran], drawn.eachPairOnce⟩ ?_
    rintro ⟨shadowed, link, _, known, isFirst, named⟩
    exact styled link ((mem_chosen link).mpr ⟨known, isFirst⟩)
      ((prepareEdgeStyle_eq_none link).mpr ⟨shadowed, named⟩)
  · obtain ⟨known, isFirst⟩ := (mem_chosen link).mp isChosen
    obtain ⟨shadowed, named⟩ := (prepareEdgeStyle_eq_none link).mp unstyled
    refine iff_of_false ?_ fun fine =>
      fine ⟨shadowed, link, List.mem_of_find?_eq_some isFirst, known, isFirst, named⟩
    rintro ⟨graph, rendered, _⟩
    rw [renderGraph, threw] at rendered
    cases rendered

/-- **Each pair of known nodes is joined once.** No metric has the name of the
method that metrics are looked up with; those of collectd never do. -/
theorem each_pair_once (settings : Settings R) (store : Store R) (nodes : List (Node R))
    (links : List (Link R)) (distinct : (links.map Link.id).Nodup)
    (no_metric : store.metrics "hasOwnProperty" = none) :
    ∃ graph, renderGraphByName settings store nodes links = some graph ∧
      EachPairOnce nodes links graph := by
  rw [renderGraphByName_eq]
  refine (each_pair_once_iff settings store nodes links distinct).mpr ?_
  rintro ⟨shadowed, -⟩
  rw [Shadowed, no_metric] at shadowed
  cases shadowed

theorem two_nodes_joined_once :
    ∃ graph, renderGraphByName shipped (loadAll newStore twoNodes [slowLink]) twoNodes [slowLink] =
      some graph ∧ EachPairOnce twoNodes [slowLink] graph :=
  each_pair_once shipped (loadAll newStore twoNodes [slowLink]) twoNodes [slowLink]
    (List.nodup_singleton _) rfl

end NetGraphz.EdgeDrawing
