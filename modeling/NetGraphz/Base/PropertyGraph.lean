import Mathlib.Data.List.Nodup

/-! Property graphs, what a pattern of a node and a relationship at it matches in
one, and deletions: a node that keeps a relationship is not deleted, and then
nothing is. -/
namespace NetGraphz.PropertyGraph

structure Node (P : Type u) where
  id : Int
  labels : List String
  properties : P

structure Relationship (P : Type u) where
  id : Int
  type : String
  start : Int
  stop : Int
  properties : P

/-- The relationship leaves the node or arrives there. -/
def Relationship.Incident (r : Relationship P) (id : Int) : Prop := r.start = id ∨ r.stop = id

instance (r : Relationship P) (id : Int) : Decidable (r.Incident id) :=
  inferInstanceAs (Decidable (_ ∨ _))

structure Graph (P : Type u) where
  nodes : List (Node P)
  relationships : List (Relationship P)
  nodesDistinct : (nodes.map Node.id).Nodup
  relationshipsDistinct : (relationships.map Relationship.id).Nodup
  closed : ∀ r ∈ relationships, ∀ id, r.Incident id → id ∈ nodes.map Node.id

variable {P : Type u} {graph after : Graph P}

/-- `MATCH (n:label)-[r:type]-() WHERE Id(n)={id}`: the rows, one for each
relationship. -/
def Graph.matchIncident (graph : Graph P) (label type : String) (id : Int) :
    List (Node P × Relationship P) :=
  (graph.nodes.filter fun n => n.id = id ∧ label ∈ n.labels).flatMap fun n =>
    (graph.relationships.filter fun r => r.type = type ∧ r.Incident id).map (Prod.mk n)

theorem mem_matchIncident {label type : String} {id : Int} {n : Node P} {r : Relationship P} :
    (n, r) ∈ graph.matchIncident label type id ↔
      (n ∈ graph.nodes ∧ n.id = id ∧ label ∈ n.labels) ∧
        r ∈ graph.relationships ∧ r.type = type ∧ r.Incident id := by
  simp [Graph.matchIncident]

/-- No relationship is left at a node that goes. -/
def Graph.Detached (graph : Graph P) (nodes relationships : List Int) : Prop :=
  ∀ r ∈ graph.relationships, r.id ∉ relationships → ∀ id ∈ nodes, ¬r.Incident id

instance (graph : Graph P) (nodes relationships : List Int) :
    Decidable (graph.Detached nodes relationships) :=
  inferInstanceAs (Decidable (∀ r ∈ graph.relationships, _ → ∀ id ∈ nodes, ¬r.Incident id))

/-- The graph without some nodes and relationships. -/
def Graph.without (graph : Graph P) (nodes relationships : List Int)
    (detached : graph.Detached nodes relationships) : Graph P where
  nodes := graph.nodes.filter fun n => n.id ∉ nodes
  relationships := graph.relationships.filter fun r => r.id ∉ relationships
  nodesDistinct := graph.nodesDistinct.sublist (List.filter_sublist.map _)
  relationshipsDistinct := graph.relationshipsDistinct.sublist (List.filter_sublist.map _)
  closed := by
    intro r kept id incident
    obtain ⟨inside, stays⟩ := List.mem_filter.mp kept
    obtain ⟨n, member, own⟩ := List.mem_map.mp (graph.closed r inside id incident)
    apply List.mem_map.mpr
    refine ⟨n, List.mem_filter.mpr ⟨member, ?_⟩, own⟩
    simp only [decide_eq_true_eq] at stays ⊢
    intro goes
    exact detached r inside stays n.id goes (own ▸ incident)

/-- `DELETE`; `none` is the error that a node still has relationships. -/
def Graph.delete (graph : Graph P) (nodes relationships : List Int) : Option (Graph P) :=
  if detached : graph.Detached nodes relationships then
    some (graph.without nodes relationships detached)
  else none

/-- After a deletion, what was not named is there as it was. -/
theorem delete_eq {nodes relationships : List Int}
    (deleted : graph.delete nodes relationships = some after) :
    after.nodes = (graph.nodes.filter fun n => n.id ∉ nodes) ∧
      after.relationships = graph.relationships.filter fun r => r.id ∉ relationships := by
  unfold Graph.delete at deleted
  split at deleted
  · cases deleted
    exact ⟨rfl, rfl⟩
  · cases deleted

/-- A deletion of nothing goes through and leaves the graph alone. -/
theorem delete_nil (graph : Graph P) : graph.delete [] [] = some graph := by
  have detached : graph.Detached [] [] := by
    intro r _ _ id none
    cases none
  rw [Graph.delete, dif_pos detached]
  simp [Graph.without]

/-- The node is gone with all that was at it, and nothing else is. -/
structure Removed (graph : Graph P) (id : Int) (after : Graph P) : Prop where
  nodes : after.nodes = graph.nodes.filter fun n => n.id ≠ id
  relationships : after.relationships = graph.relationships.filter fun r => ¬r.Incident id

/-- A node is deleted with relationships at it, and the deletion goes through:
then these were all it had. -/
theorem removed_of_delete {id : Int} {nodes relationships : List Int}
    (only : ∀ other, other ∈ nodes ↔ other = id)
    (own : ∀ r ∈ graph.relationships, r.id ∈ relationships → r.Incident id)
    (deleted : graph.delete nodes relationships = some after) : Removed graph id after := by
  have detached : graph.Detached nodes relationships := by
    by_contra attached
    rw [Graph.delete, dif_neg attached] at deleted
    cases deleted
  obtain ⟨sameNodes, sameRelationships⟩ := delete_eq deleted
  constructor
  · rw [sameNodes]
    simp only [only, ne_eq]
  · rw [sameRelationships]
    apply List.filter_congr
    intro r member
    have all : r.id ∈ relationships ↔ r.Incident id := by
      refine ⟨own r member, fun incident => ?_⟩
      by_contra stays
      exact detached r member stays id ((only id).mpr rfl) incident
    simp only [all]

/-- Nothing of the node is left. -/
theorem Removed.gone {id : Int} (removed : Removed graph id after) :
    id ∉ after.nodes.map Node.id ∧ ∀ r ∈ after.relationships, ¬r.Incident id := by
  rw [removed.nodes, removed.relationships]
  constructor
  · intro member
    obtain ⟨n, kept, own⟩ := List.mem_map.mp member
    exact of_decide_eq_true (List.mem_filter.mp kept).2 own
  · intro r kept
    exact of_decide_eq_true (List.mem_filter.mp kept).2

end NetGraphz.PropertyGraph
