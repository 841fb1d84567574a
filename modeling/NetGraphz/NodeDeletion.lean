import NetGraphz.Base.PropertyGraph
import NetGraphz.GraphRecords

/-! Deleting a node through the node library. With its links it is deleted by a
query, whose pattern asks for the node and a link at it. -/
namespace NetGraphz.NodeDeletion
open GraphRecords PropertyGraph

/-- The results of a deletion: the rows of the query, that there was no such node,
or the node as the driver gives it. -/
inductive Result where
  | rows (data : List Record)
  | failure
  | success (node : Record)

/-- What the callback of a deletion gets. -/
structure Reply where
  result : Option Result
  error : Option String

/-- The driver's `deleteNode`: an error, `false` or a node. -/
structure Driver where
  deleteNode : Graph Record → Int → Graph Record × Except String (Option Record)

/-- `MATCH (n:NetAssistNode)-[r:LINKS_TO]-() WHERE Id(n)={id} DELETE n,r`. -/
def deleteMatched (graph : Graph Record) (id : Int) : Option (Graph Record) :=
  let rows := graph.matchIncident "NetAssistNode" "LINKS_TO" id
  graph.delete (rows.map fun row => row.1.id) (rows.map fun row => row.2.id)

/-- `delete`, with the database after it. -/
def delete (driver : Driver) (graph : Graph Record) (node_id : Int)
    (include_relationships : Option Bool) : Graph Record × Reply :=
  if include_relationships.getD false then
    match deleteMatched graph node_id with
    | none => (graph, ⟨none, some "Error, cannot delete node"⟩)
    | some after => (after, ⟨some (.rows []), none⟩)
  else
    match driver.deleteNode graph node_id with
    | (after, .error _) => (after, ⟨none, some "Error, cannot delete node"⟩)
    | (after, .ok none) => (after, ⟨some .failure, none⟩)
    | (after, .ok (some node)) => (after, ⟨some (.success (graphNodeToApiNode node)), none⟩)

/-- A deletion with the links that reports success has taken the node out of the
graph with all its links, and nothing else. -/
def Deletes (driver : Driver) (graph : Graph Record) (id : Int) : Prop :=
  (delete driver graph id (some true)).2.error = none →
    Removed graph id (delete driver graph id (some true)).1

/-- The pattern matches the node. -/
def Linked (graph : Graph Record) (node : Node Record) : Prop :=
  "NetAssistNode" ∈ node.labels ∧
    ∃ r ∈ graph.relationships, r.type = "LINKS_TO" ∧ r.Incident node.id

variable {graph after : Graph Record} {node : Node Record}

/-- Where the pattern matches nothing, nothing is deleted and no error reported. -/
theorem unlinked_unchanged (present : node ∈ graph.nodes) (unlinked : ¬Linked graph node) :
    deleteMatched graph node.id = some graph := by
  have empty : graph.matchIncident "NetAssistNode" "LINKS_TO" node.id = [] := by
    apply List.eq_nil_iff_forall_not_mem.mpr
    rintro ⟨n, r⟩ row
    obtain ⟨⟨member, own, label⟩, inside, type, incident⟩ := mem_matchIncident.mp row
    obtain rfl := List.inj_on_of_nodup_map graph.nodesDistinct member present own
    exact unlinked ⟨label, r, inside, type, incident⟩
  rw [deleteMatched, empty]
  exact delete_nil graph

/-- Where it matches, the node is deleted with what is at it, if at all. -/
theorem removed_of_linked (present : node ∈ graph.nodes) (linked : Linked graph node)
    (deleted : deleteMatched graph node.id = some after) : Removed graph node.id after := by
  obtain ⟨label, link, inside, type, incident⟩ := linked
  refine removed_of_delete (fun other => ?_) (fun r member named => ?_) deleted
  · constructor
    · intro named
      obtain ⟨row, matched, rfl⟩ := List.mem_map.mp named
      exact (mem_matchIncident.mp matched).1.2.1
    · rintro rfl
      have matched := mem_matchIncident.mpr ⟨⟨present, rfl, label⟩, inside, type, incident⟩
      exact List.mem_map.mpr ⟨_, matched, rfl⟩
  · obtain ⟨row, matched, own⟩ := List.mem_map.mp named
    obtain ⟨_, within, _, atNode⟩ := mem_matchIncident.mp matched
    obtain rfl := List.inj_on_of_nodup_map graph.relationshipsDistinct within member own
    exact atNode

/-- A deletion that reports success has deleted the node exactly if the node had
a link for the pattern to match. -/
theorem deletes_iff (driver : Driver) (present : node ∈ graph.nodes) :
    Deletes driver graph node.id ↔ Linked graph node := by
  constructor
  · intro deletes
    by_contra unlinked
    have unchanged := unlinked_unchanged present unlinked
    simp only [Deletes, delete, Option.getD_some, if_true, unchanged] at deletes
    exact (deletes trivial).gone.1 (List.mem_map_of_mem present)
  · intro linked succeeds
    simp only [delete, Option.getD_some, if_true] at succeeds ⊢
    cases deleted : deleteMatched graph node.id with
    | none =>
      rw [deleted] at succeeds
      cases succeeds
    | some after => exact removed_of_linked present linked deleted

/-- A new switch, which nothing is linked to yet. -/
def lone : Node Record := ⟨7, ["NetAssistNode"], fun _ => none⟩

/-- A graph of one node. -/
def single : Graph Record where
  nodes := [lone]
  relationships := []
  nodesDistinct := List.nodup_singleton _
  relationshipsDistinct := List.nodup_nil
  closed := by simp

/-- A driver that finds nothing to delete. -/
def idle : Driver := ⟨fun graph _ => (graph, .ok none)⟩

theorem lone_not_deleted :
    lone ∈ single.nodes ∧ (delete idle single 7 (some true)).2.error = none ∧
      lone ∈ (delete idle single 7 (some true)).1.nodes ∧ ¬Deletes idle single 7 := by
  have unlinked : ¬Linked single lone := by
    rintro ⟨_, _, inside, _⟩
    cases inside
  have member : lone ∈ single.nodes := List.mem_singleton_self lone
  have unchanged : deleteMatched single 7 = some single := unlinked_unchanged member unlinked
  have success : delete idle single 7 (some true) = (single, ⟨some (.rows []), none⟩) := by
    simp [delete, unchanged]
  refine ⟨member, by rw [success], by rw [success]; exact member, fun deletes => ?_⟩
  rw [Deletes, success] at deletes
  exact (deletes rfl).gone.1 (List.mem_map_of_mem member)

/-- The switch with a link to itself. -/
def looped : Graph Record where
  nodes := [lone]
  relationships := [⟨3, "LINKS_TO", 7, 7, fun _ => none⟩]
  nodesDistinct := List.nodup_singleton _
  relationshipsDistinct := List.nodup_singleton _
  closed := by simp [Relationship.Incident, lone]

theorem looped_deleted : Deletes idle looped 7 := by
  have member : lone ∈ looped.nodes := List.mem_singleton_self lone
  have linked : Linked looped lone :=
    ⟨List.mem_singleton_self _, _, List.mem_singleton_self _, rfl, Or.inl rfl⟩
  exact (deletes_iff idle member).mpr linked

end NetGraphz.NodeDeletion
