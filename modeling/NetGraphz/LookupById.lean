import NetGraphz.Base.Fallible
import NetGraphz.Base.IPText
import NetGraphz.GraphLinks

/-! The queries of the graph storage with the columns they return, and what their
rows are scanned into. Nodes found by id are the nodes that are listed; the query
for a link by id returns fewer columns than are scanned. -/
namespace NetGraphz.LookupById
open GraphStorage GraphLinks

/-- A node in the database. -/
structure NodeRow where
  id : Int64
  properties : Properties := ∅

/-- `read_host_row`. -/
def readHostRow (row : NodeRow) : Host where
  id := row.id
  dbImportSwitchId := (readInt64Prop row.properties "db_sw_id" (-1)).toInt32
  name := readStringProp row.properties "name"
  icingaName := readStringProp row.properties "icinga_name"
  ip := NetIP.parseIP (readStringProp row.properties "ip_address")
  ip6 := NetIP.parseIP (readStringProp row.properties "ip6_address")
  macAddress := readStringProp row.properties "mac_address"
  address := readStringProp row.properties "address"
  comment := readStringProp row.properties "comment"
  model := readStringProp row.properties "model"
  serial := readStringProp row.properties "serial"
  numPorts := (readInt64Prop row.properties "num_ports" (-1)).toInt16.toUInt16
  type := (readInt64Prop row.properties "type" 0).toInt16

/-- The database: nodes and links with ids of their own, from zero on, and the
order it gives links in. -/
structure Database where
  nodes : List NodeRow
  distinct : (nodes.map NodeRow.id).Nodup
  links : List LinkRow
  linksDistinct : (links.map LinkRow.id).Nodup
  linksNatural : ∀ row ∈ links, 0 ≤ row.id
  linksBetween : ∀ row ∈ links,
    row.srcNodeId ∈ nodes.map NodeRow.id ∧ row.dstNodeId ∈ nodes.map NodeRow.id
  order : List LinkRow → List LinkRow
  complete : ∀ rows, (order rows).Perm rows

/-- A column of a row. -/
inductive Cell where
  | integer (value : Int64)
  | node (properties : Properties)
  | relationship (properties : Properties)

/-! ## Queries -/

/-- `CYPHER_NODE_BY_ID`: `RETURN n`. -/
def Database.nodeById (db : Database) (id : Int64) : List (List Cell) :=
  (db.nodes.filter fun row => row.id = id).map fun row => [.node row.properties]

/-- `CYPHER_NODE_FROM_ID`: `RETURN Id(n), n ORDER BY Id(n)`. -/
def Database.nodesFromId (db : Database) (fromId : Int64) (limit : Nat) : List (List Cell) :=
  let later := db.nodes.filter fun row => fromId < row.id
  ((later.insertionSort fun row other => row.id ≤ other.id).take limit).map fun row =>
    [.integer row.id, .node row.properties]

/-- `CYPHER_LINK_BY_ID`: `RETURN r`. -/
def Database.linkById (db : Database) (id : Int64) : List (List Cell) :=
  (db.links.filter fun row => row.id = id).map fun row => [.relationship row.properties]

/-- `CYPHER_LINKS_FROM_ID`: `RETURN Id(r), Id(n), Id(c), r`. -/
def Database.linksFromId (db : Database) (fromId : Int64) (limit : Nat) : List (List Cell) :=
  ((db.order (db.links.filter fun row => fromId < row.id)).take limit).map fun row =>
    [.integer row.id, .integer row.srcNodeId, .integer row.dstNodeId, .relationship row.properties]

/-! ## Scanning -/

/-- The error of `Scan` for a row with another number of columns. -/
def wrongCount (row : List Cell) (destinations : Nat) : String :=
  s!"sql: expected {row.length} destination arguments in Scan, not {destinations}"

def scanInt64 : Cell → Except String Int64
  | .integer value => .ok value
  | _ => .error "unsupported driver value"

def scanNode : Cell → Except String Properties
  | .node properties => .ok properties
  | _ => .error "unsupported driver value"

def scanRelationship : Cell → Except String Properties
  | .relationship properties => .ok properties
  | _ => .error "unsupported driver value"

/-- `rows.Scan(&neo4j_node)`. -/
def scanNodeById : List Cell → Except String Properties
  | [n] => scanNode n
  | row => .error (wrongCount row 1)

/-- `rows.Scan(&id, &neo4j_node)`. -/
def scanNodeFromId : List Cell → Except String NodeRow
  | [id, n] => do return { id := ← scanInt64 id, properties := ← scanNode n }
  | row => .error (wrongCount row 2)

/-- `rows.Scan(&start_node_id, &end_node_id, &neo4j_rel)`, for a link's id. -/
def scanLinkById (id : Int64) : List Cell → Except String LinkRow
  | [start, stop, r] => do
    return {
      id := id
      srcNodeId := ← scanInt64 start
      dstNodeId := ← scanInt64 stop
      properties := ← scanRelationship r }
  | row => .error (wrongCount row 3)

/-- `rows.Scan(&id, &start_node_id, &end_node_id, &neo4j_rel)`. -/
def scanLinkFromId : List Cell → Except String LinkRow
  | [id, start, stop, r] => do
    return {
      id := ← scanInt64 id
      srcNodeId := ← scanInt64 start
      dstNodeId := ← scanInt64 stop
      properties := ← scanRelationship r }
  | row => .error (wrongCount row 4)

/-! ## The storage -/

/-- `GetNodeById`. -/
def getNodeById (db : Database) (id : Int64) : Except String Host :=
  match db.nodeById id with
  | [] => .error "Node not found"
  | row :: _ => do return readHostRow { id := id, properties := ← scanNodeById row }

/-- `GetLinkById`. -/
def getLinkById (db : Database) (id : Int64) : Except String Link :=
  match db.linkById id with
  | [] => .error "Link not found"
  | row :: _ => do return readLinkRow (← scanLinkById id row)

/-- `GetAllLinksFrom`; a negative limit is refused. -/
def getAllLinksFrom (db : Database) (fromId : Int64) (nTake : Int32) : Except String (List Link) :=
  if nTake < 0 then .error "Invalid limit"
  else (db.linksFromId fromId nTake.toInt.toNat).mapM fun row =>
    do return readLinkRow (← scanLinkFromId row)

/-- `GetAllNodesFrom`; a negative limit is refused. -/
def getAllNodesFrom (db : Database) (fromId : Int64) (nTake : Int32) : Except String (List Host) :=
  if nTake < 0 then .error "Invalid limit"
  else (db.nodesFromId fromId nTake.toInt.toNat).mapM fun row =>
    do return readHostRow (← scanNodeFromId row)

/-! ## The graph of the database -/

/-- The database as its links and its decoded nodes. -/
def Database.neo4j (db : Database) : Neo4j where
  graph :=
    { nodes := db.nodes.map readHostRow
      distinct := by
        rw [List.map_map]
        exact db.distinct
      links := db.links
      linksDistinct := db.linksDistinct
      linksNatural := db.linksNatural
      linksBetween := by
        rw [List.map_map]
        exact db.linksBetween }
  order := db.order
  complete := db.complete

/-- The rows of the listing of links are read as they are scanned. -/
theorem getAllLinksFrom_eq (db : Database) (fromId : Int64) (nTake : Int32) :
    getAllLinksFrom db fromId nTake = GraphLinks.getAllLinksFrom db.neo4j fromId nTake := by
  unfold getAllLinksFrom GraphLinks.getAllLinksFrom Database.linksFromId Neo4j.linksFrom
  split
  · rfl
  · rw [List.mapM_map]
    exact Completes.mapM_eq fun row _ => rfl

/-- The listing of nodes is the one of the graph's storage. -/
theorem getAllNodesFrom_eq (db : Database) (fromId : Int64) (nTake : Int32) :
    getAllNodesFrom db fromId nTake =
      db.neo4j.graph.toGraph.storage.getAllNodesFrom fromId nTake := by
  unfold getAllNodesFrom Graph.storage Graph.nodesFrom Database.nodesFromId
  dsimp only [Database.neo4j]
  split
  · rfl
  · have sorted (rows : List NodeRow) :
        (rows.map readHostRow).insertionSort (fun node other => node.id ≤ other.id) =
          (rows.insertionSort fun row other => row.id ≤ other.id).map readHostRow :=
      (List.map_insertionSort _ _ readHostRow rows fun _ _ _ _ => Iff.rfl).symm
    rw [List.mapM_map, List.filter_map, sorted, ← List.map_take]
    exact Completes.mapM_eq fun row _ => rfl

/-- The node found by an id is the one of the graph's storage. -/
theorem getNodeById_eq (db : Database) (id : Int64) :
    getNodeById db id = db.neo4j.graph.toGraph.storage.getNodeById id := by
  unfold getNodeById Graph.storage Graph.nodeById Database.nodeById
  dsimp only [Database.neo4j]
  have first : (db.nodes.map readHostRow).find? (fun node => decide (node.id = id)) =
      (db.nodes.filter fun row => row.id = id).head?.map readHostRow := by
    rw [List.find?_map, ← List.head?_filter]
    rfl
  rw [first]
  cases kept : db.nodes.filter fun row => row.id = id with
  | nil => rfl
  | cons row rest =>
    have found : row ∈ db.nodes.filter fun row => row.id = id := kept ▸ List.mem_cons_self
    have named : row.id = id := by simpa using (List.mem_filter.mp found).2
    subst named
    rfl

/-! ## Agreement -/

/-- What is listed is found by its id, and found as it is listed. -/
structure LookupAgrees (db : Database) : Prop where
  links : ∀ fromId nTake listed, getAllLinksFrom db fromId nTake = .ok listed →
    ∀ link ∈ listed, getLinkById db link.id = .ok link
  nodes : ∀ fromId nTake listed, getAllNodesFrom db fromId nTake = .ok listed →
    ∀ node ∈ listed, getNodeById db node.id = .ok node

theorem nodes_agree (db : Database) (fromId : Int64) (nTake : Int32) (listed : List Host)
    (result : getAllNodesFrom db fromId nTake = .ok listed) :
    ∀ node ∈ listed, getNodeById db node.id = .ok node := by
  intro node held
  rw [getAllNodesFrom_eq] at result
  rw [getNodeById_eq]
  exact db.neo4j.graph.toGraph.storage.consistent result node held

/-- No link is found: its row has one column, for three destinations. -/
theorem getLinkById_fails (db : Database) (id : Int64) :
    ∃ message, getLinkById db id = .error message := by
  unfold getLinkById Database.linkById
  cases db.links.filter fun row => row.id = id with
  | nil => exact ⟨_, rfl⟩
  | cons row rest => exact ⟨_, rfl⟩

/-- A graph with a link lists one. -/
theorem links_listed (db : Database) (linked : db.links ≠ []) :
    ∃ link rest, getAllLinksFrom db (-1) 1 = .ok (link :: rest) := by
  have all : (db.links.filter fun row => -1 < row.id) = db.links := by
    apply List.filter_eq_self.mpr
    intro row held
    have natural := Int64.le_iff_toInt_le.mp (db.linksNatural row held)
    rw [decide_eq_true_iff, Int64.lt_iff_toInt_lt]
    exact lt_of_lt_of_le (by decide) natural
  have listed : getAllLinksFrom db (-1) 1 =
      .ok (((db.order db.links).take 1).map readLinkRow) := by
    rw [getAllLinksFrom_eq]
    unfold GraphLinks.getAllLinksFrom Neo4j.linksFrom
    rw [if_neg (by decide), show db.neo4j.graph.links = db.links from rfl, all]
    rfl
  cases ordered : db.order db.links with
  | nil => exact absurd ((db.complete db.links).symm.trans (ordered ▸ List.Perm.refl _)).eq_nil linked
  | cons row rest =>
    rw [ordered] at listed
    exact ⟨_, _, listed⟩

/-- **No link is found by its id.** Lookup and listing agree exactly for graphs
without links; on nodes they always do. -/
theorem lookup_agrees_iff (db : Database) : LookupAgrees db ↔ db.links = [] := by
  constructor
  · intro agrees
    by_contra linked
    obtain ⟨link, rest, listed⟩ := links_listed db linked
    have found := agrees.links _ _ _ listed link List.mem_cons_self
    obtain ⟨message, fails⟩ := getLinkById_fails db link.id
    rw [fails] at found
    cases found
  · intro none
    refine ⟨?_, nodes_agree db⟩
    intro fromId nTake listed result link held
    rw [getAllLinksFrom_eq] at result
    unfold GraphLinks.getAllLinksFrom Neo4j.linksFrom at result
    split at result
    · cases result
    · have empty := (db.complete []).eq_nil
      rw [show db.neo4j.graph.links = [] from none] at result
      simp [show db.neo4j.order [] = [] from empty] at result
      subst result
      cases held

/-- Two nodes and a link between them. -/
def oneLink : Database where
  nodes := [{ id := 1 }, { id := 2 }]
  distinct := by decide
  links := [{ id := 5, srcNodeId := 1, dstNodeId := 2 }]
  linksDistinct := by decide
  linksNatural := by decide
  linksBetween := by decide
  order rows := rows
  complete := List.Perm.refl

/-- The link is listed and not found. -/
theorem one_link_not_found : ¬ ∀ db, LookupAgrees db := by
  intro claimed
  obtain ⟨link, rest, listed⟩ := links_listed oneLink (by decide)
  have found := (claimed oneLink).links _ _ _ listed link List.mem_cons_self
  obtain ⟨message, fails⟩ := getLinkById_fails oneLink link.id
  rw [fails] at found
  cases found

end NetGraphz.LookupById
