import NetGraphz.GraphRecords

/-! Which fields the mappers of the node library bring back. A field that one
mapper writes under a name that the other does not read comes back undefined, and
an update that follows a lookup takes it out of the database. -/
namespace NetGraphz.GraphRecords
open Renaming

/-- The fields that `apiNodeToGraphNode` reads. -/
def nodeFields : List String := (graphNodeFields ++ [("_id", "id")]).map Prod.snd

/-- The fields that `apiLinkToGraphLink` reads. -/
def linkFields : List String := (graphLinkFields ++ [("_id", "id")]).map Prod.snd

/-- The node comes back with every field it had. -/
def NodeReturns (n : Record) : Prop :=
  ∀ name ∈ nodeFields, graphNodeToApiNode (apiNodeToGraphNode n (some true)) name = n name

/-- The link comes back. -/
def LinkReturns (l : Record) : Prop := graphLinkToApiLink (apiLinkToGraphLink l (some true)) = l

/-- A request goes to what is stored under a number and keeps its properties, but
for those of one field of the interface. -/
def Keeps (there back : List (String × String)) (properties : Record) (id : JsValue)
    (field : String) (put : Put) : Prop :=
  put.id = some id ∧ ∀ name, ¬Own there back field name →
    ∀ value, properties name = some value → put.properties name = some value

/-- A node is read, a field is changed and the node is updated. -/
def NodeKeeps (stringify : JsValue → String) (properties : Record) (id : JsValue) (field : String)
    (value : Option JsValue) : Prop :=
  Keeps graphNodeFields apiNodeFields properties id field
    (updateNode stringify (Function.update (readNode properties id) field value))

/-- A link is read, a field is changed and the link is updated. -/
def LinkKeeps (stringify : JsValue → String) (properties : Record) (id start stop : JsValue)
    (field : String) (value : Option JsValue) : Prop :=
  Keeps graphLinkFields apiLinkFields properties id field
    (updateLink stringify (Function.update (readLink properties id start stop) field value))

/-! ## Round trips -/

theorem nodeReturns_iff (n : Record) :
    NodeReturns n ↔ n "model" = none ∧ n "origin_db_id" = none ∧ n "num_ports" = none := by
  have straight : ∀ name ∈ nodeFields,
      carried (graphNodeFields ++ [("_id", "id")]) apiNodeFields name = some name ∨
        carried (graphNodeFields ++ [("_id", "id")]) apiNodeFields name = none := by
    decide
  have lost : nodeFields.filter (fun name =>
      carried (graphNodeFields ++ [("_id", "id")]) apiNodeFields name = none) =
      ["model", "origin_db_id", "num_ports"] := rfl
  have returns := all_return_iff straight n
  rw [lost] at returns
  simp only [List.forall_mem_cons, List.not_mem_nil, false_imp_iff, forall_const, and_true]
    at returns
  exact returns

/-- Nothing that the mappers do not know of is in the link that comes back. -/
theorem returned_known (l : Record) (unknown : name ∉ linkFields) :
    graphLinkToApiLink l name = none := by
  have inside : ∀ entry ∈ apiLinkFields, entry.1 ∈ linkFields := by decide
  rw [graphLinkToApiLink, rename]
  cases taken : source apiLinkFields name with
  | none => rfl
  | some origin => exact absurd (inside _ (mem_of_source taken)) unknown

theorem linkReturns_iff (l : Record) (known : ∀ name, name ∉ linkFields → l name = none) :
    LinkReturns l ↔ l "comment" = none := by
  have straight : ∀ name ∈ linkFields,
      carried (graphLinkFields ++ [("_id", "id")]) apiLinkFields name = some name ∨
        carried (graphLinkFields ++ [("_id", "id")]) apiLinkFields name = none := by
    decide
  have lost : linkFields.filter (fun name =>
      carried (graphLinkFields ++ [("_id", "id")]) apiLinkFields name = none) = ["comment"] := rfl
  have returns := all_return_iff straight l
  rw [lost] at returns
  have each : LinkReturns l ↔ ∀ name ∈ linkFields,
      graphLinkToApiLink (apiLinkToGraphLink l (some true)) name = l name := by
    refine ⟨fun whole name _ => congrFun whole name, fun each => funext fun name => ?_⟩
    by_cases member : name ∈ linkFields
    · exact each name member
    · rw [known name member, returned_known _ member]
  refine each.trans (returns.trans ?_)
  simp only [List.forall_mem_cons, List.not_mem_nil, false_imp_iff, forall_const, and_true]

/-! ## Updates -/

/-- The value is a text, a number or a Boolean. -/
def Plain : JsValue → Prop
  | .null => False
  | .arr _ => False
  | .obj _ => False
  | _ => True

theorem written_eq_iff (stringify : JsValue → String) (value : JsValue) :
    written stringify value = value ↔ Plain value := by
  cases value <;> simp [written, Plain]

/-- The properties of a node that an update writes from what was read of them. -/
def keptOfNode : List String :=
  ["name", "mac_address", "serial", "net_id", "ip_address", "address", "comment", "icinga_name",
    "loc_id", "manage_vlan_id"]

/-- The properties of a link that an update writes from what was read of them,
but for the numbers of its ends. -/
def keptOfLink : List String :=
  ["port_id", "ref_port_id", "speed", "db_sw_id", "db_ref_sw_id", "type", "link_quality",
    "wavelength_nm", "distance_m"]

theorem carried_node (name : String) :
    carried apiNodeFields graphNodeFields name = some name ↔ name ∈ keptOfNode := by
  have written : ∀ entry ∈ graphNodeFields,
      carried apiNodeFields graphNodeFields entry.1 = some entry.1 → entry.1 ∈ keptOfNode := by
    decide
  have kept : ∀ name ∈ keptOfNode, carried apiNodeFields graphNodeFields name = some name := by
    decide
  refine ⟨fun returns => ?_, kept name⟩
  obtain ⟨field, taken, _⟩ := Option.bind_eq_some_iff.mp returns
  exact written _ (mem_of_source taken) returns

theorem nodeKeeps_iff (stringify : JsValue → String) (properties : Record) (id : JsValue)
    (field : String) (value : Option JsValue) (other : field ≠ "id") :
    NodeKeeps stringify properties id field value ↔
      ∀ name, ¬Own graphNodeFields apiNodeFields field name → ∀ v, properties name = some v →
        name ∈ keptOfNode ∧ Plain v := by
  have sameId : Function.update (readNode properties id) field value "id" = some id := by
    rw [Function.update_of_ne other.symm]
    rfl
  have distinct : (apiNodeFields.map Prod.snd).Nodup := by simp [apiNodeFields]
  have straight : ∀ write ∈ graphNodeFields, ∀ read ∈ apiNodeFields, read.1 = write.2 →
      read.2 = write.1 ∨ read.2 ∈ ["db_id"] := by
    decide
  have unwritten : ∀ name ∈ ["db_id"], source graphNodeFields name = none ∧
      Function.update properties "_id" (some id) name = properties name := by
    intro name stray
    obtain rfl := List.mem_singleton.mp stray
    exact ⟨rfl, rfl⟩
  have keeps := keeps_iff (written stringify) distinct straight unwritten field value
  refine (and_iff_right sameId).trans (keeps.trans ?_)
  apply forall₄_congr
  intro name _ v held
  rw [carried_node]
  apply and_congr_right
  intro kept
  have apart : name ≠ "_id" := by
    rintro rfl
    simp [keptOfNode] at kept
  rw [Function.update_of_ne apart, held, Option.map_some, Option.some.injEq, written_eq_iff]

/-! ## Updates of links -/

theorem carried_link (name : String) :
    carried apiLinkFields graphLinkFields name = some name ↔
      name ∈ keptOfLink ∨ name = "_start" ∨ name = "_end" := by
  have written : ∀ entry ∈ graphLinkFields,
      carried apiLinkFields graphLinkFields entry.1 = some entry.1 →
        entry.1 ∈ keptOfLink ∨ entry.1 = "_start" ∨ entry.1 = "_end" := by
    decide
  have kept : ∀ name ∈ keptOfLink ++ ["_start", "_end"],
      carried apiLinkFields graphLinkFields name = some name := by
    decide
  constructor
  · intro returns
    obtain ⟨field, taken, _⟩ := Option.bind_eq_some_iff.mp returns
    exact written _ (mem_of_source taken) returns
  · intro either
    apply kept
    simpa using either

theorem linkKeeps_iff (stringify : JsValue → String) (properties : Record)
    (id start stop : JsValue) (field : String) (value : Option JsValue) (other : field ≠ "id") :
    LinkKeeps stringify properties id start stop field value ↔
      ∀ name, ¬Own graphLinkFields apiLinkFields field name → ∀ v, properties name = some v →
        (name ∈ keptOfLink ∧ Plain v) ∨ (name = "_start" ∧ written stringify start = v) ∨
          (name = "_end" ∧ written stringify stop = v) := by
  have sameId : Function.update (readLink properties id start stop) field value "id" =
      some id := by
    rw [Function.update_of_ne other.symm]
    rfl
  have distinct : (apiLinkFields.map Prod.snd).Nodup := by simp [apiLinkFields]
  have straight : ∀ write ∈ graphLinkFields, ∀ read ∈ apiLinkFields, read.1 = write.2 →
      read.2 = write.1 ∨ read.2 ∈ ["comment"] := by
    decide
  have unwritten : ∀ name ∈ ["comment"], source graphLinkFields name = none ∧
      seenLink properties id start stop name = properties name := by
    intro name stray
    obtain rfl := List.mem_singleton.mp stray
    exact ⟨rfl, rfl⟩
  have keeps := keeps_iff (written stringify) distinct straight unwritten field value
  refine (and_iff_right sameId).trans (keeps.trans ?_)
  apply forall₄_congr
  intro name _ v held
  rw [carried_link]
  by_cases atStart : name = "_start"
  · subst atStart
    have unkept : "_start" ∉ keptOfLink := by simp [keptOfLink]
    have seen : seenLink properties id start stop "_start" = some start := rfl
    simp [unkept, seen]
  · by_cases atEnd : name = "_end"
    · subst atEnd
      have unkept : "_end" ∉ keptOfLink := by simp [keptOfLink]
      have seen : seenLink properties id start stop "_end" = some stop := rfl
      simp [unkept, seen]
    · simp only [atStart, atEnd, false_and, or_false]
      apply and_congr_right
      intro kept
      have apart : name ≠ "_id" := by
        rintro rfl
        simp [keptOfLink] at kept
      have seen : seenLink properties id start stop name = properties name := by
        simp [seenLink, atStart, atEnd, apart]
      rw [seen, held, Option.map_some, Option.some.injEq, written_eq_iff]

/-- The mappers undo each other, and an update loses no field that was not
changed, exactly for records without the fields that one of the mappers names
differently or not at all; and what a record holds is written as it is. -/
theorem mappers_undo_iff (stringify : JsValue → String) :
    (∀ n, NodeReturns n ↔ n "model" = none ∧ n "origin_db_id" = none ∧ n "num_ports" = none) ∧
    (∀ l : Record, (∀ name, name ∉ linkFields → l name = none) →
      (LinkReturns l ↔ l "comment" = none)) ∧
    (∀ properties id field value, field ≠ "id" →
      (NodeKeeps stringify properties id field value ↔
        ∀ name, ¬Own graphNodeFields apiNodeFields field name → ∀ v, properties name = some v →
          name ∈ keptOfNode ∧ Plain v)) ∧
    ∀ properties id start stop field value, field ≠ "id" →
      (LinkKeeps stringify properties id start stop field value ↔
        ∀ name, ¬Own graphLinkFields apiLinkFields field name → ∀ v, properties name = some v →
          (name ∈ keptOfLink ∧ Plain v) ∨ (name = "_start" ∧ written stringify start = v) ∨
            (name = "_end" ∧ written stringify stop = v)) :=
  ⟨nodeReturns_iff, linkReturns_iff, nodeKeeps_iff stringify, linkKeeps_iff stringify⟩

/-- A switch with a model and nothing else. -/
def switch : Record := Function.update (fun _ => none) "model" (some (.str "DES-3526"))

/-- A link with a comment and nothing else. -/
def commented : Record := Function.update (fun _ => none) "comment" (some (.str "uplink"))

theorem model_and_comment_lost :
    ¬NodeReturns switch ∧ ¬LinkReturns commented := by
  constructor
  · intro returns
    cases ((nodeReturns_iff switch).mp returns).1
  · intro returns
    cases congrFun returns "comment"

end NetGraphz.GraphRecords
