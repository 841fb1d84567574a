import Mathlib
import NetGraphz.Base.GoIntegers
import NetGraphz.GraphLinks
import NetGraphz.GraphRecords

/-! A link that the node library writes into the graph database and the backend
reads from there. Each side has its own names for the properties, and where the
backend finds no property of the name it looks for it takes a default. -/
namespace NetGraphz.LinkExchange
open GoIntegers GraphLinks GraphRecords

/-- A JavaScript number that is a whole one. -/
def whole (n : Int) : JsValue := .num (toString n)

/-- The database between the two: whole numbers come out as integers, of the one
type or the other, and texts as themselves. -/
structure Transport where
  value : JsValue → CypherValue
  integer : ∀ n : Int64, value (whole n.toInt) = .int n ∨ value (whole n.toInt) = .int64 n
  text : ∀ s, value (.str s) = .string s

variable (transport : Transport)

/-- What the backend finds of a record's fields. One that is undefined is not
stored. -/
def Transport.properties (names : List String) (record : Record) : Properties :=
  (names.filterMap fun name => (record name).map fun value =>
    (⟨name, transport.value value⟩ : Sigma fun _ : String => CypherValue)).toFinmap

theorem Transport.lookup_properties (names : List String) (record : Record) (name : String) :
    (transport.properties names record).lookup name =
      if name ∈ names then (record name).map transport.value else none := by
  rw [Transport.properties, Finmap.dlookup_list_toFinmap]
  induction names with
  | nil => rfl
  | cons first rest ih =>
    by_cases same : name = first
    · subst same
      cases held : record name with
      | none =>
        rw [List.filterMap_cons_none (by simp [held]), ih]
        simp [held]
      | some value =>
        rw [List.filterMap_cons_some (b := ⟨name, transport.value value⟩) (by simp [held]),
          List.dlookup_cons_eq]
        simp
    · have member : name ∈ first :: rest ↔ name ∈ rest := by simp [same]
      simp only [member]
      cases held : record first with
      | none => rw [List.filterMap_cons_none (by simp [held]), ih]
      | some value =>
        rw [List.filterMap_cons_some (b := ⟨first, transport.value value⟩) (by simp [held]),
          List.dlookup_cons_ne _ _ same, ih]

/-- What the backend finds of a link that the library stored: of the fields in the
literal of `apiLinkToGraphLink`, those that `insert` does not delete. -/
def Transport.stored (link : Record) : Properties :=
  transport.properties
    ((graphLinkFields.map Prod.fst).filter fun name => name ∉ ["_start", "_end"])
    (apiLinkToGraphLink link (some false))

/-- A property that is stored under the name it is looked for is found. -/
theorem readInt64Prop_properties {names : List String} {record : Record} {name : String}
    (n : Int64) (named : name ∈ names) (held : record name = some (whole n.toInt))
    (defaultValue : Int64) :
    readInt64Prop (transport.properties names record) name defaultValue = n := by
  unfold readInt64Prop
  rw [transport.lookup_properties, if_pos named, held, Option.map_some]
  rcases transport.integer n with same | same <;> rw [same]

/-! ## Links -/

/-- The numbers and the comment of a link, in the types the backend has for them. -/
structure Values where
  srcPort : UInt16
  dstPort : UInt16
  capacityMbit : Int64
  quality : Int32
  type : Int16
  srcImportId : Int32
  dstImportId : Int32
  comment : String

/-- A link of the library's interface has the values. -/
structure Carries (link : Record) (values : Values) : Prop where
  src_port_id : link "src_port_id" = some (whole values.srcPort.toNat)
  dst_port_id : link "dst_port_id" = some (whole values.dstPort.toNat)
  speed : link "speed" = some (whole values.capacityMbit.toInt)
  link_quality : link "link_quality" = some (whole values.quality.toInt)
  type : link "type" = some (whole values.type.toInt)
  startNode_origin_db_id : link "startNode_origin_db_id" = some (whole values.srcImportId.toInt)
  endNode_origin_db_id : link "endNode_origin_db_id" = some (whole values.dstImportId.toInt)
  comment : link "comment" = some (.str values.comment)

/-- The backend's link has the values. -/
structure Arrives (values : Values) (link : Link) : Prop where
  srcPort : link.srcPort = values.srcPort
  dstPort : link.dstPort = values.dstPort
  capacityMbit : link.capacityMbit = values.capacityMbit
  quality : link.quality = values.quality
  type : link.type = values.type
  comment : link.comment = values.comment
  srcImportId : link.srcImportId = values.srcImportId
  dstImportId : link.dstImportId = values.dstImportId

/-- The row of a link that the library stored. -/
def storedRow (id srcNodeId dstNodeId : Int64) (link : Record) : LinkRow where
  id := id
  srcNodeId := srcNodeId
  dstNodeId := dstNodeId
  properties := transport.stored link

variable {link : Record} {values : Values}

/-- The names that both sides have bring their values over. -/
theorem found_of_carries (carries : Carries link values) :
    readInt64Prop (transport.stored link) "port_id" 0 = values.srcPort.toUInt64.toInt64 ∧
    readInt64Prop (transport.stored link) "ref_port_id" 1 = values.dstPort.toUInt64.toInt64 ∧
    readInt64Prop (transport.stored link) "speed" 0 = values.capacityMbit ∧
    readInt64Prop (transport.stored link) "db_sw_id" 0 = values.srcImportId.toInt64 ∧
    readInt64Prop (transport.stored link) "db_ref_sw_id" 0 = values.dstImportId.toInt64 := by
  refine ⟨?_, ?_, ?_, ?_, ?_⟩ <;>
    refine readInt64Prop_properties transport _ (by decide) ?_ _
  · rw [widened64_toInt]
    exact carries.src_port_id
  · rw [widened64_toInt]
    exact carries.dst_port_id
  · exact carries.speed
  · rw [Int32.toInt_toInt64]
    exact carries.startNode_origin_db_id
  · rw [Int32.toInt_toInt64]
    exact carries.endNode_origin_db_id

/-- The names that only the backend has give the defaults. -/
theorem defaults (link : Record) :
    readInt64Prop (transport.stored link) "quality" 0 = 0 ∧
    readInt64Prop (transport.stored link) "link_type" 0 = 0 ∧
    readStringProp (transport.stored link) "comment" = "" := by
  simp [readInt64Prop, readStringProp, Transport.stored, transport.lookup_properties,
    graphLinkFields]

/-- A link is read back as it was written exactly when its type, its quality and
its comment are the backend's defaults. -/
theorem read_back_iff (id srcNodeId dstNodeId : Int64)
    (carries : Carries link values) :
    Arrives values (readLinkRow (storedRow transport id srcNodeId dstNodeId link)) ↔
      values.quality = 0 ∧ values.type = 0 ∧ values.comment = "" := by
  obtain ⟨src, dst, speed, start, stop⟩ := found_of_carries transport carries
  obtain ⟨quality, type, comment⟩ := defaults transport link
  constructor
  · intro arrives
    have readQuality := arrives.quality
    have readType := arrives.type
    have readComment := arrives.comment
    simp only [readLinkRow, storedRow, quality, type, comment] at readQuality readType readComment
    exact ⟨readQuality.symm, readType.symm, readComment.symm⟩
  · rintro ⟨noQuality, noType, noComment⟩
    constructor <;> simp only [readLinkRow, storedRow]
    · rw [src, narrowed_widened]
    · rw [dst, narrowed_widened]
    · exact speed
    · rw [quality, noQuality]
      rfl
    · rw [type, noType]
      rfl
    · rw [comment, noComment]
    · rw [start, Int32.toInt32_toInt64]
    · rw [stop, Int32.toInt32_toInt64]

/-- The database as it is for whole numbers and texts. -/
def plain : Transport where
  value
    | .num text => (text.toInt?.map fun n => CypherValue.int64 (Int64.ofInt n)).getD .other
    | .str text => .string text
    | _ => .other
  integer n := by
    right
    simp [whole, Int.toInt?_repr]
  text _ := rfl

/-- A link over fibre with a quality and a comment. -/
def fibre : Record
  | "src_port_id" => some (whole 24)
  | "dst_port_id" => some (whole 1)
  | "speed" => some (whole 1000)
  | "link_quality" => some (whole 90)
  | "type" => some (whole 1)
  | "startNode_origin_db_id" => some (whole 7)
  | "endNode_origin_db_id" => some (whole 8)
  | "comment" => some (.str "uplink")
  | _ => none

theorem fibre_not_read_back :
    Carries fibre ⟨24, 1, 1000, 90, 1, 7, 8, "uplink"⟩ ∧
      ¬Arrives ⟨24, 1, 1000, 90, 1, 7, 8, "uplink"⟩ (readLinkRow (storedRow plain 1 2 3 fibre)) := by
  refine ⟨by constructor <;> rfl, fun arrives => ?_⟩
  have type := arrives.type
  simp [readLinkRow, storedRow, defaults] at type

/-- A link between two ports that has nothing else to tell. -/
def cable : Record
  | "src_port_id" => some (whole 24)
  | "dst_port_id" => some (whole 1)
  | "speed" => some (whole 1000)
  | "link_quality" => some (whole 0)
  | "type" => some (whole 0)
  | "startNode_origin_db_id" => some (whole 7)
  | "endNode_origin_db_id" => some (whole 8)
  | "comment" => some (.str "")
  | _ => none

theorem cable_read_back :
    Arrives ⟨24, 1, 1000, 0, 0, 7, 8, ""⟩ (readLinkRow (storedRow plain 1 2 3 cable)) := by
  have carries : Carries cable ⟨24, 1, 1000, 0, 0, 7, 8, ""⟩ := by constructor <;> rfl
  exact (read_back_iff plain 1 2 3 carries).mpr ⟨rfl, rfl, rfl⟩

end NetGraphz.LinkExchange
