import NetGraphz.Base.JsValue
import NetGraphz.Base.Renaming

/-! The node library's mappers between the records of its interface and those of
the graph database, and what reading and updating a stored record does with them.
Each mapper is its object literal: the names of the fields it makes with the names
of the fields it takes them from. -/
namespace NetGraphz.GraphRecords
open Renaming

/-- A JavaScript object; a field it does not have is undefined. -/
abbrev Record := String → Option JsValue

/-! ## Nodes -/

/-- The literal in `apiNodeToGraphNode`. -/
def graphNodeFields : List (String × String) :=
  [("name", "name"), ("model", "model"), ("mac_address", "mac"), ("db_sw_id", "origin_db_id"),
    ("num_ports", "num_ports"), ("serial", "serial"), ("net_id", "net_id"), ("ip_address", "ip"),
    ("mac_address", "mac"), ("address", "address"), ("comment", "comment"),
    ("icinga_name", "icinga_name"), ("loc_id", "loc_id"), ("manage_vlan_id", "manage_vid")]

/-- `apiNodeToGraphNode`. -/
def apiNodeToGraphNode (ng_node : Record) (include_id : Option Bool) : Record :=
  rename (graphNodeFields ++ if include_id.getD true then [("_id", "id")] else []) ng_node

/-- The literal in `graphNodeToApiNode`. -/
def apiNodeFields : List (String × String) :=
  [("id", "_id"), ("name", "name"), ("dns", "dns_name"), ("mode", "model"),
    ("origin_db_id", "db_id"), ("serial", "serial"), ("net_id", "net_id"), ("ip", "ip_address"),
    ("mac", "mac_address"), ("address", "address"), ("comment", "comment"),
    ("icinga_name", "icinga_name"), ("loc_id", "loc_id"), ("manage_vid", "manage_vlan_id")]

/-- `graphNodeToApiNode`. -/
def graphNodeToApiNode (graph_node : Record) : Record := rename apiNodeFields graph_node

/-! ## Links -/

/-- The literal in `apiLinkToGraphLink`. -/
def graphLinkFields : List (String × String) :=
  [("_start", "startNode"), ("_end", "endNode"), ("port_id", "src_port_id"),
    ("ref_port_id", "dst_port_id"), ("speed", "speed"), ("db_sw_id", "startNode_origin_db_id"),
    ("db_ref_sw_id", "endNode_origin_db_id"), ("commment", "comment"), ("type", "type"),
    ("link_quality", "link_quality"), ("wavelength_nm", "wavelength_nm"),
    ("distance_m", "distance_m")]

/-- `apiLinkToGraphLink`. -/
def apiLinkToGraphLink (link : Record) (include_id : Option Bool) : Record :=
  rename (graphLinkFields ++ if include_id.getD true then [("_id", "id")] else []) link

/-- The literal in `graphLinkToApiLink`. -/
def apiLinkFields : List (String × String) :=
  [("id", "_id"), ("startNode", "_start"), ("endNode", "_end"), ("src_port_id", "port_id"),
    ("dst_port_id", "ref_port_id"), ("speed", "speed"), ("startNode_origin_db_id", "db_sw_id"),
    ("endNode_origin_db_id", "db_ref_sw_id"), ("comment", "comment"), ("type", "type"),
    ("link_quality", "link_quality"), ("wavelength_nm", "wavelength_nm"),
    ("distance_m", "distance_m")]

/-- `graphLinkToApiLink`. -/
def graphLinkToApiLink (ng_link : Record) : Record := rename apiLinkFields ng_link

/-! ## The database -/

/-- What the driver makes of a value it is to write: `replaceNullWithString`, then
`stringifyValueObjects`. -/
def written (stringify : JsValue → String) : JsValue → JsValue
  | .null => .str ""
  | .arr elements => .str (stringify (.arr elements))
  | .obj fields => .str (stringify (.obj fields))
  | value => value

/-- A stored node as the lookups by its properties hand it out: the driver adds the
number it is stored under. (`getById` hands out what the driver reads.) -/
def readNode (properties : Record) (id : JsValue) : Record :=
  graphNodeToApiNode (Function.update properties "_id" (some id))

/-- A request that replaces all the properties of what is stored under a number. -/
structure Put where
  id : Option JsValue
  properties : Record

/-- `update` of a node. -/
def updateNode (stringify : JsValue → String) (ng_node : Record) : Put where
  id := ng_node "id"
  properties name := (apiNodeToGraphNode ng_node (some false) name).map (written stringify)

/-- A stored link with the numbers of its ends and its own, as the driver adds
them. -/
def seenLink (properties : Record) (id start stop : JsValue) : Record :=
  Function.update (Function.update (Function.update properties "_start" (some start))
    "_end" (some stop)) "_id" (some id)

/-- A stored link as the lookups hand it out. -/
def readLink (properties : Record) (id start stop : JsValue) : Record :=
  graphLinkToApiLink (seenLink properties id start stop)

/-- `update` of a link. -/
def updateLink (stringify : JsValue → String) (link : Record) : Put where
  id := link "id"
  properties name := (apiLinkToGraphLink link (some false) name).map (written stringify)

end NetGraphz.GraphRecords
