import NetGraphz.Base.Fallible
import NetGraphz.Base.Replacing
import NetGraphz.ConfigGeneratorProofs

/-! What the generator writes: a file for each node it can configure, with a block
for each connection from it. Connections are recorded to every node that is
visited, files are written for those with a name and an address only. -/
namespace NetGraphz.DependencyBlocks
open ConfigGenerator ConfigGeneratorProofs DepthFirst Replacing

/-- What stops the generator: its search, an id that is not in a table, a property
that is not there and is put into a text, or a text that is not ASCII. -/
inductive Failure where
  | search (stop : Stop)
  | keyError
  | typeError
  | encode

/-- `host_template.cfg`. -/
def hTpl : String :=
  "/*\n*   THIS FILE WAS AUTOMATICALLY GENERATED BY:\n" ++
  "*   NetAssist Netgraphz Icinga2 configuration generator\n" ++
  "*   using DFS algorithm starting from {start_hostname}\n*\n" ++
  "*   http://netgraphz.netassist.ua/about/generator to get more information...\n*/\n\n" ++
  "object Host \"{hostname}\"\x7b\n  import \"netassist-generic-host\"\n" ++
  "  address=\"{ip_address}\"\n\x7d\n\n" ++
  "/* begin of dependent hosts */\n  {deps}\n/* end of dependent hosts */\n"

/-- `dependency_template.tpl`. -/
def dTpl : String :=
  "/* {hostname} -> {other_hostname} */\n\n" ++
  "apply Dependency \"{hostname}\" to Host \x7b\n  parent_host_name = \"{hostname}\"\n" ++
  "  assign where host.name == \"{other_hostname}\"\n  disable_notifications = false\n\x7d\n"

/-- `root_template.cfg`, without a place for the address. -/
def rTpl : String :=
  "/*\n*   THIS FILE WAS AUTOMATICALLY GENERATED BY:\n" ++
  "*   NetAssist Netgraphz Icinga2 configuration generator\n" ++
  "*   using DFS algorithm starting from {start_hostname}\n*\n*   DFS START HOST!!!\n" ++
  "*   http://netgraphz.netassist.ua/about/generator to get more information...\n*/\n\n\n" ++
  "/* begin of dependent hosts */\n  {deps}\n/* end of dependent hosts */\n"

abbrev Dic := List (String × Option String)

/-- The order in which a dictionary gives its entries. -/
structure Environment where
  iteritems : Dic → Dic
  complete : ∀ dic, (iteritems dic).Perm dic

/-- `replace` of a text. -/
def replaceText (text i j : String) : String :=
  String.ofList (replace i.toList j.toList text.toList)

/-- `replace_all`. A property that is not there reads as `None`, which cannot be
put into a text. -/
def replaceAll (text : String) (dic : Dic) : Except Failure String :=
  dic.foldlM (fun text (i, j) =>
    match j with
    | none => .error .typeError
    | some j => .ok (replaceText text i j)) text

/-- What `format` makes of a text within one of bytes, and `write` for a file. -/
def encode (text : String) : Except Failure String :=
  if isAscii text then .ok text else .error .encode

/-- `nodes_by_id[node_id]`. -/
def nodeById (state : State) (nodeId : Nat) : Except Failure Node :=
  match state.nodesById.lookup nodeId with
  | none => .error .keyError
  | some node => .ok node

/-- The connections from a node, each of which gets a block. -/
def dependencies (state : State) (nodeId : Nat) : List Nat :=
  (state.connections.lookup nodeId).getD []

def dictDepReplace (node other : Node) : Dic :=
  [("{hostname}", node.icingaName), ("{other_hostname}", other.icingaName)]

/-- `make_connections_config`. -/
def makeConnectionsConfig (env : Environment) (state : State) (nodeId : Nat) :
    Except Failure String :=
  (dependencies state nodeId).foldlM (fun cfg con => do
    let node ← nodeById state nodeId
    let other ← nodeById state con
    let block ← replaceAll dTpl (env.iteritems (dictDepReplace node other))
    let block ← encode block
    return cfg ++ "\n" ++ block ++ "\n") ""

def dictHostReplace (node startHost : Node) (deps : String) : Dic :=
  [("{hostname}", node.icingaName), ("{ip_address}", node.ipAddress),
   ("{start_hostname}", startHost.icingaName), ("{deps}", some deps)]

/-- The tag stands in the text. -/
def Occurs (tag text : String) : Prop := tag.toList <:+: text.toList

/-- The tag has letters, and they are ASCII. -/
def Proper (tag : String) : Prop := tag.toList ≠ [] ∧ isAscii tag

/-- The tags of a dictionary: each is proper, and they keep apart. -/
structure Tagged (dic : Dic) : Prop where
  proper : ∀ entry ∈ dic, Proper entry.1
  apart : dic.Pairwise fun entry other => Apart entry.1.toList other.1.toList

theorem Tagged.perm {dic order : Dic} (perm : order.Perm dic) (tagged : Tagged dic) :
    Tagged order where
  proper entry held := tagged.proper entry (perm.mem_iff.mp held)
  apart := (perm.pairwise_iff Apart.symm).mpr tagged.apart

/-- The entry of a tag stands in one place of a dictionary. -/
theorem Tagged.split {dic : Dic} (tagged : Tagged dic) {i : String} {j : Option String}
    (member : (i, j) ∈ dic) : ∃ before behind, dic = before ++ (i, j) :: behind ∧
      dic.takeWhile (fun entry => entry.1 ≠ i) = before ∧
        ∀ entry ∈ before ++ behind, entry.1 ≠ i := by
  have filled := List.length_pos_of_ne_nil (tagged.proper _ member).1
  have notSelf : ¬ Apart i.toList i.toList := by
    intro apart
    exact (apart.1 0 filled).1 (List.prefix_refl _)
  obtain ⟨before, behind, rfl⟩ := List.append_of_mem member
  obtain ⟨-, after, across⟩ := List.pairwise_append.mp tagged.apart
  have other : ∀ entry ∈ before, entry.1 ≠ i := by
    rintro entry held rfl
    exact notSelf (across entry held (entry.1, j) List.mem_cons_self)
  refine ⟨before, behind, rfl, ?_, ?_⟩
  · rw [List.takeWhile_append_of_pos (by simpa using other)]
    simp
  · rw [List.forall_mem_append]
    refine ⟨other, ?_⟩
    rintro entry held rfl
    exact notSelf ((List.pairwise_cons.mp after).1 entry held)

instance (tag : String) : Decidable (Proper tag) := inferInstanceAs (Decidable (_ ∧ _))

theorem Occurs.before {tag text : String} (held : Occurs tag text) (other : String) :
    Occurs tag (text ++ other) := by
  unfold Occurs at held ⊢
  rw [String.toList_append]
  exact held.trans (List.prefix_append _ _).isInfix

theorem Occurs.behind {tag text : String} (held : Occurs tag text) (other : String) :
    Occurs tag (other ++ text) := by
  unfold Occurs at held ⊢
  rw [String.toList_append]
  exact held.trans (List.suffix_append _ _).isInfix

/-- The file of a node. -/
def Filed (env : Environment) (state : State) (startId : Nat) (startHost : Node)
    (nodeId : Nat) : Prop :=
  ∃ node, state.nodesById.lookup nodeId = some node ∧ isAscii (node.icingaName.getD "None") ∧
    ∃ deps, makeConnectionsConfig env state nodeId = .ok deps ∧
      Completes (replaceAll (if nodeId = startId then rTpl else hTpl)
        (env.iteritems (dictHostReplace node startHost deps)) >>= encode)

section
variable {env : Environment} {state : State} {startId nodeId : Nat} {startHost node : Node}

end

/-! ## What the search leaves -/

variable {graph : Graph} {start depth : Nat} {state : State} {visits : List (Visit Nat)}

end NetGraphz.DependencyBlocks
