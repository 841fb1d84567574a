import Mathlib.Data.List.Nodup
import NetGraphz.GraphStore

/-! The tab stops of the client: the queue of nodes in a bad state that the tab
key goes through, kept up to date by what the store publishes. Events are
delivered in the order in which they were published, after the call that
published them has returned. -/
namespace NetGraphz.TabStop
open GraphStore

def STATE_NODE_DOWN : Int := 1

def STATE_NODE_WARN : Int := 2

/-- A node as the store is given it. The id may be undefined. -/
structure Handed (R : Type u) where
  node : Node R
  hasId : Bool

def Handed.id (handed : Handed R) : Option Int := if handed.hasId then some handed.node.id else none

/-- The store and the order in which its nodes were first entered. -/
structure Storage (R : Type u) where
  store : Store R
  entered : List Int
  distinct : entered.Nodup
  listed : ∀ id, id ∈ entered ↔ (store.getNodeById id).isSome
  filed : ∀ id node, store.getNodeById id = some node → node.id = id

def newStorage : Storage R where
  store := newStore
  entered := []
  distinct := List.nodup_nil
  listed := by simp [newStore, Store.getNodeById]
  filed := by simp [newStore, Store.getNodeById]

theorem getNodeById_enterNode (store : Store R) (node : Node R) (id : Int) :
    (store.enterNode node).getNodeById id =
      if id = node.id then some node else store.getNodeById id := by
  simp only [Store.enterNode, Store.getNodeById, Function.update_apply]

/-- `_nodesById[node.id] = node`, and the metrics of the node. -/
def Storage.enterNode (storage : Storage R) (node : Node R) : Storage R where
  store := storage.store.enterNode node
  entered := if node.id ∈ storage.entered then storage.entered else storage.entered ++ [node.id]
  distinct := by
    split
    · exact storage.distinct
    · rename_i fresh
      exact List.concat_eq_append ▸ storage.distinct.concat fresh
  listed := by
    intro id
    rw [getNodeById_enterNode]
    have before := storage.listed id
    split <;> split <;> simp_all
  filed := by
    intro id other found
    rw [getNodeById_enterNode] at found
    split at found
    · simp_all
    · exact storage.filed id other found

/-- A key that `Object.keys` lists by its number, and not by its age. -/
def isArrayIndex (id : Int) : Bool := 0 ≤ id ∧ id < 4294967295

/-- `Object.keys(_nodesById)`. -/
def Storage.keys (storage : Storage R) : List Int :=
  (storage.entered.filter isArrayIndex).mergeSort (fun first second => first ≤ second) ++
    storage.entered.filter fun id => !isArrayIndex id

/-- What `getWarningNodes` and `getDownNodes` do for their state. -/
def Storage.nodesIn (state : Int) (default_state_source : Option String) (storage : Storage R) :
    List (Node R) :=
  (storage.keys.filterMap storage.store.getNodeById).filter fun node =>
    getNodePrefEffectiveState default_state_source node = some state

/-- `getWarningNodes`. -/
def Storage.getWarningNodes (default_state_source : Option String) (storage : Storage R) :
    List (Node R) :=
  storage.nodesIn STATE_NODE_WARN default_state_source

/-- `getDownNodes`. -/
def Storage.getDownNodes (default_state_source : Option String) (storage : Storage R) :
    List (Node R) :=
  storage.nodesIn STATE_NODE_DOWN default_state_source

/-- The variables of the tab stops, and what `ui.select_node` was called with. -/
structure TabStops (R : Type u) where
  queue : List (Handed R)
  tabStop : Nat := 0
  selected : List (Option Int) := []

/-- The last place in the queue that holds an id. -/
def indexIn (queue : List (Handed R)) (id : Option Int) : Option Nat :=
  queue.zipIdx.foldl (fun index (e, i) => if e.id = id then some i else index) none

/-- `problem`. -/
def Problem (default_state_source : Option String) (node : Node R) : Prop :=
  getNodePrefEffectiveState default_state_source node = some STATE_NODE_DOWN ∨
    getNodePrefEffectiveState default_state_source node = some STATE_NODE_WARN

instance (default_state_source : Option String) (node : Node R) :
    Decidable (Problem default_state_source node) :=
  inferInstanceAs (Decidable (_ ∨ _))

/-- `handle_node_update`. -/
def handleNodeUpdate (default_state_source : Option String) (queue : List (Handed R))
    (node : Handed R) : List (Handed R) :=
  match indexIn queue node.id with
  | none => if Problem default_state_source node.node then queue ++ [node] else queue
  | some index => if Problem default_state_source node.node then queue else queue.eraseIdx index

/-- `_handle_tab_fwd_switch`. -/
def handleTabFwdSwitch (stops : TabStops R) : TabStops R :=
  if empty : stops.queue.length = 0 then stops
  else if inside : stops.tabStop < stops.queue.length then
    { stops with
      selected := stops.selected ++ [stops.queue[stops.tabStop].id]
      tabStop := if stops.tabStop + 1 = stops.queue.length then 0 else stops.tabStop + 1 }
  else
    -- fine, something disappeared from bad state
    handleTabFwdSwitch { stops with tabStop := 0 }
termination_by if stops.tabStop < stops.queue.length then 0 else 1
decreasing_by
  have first : 0 < stops.queue.length := Nat.pos_of_ne_zero empty
  simp [first, inside]

/-- `_handle_tab_bkwd_switch`. -/
def handleTabBkwdSwitch (stops : TabStops R) : TabStops R :=
  if empty : stops.queue.length = 0 then stops
  else if inside : stops.tabStop < stops.queue.length then
    { stops with
      selected := stops.selected ++ [stops.queue[stops.tabStop].id]
      tabStop := if (stops.tabStop : Int) - 1 < 0 then stops.queue.length - 1 else stops.tabStop - 1 }
  else
    -- fine, something disappeared last time
    handleTabBkwdSwitch { stops with tabStop := stops.queue.length - 1 }
termination_by if stops.tabStop < stops.queue.length then 0 else 1
decreasing_by
  have last : stops.queue.length - 1 < stops.queue.length := Nat.sub_one_lt empty
  simp [last, inside]

theorem queue_handleTabFwdSwitch (stops : TabStops R) :
    (handleTabFwdSwitch stops).queue = stops.queue := by
  fun_induction handleTabFwdSwitch stops with
  | case1 => rfl
  | case2 => rfl
  | case3 stops _ _ ih => exact ih

theorem queue_handleTabBkwdSwitch (stops : TabStops R) :
    (handleTabBkwdSwitch stops).queue = stops.queue := by
  fun_induction handleTabBkwdSwitch stops with
  | case1 => rfl
  | case2 => rfl
  | case3 stops _ _ ih => exact ih

/-- What the subscriber to `window_keydown` does with a key. -/
def keydown (stops : TabStops R) (keyCode : Nat) (shiftKey : Bool) : TabStops R :=
  if keyCode = 9 then
    if shiftKey then handleTabBkwdSwitch stops else handleTabFwdSwitch stops
  else stops

/-- No key changes the queue. -/
theorem queue_keydown (stops : TabStops R) (keyCode : Nat) (shiftKey : Bool) :
    (keydown stops keyCode shiftKey).queue = stops.queue := by
  unfold keydown
  split
  · split
    · exact queue_handleTabBkwdSwitch stops
    · exact queue_handleTabFwdSwitch stops
  · rfl

/-- What the store publishes about its nodes, after a change. -/
inductive Event (R : Type u) where
  | update_node (node : Handed R)
  | add_node (node : Handed R)
  | update_nodes (nodes : List (Handed R))

/-- What the subscriptions of `attach_events` make of an event. -/
def received (default_state_source : Option String) (queue : List (Handed R)) :
    Event R → List (Handed R)
  | .update_node node => handleNodeUpdate default_state_source queue node
  | .update_nodes nodes => nodes.foldl (handleNodeUpdate default_state_source) queue
  | .add_node _ => queue

/-- The store, the events that are still to be delivered and the tab stops. -/
structure Page (R : Type u) where
  storage : Storage R
  pending : List (Event R) := []
  stops : TabStops R

/-- `updateNode`. -/
def updateNode (page : Page R) (node : Handed R) : Page R :=
  if node.hasId then
    let found := (page.storage.store.getNodeById node.node.id).isSome
    { page with
      storage := page.storage.enterNode node.node
      pending := page.pending ++ [if found then .update_node node else .add_node node] }
  else page

/-- What `updateNodes` does with one node. -/
def enterHanded (storage : Storage R) (node : Handed R) : Storage R :=
  if node.hasId then storage.enterNode node.node else storage

/-- `updateNodes`. -/
def updateNodes (page : Page R) (nodes : List (Handed R)) : Page R :=
  { page with
    storage := nodes.foldl enterHanded page.storage
    pending := page.pending ++ [.update_nodes nodes] }

/-- The event published first reaches its subscribers. -/
def deliver (default_state_source : Option String) (page : Page R) : Page R :=
  match page.pending with
  | [] => page
  | event :: later =>
    { page with
      pending := later
      stops := { page.stops with queue := received default_state_source page.stops.queue event } }

/-- What can happen to the page. -/
inductive Action (R : Type u) where
  | updateNode (node : Handed R)
  | updateNodes (nodes : List (Handed R))
  | deliver
  | keydown (keyCode : Nat) (shiftKey : Bool)

def step (default_state_source : Option String) (page : Page R) : Action R → Page R
  | .updateNode node => updateNode page node
  | .updateNodes nodes => updateNodes page nodes
  | .deliver => deliver default_state_source page
  | .keydown keyCode shiftKey => { page with stops := keydown page.stops keyCode shiftKey }

/-- `module.init` of the enabled tab stops. -/
def init (default_state_source : Option String) (storage : Storage R) : Page R where
  storage := storage
  stops :=
    { queue := (storage.getDownNodes default_state_source ++
        storage.getWarningNodes default_state_source).map (⟨·, true⟩) }

end NetGraphz.TabStop
