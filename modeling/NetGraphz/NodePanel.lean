import NetGraphz.Panel

/-! The node panel: what the mouse, the selection and the store's updates do with
it, and when its timers go off. -/
namespace NetGraphz.NodePanel
open Panel

/-- A report of a source that is to be drawn. The round trip time may be missing. -/
structure MonStatus (R : Type u) where
  rtt : Option R

/-- A node object; `ref` tells objects with the same contents apart. -/
structure Node (R : Type u) where
  ref : Nat
  id : Int
  status : Option (List (MonStatus R))

/-- The links under a node and `utils.make_link`, which throws where a link's
template names a property that the node lacks. -/
structure Settings (R : Type u) where
  Link : Type
  links : Option (List Link)
  make_link : Link → Node R → Option String

/-- Whether drawing a node goes through. -/
def draws (cfg : Settings R) (node : Node R) : Bool :=
  match node.status with
  | none => false
  | some status =>
    status.all (fun mon => mon.rtt.isSome) &&
      (cfg.links.getD []).all fun link => (cfg.make_link link node).isSome

/-- The node panel and its timer for the mouse over a node. -/
structure State (R : Type u) where
  interactor : Interactor (Node R) := {}
  mouseover_node_timer : Option Nat := none
  waiting : Timeouts (Node R) := {}

/-- `handle_node_info`, and whether it threw. -/
def handleNodeInfo (cfg : Settings R) (panel : State R) (node : Node R) :
    State R × Bool :=
  let (interactor, threw) := showPanel (draws cfg) panel.interactor node
  ({ panel with interactor := interactor }, threw)

/-- `fn` of the subscriber to `node_mouseover`, and whether it threw. -/
def mouseRests (cfg : Settings R) (panel : State R) (node : Node R) : State R × Bool :=
  handleNodeInfo cfg { panel with mouseover_node_timer := none } node

/-- `if(mouseover_node_timer != null) clearTimeout(mouseover_node_timer)`. -/
def clearMouseoverTimer (panel : State R) : State R :=
  { panel with waiting := panel.waiting.clear panel.mouseover_node_timer }

/-- The subscriber to `node_mouseover`. -/
def nodeMouseover (cfg : Settings R) (panel : State R) (isNodePanelDisabled : Bool)
    (node : Node R) : State R :=
  if isNodePanelDisabled then panel
  else
    let panel := clearMouseoverTimer panel
    let (panel, threw) :=
      if panel.interactor.shown.isNone then mouseRests cfg panel node else (panel, false)
    if threw then panel
    else
      { panel with
        mouseover_node_timer := some panel.waiting.next
        waiting := panel.waiting.set node }

/-- The subscriber to `node_select`. -/
def nodeSelect (cfg : Settings R) (panel : State R) (node : Node R) : State R :=
  match handleNodeInfo cfg panel node with
  | (panel, true) => panel
  | (panel, false) =>
    { panel with interactor := { panel.interactor with
        selected := some node
        timer := panel.interactor.timer.stop } }

/-- The subscriber to `node_unselect`. -/
def nodeUnselect (panel : State R) : State R :=
  let selected := panel.interactor.selected
  let shown := panel.interactor.shown
  let interactor := { panel.interactor with selected := none }
  match selected, shown with
  | some selected, some shown =>
    if selected.id = shown.id then
      { panel with interactor := { interactor with timer := interactor.timer.start } }
    else { panel with interactor := interactor }
  | _, _ => { panel with interactor := interactor }

/-- The condition under which a mouse that leaves a node starts the timer. -/
def leaves (interactor : Interactor (Node R)) (node : Node R) : Bool :=
  (match interactor.selected with
    | some selected => node.id ≠ selected.id
    | none => false) ||
  (match interactor.shown with
    | some shown => node.id = shown.id
    | none => false)

/-- The subscriber to `node_mouseout`. -/
def nodeMouseout (panel : State R) (isNodePanelDisabled : Bool) (node : Node R) :
    State R :=
  if isNodePanelDisabled then panel
  else
    let panel := clearMouseoverTimer panel
    if leaves panel.interactor node then
      { panel with interactor := { panel.interactor with timer := panel.interactor.timer.start } }
    else panel

/-- The subscriber to `update_node`. -/
def updateNode (cfg : Settings R) (interactor : Interactor (Node R)) (node : Node R) :
    Interactor (Node R) :=
  match interactor.shown with
  | none => interactor
  | some shown =>
    let interactor :=
      match interactor.selected with
      | some selected =>
        if node.id = selected.id then { interactor with selected := some node } else interactor
      | none => interactor
    if node.id = shown.id then (setContent (draws cfg) interactor node).1 else interactor

/-- The loop of the subscriber to `update_nodes`, with the nodes that were shown
and selected before it. The event has no `node`, so what it selects is
undefined, and what the callback returns goes nowhere. -/
def updateEach (cfg : Settings R) (node : Node R) (selected : Option (Node R))
    (interactor : Interactor (Node R)) : List (Node R) → Interactor (Node R)
  | [] => interactor
  | el :: rest =>
    let interactor :=
      match selected with
      | some selected =>
        if el.id = selected.id then { interactor with selected := none } else interactor
      | none => interactor
    if el.id = node.id then
      match setContent (draws cfg) interactor el with
      | (interactor, true) => interactor
      | (interactor, false) => updateEach cfg node selected interactor rest
    else updateEach cfg node selected interactor rest

/-- The subscriber to `update_nodes`. -/
def updateNodes (cfg : Settings R) (interactor : Interactor (Node R)) (nodes : List (Node R)) :
    Interactor (Node R) :=
  match interactor.shown with
  | none => interactor
  | some node => updateEach cfg node interactor.selected interactor nodes

/-- What can happen to the node panel. -/
inductive Action (R : Type u) where
  | mouseover
  | mouseout
  | close
  | node_mouseover (isNodePanelDisabled : Bool) (node : Node R)
  | node_select (node : Node R)
  | node_unselect
  | node_mouseout (isNodePanelDisabled : Bool) (node : Node R)
  | update_node (node : Node R)
  | update_nodes (nodes : List (Node R))
  | mouseRested (handle : Nat)
  | timerFires (handle : Nat)
  | animationEnds

def step (cfg : Settings R) (panel : State R) : Action R → State R
  | .mouseover =>
    { panel with interactor := { panel.interactor with timer := panel.interactor.timer.stop } }
  | .mouseout =>
    { panel with interactor := { panel.interactor with timer := panel.interactor.timer.start } }
  | .close => { panel with interactor := { panel.interactor with panel_show := false } }
  | .node_mouseover isNodePanelDisabled node => nodeMouseover cfg panel isNodePanelDisabled node
  | .node_select node => nodeSelect cfg panel node
  | .node_unselect => nodeUnselect panel
  | .node_mouseout isNodePanelDisabled node => nodeMouseout panel isNodePanelDisabled node
  | .update_node node => { panel with interactor := updateNode cfg panel.interactor node }
  | .update_nodes nodes => { panel with interactor := updateNodes cfg panel.interactor nodes }
  | .mouseRested handle =>
    match panel.waiting.due handle with
    | none => panel
    | some node =>
      (mouseRests cfg { panel with waiting := panel.waiting.clear (some handle) } node).1
  | .timerFires handle =>
    { panel with interactor := timerFires (draws cfg) panel.interactor handle }
  | .animationEnds => { panel with interactor := animationEnds panel.interactor }

end NetGraphz.NodePanel
