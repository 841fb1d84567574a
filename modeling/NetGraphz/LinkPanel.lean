import NetGraphz.GraphStore
import NetGraphz.Panel

/-! The link panel: what the mouse, the selection and the store's updates do with
it, and when its timers go off. -/
namespace NetGraphz.LinkPanel
open Panel GraphStore

/-- What the rest of the client gives the panel at one moment: the store's links,
the ids of the nodes at their ends and whether drawing a link goes through. -/
structure Surroundings (R : Type u) where
  getLinkById : Int → Option (Link R)
  srcNode : Link R → Option Int
  dstNode : Link R → Option Int
  draws : Link R → Bool

/-- The link panel and its timer for the mouse over a link. -/
structure State (R : Type u) where
  interactor : Interactor (Link R) := {}
  mouseover_timer : Option Nat := none
  waiting : Timeouts (Link R) := {}

/-- `stop_mouse_timer`. -/
def stopMouseTimer (panel : State R) : State R :=
  { panel with waiting := panel.waiting.clear panel.mouseover_timer, mouseover_timer := none }

/-- `handle_link_info`, and whether it threw. -/
def handleLinkInfo (around : Surroundings R) (panel : State R) (link : Link R) :
    State R × Bool :=
  let (interactor, threw) := showPanel around.draws panel.interactor link
  ({ panel with interactor := interactor }, threw)

/-- The subscriber to `edge_mouseover`. -/
def edgeMouseover (mouseoverEnabled : Bool) (panel : State R) (link : Link R) : State R :=
  if !mouseoverEnabled then panel
  else if panel.interactor.selected.isSome then panel
  else
    let panel := stopMouseTimer panel
    { panel with
      mouseover_timer := some panel.waiting.next
      waiting := panel.waiting.set link }

/-- The subscriber to `edge_tap`. -/
def edgeTap (around : Surroundings R) (panel : State R) (link : Link R) : State R :=
  match handleLinkInfo around (stopMouseTimer panel) link with
  | (panel, true) => panel
  | (panel, false) => { panel with interactor := { panel.interactor with selected := some link } }

/-- A link is shown and has the id of an event's link. -/
def isShown (interactor : Interactor (Link R)) (link : Link R) : Bool :=
  match interactor.shown with
  | some shown => link.id = shown.id
  | none => false

/-- The subscriber to `edge_unselect`. -/
def edgeUnselect (panel : State R) (link : Link R) : State R :=
  if isShown panel.interactor link then
    { panel with interactor := { panel.interactor with
        timer := panel.interactor.timer.start
        selected := none } }
  else panel

/-- The subscriber to `edge_mouseout`. -/
def edgeMouseout (mouseoverEnabled : Bool) (panel : State R) (link : Link R) : State R :=
  if !mouseoverEnabled then panel
  else
    let panel := stopMouseTimer panel
    if panel.interactor.selected.isSome then panel
    else if isShown panel.interactor link then
      { panel with interactor := { panel.interactor with timer := panel.interactor.timer.start } }
    else panel

/-- Whether a node is at an end of a link; `none` is the exception where no node
hangs at the end that is looked at. -/
def touches (around : Surroundings R) (link : Link R) (node : Int) : Option Bool :=
  match around.srcNode link with
  | none => none
  | some src =>
    if node = src then some true
    else (around.dstNode link).map fun dst => node = dst

/-- `setContent` of the link as the store has it, and whether it threw; null
cannot be drawn. -/
def redraw (around : Surroundings R) (interactor : Interactor (Link R)) (link : Link R) :
    Interactor (Link R) × Bool :=
  match around.getLinkById link.id with
  | some n_link => setContent around.draws interactor n_link
  | none => ({ interactor with shown := none }, true)

/-- The loop of the subscriber to `update_nodes`, with the link that was shown
before it. -/
def updateEach (around : Surroundings R) (link : Link R) (interactor : Interactor (Link R)) :
    List Int → Interactor (Link R)
  | [] => interactor
  | el :: rest =>
    match touches around link el with
    | none => interactor
    | some false => updateEach around link interactor rest
    | some true =>
      match redraw around interactor link with
      | (interactor, true) => interactor
      | (interactor, false) => updateEach around link interactor rest

/-- The subscriber to `update_nodes`. -/
def updateNodes (around : Surroundings R) (interactor : Interactor (Link R)) (nodes : List Int) :
    Interactor (Link R) :=
  match interactor.shown with
  | none => interactor
  | some link => updateEach around link interactor nodes

/-- The subscriber to `update_node`. -/
def updateNode (around : Surroundings R) (interactor : Interactor (Link R)) (node : Int) :
    Interactor (Link R) :=
  match interactor.shown with
  | none => interactor
  | some link =>
    match touches around link node with
    | some true => (redraw around interactor link).1
    | _ => interactor

/-- What can happen to the link panel. The nodes of an update are told by id. -/
inductive Action (R : Type u) where
  | mouseover
  | mouseout
  | close
  | edge_mouseover (link : Link R)
  | edge_tap (link : Link R)
  | edge_unselect (link : Link R)
  | edge_mouseout (link : Link R)
  | update_node (node : Int)
  | update_nodes (nodes : List Int)
  | mouseRested (handle : Nat)
  | timerFires (handle : Nat)
  | animationEnds

def step (mouseoverEnabled : Bool) (panel : State R) :
    Surroundings R × Action R → State R
  | (_, .mouseover) =>
    { panel with interactor := { panel.interactor with timer := panel.interactor.timer.stop } }
  | (_, .mouseout) =>
    { panel with interactor := { panel.interactor with timer := panel.interactor.timer.start } }
  | (_, .close) =>
    { panel with interactor := { panel.interactor with panel_show := false, selected := none } }
  | (_, .edge_mouseover link) => edgeMouseover mouseoverEnabled panel link
  | (around, .edge_tap link) => edgeTap around panel link
  | (_, .edge_unselect link) => edgeUnselect panel link
  | (_, .edge_mouseout link) => edgeMouseout mouseoverEnabled panel link
  | (around, .update_node node) =>
    { panel with interactor := updateNode around panel.interactor node }
  | (around, .update_nodes nodes) =>
    { panel with interactor := updateNodes around panel.interactor nodes }
  | (around, .mouseRested handle) =>
    match panel.waiting.due handle with
    | none => panel
    | some link =>
      (handleLinkInfo around { panel with waiting := panel.waiting.clear (some handle) } link).1
  | (around, .timerFires handle) =>
    { panel with interactor := timerFires around.draws panel.interactor handle }
  | (_, .animationEnds) => { panel with interactor := animationEnds panel.interactor }

end NetGraphz.LinkPanel
