import NetGraphz.Base.Timeouts

/-! What the node panel and the link panel of the client have in common: the
item that is shown, the item that is selected, and a timer that fades the panel
out. What drawing an item can do to the panel is to throw. -/
namespace NetGraphz.Panel

/-- `fadeTimer` and `timer_started`, the timeouts that were set, and a record of
the calls. -/
structure FadeTimer where
  timeouts : Timeouts Unit := {}
  fadeTimer : Option Nat := none
  timer_started : Bool := false
  calls : List TimerCall := []

/-- `stopNodePanelTimer` and `stopLinkPanelTimer`. -/
def FadeTimer.stop (timer : FadeTimer) : FadeTimer where
  timeouts := if timer.timer_started then timer.timeouts.clear timer.fadeTimer else timer.timeouts
  fadeTimer := timer.fadeTimer
  timer_started := false
  calls := timer.calls ++ [.stopped]

/-- `startNodePanelTimer` and `startLinkPanelTimer`. -/
def FadeTimer.start (timer : FadeTimer) : FadeTimer where
  timeouts := timer.timeouts.set ()
  fadeTimer := some timer.timeouts.next
  timer_started := true
  calls := timer.calls ++ [.started]

/-- One of the timeouts that were set goes off. -/
def FadeTimer.fire (timer : FadeTimer) (handle : Nat) : FadeTimer :=
  { timer with
    timeouts := timer.timeouts.clear (some handle)
    calls := timer.calls ++ [.fired] }

/-- What the panel is queued to do on the screen. -/
inductive Animation where
  | fadeIn
  | fadeOut

/-- The variables of an interactor. -/
structure Interactor (ι : Type u) where
  panel_show : Bool := false
  shown : Option ι := none
  selected : Option ι := none
  timer : FadeTimer := {}
  animations : List Animation := []

variable {ι : Type u}

/-- `setContent`, and whether it threw. -/
def setContent (draws : ι → Bool) (panel : Interactor ι) (item : ι) : Interactor ι × Bool :=
  ({ panel with shown := some item }, !draws item)

/-- `showNodePanel` and `showLinkPanel`, and whether they threw. -/
def showPanel (draws : ι → Bool) (panel : Interactor ι) (item : ι) : Interactor ι × Bool :=
  let panel := { panel with shown := some item }
  let panel := if panel.timer.timer_started then { panel with timer := panel.timer.stop } else panel
  match setContent draws panel item with
  | (panel, true) => (panel, true)
  | (panel, false) =>
    if panel.panel_show then (panel, false)
    else ({ panel with animations := panel.animations ++ [.fadeIn] }, false)

/-- What the timer was set for. An exception leaves `timer_started` as it is. -/
def timerFires (draws : ι → Bool) (panel : Interactor ι) (handle : Nat) : Interactor ι :=
  match panel.timer.timeouts.due handle with
  | none => panel
  | some () =>
    let panel := { panel with timer := panel.timer.fire handle }
    match panel.selected with
    | some item =>
      match setContent draws panel item with
      | (panel, true) => panel
      | (panel, false) => { panel with timer := { panel.timer with timer_started := false } }
    | none =>
      { panel with
        animations := panel.animations ++ [.fadeOut]
        timer := { panel.timer with timer_started := false } }

/-- The animation queued first is over. -/
def animationEnds (panel : Interactor ι) : Interactor ι :=
  match panel.animations with
  | [] => panel
  | .fadeIn :: later => { panel with animations := later, panel_show := true }
  | .fadeOut :: later =>
    { panel with animations := later, panel_show := false, shown := none, selected := none }

end NetGraphz.Panel
