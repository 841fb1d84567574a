import NetGraphz.PanelUpdates
import NetGraphz.LinkPanel
import NetGraphz.Base.History

/-! The fade-out timers of the panels. The panel remembers one handle; as long as
the timer is started only when none is pending, that is the handle of the only
one, and a stop clears it. -/
namespace NetGraphz.PanelTimers
open Panel

/-- At most one fade-out timer is pending, and none has fired between a stop and
the next start. -/
def Disciplined (timer : FadeTimer) : Prop :=
  timer.timeouts.pending.length ≤ 1 ∧ QuietWhenStopped timer.calls

/-- No fade-out timer is pending. -/
def Idle (timer : FadeTimer) : Prop := timer.timeouts.pending = []

/-- The one pending timer is the one that a stop would clear. -/
structure Remembered (timer : FadeTimer) (handle : Nat) : Prop where
  only : timer.timeouts.pending = [(handle, ())]
  handle : timer.fadeTimer = some handle
  started : timer.timer_started
  armed : Armed timer.calls

/-- What the discipline rests on. -/
structure Sound (timer : FadeTimer) : Prop where
  quiet : QuietWhenStopped timer.calls
  pending : Idle timer ∨ ∃ handle, Remembered timer handle

variable {timer timer' : FadeTimer}

theorem Sound.disciplined (sound : Sound timer) : Disciplined timer := by
  refine ⟨?_, sound.quiet⟩
  rcases sound.pending with idle | ⟨handle, remembered⟩
  · rw [idle]
    exact Nat.zero_le 1
  · rw [remembered.only]
    exact le_refl 1

theorem Sound.stop (sound : Sound timer) : Sound timer.stop ∧ Idle timer.stop := by
  have idle : Idle timer.stop := by
    rcases sound.pending with idle | ⟨handle, remembered⟩
    · unfold Idle FadeTimer.stop
      split
      · exact Timeouts.pending_clear_empty idle _
      · exact idle
    · unfold Idle FadeTimer.stop
      rw [if_pos remembered.started, remembered.handle]
      exact Timeouts.pending_clear_only remembered.only
  exact ⟨⟨(quiet_concat _ _).mpr ⟨sound.quiet, by rintro ⟨⟩⟩, .inl idle⟩, idle⟩

theorem Sound.start (sound : Sound timer) (idle : Idle timer) : Sound timer.start where
  quiet := (quiet_concat _ _).mpr ⟨sound.quiet, by rintro ⟨⟩⟩
  pending := .inr ⟨timer.timeouts.next,
    { only := by
        have empty : timer.timeouts.pending = [] := idle
        simp [FadeTimer.start, Timeouts.set, empty]
      handle := rfl
      started := rfl
      armed := armed_started timer.calls }⟩

/-- A timer that fires is the remembered one. -/
theorem Sound.fire (sound : Sound timer) (due : timer.timeouts.due handle = some ()) :
    Sound (timer.fire handle) ∧ Idle (timer.fire handle) := by
  rcases sound.pending with idle | ⟨own, remembered⟩
  · have empty : timer.timeouts.pending = [] := idle
    rw [Timeouts.due, empty] at due
    cases due
  · obtain rfl := Timeouts.due_only remembered.only due
    have idle : Idle (timer.fire handle) := Timeouts.pending_clear_only remembered.only
    exact ⟨⟨(quiet_concat _ _).mpr ⟨sound.quiet, fun _ => remembered.armed⟩, .inl idle⟩, idle⟩

/-- A timer that is not pending has no flag to keep. -/
theorem Sound.flag (sound : Sound timer) (idle : Idle timer) (timer_started : Bool) :
    Sound { timer with timer_started := timer_started } :=
  ⟨sound.quiet, .inl idle⟩

/-- A start while a timer is pending makes two. -/
theorem not_disciplined_start (busy : ¬Idle timer) : ¬Disciplined timer.start := by
  rintro ⟨few, _⟩
  have some : timer.timeouts.pending.length ≠ 0 := fun none => busy (List.length_eq_zero_iff.mp none)
  simp only [FadeTimer.start, Timeouts.set, List.length_append, List.length_singleton] at few
  omega

/-- What a step may do to the timer other than start it. -/
inductive Calmly : FadeTimer → FadeTimer → Prop where
  | unchanged (timer : FadeTimer) : Calmly timer timer
  | stop (timer : FadeTimer) : Calmly timer timer.stop
  | stopTwice (timer : FadeTimer) : Calmly timer timer.stop.stop
  | fire (timer : FadeTimer) (handle : Nat) : timer.timeouts.due handle = some () →
      Calmly timer (timer.fire handle)
  | fireAndReset (timer : FadeTimer) (handle : Nat) : timer.timeouts.due handle = some () →
      Calmly timer { timer.fire handle with timer_started := false }

theorem Sound.calmly (sound : Sound timer) (calm : Calmly timer timer') : Sound timer' := by
  cases calm with
  | unchanged => exact sound
  | stop => exact sound.stop.1
  | stopTwice => exact sound.stop.1.stop.1
  | fire handle due => exact (sound.fire due).1
  | fireAndReset handle due => exact (sound.fire due).1.flag (sound.fire due).2 false

/-- A machine with a timer that each step either starts or treats calmly. -/
theorem disciplined_iff_starts_idle (step : σ → α → σ) (timer : σ → FadeTimer)
    (starts : σ → α → Prop)
    (started : ∀ state action, starts state action →
      timer (step state action) = (timer state).start)
    (calm : ∀ state action, ¬starts state action →
      Calmly (timer state) (timer (step state action)))
    (start : σ) (sound : Sound (timer start)) (history : List α) :
    (∀ past, past <+: history → Disciplined (timer (after step start past))) ↔
      ∀ past last, past ++ [last] <+: history → starts (after step start past) last →
        Idle (timer (after step start past)) := by
  constructor
  · intro throughout past last within starting
    have next := throughout _ within
    rw [after_concat, started _ _ starting] at next
    by_contra busy
    exact not_disciplined_start busy next
  · intro idle past within
    refine (prefix_induction (fun past => Sound (timer (after step start past))) sound ?_ past
      within).disciplined
    intro past last within sound
    rw [after_concat]
    by_cases starting : starts (after step start past) last
    · rw [started _ _ starting]
      exact sound.start (idle past last within starting)
    · exact sound.calmly (calm _ _ starting)

/-! ## What the two panels have in common -/

section interactor

variable {ι : Type u} (draws : ι → Bool) (panel : Interactor ι)

/-- Showing an item stops the timer if it is started. -/
theorem timer_showPanel (item : ι) :
    (showPanel draws panel item).1.timer =
      if panel.timer.timer_started then panel.timer.stop else panel.timer := by
  obtain ⟨panel_show, shown, selected, ⟨timeouts, fadeTimer, timer_started, calls⟩, animations⟩ :=
    panel
  unfold showPanel setContent
  cases draws item <;> cases timer_started <;> cases panel_show <;> rfl

theorem calmly_showPanel (item : ι) : Calmly panel.timer (showPanel draws panel item).1.timer := by
  rw [timer_showPanel]
  split
  · exact .stop _
  · exact .unchanged _

theorem calmly_timerFires (handle : Nat) :
    Calmly panel.timer (timerFires draws panel handle).timer := by
  unfold timerFires setContent
  cases due : panel.timer.timeouts.due handle with
  | none => exact .unchanged _
  | some =>
    dsimp only
    cases panel.selected with
    | none => exact .fireAndReset _ handle due
    | some item =>
      dsimp only
      cases draws item with
      | false => exact .fire _ handle due
      | true => exact .fireAndReset _ handle due

theorem timer_animationEnds : (animationEnds panel).timer = panel.timer := by
  unfold animationEnds
  split <;> rfl

end interactor

/-! ## The node panel -/

section node
open NodePanel

/-- An action that starts the node panel's timer. -/
def NodeStarts (panel : State R) : Action R → Prop
  | .mouseout => True
  | .node_unselect =>
    ∃ selected ∈ panel.interactor.selected, ∃ shown ∈ panel.interactor.shown,
      selected.id = shown.id
  | .node_mouseout isNodePanelDisabled node =>
    isNodePanelDisabled = false ∧ leaves panel.interactor node
  | _ => False

variable (cfg : Settings R)

theorem timer_updateNode (interactor : Interactor (Node R)) (node : Node R) :
    (updateNode cfg interactor node).timer = interactor.timer := by
  unfold updateNode setContent
  cases interactor.shown with
  | none => rfl
  | some shown =>
    cases interactor.selected with
    | none =>
      dsimp only
      split <;> rfl
    | some selected =>
      dsimp only
      split <;> split <;> rfl

theorem timer_updateEach (node : Node R) (selected : Option (Node R))
    (interactor : Interactor (Node R)) (nodes : List (Node R)) :
    (updateEach cfg node selected interactor nodes).timer = interactor.timer := by
  induction nodes generalizing interactor with
  | nil => rfl
  | cons el rest ih =>
    rw [PanelUpdates.updateEach_cons]
    split
    · rfl
    · exact ih _

theorem timer_updateNodes (interactor : Interactor (Node R)) (nodes : List (Node R)) :
    (updateNodes cfg interactor nodes).timer = interactor.timer := by
  unfold updateNodes
  split
  · rfl
  · exact timer_updateEach cfg _ _ interactor nodes

theorem node_started (panel : State R) (action : Action R) (starts : NodeStarts panel action) :
    (step cfg panel action).interactor.timer = panel.interactor.timer.start := by
  cases action with
  | mouseout => rfl
  | node_unselect =>
    obtain ⟨selected, chosen, shown, isShown, same⟩ := starts
    simp only [step, nodeUnselect, Option.mem_def.mp chosen, Option.mem_def.mp isShown, if_pos same]
  | node_mouseout isNodePanelDisabled node =>
    obtain ⟨rfl, leaving⟩ := starts
    simp [step, nodeMouseout, clearMouseoverTimer, leaving]
  | _ => exact starts.elim

theorem node_calm (panel : State R) (action : Action R) (quiet : ¬NodeStarts panel action) :
    Calmly panel.interactor.timer (step cfg panel action).interactor.timer := by
  cases action with
  | mouseover => exact .stop _
  | mouseout => exact absurd trivial quiet
  | close => exact .unchanged _
  | node_mouseover isNodePanelDisabled node =>
    dsimp only [step, nodeMouseover, clearMouseoverTimer, mouseRests, handleNodeInfo]
    split
    · exact .unchanged _
    · split
      · cases threw : (showPanel (draws cfg) panel.interactor node).2
        · exact calmly_showPanel _ _ _
        · exact calmly_showPanel _ _ _
      · exact .unchanged _
  | node_select node =>
    dsimp only [step, nodeSelect, handleNodeInfo]
    cases threw : (showPanel (draws cfg) panel.interactor node).2 with
    | true => exact calmly_showPanel _ _ _
    | false =>
      dsimp only
      rw [timer_showPanel]
      split
      · exact .stopTwice _
      · exact .stop _
  | node_unselect =>
    dsimp only [step, nodeUnselect]
    split
    · rename_i selected shown chosen isShown
      split
      · rename_i same
        exact absurd ⟨selected, chosen, shown, isShown, same⟩ quiet
      · exact .unchanged _
    · exact .unchanged _
  | node_mouseout isNodePanelDisabled node =>
    dsimp only [step, nodeMouseout, clearMouseoverTimer]
    split
    · exact .unchanged _
    · rename_i disabled
      split
      · rename_i leaving
        exact absurd ⟨by simpa using disabled, leaving⟩ quiet
      · exact .unchanged _
  | update_node node =>
    rw [step, timer_updateNode]
    exact .unchanged _
  | update_nodes nodes =>
    rw [step, timer_updateNodes]
    exact .unchanged _
  | mouseRested handle =>
    dsimp only [step, mouseRests, handleNodeInfo]
    split
    · exact .unchanged _
    · exact calmly_showPanel _ _ _
  | timerFires handle => exact calmly_timerFires _ _ _
  | animationEnds =>
    rw [step, timer_animationEnds]
    exact .unchanged _

end node

/-! ## The link panel -/

section link
open LinkPanel GraphStore

/-- An action that starts the link panel's timer. -/
def LinkStarts (mouseoverEnabled : Bool) (panel : LinkPanel.State R) :
    Surroundings R × LinkPanel.Action R → Prop
  | (_, .mouseout) => True
  | (_, .edge_unselect link) => isShown panel.interactor link
  | (_, .edge_mouseout link) =>
    mouseoverEnabled ∧ panel.interactor.selected = none ∧ isShown panel.interactor link
  | _ => False

variable (around : Surroundings R)

theorem timer_redraw (interactor : Interactor (Link R)) (link : Link R) :
    (redraw around interactor link).1.timer = interactor.timer := by
  unfold redraw setContent
  split <;> rfl

theorem timer_updateNode_link (interactor : Interactor (Link R)) (node : Int) :
    (LinkPanel.updateNode around interactor node).timer = interactor.timer := by
  unfold LinkPanel.updateNode
  split
  · rfl
  · split
    · exact timer_redraw around interactor _
    · rfl

theorem timer_updateEach_link (link : Link R) (interactor : Interactor (Link R))
    (nodes : List Int) :
    (LinkPanel.updateEach around link interactor nodes).timer = interactor.timer := by
  induction nodes generalizing interactor with
  | nil => rfl
  | cons el rest ih =>
    unfold LinkPanel.updateEach
    split
    · rfl
    · exact ih interactor
    · have redrawn := timer_redraw around interactor link
      split
      · rename_i drawn
        rw [drawn] at redrawn
        exact redrawn
      · rename_i drawn
        rw [drawn] at redrawn
        exact (ih _).trans redrawn

theorem timer_updateNodes_link (interactor : Interactor (Link R)) (nodes : List Int) :
    (LinkPanel.updateNodes around interactor nodes).timer = interactor.timer := by
  unfold LinkPanel.updateNodes
  split
  · rfl
  · exact timer_updateEach_link around _ interactor nodes

variable (mouseoverEnabled : Bool) (panel : LinkPanel.State R)

theorem link_started (event : Surroundings R × LinkPanel.Action R)
    (starts : LinkStarts mouseoverEnabled panel event) :
    (LinkPanel.step mouseoverEnabled panel event).interactor.timer =
      panel.interactor.timer.start := by
  obtain ⟨around, action⟩ := event
  cases action with
  | mouseout => rfl
  | edge_unselect link =>
    have shown : isShown panel.interactor link := starts
    simp only [LinkPanel.step, edgeUnselect, if_pos shown]
  | edge_mouseout link =>
    obtain ⟨rfl, unselected, shown⟩ := starts
    simp [LinkPanel.step, edgeMouseout, stopMouseTimer, unselected, shown]
  | _ => exact starts.elim

theorem link_calm (event : Surroundings R × LinkPanel.Action R)
    (quiet : ¬LinkStarts mouseoverEnabled panel event) :
    Calmly panel.interactor.timer
      (LinkPanel.step mouseoverEnabled panel event).interactor.timer := by
  obtain ⟨around, action⟩ := event
  cases action with
  | mouseover => exact .stop _
  | mouseout => exact absurd trivial quiet
  | close => exact .unchanged _
  | edge_mouseover link =>
    dsimp only [LinkPanel.step, edgeMouseover, stopMouseTimer]
    split
    · exact .unchanged _
    · split <;> exact .unchanged _
  | edge_tap link =>
    dsimp only [LinkPanel.step, edgeTap, stopMouseTimer, handleLinkInfo]
    cases threw : (showPanel around.draws panel.interactor link).2 with
    | true => exact calmly_showPanel _ _ _
    | false => exact calmly_showPanel _ _ _
  | edge_unselect link =>
    dsimp only [LinkPanel.step, edgeUnselect]
    split
    · rename_i shown
      exact absurd shown quiet
    · exact .unchanged _
  | edge_mouseout link =>
    dsimp only [LinkPanel.step, edgeMouseout, stopMouseTimer]
    split
    · exact .unchanged _
    · rename_i enabled
      split
      · exact .unchanged _
      · rename_i unselected
        split
        · rename_i shown
          exact absurd ⟨by simpa using enabled, by simpa using unselected, shown⟩ quiet
        · exact .unchanged _
  | update_node node =>
    rw [LinkPanel.step, timer_updateNode_link]
    exact .unchanged _
  | update_nodes nodes =>
    rw [LinkPanel.step, timer_updateNodes_link]
    exact .unchanged _
  | mouseRested handle =>
    dsimp only [LinkPanel.step, handleLinkInfo]
    split
    · exact .unchanged _
    · exact calmly_showPanel _ _ _
  | timerFires handle => exact calmly_timerFires _ _ _
  | animationEnds =>
    rw [LinkPanel.step, timer_animationEnds]
    exact .unchanged _

end link

/-! ## Runs of both -/

/-- The fade-out timers keep their discipline all along a run exactly when each
start finds no fade-out timer pending. -/
theorem timers_disciplined_iff (cfg : NodePanel.Settings R) (mouseoverEnabled : Bool) :
    (∀ history : List (NodePanel.Action R),
      (∀ past, past <+: history →
        Disciplined (after (NodePanel.step cfg) {} past).interactor.timer) ↔
      ∀ past last, past ++ [last] <+: history →
        NodeStarts (after (NodePanel.step cfg) {} past) last →
          Idle (after (NodePanel.step cfg) {} past).interactor.timer) ∧
    ∀ history : List (LinkPanel.Surroundings R × LinkPanel.Action R),
      (∀ past, past <+: history →
        Disciplined (after (LinkPanel.step mouseoverEnabled) {} past).interactor.timer) ↔
      ∀ past last, past ++ [last] <+: history →
        LinkStarts mouseoverEnabled (after (LinkPanel.step mouseoverEnabled) {} past) last →
          Idle (after (LinkPanel.step mouseoverEnabled) {} past).interactor.timer := by
  have fresh : Sound {} := ⟨quiet_nil, .inl rfl⟩
  exact ⟨disciplined_iff_starts_idle (NodePanel.step cfg) (fun panel => panel.interactor.timer)
      NodeStarts (node_started cfg) (node_calm cfg) {} fresh,
    disciplined_iff_starts_idle (LinkPanel.step mouseoverEnabled)
      (fun panel => panel.interactor.timer) (LinkStarts mouseoverEnabled)
      (link_started mouseoverEnabled) (link_calm mouseoverEnabled) {} fresh⟩

/-- The mouse goes over a node and away from it, does so again, and then comes to
rest on the panel. -/
def twiceOver : List (NodePanel.Action Unit) :=
  [.node_mouseover false (PanelUpdates.bare 0 1), .node_mouseout false (PanelUpdates.bare 0 1),
    .node_mouseover false (PanelUpdates.bare 0 1), .node_mouseout false (PanelUpdates.bare 0 1),
    .mouseover, .timerFires 0]

/-- Two timers are pending once it has left the second time, and the first one
fires although the timer was stopped. -/
theorem first_timer_leaks :
    (after (NodePanel.step PanelUpdates.plain) {} (twiceOver.take 4)).interactor.timer.timeouts.pending
      = [(0, ()), (1, ())] ∧
    ¬QuietWhenStopped
      (after (NodePanel.step PanelUpdates.plain) {} twiceOver).interactor.timer.calls := by
  refine ⟨rfl, fun quiet => ?_⟩
  have restarted : TimerCall.started ∈ [] :=
    quiet [.started, .started, .stopped] (List.prefix_refl _) [.started, .started] [] rfl
  cases restarted

end NetGraphz.PanelTimers
