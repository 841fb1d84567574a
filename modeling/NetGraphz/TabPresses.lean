import NetGraphz.TabStop
import NetGraphz.Base.Rounds

/-! The tab key going round a queue that stays as it is. A stop past the end of
the queue is first moved to the end where the direction starts; from there the
presses go around. -/
namespace NetGraphz.TabPresses
open TabStop Rounds

variable {stops : TabStops R}

/-- A press of the tab key. -/
def press (shiftKey : Bool) (stops : TabStops R) : TabStops R := keydown stops 9 shiftKey

/-- The direction in which the stops are met. -/
def direction (n : Nat) (shiftKey : Bool) : Nat → Nat := if shiftKey then behind n else ahead n

/-- The stop that a press selects. -/
def current (shiftKey : Bool) (n tabStop : Nat) : Nat :=
  if tabStop < n then tabStop else if shiftKey then n - 1 else 0

theorem current_lt (shiftKey : Bool) (nonempty : 0 < n) : current shiftKey n tabStop < n := by
  unfold current
  split
  · assumption
  · split
    · exact Nat.sub_one_lt nonempty.ne'
    · exact nonempty

theorem current_of_lt (shiftKey : Bool) (inside : tabStop < n) :
    current shiftKey n tabStop = tabStop :=
  if_pos inside

theorem direction_lt (shiftKey : Bool) (inside : i < n) : direction n shiftKey i < n := by
  unfold direction
  split
  · exact behind_lt inside
  · exact ahead_lt inside

/-- A press at a stop that is there. -/
theorem press_inside (shiftKey : Bool) (inside : stops.tabStop < stops.queue.length) :
    press shiftKey stops =
      { stops with
        selected := stops.selected ++ [stops.queue[stops.tabStop].id]
        tabStop := direction stops.queue.length shiftKey stops.tabStop } := by
  have nonempty : stops.queue.length ≠ 0 := Nat.ne_zero_of_lt inside
  cases shiftKey with
  | false =>
    rw [press, keydown, handleTabFwdSwitch]
    simp [nonempty, inside, direction, ahead]
  | true =>
    rw [press, keydown, handleTabBkwdSwitch]
    have first : (stops.tabStop : Int) - 1 < 0 ↔ stops.tabStop = 0 := by omega
    simp [nonempty, inside, direction, behind, first]

/-- A press at a stop that is gone is one at the stop where the direction starts. -/
theorem press_current (shiftKey : Bool) (nonempty : 0 < stops.queue.length) :
    press shiftKey stops =
      press shiftKey { stops with
        tabStop := current shiftKey stops.queue.length stops.tabStop } := by
  by_cases inside : stops.tabStop < stops.queue.length
  · rw [current_of_lt shiftKey inside]
  · cases shiftKey with
    | false =>
      rw [press, keydown, handleTabFwdSwitch]
      simp [nonempty.ne', inside, current, press, keydown]
    | true =>
      rw [press, keydown, handleTabBkwdSwitch]
      simp [nonempty.ne', inside, current, press, keydown]

/-- What any press does. -/
theorem press_eq (shiftKey : Bool) (nonempty : 0 < stops.queue.length) :
    press shiftKey stops =
      { stops with
        selected := stops.selected ++
          [(stops.queue.get ⟨current shiftKey stops.queue.length stops.tabStop,
            current_lt shiftKey nonempty⟩).id]
        tabStop := direction stops.queue.length shiftKey
          (current shiftKey stops.queue.length stops.tabStop) } := by
  rw [press_current shiftKey nonempty, press_inside shiftKey (current_lt shiftKey nonempty)]
  rfl

theorem direction_iterate_lt (shiftKey : Bool) (inside : i < n) (count : Nat) :
    (direction n shiftKey)^[count] i < n := by
  induction count with
  | zero => exact inside
  | succ count ih =>
    rw [Function.iterate_succ_apply']
    exact direction_lt shiftKey ih

/-- So many presses in one direction select what a walk meets. -/
theorem presses_inside (shiftKey : Bool) (inside : stops.tabStop < stops.queue.length)
    (count : Nat) :
    (press shiftKey)^[count] stops =
      { stops with
        selected := stops.selected ++ walk (direction stops.queue.length shiftKey)
          (stops.queue.map Handed.id) stops.tabStop count
        tabStop := (direction stops.queue.length shiftKey)^[count] stops.tabStop } := by
  induction count with
  | zero => simp [walk]
  | succ count ih =>
    have within := direction_iterate_lt shiftKey inside count
    rw [Function.iterate_succ_apply', ih, press_inside shiftKey within, walk_succ,
      Function.iterate_succ_apply', List.getElem?_map, List.getElem?_eq_getElem within,
      List.append_assoc]
    rfl

/-- The presses that follow a stale stop are those that follow its repair. -/
theorem presses_current (shiftKey : Bool) (nonempty : 0 < stops.queue.length) (more : 0 < count) :
    (press shiftKey)^[count] stops =
      (press shiftKey)^[count] { stops with
        tabStop := current shiftKey stops.queue.length stops.tabStop } := by
  obtain ⟨later, rfl⟩ := Nat.exists_eq_add_one_of_ne_zero more.ne'
  rw [Function.iterate_succ_apply, Function.iterate_succ_apply, press_current shiftKey nonempty]

/-- Each press selects a node of the queue and leaves the stop inside it; as
many presses in one direction as there are nodes select each of them once. -/
theorem presses_go_round (stops : TabStops R) (nonempty : stops.queue ≠ [])
    (distinct : (stops.queue.map Handed.id).Nodup) (shiftKey : Bool) :
    (∃ node ∈ stops.queue, ∃ tabStop < stops.queue.length,
      press shiftKey stops =
        { stops with selected := stops.selected ++ [node.id], tabStop := tabStop }) ∧
    ∃ chosen, chosen.Nodup ∧ chosen.Perm (stops.queue.map Handed.id) ∧
      ∃ tabStop < stops.queue.length,
        (press shiftKey)^[stops.queue.length] stops =
          { stops with selected := stops.selected ++ chosen, tabStop := tabStop } := by
  have positive : 0 < stops.queue.length := List.length_pos_iff.mpr nonempty
  have inside : current shiftKey stops.queue.length stops.tabStop < stops.queue.length :=
    current_lt shiftKey positive
  constructor
  · exact ⟨_, List.getElem_mem inside, _, direction_lt shiftKey inside,
      press_eq shiftKey positive⟩
  · have length : (stops.queue.map Handed.id).length = stops.queue.length := List.length_map _
    have whole : (walk (direction stops.queue.length shiftKey) (stops.queue.map Handed.id)
        (current shiftKey stops.queue.length stops.tabStop) stops.queue.length).Perm
        (stops.queue.map Handed.id) := by
      rw [← length] at inside ⊢
      refine walk_perm _ ?_ inside
      cases shiftKey
      · exact .inl rfl
      · exact .inr rfl
    refine ⟨_, whole.nodup_iff.mpr distinct, whole, _,
      direction_iterate_lt shiftKey inside stops.queue.length, ?_⟩
    rw [presses_current shiftKey positive positive]
    exact presses_inside shiftKey inside stops.queue.length

/-- A node that is down. -/
def downNode (id : Int) : Handed Unit where
  node := { id := id, type := none, status := some [⟨"Icinga", 1, 1⟩], metrics := none }
  hasId := true

/-- A stop that is left from a longer queue. -/
def stale : TabStops Unit where
  queue := [downNode 3, downNode 8]
  tabStop := 5

theorem stale_goes_round :
    (∃ node ∈ stale.queue, ∃ tabStop < stale.queue.length,
      press true stale = { stale with selected := [node.id], tabStop := tabStop }) ∧
    ∃ chosen, chosen.Nodup ∧ chosen.Perm (stale.queue.map Handed.id) ∧
      ∃ tabStop < stale.queue.length,
        (press true)^[2] stale = { stale with selected := chosen, tabStop := tabStop } :=
  presses_go_round stale (List.cons_ne_nil _ _) (by simp [stale, downNode, Handed.id]) true

end NetGraphz.TabPresses
