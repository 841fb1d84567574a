import Mathlib.Data.List.Nodup
import NetGraphz.NodePanel
import NetGraphz.Base.Keyed

/-! One `update_nodes` event against an `update_node` event for each node. What
is shown comes out the same. What is selected comes out the same only where no
entry of the list takes its place. -/
namespace NetGraphz.PanelUpdates
open Panel NodePanel

variable {cfg : Settings R} {interactor : Interactor (Node R)} {batch : List (Node R)}

/-- The entry of a list that a node is replaced by. -/
def replaced (batch : List (Node R)) (node : Node R) : Node R :=
  (batch.find? fun el => el.id = node.id).getD node

/-- Nothing is shown, or an entry before this one is the shown node's and cannot
be drawn. -/
def Unreached (cfg : Settings R) (interactor : Interactor (Node R)) (batch : List (Node R))
    (el : Node R) : Prop :=
  ∀ node ∈ interactor.shown, ∃ before later, batch = before ++ el :: later ∧
    ∃ blocking ∈ before, blocking.id = node.id ∧ draws cfg blocking = false

/-- One event does what an event for each node would do. The selection keeps its
id, and a selected node in the list is replaced by its entry. -/
def AsInTurn (cfg : Settings R) (interactor : Interactor (Node R)) (batch : List (Node R)) : Prop :=
  let once := updateNodes cfg interactor batch
  let inTurn := batch.foldl (updateNode cfg) interactor
  once.shown = inTurn.shown ∧ once.selected = inTurn.selected ∧
    once.selected.map Node.id = interactor.selected.map Node.id ∧
    ∀ selected ∈ interactor.selected, ∀ el ∈ batch, el.id = selected.id → once.selected = some el

theorem replaced_of_mem {el node : Node R} (distinct : (batch.map Node.id).Nodup)
    (member : el ∈ batch) (same : el.id = node.id) : replaced batch node = el := by
  rw [replaced, ← same, Keyed.find_of_mem distinct member]
  rfl

theorem replaced_of_absent {node : Node R} (absent : ∀ el ∈ batch, el.id ≠ node.id) :
    replaced batch node = node := by
  have missing : batch.find? (fun el => el.id = node.id) = none := by simpa using absent
  rw [replaced, missing]
  rfl

/-- What one entry makes of a node. -/
def replacedBy (el node : Node R) : Node R := if el.id = node.id then el else node

theorem replaced_cons {el : Node R} (distinct : ((el :: batch).map Node.id).Nodup) (node : Node R) :
    replaced (el :: batch) node = replaced batch (replacedBy el node) := by
  have later : ∀ other ∈ batch, other.id ≠ el.id := by
    intro other member same
    exact (List.nodup_cons.mp distinct).1 (List.mem_map.mpr ⟨other, member, same⟩)
  unfold replacedBy
  split
  · rename_i same
    rw [replaced_of_mem distinct List.mem_cons_self same, replaced_of_absent later]
  · rename_i other
    rw [replaced, replaced, List.find?_cons_of_neg (by simpa using other)]

theorem updateNode_eq (shown : interactor.shown = some node) (el : Node R) :
    updateNode cfg interactor el =
      { interactor with
        shown := some (replacedBy el node)
        selected := interactor.selected.map (replacedBy el) } := by
  obtain ⟨panel_show, _, selected, timer, animations⟩ := interactor
  obtain rfl := shown
  unfold updateNode setContent replacedBy
  cases selected with
  | none =>
    dsimp only
    split <;> rfl
  | some other =>
    dsimp only [Option.map_some]
    split <;> split <;> rfl

/-- The events in turn replace what is shown and what is selected. -/
theorem inTurn_eq (cfg : Settings R) (distinct : (batch.map Node.id).Nodup) (shown : interactor.shown = some node) :
    batch.foldl (updateNode cfg) interactor =
      { interactor with
        shown := some (replaced batch node)
        selected := interactor.selected.map (replaced batch) } := by
  induction batch generalizing interactor node with
  | nil =>
    obtain ⟨panel_show, _, selected, timer, animations⟩ := interactor
    obtain rfl := shown
    cases selected <;> rfl
  | cons el rest ih =>
    have both : replaced (el :: rest) = replaced rest ∘ replacedBy el :=
      funext (replaced_cons distinct)
    rw [List.foldl_cons, updateNode_eq shown, ih (List.nodup_cons.mp distinct).2 rfl, both,
      Option.map_map]
    rfl

/-- The entries that the loop gets to. -/
def visited (cfg : Settings R) (node : Node R) : List (Node R) → List (Node R)
  | [] => []
  | el :: rest =>
    if el.id = node.id ∧ draws cfg el = false then [el] else el :: visited cfg node rest

/-- What the loop does with one entry. -/
def enter (node : Node R) (selected : Option (Node R)) (interactor : Interactor (Node R))
    (el : Node R) : Interactor (Node R) :=
  { interactor with
    shown := if el.id = node.id then some el else interactor.shown
    selected := if some el.id = selected.map Node.id then none else interactor.selected }

theorem updateEach_cons (cfg : Settings R) (node : Node R) (selected : Option (Node R))
    (interactor : Interactor (Node R)) (el : Node R) (rest : List (Node R)) :
    updateEach cfg node selected interactor (el :: rest) =
      if el.id = node.id ∧ draws cfg el = false then enter node selected interactor el
      else updateEach cfg node selected (enter node selected interactor el) rest := by
  conv_lhs => unfold updateEach
  unfold setContent enter
  cases selected with
  | none =>
    by_cases same : el.id = node.id
    · cases drawn : draws cfg el <;> simp [same]
    · simp [same]
  | some other =>
    have chosen : (if el.id = other.id then { interactor with selected := none } else interactor) =
        { interactor with
          selected := if some el.id = some other.id then none else interactor.selected } := by
      simp only [Option.some.injEq]
      split <;> rfl
    dsimp only
    rw [chosen]
    by_cases same : el.id = node.id
    · cases drawn : draws cfg el <;> simp only [same, and_self, if_true, if_false, Option.map_some,
        Bool.not_true, Bool.not_false, reduceCtorEq, and_false]
    · simp [same]

theorem updateEach_eq (cfg : Settings R) (node : Node R) (selected : Option (Node R))
    (interactor : Interactor (Node R)) (batch : List (Node R)) :
    updateEach cfg node selected interactor batch =
      (visited cfg node batch).foldl (enter node selected) interactor := by
  induction batch generalizing interactor with
  | nil => rfl
  | cons el rest ih =>
    rw [updateEach_cons, visited]
    split
    · rfl
    · exact ih _

theorem selected_enter (node : Node R) (selected : Option (Node R))
    (interactor : Interactor (Node R)) (entries : List (Node R)) :
    (entries.foldl (enter node selected) interactor).selected =
      if selected.map Node.id ∈ entries.map (fun el => some el.id) then none
      else interactor.selected := by
  induction entries generalizing interactor with
  | nil => simp
  | cons el rest ih =>
    rw [List.foldl_cons, ih, List.map_cons]
    by_cases first : some el.id = selected.map Node.id
    · simp [enter, first]
    · simp [enter, first, Ne.symm first]

theorem shown_enter (node : Node R) (selected : Option (Node R))
    (interactor : Interactor (Node R)) {entries : List (Node R)}
    (distinct : (entries.map Node.id).Nodup) :
    (entries.foldl (enter node selected) interactor).shown =
      ((entries.find? fun el => el.id = node.id).map some).getD interactor.shown := by
  induction entries generalizing interactor with
  | nil => rfl
  | cons el rest ih =>
    rw [List.foldl_cons, ih _ (List.nodup_cons.mp distinct).2]
    by_cases same : el.id = node.id
    · have missing : rest.find? (fun el => el.id = node.id) = none := by
        rw [List.find?_eq_none]
        intro other member again
        have twice : other.id = el.id := by simpa [same] using again
        exact (List.nodup_cons.mp distinct).1 (List.mem_map.mpr ⟨other, member, twice⟩)
      rw [missing, List.find?_cons_of_pos (by simpa using same)]
      simp [enter, same]
    · rw [List.find?_cons_of_neg (by simpa using same)]
      simp [enter, same]

theorem visited_sublist (cfg : Settings R) (node : Node R) (batch : List (Node R)) :
    (visited cfg node batch).Sublist batch := by
  induction batch with
  | nil => exact List.Sublist.refl []
  | cons el rest ih =>
    unfold visited
    split
    · exact (List.nil_sublist rest).cons_cons el
    · exact ih.cons_cons el

/-- The loop gets to the entry of the node that is shown. -/
theorem find_visited (cfg : Settings R) (node : Node R) (batch : List (Node R)) :
    (visited cfg node batch).find? (fun el => el.id = node.id) =
      batch.find? fun el => el.id = node.id := by
  induction batch with
  | nil => rfl
  | cons el rest ih =>
    unfold visited
    split
    · rename_i stops
      rw [List.find?_cons_of_pos (by simpa using stops.1),
        List.find?_cons_of_pos (by simpa using stops.1)]
    · rw [List.find?_cons, List.find?_cons, ih]

/-- The entries it does not get to come after one that it stops at. -/
theorem not_mem_visited {node el : Node R} (distinct : (batch.map Node.id).Nodup)
    (member : el ∈ batch) :
    el ∉ visited cfg node batch ↔ ∃ before later, batch = before ++ el :: later ∧
      ∃ blocking ∈ before, blocking.id = node.id ∧ draws cfg blocking = false := by
  induction batch with
  | nil => cases member
  | cons first rest ih =>
    obtain ⟨fresh, distinct'⟩ := List.nodup_cons.mp distinct
    by_cases here : el = first
    · subst here
      have visits : el ∈ visited cfg node (el :: rest) := by
        unfold visited
        split <;> exact List.mem_cons_self
      refine iff_of_false (fun absent => absent visits) ?_
      rintro ⟨before, later, shape, blocking, inside, _⟩
      cases before with
      | nil => cases inside
      | cons first before =>
        obtain ⟨rfl, rfl⟩ := List.cons.inj shape
        exact fresh (List.mem_map.mpr ⟨el, by simp, rfl⟩)
    · have inRest : el ∈ rest := (List.mem_cons.mp member).resolve_left here
      by_cases stops : first.id = node.id ∧ draws cfg first = false
      · rw [visited, if_pos stops]
        obtain ⟨before, later, shape⟩ := List.append_of_mem inRest
        refine iff_of_true (by simpa using here) ⟨first :: before, later, by rw [shape]; rfl,
          first, List.mem_cons_self, stops⟩
      · rw [visited, if_neg stops, List.mem_cons, not_or, ih distinct' inRest]
        constructor
        · rintro ⟨_, before, later, shape, blocking, inside, blocks⟩
          exact ⟨first :: before, later, by rw [shape]; rfl, blocking,
            List.mem_cons_of_mem _ inside, blocks⟩
        · rintro ⟨before, later, shape, blocking, inside, blocks⟩
          cases before with
          | nil => cases inside
          | cons first' before =>
            obtain ⟨rfl, shape'⟩ := List.cons.inj shape
            have behind : blocking ∈ before := by
              rcases List.mem_cons.mp inside with rfl | behind
              · exact absurd blocks stops
              · exact behind
            exact ⟨here, before, later, shape', blocking, behind, blocks⟩

/-- What one event leaves. -/
theorem updateNodes_eq (cfg : Settings R) (distinct : (batch.map Node.id).Nodup)
    (shown : interactor.shown = some node) :
    (updateNodes cfg interactor batch).shown = some (replaced batch node) ∧
    (updateNodes cfg interactor batch).selected =
      if interactor.selected.map Node.id ∈
          (visited cfg node batch).map (fun el => some el.id) then none
      else interactor.selected := by
  unfold updateNodes
  rw [shown]
  dsimp only
  rw [updateEach_eq]
  refine ⟨?_, selected_enter node interactor.selected interactor _⟩
  rw [shown_enter _ _ _ (distinct.sublist ((visited_sublist cfg node batch).map Node.id)),
    find_visited, shown, replaced]
  cases batch.find? fun el => el.id = node.id <;> rfl

/-- Where nothing is shown, neither way does anything. -/
theorem hidden_unchanged (cfg : Settings R) (batch : List (Node R))
    (hidden : interactor.shown = none) :
    updateNodes cfg interactor batch = interactor ∧
      batch.foldl (updateNode cfg) interactor = interactor := by
  constructor
  · unfold updateNodes
    rw [hidden]
  · induction batch with
    | nil => rfl
    | cons el rest ih =>
      have unchanged : updateNode cfg interactor el = interactor := by
        unfold updateNode
        rw [hidden]
      rw [List.foldl_cons, unchanged, ih]

/-- Where a node is selected and one is shown, an entry for the selection is put
in its place by the events in turn, and drops it in the one event. -/
theorem as_in_turn_shown (distinct : (batch.map Node.id).Nodup)
    (shown : interactor.shown = some node) (chosen : interactor.selected = some selected) :
    AsInTurn cfg interactor batch ↔
      ∀ el ∈ batch, el.id = selected.id → el = selected ∧ Unreached cfg interactor batch el := by
  obtain ⟨onceShown, onceSelected⟩ := updateNodes_eq cfg distinct shown
  have turnShown := congrArg Interactor.shown (inTurn_eq cfg distinct shown)
  have turnSelected := congrArg Interactor.selected (inTurn_eq cfg distinct shown)
  have unreached : ∀ el ∈ batch, Unreached cfg interactor batch el ↔ el ∉ visited cfg node batch := by
    intro el member
    rw [not_mem_visited distinct member, Unreached, shown]
    simp
  simp only [AsInTurn, onceShown, onceSelected, turnShown, turnSelected, chosen]
  simp only [Option.map_some, List.mem_map, Option.some.injEq, true_and, Option.mem_def]
  constructor
  · rintro ⟨same, _⟩ el member own
    split at same
    · cases same
    · rename_i unvisited
      have kept := Option.some.inj same
      rw [replaced_of_mem distinct member own] at kept
      exact ⟨kept.symm, (unreached el member).mpr fun visits => unvisited ⟨el, visits, own⟩⟩
  · intro entries
    have unvisited : ¬∃ el ∈ visited cfg node batch, el.id = selected.id := by
      rintro ⟨el, visits, own⟩
      have member := (visited_sublist cfg node batch).subset visits
      exact (unreached el member).mp (entries el member own).2 visits
    have kept : replaced batch selected = selected := by
      by_cases present : ∃ el ∈ batch, el.id = selected.id
      · obtain ⟨el, member, own⟩ := present
        rw [replaced_of_mem distinct member own, (entries el member own).1]
      · exact replaced_of_absent fun el member own => present ⟨el, member, own⟩
    rw [if_neg unvisited, kept]
    refine ⟨rfl, rfl, ?_⟩
    rintro _ rfl el member own
    rw [(entries el member own).1]

/-- One event does what the events in turn do exactly when the entry of the
selected node, if the list has one, is the selected object and is not reached. -/
theorem as_in_turn_iff (cfg : Settings R) (interactor : Interactor (Node R))
    (batch : List (Node R)) (distinct : (batch.map Node.id).Nodup) :
    AsInTurn cfg interactor batch ↔
      ∀ selected ∈ interactor.selected, ∀ el ∈ batch, el.id = selected.id →
        el = selected ∧ Unreached cfg interactor batch el := by
  cases chosen : interactor.selected with
  | none =>
    refine iff_of_true ?_ (by rintro _ ⟨⟩)
    cases shown : interactor.shown with
    | none =>
      obtain ⟨once, inTurn⟩ := hidden_unchanged cfg batch shown
      simp [AsInTurn, once, inTurn, chosen]
    | some node =>
      obtain ⟨onceShown, onceSelected⟩ := updateNodes_eq cfg distinct shown
      simp [AsInTurn, onceShown, onceSelected, inTurn_eq cfg distinct shown, chosen]
  | some selected =>
    cases shown : interactor.shown with
    | none =>
      obtain ⟨once, inTurn⟩ := hidden_unchanged cfg batch shown
      simp only [AsInTurn, once, inTurn, chosen, Unreached, shown]
      constructor
      · rintro ⟨_, _, _, kept⟩ other inside el member own
        obtain rfl : selected = other := Option.some.inj inside
        exact ⟨(Option.some.inj (kept selected rfl el member own)).symm, by rintro _ ⟨⟩⟩
      · intro entries
        refine ⟨trivial, trivial, trivial, ?_⟩
        intro other inside el member own
        rw [(entries other inside el member own).1]
        exact inside
    | some node =>
      rw [as_in_turn_shown distinct shown chosen]
      simp

/-- Links are not drawn. -/
def plain : Settings Unit where
  Link := Unit
  links := none
  make_link _ _ := some ""

/-- A node without reports. -/
def bare (ref : Nat) (id : Int) : Node Unit := ⟨ref, id, some []⟩

/-- A node that is shown and selected. -/
def showing : Interactor (Node Unit) where
  panel_show := true
  shown := some (bare 0 1)
  selected := some (bare 0 1)

theorem others_as_in_turn : AsInTurn plain showing [bare 5 2, bare 6 3] :=
  (as_in_turn_iff plain showing [bare 5 2, bare 6 3] (by simp [bare])).mpr (by
    rintro _ ⟨⟩ el member own
    simp only [List.mem_cons, List.not_mem_nil, or_false] at member
    rcases member with rfl | rfl <;> simp [bare] at own)

/-- A new object for the selected node takes the selection away. -/
theorem selection_dropped :
    ¬∀ (cfg : Settings Unit) (interactor : Interactor (Node Unit)) (batch : List (Node Unit)),
      (batch.map Node.id).Nodup → AsInTurn cfg interactor batch := by
  intro always
  have distinct : ([bare 7 1].map Node.id).Nodup := List.nodup_singleton _
  have shown : showing.shown = some (bare 0 1) := rfl
  have chosen : showing.selected = some (bare 0 1) := rfl
  have same := (as_in_turn_shown distinct shown chosen).mp (always plain showing _ distinct)
    (bare 7 1) (List.mem_singleton_self _) rfl
  cases congrArg Node.ref same.1

end NetGraphz.PanelUpdates
