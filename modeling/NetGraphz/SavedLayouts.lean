import NetGraphz.PositionProofs

/-! A layout from one page to the next: nobody else's requests touch it, and the
nodes are drawn again where they were when it was saved. -/
namespace NetGraphz.SavedLayouts
open UserStore Auth Documents ParseInt UserPositions PositionProofs

variable {F : Type u} [Zero F] {emailValid : String → Bool} {packages : Packages}

/-! ## Other users -/

/-- No answer so far says that a request of the user succeeded. -/
def Silent (packages : Packages) (uid : String) (server : Server F) : Prop :=
  ∀ answer ∈ server.answers, answer.2 = done → uidOf packages answer.1 ≠ some uid

omit [Zero F] in
theorem silent_of_concat {uid : String} {store : Store F} {waiting : List (Waiting F)}
    {answers : List (Request F × Response)} {answer : Request F × Response}
    (silent : Silent packages uid ⟨store, waiting, answers ++ [answer]⟩) :
    (∀ earlier ∈ answers, earlier.2 = done → uidOf packages earlier.1 ≠ some uid) ∧
      (answer.2 = done → uidOf packages answer.1 ≠ some uid) :=
  ⟨fun earlier held => silent earlier (List.mem_append_left _ held),
    silent answer (List.mem_append_right _ (List.mem_singleton_self answer))⟩

theorem untouched_step {users : Nat → String} {uid : String} {server : Server F}
    {documents : List (UserNodes F)} (owned : Owned packages users server)
    (before : Silent packages uid server → documentsOf server.store uid = documents)
    (event : Event F emailValid) (silent : Silent packages uid (step packages server event)) :
    documentsOf (step packages server event).store uid = documents := by
  rcases step_cases packages server event with
    ⟨accounts, request, response, -, -, next⟩ | ⟨accounts, request, u_nodes, -, -, next⟩ |
    ⟨index, waiting, found, next⟩ | ⟨index, waiting, response, -, -, next⟩ | next <;>
    rw [next] at silent ⊢
  · exact before (silent_of_concat silent).1
  · exact before silent
  · obtain ⟨earlier, last⟩ := silent_of_concat silent
    have held := List.mem_of_getElem? found
    have other : waiting.u_nodes.uid ≠ uid := by
      rintro rfl
      exact last rfl (owned.signed waiting held)
    exact (written_other owned.stored (owned.waiting waiting held) other).trans (before earlier)
  · exact before (silent_of_concat silent).1
  · exact before silent

/-- In every run, however requests overlap, a user's documents stay as they are until a
request of that user is answered with success. -/
theorem documents_untouched (packages : Packages) (uid : String) (store : Store F)
    (events : List (Event F emailValid))
    (silent : Silent packages uid (after (step packages) { store := store } events)) :
    documentsOf (after (step packages) { store := store } events).store uid =
      documentsOf store uid := by
  revert silent
  refine history_induction (fun past =>
    Silent packages uid (after (step packages) { store := store } past) →
      documentsOf (after (step packages) { store := store } past).store uid =
        documentsOf store uid) (fun _ => rfl) ?_ events
  intro past event before silent
  obtain ⟨users, owned⟩ := owned_after packages store past
  rw [after_concat] at silent ⊢
  exact untouched_step owned before event silent

/-- What one user does is not seen by another, also when that user saves twice at once. -/
theorem overlapping_saves_elsewhere :
    let events : List (Event Int fun _ => true) :=
      [.arrives accounts (saving "b" []), .arrives accounts (saving "b" []), .writes 0 true,
        .writes 0 true]
    documentsOf (after (step plainPackages) { store := noLayouts } events).store "a" =
      documentsOf noLayouts "a" := by
  refine documents_untouched plainPackages "a" noLayouts _ ?_
  have answers : (after (step plainPackages) { store := noLayouts }
      [.arrives accounts (saving "b" []), .arrives accounts (saving "b" []), .writes 0 true,
        .writes 0 true]).answers = [(saving "b" [], done), (saving "b" [], done)] := rfl
  intro answer held _
  rw [answers] at held
  simp only [List.mem_cons, List.not_mem_nil, or_false, or_self] at held
  subst held
  simp [uidOf, saving, getUserId, plainPackages]

/-! ## Drawing a saved layout -/

/-- The nodes of a graph, by their numbers, and where they were moved to. -/
def drawnAt (moved : List (Int × F × F)) : List (DrawnNode F) :=
  moved.map fun place => ⟨drawnId place.1, place.2.1, place.2.2⟩

omit [Zero F] in
theorem dumpNodesPositions_drawnAt (moved : List (Int × F × F)) :
    dumpNodesPositions (drawnAt moved) =
      moved.map fun place => ⟨some place.1, some place.2.1, some place.2.2⟩ := by
  simp only [dumpNodesPositions, drawnAt, List.map_map]
  apply List.map_congr_left
  intro place _
  simp only [Function.comp_apply, drawnId, List.drop_succ_cons, List.drop_zero, parseInt_toString]

/-- A dump of different nodes puts each where it was. -/
theorem overwrite_dump (layout : Layout F) {moved : List (Int × F × F)}
    (distinct : (moved.map Prod.fst).Nodup) {id : Int} {x y : F} (place : (id, x, y) ∈ moved) :
    overwrite layout (dumpNodesPositions (drawnAt moved)) id = some ⟨x, y, id⟩ := by
  have positions : (dumpNodesPositions (drawnAt moved)).map Entry.position =
      moved.map fun place => ⟨place.2.1, place.2.2, place.1⟩ := by
    rw [dumpNodesPositions_drawnAt, List.map_map]
    rfl
  have apart : ((moved.map fun place => (⟨place.2.1, place.2.2, place.1⟩ : NodePosition F)).reverse.map
      NodePosition.node_id).Nodup := by
    rw [List.map_reverse, List.nodup_reverse, List.map_map]
    exact distinct
  have held : (⟨x, y, id⟩ : NodePosition F) ∈
      (moved.map fun place => (⟨place.2.1, place.2.2, place.1⟩ : NodePosition F)).reverse :=
    List.mem_reverse.mpr (List.mem_map.mpr ⟨_, place, rfl⟩)
  unfold overwrite
  rw [positions, Keyed.find_of_mem apart held]
  rfl

/-- Answers without a success of the user leave the user's layout. -/
theorem foldl_answered_silent {uid : String} {layouts : String → Option (Layout F)}
    {answers : List (Request F × Response)}
    (silent : ∀ answer ∈ answers, answer.2 = done → uidOf packages answer.1 ≠ some uid) :
    answers.foldl (answered packages) layouts uid = layouts uid := by
  induction answers generalizing layouts with
  | nil => rfl
  | cons answer rest ih =>
    rw [List.foldl_cons, ih fun later held => silent later (List.mem_cons_of_mem answer held)]
    exact answered_other (silent answer List.mem_cons_self)

omit [Zero F] in
/-- A page with a stored layout, node by node. -/
theorem appendUserPositions_getElem? {ν : Type v} {store : Store F} {session : Option Identity}
    {uid : String} {layout : Layout F} {nodes : List (Node ν F)} {node : Node ν F} {i : Nat}
    {pos : NodePosition F} (isUser : session.bind (getUserId packages) = some uid)
    (stored : layoutOf store uid = some layout) (shown : nodes[i]? = some node)
    (placed : layout node.id = some pos) :
    (appendUserPositions packages store session nodes)[i]? =
      some { node with x := some pos.x, y := some pos.y } := by
  obtain ⟨u_nodes, found, rfl⟩ := Option.map_eq_some_iff.mp stored
  have saved : (u_nodes.positions.getD []).lookup node.id = some pos := placed
  simp only [appendUserPositions, isUser, found, List.getElem?_map, shown, Option.map_some, saved]

/-- The nodes of an answer as its JSON gives them to the page. `json_encode` keeps so many
digits of a coordinate. -/
def carried {ν : Type v} (carry : F → F) (nodes : List (Node ν F)) : List (Node ν F) :=
  nodes.map fun node => { node with x := node.x.map carry, y := node.y.map carry }

/-- Where a user's own requests do not overlap: after the user's layout has been saved, and
while none of the user's later requests has succeeded, every page of that user draws the
saved nodes where they were, as far as JSON keeps the coordinates, and the user is told
that there is a layout. Other users' requests may come at any time. -/
theorem saved_layout_is_drawn {ν : Type v} {π : Type w} (packages : Packages) (uid : String)
    (store : Store F) (events : List (Event F emailValid))
    (single : (documentsOf store uid).length ≤ 1) (alone : Alone packages uid store events)
    {before rest : List (Request F × Response)} {time : Int} {signedIn : Option Identity}
    {moved : List (Int × F × F)} (isUser : signedIn.bind (getUserId packages) = some uid)
    (answers : (after (step packages) { store := store } events).answers =
      before ++ (⟨signedIn, .savePositions time (some (dumpNodesPositions (drawnAt moved)))⟩, done) ::
        rest)
    (distinct : (moved.map Prod.fst).Nodup)
    (silent : ∀ answer ∈ rest, answer.2 = done → uidOf packages answer.1 ≠ some uid) :
    let server := after (step packages) { store := store } events
    (∀ identity, getUserId packages identity = some uid →
      ∀ (users : Collection emailValid) (paramsOf : Users → Option (List π)),
        ∃ params, getUserParametersAction packages users paramsOf server.store (some identity) =
          .ok ⟨true, true, params, false, none⟩) ∧
      ∀ (session : Option Identity) (nodes : List (Node ν F)) (carry : F → F)
        (circle : Nat → F × F) (i : Nat) (node : Node ν F) (x y : F),
        session.bind (getUserId packages) = some uid →
        nodes[i]? = some node → (node.id, x, y) ∈ moved →
        let answer := appendUserPositions packages server.store session nodes
        (renderNodes circle (carried carry answer))[i]? =
          some ⟨drawnId node.id, carry x, carry y⟩ := by
  have heard := (layout_follows_answers packages uid store events single alone).2
  have own : uidOf packages (⟨signedIn, .savePositions time
      (some (dumpNodesPositions (drawnAt moved)))⟩ : UserPositions.Request F) = some uid := isUser
  dsimp only at heard ⊢
  rw [answers, List.foldl_append, List.foldl_cons, foldl_answered_silent silent,
    answered_done own, effect] at heard
  constructor
  · intro identity isId users paramsOf
    obtain ⟨u_nodes, found, -⟩ := Option.map_eq_some_iff.mp heard
    refine ⟨((users.findById uid).bind paramsOf).getD [], ?_⟩
    simp only [getUserParametersAction, isId, found, Option.isSome_some]
  · intro session nodes carry circle i node x y own shown place
    have drawn := appendUserPositions_getElem? own heard shown (overwrite_dump _ distinct place)
    simp [renderNodes, carried, List.getElem?_mapIdx, drawn]

/-- A page of two nodes, of which one was moved to (2, 3). -/
theorem moved_node_is_drawn :
    let events : List (Event Int fun _ => true) :=
      [.arrives accounts (saving "a" (dumpNodesPositions (drawnAt [(1, 2, 3)]))), .writes 0 true]
    let server := after (step plainPackages) { store := noLayouts } events
    (∀ identity, getUserId plainPackages identity = some "a" →
      ∀ (users : Collection fun _ => true) (paramsOf : Users → Option (List Unit)),
        ∃ params, getUserParametersAction plainPackages users paramsOf server.store
            (some identity) = .ok ⟨true, true, params, false, none⟩) ∧
      ∀ (session : Option Identity) (nodes : List (Node Unit Int)) (carry : Int → Int)
        (circle : Nat → Int × Int) (i : Nat) (node : Node Unit Int) (x y : Int),
        session.bind (getUserId plainPackages) = some "a" → nodes[i]? = some node →
        (node.id, x, y) ∈ [((1 : Int), (2 : Int), (3 : Int))] →
        let answer := appendUserPositions plainPackages server.store session nodes
        (renderNodes circle (carried carry answer))[i]? =
          some ⟨drawnId node.id, carry x, carry y⟩ := by
  have answers : (after (step plainPackages) { store := noLayouts }
      [.arrives accounts (saving "a" (dumpNodesPositions (drawnAt [(1, 2, 3)]))),
        .writes 0 true]).answers =
      [] ++ (⟨some ⟨"a", ""⟩, .savePositions 0 (some (dumpNodesPositions (drawnAt [(1, 2, 3)])))⟩,
        done) :: [] := rfl
  refine saved_layout_is_drawn plainPackages "a" noLayouts _ (Nat.zero_le 1) ?_ rfl answers
    (List.nodup_singleton _) (by simp)
  intro past event within
  rcases past with _ | ⟨first, past⟩
  · obtain ⟨rfl, _⟩ := List.cons_prefix_cons.mp within
    intro _ waiting held
    cases held
  · obtain ⟨_, rest⟩ := List.cons_prefix_cons.mp within
    have write : event ∈ [Event.writes 0 true] :=
      rest.subset (List.mem_append_right past (List.mem_singleton_self event))
    cases List.mem_singleton.mp write
    trivial

end NetGraphz.SavedLayouts
