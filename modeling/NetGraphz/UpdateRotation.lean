import NetGraphz.ClientUpdaterProofs

/-! A rotation of the updater while nodes come and go: the cursor only moves
forward, so that no node is passed twice, and it passes over no node that is
there all along. -/
namespace NetGraphz.UpdateRotation
open GraphStorage NodeParts ClientUpdater ClientUpdaterProofs

/-- A graph with ids from one up to what 32 bits hold. -/
structure NumberedGraph extends Graph where
  numbered : ∀ node ∈ nodes, 1 ≤ storedId node ∧ storedId node < 2 ^ 31

/-- The ways a fetch can fail. -/
inductive Failure where
  | object
  | unreadable
  | networkFailure

def Failure.response : Failure → Response
  | .object => .object
  | .unreadable => .unreadable
  | .networkFailure => .networkFailure

/-- An updater in a rotation, the graph as it is, and what the fetch in flight
will bring, once its query has been run. -/
structure World where
  updater : Updater
  graph : NumberedGraph
  served : Option (List Host) := none

/-- What happens during a rotation: nodes are inserted or deleted, the timeout
fires, the query of a fetch is run, and its part arrives, or the fetch fails. -/
inductive Turn where
  | change (graph : NumberedGraph)
  | fire (now : Int)
  | serve
  | deliver (now : Int) (throws : Bool)
  | fail (now : Int) (failure : Failure)

/-- The rotation is over when the updater waits for the next one. -/
def World.ended (world : World) : Bool :=
  world.updater.timeouts.any fun timeout => timeout.callback = .updateCallback

def turn (settings : Settings) (world : World) (event : Turn) : World :=
  if world.ended then world
  else
    match event with
    | .change graph => { world with graph := graph }
    | .fire now => { world with updater := step settings world.updater (.fire 0 now) }
    | .serve =>
      match world.updater.fetches, world.served with
      | lastId :: _, none =>
        { world with served := some (part world.graph.toGraph lastId settings.partSize) }
      | _, _ => world
    | .deliver now throws =>
      match world.served with
      | none => world
      | some nodes =>
        { world with
          updater := step settings world.updater (.respond 0 now (.part nodes throws))
          served := none }
    | .fail now failure =>
      { world with
        updater := step settings world.updater (.respond 0 now failure.response)
        served := none }

/-- The updater is about to ask for the first part of a rotation. -/
structure Begins (updater : Updater) : Prop where
  armed : ∃ handle wait, updater.timeouts = [⟨handle, .updatePartStart, wait⟩]
  noFetches : updater.fetches = []
  fromStart : updater.lastId = 0

/-- The world in which a rotation begins; what is passed is counted from here. -/
def beginning (updater : Updater) (graph : NumberedGraph) : World where
  updater := { updater with passed := [] }
  graph := graph

/-- A rotation, as far as it has gone. -/
def rotation (settings : Settings) (updater : Updater) (graph : NumberedGraph)
    (history : List Turn) : World :=
  after (turn settings) (beginning updater graph) history

/-- The ids passed to `updateNodes`. -/
def World.passedIds (world : World) : List Int := world.updater.passed.flatten.map shownId

/-- The part brings all that was asked for. -/
def WholePart (settings : Settings) (world : World) : Prop :=
  world.ended = false → ∀ lastId ∈ world.updater.fetches,
    part world.graph.toGraph lastId settings.partSize =
      Paging.page storedId world.graph.nodes lastId settings.partSize.size

/-- Some node of the graph has this id. -/
def Exists (graph : NumberedGraph) (id : Int) : Prop := ∃ node ∈ graph.nodes, storedId node = id

/-- A node with this id exists from the beginning to the end. -/
def ExistsThroughout (graph : NumberedGraph) (history : List Turn) (id : Int) : Prop :=
  Exists graph id ∧ ∀ changed, Turn.change changed ∈ history → Exists changed id

/-- When the global timeout of a waiting chain fires, a rotation begins. -/
theorem begins_after_waiting (settings : Settings) (now : Int)
    (armed : updater.timeouts = [⟨handle, .updateCallback, wait⟩])
    (noFetches : updater.fetches = []) (fromStart : updater.lastId = 0) :
    Begins (step settings updater (.fire 0 now)) := by
  simp only [step, armed, List.getElem?_cons_zero, List.eraseIdx_cons_zero]
  exact ⟨⟨updater.nextHandle, settings.partInterval, by
    simp [updateCallback, Updater.armPart, Updater.setTimeout]⟩, noFetches, fromStart⟩

/-- All nodes whose ids last and are not beyond the cursor have been passed. -/
def Covers (lasting : Int → Prop) (delivered : List Host) (cursor : Int) : Prop :=
  ∀ id, lasting id → id ≤ cursor → ∃ node ∈ delivered, storedId node = id

/-- The account of a scan: its cursor, and what has been passed up to it. -/
structure Account (lasting : Int → Prop) (lastId : Int) (passed : List (List Host)) : Prop where
  low : 0 ≤ lastId
  high : lastId < 2 ^ 31
  scanned : Paging.Scanned storedId lastId passed.flatten
  shown : ∀ node ∈ passed.flatten, shownId node = storedId node
  covers : Covers lasting passed.flatten lastId

/-- A rotation that goes on: one timeout or one fetch, and an account of what
has been passed. -/
structure Scanning (settings : Settings) (lasting : Int → Prop) (world : World) : Prop where
  phase : (∃ handle wait, world.updater.timeouts = [⟨handle, .updatePartStart, wait⟩] ∧
      world.updater.fetches = [] ∧ world.served = none) ∨
    (world.updater.timeouts = [] ∧ world.updater.fetches = [world.updater.lastId])
  account : Account lasting world.updater.lastId world.updater.passed
  present : ∀ id, lasting id → Exists world.graph id
  page : ∀ nodes, world.served = some nodes → ∃ graph : NumberedGraph,
    (∀ id, lasting id → Exists graph id) ∧
      nodes = Paging.page storedId graph.nodes world.updater.lastId settings.partSize.size

/-- A rotation that is over has passed nothing twice, and all that lasts. -/
structure Complete (lasting : Int → Prop) (world : World) : Prop where
  ended : world.ended = true
  ordered : world.updater.passed.flatten.Pairwise fun node other => storedId node < storedId other
  shown : ∀ node ∈ world.updater.passed.flatten, shownId node = storedId node
  covers : ∀ id, lasting id → ∃ node ∈ world.updater.passed.flatten, storedId node = id

theorem shown_of_numbered (graph : NumberedGraph) (member : node ∈ graph.nodes) :
    shownId node = storedId node := by
  obtain ⟨low, high⟩ := graph.numbered node member
  refine shownId_eq (Int64.le_iff_toInt_le.mpr ?_) high
  unfold storedId at low
  rw [Int64.toInt_zero]
  omega

theorem passPart_passed (updater : Updater) (nodes : List Host) :
    (passPart updater nodes).passed.flatten = updater.passed.flatten ++ nodes := by
  unfold passPart
  split
  · rename_i none
    simp [List.getLast?_eq_none_iff.mp none]
  · simp

theorem shown_append (graph : NumberedGraph) (shown : ∀ node ∈ delivered, shownId node = storedId node)
    (lastId : Int) (size : Nat) :
    ∀ node ∈ delivered ++ Paging.page storedId graph.nodes lastId size,
      shownId node = storedId node := by
  intro node listed
  rcases List.mem_append.mp listed with before | given
  · exact shown node before
  · exact shown_of_numbered graph (Paging.mem_of_mem_page given).1

/-- Passing a page keeps the account: it ends at the last node of the page. -/
theorem passPart_account (graph : NumberedGraph) (present : ∀ id, lasting id → Exists graph id)
    (size : Nat) (account : Account lasting updater.lastId updater.passed) :
    let next := passPart updater (Paging.page storedId graph.nodes updater.lastId size)
    Account lasting next.lastId next.passed := by
  have distinct := storedId_distinct graph.toGraph
  intro next
  have passed : next.passed.flatten =
      updater.passed.flatten ++ Paging.page storedId graph.nodes updater.lastId size :=
    passPart_passed updater _
  cases isLast : (Paging.page storedId graph.nodes updater.lastId size).getLast? with
  | none =>
    have same : next = updater := by
      show passPart updater _ = updater
      simp [passPart, isLast]
    rw [same]
    exact account
  | some last =>
    obtain ⟨member, later⟩ := Paging.mem_of_mem_page (List.mem_of_getLast? isLast)
    have cursor : next.lastId = storedId last := by
      show (passPart updater _).lastId = storedId last
      simp only [passPart, isLast, shown_of_numbered graph member]
      exact max_eq_right (le_of_lt later)
    obtain ⟨low, high⟩ := graph.numbered last member
    rw [cursor]
    refine ⟨by omega, high, ?_, ?_, ?_⟩
    · rw [passed]
      exact account.scanned.deliver distinct isLast
    · rw [passed]
      exact shown_append graph account.shown _ _
    · intro id lasts within
      rw [passed]
      by_cases before : id ≤ updater.lastId
      · obtain ⟨node, given, same⟩ := account.covers id lasts before
        exact ⟨node, List.mem_append_left _ given, same⟩
      · obtain ⟨node, stored, same⟩ := present id lasts
        have listed := Paging.mem_page_of_le distinct isLast stored (by omega) (by omega)
        exact ⟨node, List.mem_append_right _ listed, same⟩

/-- A short page has the rest of what lasts. -/
theorem short_covers (graph : NumberedGraph) (present : ∀ id, lasting id → Exists graph id)
    (account : Account lasting lastId passed)
    (short : (Paging.page storedId graph.nodes lastId size).length < size) :
    ∀ id, lasting id → ∃ node ∈ passed.flatten ++ Paging.page storedId graph.nodes lastId size,
      storedId node = id := by
  intro id lasts
  by_cases before : id ≤ lastId
  · obtain ⟨node, given, same⟩ := account.covers id lasts before
    exact ⟨node, List.mem_append_left _ given, same⟩
  · obtain ⟨node, stored, same⟩ := present id lasts
    rw [Paging.page_eq_of_short short]
    have listed : node ∈ Paging.ascending storedId graph.nodes lastId :=
      Paging.mem_ascending.mpr ⟨stored, by omega⟩
    exact ⟨node, List.mem_append_right _ listed, same⟩

/-- Where a rotation is. -/
def Rotating (settings : Settings) (lasting : Int → Prop) (world : World) : Prop :=
  Scanning settings lasting world ∨ Complete lasting world

theorem Scanning.not_ended (scanning : Scanning settings lasting world) : world.ended = false := by
  unfold World.ended
  rcases scanning.phase with ⟨handle, wait, armed, _, _⟩ | ⟨noTimeouts, _⟩
  · simp [armed]
  · simp [noTimeouts]

/-- The account of an updater with one part timer armed is one of a rotation that
goes on. -/
theorem scanning_between {updater : Updater} {graph : NumberedGraph}
    (armed : ∃ handle wait, updater.timeouts = [⟨handle, .updatePartStart, wait⟩])
    (noFetches : updater.fetches = []) (account : Account lasting updater.lastId updater.passed)
    (present : ∀ id, lasting id → Exists graph id) :
    Scanning settings lasting { updater := updater, graph := graph, served := none } := by
  obtain ⟨handle, wait, timeouts⟩ := armed
  exact ⟨Or.inl ⟨handle, wait, timeouts, noFetches, rfl⟩, account, present,
    fun nodes served => by cases served⟩

theorem armPart_armed {updater : Updater} (noTimeouts : updater.timeouts = []) (wait : Int) :
    ∃ handle wait', (updater.armPart wait).timeouts = [⟨handle, .updatePartStart, wait'⟩] :=
  ⟨updater.nextHandle, wait, by simp [Updater.armPart, Updater.setTimeout, noTimeouts]⟩

theorem onError_armed {updater : Updater} (noTimeouts : updater.timeouts = []) :
    ∃ handle wait, (onError updater).timeouts = [⟨handle, .updatePartStart, wait⟩] := by
  unfold onError
  exact armPart_armed (by simp [Updater.clearTimeout, noTimeouts]) 35000

/-- A failed fetch is retried, and nothing else changes. -/
theorem fail_turn (now : Int) (failure : Failure) (scanning : Scanning settings lasting world) :
    Rotating settings lasting (turn settings world (.fail now failure)) := by
  left
  have account := scanning.account
  unfold turn
  rw [scanning.not_ended]
  rcases scanning.phase with ⟨handle, wait, armed, noFetches, _⟩ | ⟨noTimeouts, asked⟩
  · simp only [step, noFetches, List.getElem?_nil]
    exact scanning_between ⟨handle, wait, armed⟩ noFetches account scanning.present
  · simp only [step, asked, List.getElem?_cons_zero, List.eraseIdx_cons_zero]
    cases failure with
    | object => exact scanning_between (armPart_armed noTimeouts _) rfl account scanning.present
    | unreadable => exact scanning_between (onError_armed noTimeouts) rfl account scanning.present
    | networkFailure =>
      exact scanning_between (armPart_armed (onError_cleared noTimeouts) 35000) rfl account
        scanning.present

theorem passPart_timers (updater : Updater) (nodes : List Host) :
    (passPart updater nodes).timeouts = updater.timeouts ∧
      (passPart updater nodes).fetches = updater.fetches := by
  unfold passPart
  split
  · exact ⟨rfl, rfl⟩
  · exact ⟨rfl, rfl⟩

/-- The callback with a page, in whatever graph it was taken from: a whole page
takes the scan on, a short one ends it, and one that makes `updateNodes` throw is
passed all the same. -/
theorem onResponse_rotating {updater : Updater} (noTimeouts : updater.timeouts = [])
    (noFetches : updater.fetches = []) (account : Account lasting updater.lastId updater.passed)
    (pageGraph : NumberedGraph) (pagePresent : ∀ id, lasting id → Exists pageGraph id)
    (graph : NumberedGraph) (present : ∀ id, lasting id → Exists graph id) (now : Int)
    (throws : Bool) :
    let nodes := Paging.page storedId pageGraph.nodes updater.lastId settings.partSize.size
    Rotating settings lasting
      { updater := onResponse settings updater now (.part nodes throws)
        graph := graph
        served := none } := by
  intro nodes
  obtain ⟨timeouts, fetches⟩ := passPart_timers updater nodes
  rw [noTimeouts] at timeouts
  rw [noFetches] at fetches
  have onward := passPart_account pageGraph pagePresent settings.partSize.size account
  simp only [onResponse]
  split
  · exact Or.inl (scanning_between (onError_armed timeouts) fetches onward present)
  · simp only [onPart]
    split
    · rename_i short
      right
      refine ⟨?_, ?_, ?_, ?_⟩
      · simp [World.ended, finishRotation, Updater.armGlobal, Updater.setTimeout]
      · show (passPart updater nodes).passed.flatten.Pairwise _
        rw [passPart_passed]
        exact account.scanned.ordered_page (storedId_distinct _) _
      · show ∀ node ∈ (passPart updater nodes).passed.flatten, _
        rw [passPart_passed]
        exact shown_append pageGraph account.shown _ _
      · show ∀ id, lasting id → ∃ node ∈ (passPart updater nodes).passed.flatten, _
        rw [passPart_passed]
        exact short_covers pageGraph pagePresent account short
    · exact Or.inl (scanning_between (armPart_armed timeouts _) fetches onward present)

/-- A part that arrives is passed; a short one ends the rotation. -/
theorem deliver_turn (now : Int) (throws : Bool) (scanning : Scanning settings lasting world) :
    Rotating settings lasting (turn settings world (.deliver now throws)) := by
  unfold turn
  rw [scanning.not_ended]
  cases served : world.served with
  | none => exact Or.inl (by simpa [served] using scanning)
  | some nodes =>
    obtain ⟨pageGraph, pagePresent, isPage⟩ := scanning.page nodes served
    rcases scanning.phase with ⟨_, _, _, _, none⟩ | ⟨noTimeouts, asked⟩
    · rw [none] at served
      cases served
    · subst isPage
      simp only [Bool.false_eq_true, ↓reduceIte, step, asked, List.getElem?_cons_zero,
        List.eraseIdx_cons_zero]
      have account : Account lasting { world.updater with fetches := [] }.lastId
          { world.updater with fetches := [] }.passed := scanning.account
      have timeouts : { world.updater with fetches := [] }.timeouts = [] := noTimeouts
      exact onResponse_rotating timeouts rfl account pageGraph pagePresent world.graph
        scanning.present now throws

/-- When the timeout fires, the next part is asked for from the cursor. -/
theorem fire_turn (now : Int) (scanning : Scanning settings lasting world) :
    Rotating settings lasting (turn settings world (.fire now)) := by
  left
  unfold turn
  rw [scanning.not_ended]
  rcases scanning.phase with ⟨handle, wait, armed, noFetches, none⟩ | ⟨noTimeouts, asked⟩
  · simp only [Bool.false_eq_true, ↓reduceIte, step, armed, List.getElem?_cons_zero,
      List.eraseIdx_cons_zero]
    refine ⟨Or.inr ⟨rfl, ?_⟩, scanning.account, scanning.present, ?_⟩
    · simp [updatePartStart, noFetches]
    · intro nodes served
      rw [none] at served
      cases served
  · simp only [Bool.false_eq_true, ↓reduceIte, step, noTimeouts, List.getElem?_nil]
    exact scanning

/-- The query of a fetch is run on the graph as it is then. -/
theorem serve_turn (whole : WholePart settings world)
    (scanning : Scanning settings lasting world) :
    Rotating settings lasting (turn settings world .serve) := by
  left
  unfold turn
  rw [scanning.not_ended]
  simp only [Bool.false_eq_true, ↓reduceIte]
  split
  · rename_i lastId rest asking _
    rcases scanning.phase with ⟨_, _, _, noFetches, _⟩ | ⟨noTimeouts, asked⟩
    · rw [noFetches] at asking
      cases asking
    · rw [asked] at asking
      cases asking
      refine ⟨Or.inr ⟨noTimeouts, asked⟩, scanning.account, scanning.present, ?_⟩
      intro nodes served
      cases served
      exact ⟨world.graph, scanning.present, whole scanning.not_ended _ (by simp [asked])⟩
  · exact scanning

/-- One turn of a rotation. -/
theorem rotating_turn (event : Turn) (rotating : Rotating settings lasting world)
    (present : ∀ changed, event = .change changed → ∀ id, lasting id → Exists changed id)
    (whole : event = .serve → WholePart settings world) :
    Rotating settings lasting (turn settings world event) := by
  rcases rotating with scanning | complete
  · cases event with
    | change graph =>
      left
      unfold turn
      rw [scanning.not_ended]
      exact ⟨scanning.phase, scanning.account, present graph rfl, scanning.page⟩
    | fire now => exact fire_turn now scanning
    | serve => exact serve_turn (whole rfl) scanning
    | deliver now throws => exact deliver_turn now throws scanning
    | fail now failure => exact fail_turn now failure scanning
  · right
    unfold turn
    rw [complete.ended]
    exact complete

/-- A rotation as it begins. -/
theorem rotating_beginning (begins : Begins updater) (graph : NumberedGraph)
    (present : ∀ id, lasting id → Exists graph id)
    (numbered : ∀ id, lasting id → 1 ≤ id) :
    Rotating settings lasting (beginning updater graph) := by
  left
  refine scanning_between begins.armed begins.noFetches ?_ present
  rw [begins.fromStart]
  refine ⟨le_refl _, by decide, ⟨List.Pairwise.nil, by simp⟩, by simp, ?_⟩
  intro id lasts within
  have positive := numbered id lasts
  omega

/-- Every query of the rotation brings all that was asked for. -/
def WholeParts (settings : Settings) (updater : Updater) (graph : NumberedGraph)
    (history : List Turn) : Prop :=
  ∀ past, past ++ [.serve] <+: history → WholePart settings (rotation settings updater graph past)

theorem rotating_after (begins : Begins updater) (graph : NumberedGraph) (history : List Turn)
    (whole : WholeParts settings updater graph history)
    (lasts : ∀ id, lasting id → ExistsThroughout graph history id) :
    Rotating settings lasting (rotation settings updater graph history) := by
  have numbered : ∀ id, lasting id → 1 ≤ id := by
    intro id isLasting
    obtain ⟨node, stored, same⟩ := (lasts id isLasting).1
    rw [← same]
    exact (graph.numbered node stored).1
  refine prefix_induction (fun past => Rotating settings lasting (rotation settings updater graph past))
    (rotating_beginning begins graph (fun id isLasting => (lasts id isLasting).1) numbered)
    ?_ history (List.prefix_refl _)
  intro past event within rotating
  unfold rotation at rotating ⊢
  rw [after_concat]
  refine rotating_turn event rotating ?_ ?_
  · rintro changed rfl id isLasting
    exact (lasts id isLasting).2 changed (within.subset (by simp))
  · rintro rfl
    exact whole past within

/-- A part size that arrives brings all that was asked for. -/
theorem wholePart_of_fits (fits : settings.partSize.size < 2 ^ 31)
    (rotating : Rotating settings lasting world) : WholePart settings world := by
  have carried := settings.partSize.carried fits
  have limit : settings.partSize.limit.toInt.toNat = settings.partSize.size := by omega
  intro notEnded lastId asking
  rcases rotating with scanning | complete
  · rcases scanning.phase with ⟨_, _, _, noFetches, _⟩ | ⟨_, asked⟩
    · rw [noFetches] at asking
      cases asking
    · rw [asked] at asking
      rw [List.mem_singleton.mp asking, part_eq_page _ _ scanning.account.low
        scanning.account.high, limit]
  · rw [complete.ended] at notEnded
    cases notEnded

theorem wholeParts_of_fits (fits : settings.partSize.size < 2 ^ 31) (begins : Begins updater)
    (graph : NumberedGraph) (history : List Turn) : WholeParts settings updater graph history := by
  have rotating : ∀ past, Rotating settings (fun _ => False) (rotation settings updater graph past) :=
    after_invariant (turn settings) (Rotating settings fun _ => False)
      (rotating_beginning begins graph (fun _ lasts => lasts.elim) fun _ lasts => lasts.elim)
      fun _ event rotating => rotating_turn event rotating (fun _ _ _ lasts => lasts.elim)
        fun _ => wholePart_of_fits fits rotating
  intro past _
  exact wholePart_of_fits fits (rotating past)

theorem Rotating.passed_distinct (rotating : Rotating settings lasting world) :
    world.passedIds = world.updater.passed.flatten.map storedId ∧ world.passedIds.Nodup := by
  have shownOrdered : (∀ node ∈ world.updater.passed.flatten, shownId node = storedId node) ∧
      world.updater.passed.flatten.Pairwise fun node other => storedId node < storedId other := by
    rcases rotating with scanning | complete
    · exact ⟨scanning.account.shown, scanning.account.scanned.ordered⟩
    · exact ⟨complete.shown, complete.ordered⟩
  have same : world.passedIds = world.updater.passed.flatten.map storedId :=
    List.map_congr_left shownOrdered.1
  refine ⟨same, ?_⟩
  rw [same]
  exact List.pairwise_map.mpr (shownOrdered.2.imp fun below => ne_of_lt below)

/-- In a rotation, as the global timeout begins it (`begins_after_waiting`), no id is
passed twice, and when it is over, every id that has been there all along has
been passed exactly once. -/
theorem passed_once (settings : Settings) (updater : Updater) (begins : Begins updater)
    (graph : NumberedGraph) (history : List Turn)
    (whole : WholeParts settings updater graph history) :
    let world := rotation settings updater graph history
    world.passedIds.Nodup ∧
      (world.ended = true → ∀ id, ExistsThroughout graph history id →
        world.passedIds.count id = 1) := by
  intro world
  have rotating : Rotating settings (ExistsThroughout graph history) world :=
    rotating_after begins graph history whole fun _ throughout => throughout
  obtain ⟨same, distinct⟩ := rotating.passed_distinct
  refine ⟨distinct, fun ended id throughout => ?_⟩
  rcases rotating with scanning | complete
  · rw [scanning.not_ended] at ended
    cases ended
  · obtain ⟨node, passed, isNode⟩ := complete.covers id throughout
    have listed : id ∈ world.passedIds := by
      rw [same, ← isNode]
      exact List.mem_map_of_mem passed
    exact List.count_eq_one_of_mem distinct listed

/-- The updater when its first rotation begins. -/
def firstRotation : Updater := updaterAfter defaultSettings [.start, .fire 0 30000]

/-- Three nodes; a fetch fails, a node goes and another comes. -/
def threeNodes : NumberedGraph where
  nodes := [{ id := 7 }, { id := 1 }, { id := 3 }]
  distinct := by decide
  numbered := by decide

def laterNodes : NumberedGraph where
  nodes := [{ id := 4 }, { id := 7 }, { id := 1 }]
  distinct := by decide
  numbered := by decide

def exampleRotation : List Turn :=
  [.fire 31200, .fail 31300 .networkFailure, .change laterNodes, .fire 66300, .serve,
    .deliver 66400 false]

example : (rotation defaultSettings firstRotation threeNodes exampleRotation).passedIds =
    [1, 4, 7] := by decide

/-- Such a rotation comes to its end, and what stays is passed once in it. -/
theorem example_rotation_passes_once :
    let world := rotation defaultSettings firstRotation threeNodes exampleRotation
    world.ended = true ∧ world.passedIds.Nodup ∧
      ∀ id, ExistsThroughout threeNodes exampleRotation id → world.passedIds.count id = 1 := by
  intro world
  have begins : Begins firstRotation :=
    @begins_after_waiting (updaterAfter defaultSettings [.start]) _ _ defaultSettings 30000 rfl rfl rfl
  have ended : world.ended = true := by decide
  obtain ⟨distinct, once⟩ := passed_once defaultSettings firstRotation begins threeNodes
    exampleRotation (wholeParts_of_fits (by decide) begins threeNodes exampleRotation)
  exact ⟨ended, distinct, once ended⟩

end NetGraphz.UpdateRotation
