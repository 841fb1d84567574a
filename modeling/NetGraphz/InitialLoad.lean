import NetGraphz.Base.History
import NetGraphz.NodeParts

/-! The loader that fetches all nodes, part by part, when the page starts. -/
namespace NetGraphz.InitialLoad
open GraphStorage NodeParts

/-- The variables of the start-up script that `fetch_part` works on. `complete`
tells that it went on with `update_sequence`. -/
structure Loader where
  lastId : Int := 0
  lastRetryTime : Nat := 0
  nodes : List Host := []
  loadCancel : Bool := false
  complete : Bool := false

/-- `settings.init`, as far as parts are concerned. The retry count is read
under a name that the settings do not have; then retries do not run out. -/
structure Settings where
  nodePartSize : PartSize
  nodeRetryTimes : Option Nat := none

/-- The callback of `fetch_part`; `none` is an error. -/
def onPart (settings : Settings) (loader : Loader) : Option (List Host) → Loader
  | none =>
    let lastRetryTime := loader.lastRetryTime + 1
    { loader with
      lastRetryTime := lastRetryTime
      loadCancel := loader.loadCancel || some lastRetryTime = settings.nodeRetryTimes }
  | some pNodes =>
    { lastRetryTime := 0
      nodes := loader.nodes ++ pNodes
      lastId :=
        match pNodes.getLast? with
        | some node => max loader.lastId (shownId node)
        | none => loader.lastId
      loadCancel := loader.loadCancel
      complete := pNodes.length < settings.nodePartSize.size }

/-- `fetch_part`, from the request to the end of its callback. Once the loader
is done or has given up, no timer calls it again. -/
def fetchPart (graph : Graph) (settings : Settings) (loader : Loader) (succeeds : Bool) : Loader :=
  if loader.loadCancel || loader.complete then loader
  else
    onPart settings loader
      (if succeeds then some (part graph loader.lastId settings.nodePartSize) else none)

/-- The loader after so many requests, none of which failed. -/
def loaded (graph : Graph) (settings : Settings) (requests : Nat) : Loader :=
  after (fetchPart graph settings) {} (List.replicate requests true)

/-- The load has ended, with every node once. -/
def LoadedOnce (graph : Graph) (loader : Loader) : Prop :=
  loader.complete = true ∧ loader.nodes.Perm graph.nodes

/-- The nodes that come after the position the loader starts from. -/
def reachable (graph : Graph) : List Host := Paging.ascending storedId graph.nodes 0

/-- The node that a whole part ends with, when parts are taken one after another. -/
def EndsPart (graph : Graph) (size index : Nat) (node : Host) : Prop :=
  (reachable graph)[index]? = some node ∧ size ∣ index + 1

/-- What the loader asks of a graph and a part size: the position it starts from
is the id of no node, the part size arrives in the query, and no part ends with
an id that is shown as another one. -/
structure Loadable (graph : Graph) (parts : PartSize) : Prop where
  noneAtStart : ∀ node ∈ graph.nodes, node.id ≠ 0
  sizeArrives : parts.size < 2 ^ 31 ∨ graph.nodes.length ≤ parts.limit.toInt.toNat
  endsShown : ∀ index node, EndsPart graph parts.size index node → storedId node < 2 ^ 31

theorem loaded_succ (graph : Graph) (settings : Settings) (requests : Nat) :
    loaded graph settings (requests + 1) =
      fetchPart graph settings (loaded graph settings requests) true := by
  unfold loaded
  rw [List.replicate_succ', after_concat]

/-- Of a loader that still asks: it has taken whole parts, ending with ids that
are shown as they are, and all that it has not taken comes after its position. -/
structure Underway (graph : Graph) (parts : PartSize) (loader : Loader) : Prop where
  asking : loader.loadCancel = false ∧ loader.complete = false
  low : 0 ≤ loader.lastId
  high : loader.lastId < 2 ^ 31
  remaining : loader.nodes ++ Paging.ascending storedId graph.nodes loader.lastId = reachable graph
  wholeParts : parts.size ∣ loader.nodes.length
  endsShown : ∀ index node, index < loader.nodes.length → EndsPart graph parts.size index node →
    storedId node < 2 ^ 31

/-- The load has ended with all that is reachable, and every part it took ended
with an id that is shown as it is. -/
structure Finished (graph : Graph) (parts : PartSize) (loader : Loader) : Prop where
  ended : loader.complete = true
  taken : loader.nodes = reachable graph
  endsShown : ∀ index node, EndsPart graph parts.size index node → storedId node < 2 ^ 31

/-- The loader will be given a node that it already has, since a part ended with
an id that is shown as a smaller one. -/
structure Repeating (graph : Graph) (parts : PartSize) (loader : Loader) : Prop where
  asking : loader.loadCancel = false ∧ loader.complete = false
  again : ∃ node ∈ loader.nodes, node ∈ part graph loader.lastId parts
  endHidden : ∃ index node, EndsPart graph parts.size index node ∧ 2 ^ 31 ≤ storedId node

theorem underway_start (graph : Graph) (parts : PartSize) : Underway graph parts {} where
  asking := ⟨rfl, rfl⟩
  low := le_refl _
  high := by decide
  remaining := rfl
  wholeParts := Nat.dvd_zero _
  endsShown := by
    intro index node before
    simp at before

/-- The only whole part that ends within the next part is that part. -/
theorem next_part_end {size taken index : Nat} (whole : size ∣ taken) (ends : size ∣ index + 1)
    (notBefore : taken ≤ index) (within : index < taken + size) : index + 1 = taken + size := by
  have rest : size ∣ index + 1 - taken := Nat.dvd_sub ends whole
  have atLeast := Nat.le_of_dvd (by omega) rest
  omega

theorem fetchPart_asking (asking : loader.loadCancel = false ∧ loader.complete = false) :
    fetchPart graph settings loader true =
      onPart settings loader (some (part graph loader.lastId settings.nodePartSize)) := by
  simp [fetchPart, asking]

/-- The part an underway loader gets is the next of what it has not taken. -/
theorem part_underway (fits : parts.size < 2 ^ 31) (underway : Underway graph parts loader) :
    part graph loader.lastId parts =
      (Paging.ascending storedId graph.nodes loader.lastId).take parts.size := by
  have limit : parts.limit.toInt.toNat = parts.size := by
    have carried := parts.carried fits
    omega
  rw [part_eq_page graph parts underway.low underway.high, limit]
  rfl

/-- A short part is the rest, and the load ends. -/
theorem finished_of_short (fits : settings.nodePartSize.size < 2 ^ 31)
    (underway : Underway graph settings.nodePartSize loader)
    (short : (part graph loader.lastId settings.nodePartSize).length < settings.nodePartSize.size) :
    Finished graph settings.nodePartSize (fetchPart graph settings loader true) := by
  have given := part_underway fits underway
  have rest : part graph loader.lastId settings.nodePartSize =
      Paging.ascending storedId graph.nodes loader.lastId := by
    rw [given] at short ⊢
    exact Paging.page_eq_of_short short
  have all := underway.remaining
  rw [fetchPart_asking underway.asking]
  refine ⟨by simp [onPart, short], by simp only [onPart, rest, all], fun index node ends => ?_⟩
  by_cases before : index < loader.nodes.length
  · exact underway.endsShown index node before ends
  · have within : index < (reachable graph).length := (List.getElem?_eq_some_iff.mp ends.1).1
    rw [← all, List.length_append, ← rest] at within
    have := next_part_end underway.wholeParts ends.2 (by omega) (by omega)
    omega

/-- Where a whole part ends, in the order of all that is reachable. -/
theorem whole_part_ends (fits : parts.size < 2 ^ 31) (underway : Underway graph parts loader)
    (whole : (part graph loader.lastId parts).length = parts.size)
    (last : (part graph loader.lastId parts).getLast? = some node) :
    EndsPart graph parts.size (loader.nodes.length + parts.size - 1) node := by
  have positive := parts.positive
  have given := part_underway fits underway
  have coming := List.take_append_drop parts.size
    (Paging.ascending storedId graph.nodes loader.lastId)
  rw [← given] at coming
  refine ⟨?_, ?_⟩
  · rw [← underway.remaining, ← coming]
    rw [List.getElem?_append_right (by omega), List.getElem?_append_left (by omega)]
    rw [List.getLast?_eq_getElem?, whole] at last
    rw [← last]
    congr 1
    omega
  · have ends : loader.nodes.length + parts.size - 1 + 1 = loader.nodes.length + parts.size := by
      omega
    rw [ends]
    exact Nat.dvd_add underway.wholeParts (Nat.dvd_refl _)

/-- What remains after a whole part comes after its last node. -/
theorem remaining_after_whole (fits : parts.size < 2 ^ 31) (underway : Underway graph parts loader)
    (last : (part graph loader.lastId parts).getLast? = some node) :
    loader.nodes ++ part graph loader.lastId parts ++
      Paging.ascending storedId graph.nodes (storedId node) = reachable graph := by
  have given := part_underway fits underway
  obtain ⟨front, whole⟩ := List.getLast?_eq_some_iff.mp last
  have coming := List.take_append_drop parts.size
    (Paging.ascending storedId graph.nodes loader.lastId)
  rw [← given, whole, List.append_assoc, List.singleton_append] at coming
  rw [Paging.ascending_after (storedId_distinct graph) coming.symm, ← underway.remaining, whole]
  simpa using congrArg (loader.nodes ++ ·) coming

/-- A whole part ends with a node of the graph behind the loader's position. -/
theorem last_of_whole {graph : NeoGraph} (fits : parts.size < 2 ^ 31)
    (underway : Underway graph.toGraph parts loader)
    (whole : ¬ (part graph.toGraph loader.lastId parts).length < parts.size) :
    (part graph.toGraph loader.lastId parts).length = parts.size ∧
      ∃ last, (part graph.toGraph loader.lastId parts).getLast? = some last ∧
        last ∈ graph.nodes ∧ loader.lastId < storedId last := by
  have positive := parts.positive
  have size : (part graph.toGraph loader.lastId parts).length = parts.size := by
    have atMost := List.length_take_le parts.size
      (Paging.ascending storedId graph.nodes loader.lastId)
    rw [← part_underway fits underway] at atMost
    omega
  refine ⟨size, ?_⟩
  cases found : (part graph.toGraph loader.lastId parts).getLast? with
  | none =>
    rw [List.getLast?_eq_none_iff.mp found] at size
    simp at size
    omega
  | some last =>
    have listed := List.mem_of_getLast? found
    rw [part_eq_page _ _ underway.low underway.high] at listed
    exact ⟨last, rfl, Paging.mem_of_mem_page listed⟩

/-- A whole part whose end is shown as it is takes the loader on. -/
theorem underway_of_shown {graph : NeoGraph} (fits : settings.nodePartSize.size < 2 ^ 31)
    (underway : Underway graph.toGraph settings.nodePartSize loader)
    (size : (part graph.toGraph loader.lastId settings.nodePartSize).length =
      settings.nodePartSize.size)
    (isLast : (part graph.toGraph loader.lastId settings.nodePartSize).getLast? = some last)
    (stored : last ∈ graph.nodes) (later : loader.lastId < storedId last)
    (shown : storedId last < 2 ^ 31) :
    let next := fetchPart graph.toGraph settings loader true
    Underway graph.toGraph settings.nodePartSize next ∧
      next.nodes.length = loader.nodes.length + settings.nodePartSize.size := by
  have positive := settings.nodePartSize.positive
  have ends := whole_part_ends fits underway size isLast
  have rest := remaining_after_whole fits underway isLast
  have onward : max loader.lastId (shownId last) = storedId last := by
    rw [shownId_eq (graph.natural last stored) shown]
    exact max_eq_right (le_of_lt later)
  rw [fetchPart_asking underway.asking]
  refine ⟨?_, by simp [onPart, size]⟩
  constructor
  · exact ⟨underway.asking.1, by simp [onPart, size]⟩
  · simp only [onPart, isLast, onward]
    exact le_trans underway.low (le_of_lt later)
  · simp only [onPart, isLast, onward]
    exact shown
  · simp only [onPart, isLast, onward]
    exact rest
  · simp only [onPart, List.length_append, size]
    exact Nat.dvd_add underway.wholeParts (Nat.dvd_refl _)
  · intro index node within endsPart
    simp only [onPart, List.length_append, size] at within
    by_cases before : index < loader.nodes.length
    · exact underway.endsShown index node before endsPart
    · have same := next_part_end underway.wholeParts endsPart.2 (by omega) within
      have here : index = loader.nodes.length + settings.nodePartSize.size - 1 := by omega
      rw [here, EndsPart, ends.1] at endsPart
      cases endsPart.1
      exact shown

/-- One that ends with an id that is shown as a smaller one is asked for again. -/
theorem repeating_of_hidden {graph : NeoGraph} (fits : settings.nodePartSize.size < 2 ^ 31)
    (underway : Underway graph.toGraph settings.nodePartSize loader)
    (size : (part graph.toGraph loader.lastId settings.nodePartSize).length =
      settings.nodePartSize.size)
    (isLast : (part graph.toGraph loader.lastId settings.nodePartSize).getLast? = some last)
    (later : loader.lastId < storedId last) (hidden : 2 ^ 31 ≤ storedId last) :
    Repeating graph.toGraph settings.nodePartSize (fetchPart graph.toGraph settings loader true) := by
  have ends := whole_part_ends fits underway size isLast
  have listed := List.mem_of_getLast? isLast
  have smaller := shownId_lt_storedId hidden
  have low : 0 ≤ max loader.lastId (shownId last) := le_max_of_le_left underway.low
  have high : max loader.lastId (shownId last) < 2 ^ 31 := max_lt underway.high (shownId_lt last)
  rw [fetchPart_asking underway.asking]
  refine ⟨⟨underway.asking.1, by simp [onPart, size]⟩, ⟨last, ?_, ?_⟩, ⟨_, last, ends, hidden⟩⟩
  · exact List.mem_append_right _ listed
  · simp only [onPart, isLast]
    rw [part_eq_page _ _ low high]
    rw [part_eq_page _ _ underway.low underway.high] at listed
    exact Paging.mem_page_later (storedId_distinct _) (le_max_left _ _) (max_lt later smaller) listed

/-- A whole part takes the loader on, unless it ends with an id that is shown as
a smaller one. -/
theorem underway_of_whole {graph : NeoGraph} (fits : settings.nodePartSize.size < 2 ^ 31)
    (underway : Underway graph.toGraph settings.nodePartSize loader)
    (whole : ¬ (part graph.toGraph loader.lastId settings.nodePartSize).length <
      settings.nodePartSize.size) :
    let next := fetchPart graph.toGraph settings loader true
    (Underway graph.toGraph settings.nodePartSize next ∧
        next.nodes.length = loader.nodes.length + settings.nodePartSize.size) ∨
      Repeating graph.toGraph settings.nodePartSize next := by
  obtain ⟨size, last, isLast, stored, later⟩ := last_of_whole fits underway whole
  by_cases shown : storedId last < 2 ^ 31
  · exact Or.inl (underway_of_shown fits underway size isLast stored later shown)
  · exact Or.inr (repeating_of_hidden fits underway size isLast later (not_lt.mp shown))

/-- A node that comes twice stays twice: such a load is never right. -/
theorem repeated_stays (repeated : ¬ loader.nodes.Nodup) (succeeds : Bool) :
    ¬ (fetchPart graph settings loader succeeds).nodes.Nodup := by
  unfold fetchPart onPart
  split
  · exact repeated
  · split
    · exact repeated
    · intro distinct
      exact repeated (List.nodup_append.mp distinct).1

theorem repeated_of_repeating (repeating : Repeating graph settings.nodePartSize loader) :
    ¬ (fetchPart graph settings loader true).nodes.Nodup := by
  obtain ⟨node, held, again⟩ := repeating.again
  rw [fetchPart_asking repeating.asking]
  intro distinct
  exact (List.nodup_append.mp distinct).2.2 node held node again rfl

/-- Where a load can be after any number of requests. -/
theorem loaded_cases (graph : NeoGraph) (settings : Settings)
    (fits : settings.nodePartSize.size < 2 ^ 31) (requests : Nat) :
    let loader := loaded graph.toGraph settings requests
    Underway graph.toGraph settings.nodePartSize loader ∨
      Finished graph.toGraph settings.nodePartSize loader ∨
      Repeating graph.toGraph settings.nodePartSize loader ∨ ¬ loader.nodes.Nodup := by
  induction requests with
  | zero => exact Or.inl (underway_start _ _)
  | succ requests ih =>
    rw [loaded_succ]
    rcases ih with underway | finished | repeating | repeated
    · by_cases short : (part graph.toGraph (loaded graph.toGraph settings requests).lastId
          settings.nodePartSize).length < settings.nodePartSize.size
      · exact Or.inr (Or.inl (finished_of_short fits underway short))
      · rcases underway_of_whole fits underway short with ⟨onward, _⟩ | repeating
        · exact Or.inl onward
        · exact Or.inr (Or.inr (Or.inl repeating))
    · have still : fetchPart graph.toGraph settings (loaded graph.toGraph settings requests) true =
          loaded graph.toGraph settings requests := by
        simp [fetchPart, finished.ended]
      rw [still]
      exact Or.inr (Or.inl finished)
    · exact Or.inr (Or.inr (Or.inr (repeated_of_repeating repeating)))
    · exact Or.inr (Or.inr (Or.inr (repeated_stays repeated true)))

/-- If no part ends with an id that is shown as another one, the load ends. -/
theorem load_finishes (graph : NeoGraph) (settings : Settings)
    (fits : settings.nodePartSize.size < 2 ^ 31)
    (shown : ∀ index node, EndsPart graph.toGraph settings.nodePartSize.size index node →
      storedId node < 2 ^ 31) :
    ∃ requests, Finished graph.toGraph settings.nodePartSize
      (loaded graph.toGraph settings requests) := by
  have positive := settings.nodePartSize.positive
  -- every request takes a whole part of what remains, or ends the load
  have progress : ∀ requests,
      (∃ earlier, Finished graph.toGraph settings.nodePartSize
        (loaded graph.toGraph settings earlier)) ∨
      (Underway graph.toGraph settings.nodePartSize (loaded graph.toGraph settings requests) ∧
        requests ≤ (loaded graph.toGraph settings requests).nodes.length) := by
    intro requests
    induction requests with
    | zero => exact Or.inr ⟨underway_start _ _, Nat.zero_le _⟩
    | succ requests ih =>
      rcases ih with finished | ⟨underway, many⟩
      · exact Or.inl finished
      · by_cases short : (part graph.toGraph (loaded graph.toGraph settings requests).lastId
            settings.nodePartSize).length < settings.nodePartSize.size
        · left
          refine ⟨requests + 1, ?_⟩
          rw [loaded_succ]
          exact finished_of_short fits underway short
        · rcases underway_of_whole fits underway short with ⟨onward, more⟩ | repeating
          · right
            rw [loaded_succ]
            exact ⟨onward, by omega⟩
          · obtain ⟨index, node, ends, hidden⟩ := repeating.endHidden
            exact absurd (shown index node ends) (not_lt.mpr hidden)
  rcases progress ((reachable graph.toGraph).length + 1) with finished | ⟨underway, many⟩
  · exact finished
  · have all := congrArg List.length underway.remaining
    rw [List.length_append] at all
    omega

/-- All nodes are reachable when none has the id zero. -/
theorem reachable_perm (graph : NeoGraph) (noneAtStart : ∀ node ∈ graph.nodes, node.id ≠ 0) :
    (reachable graph.toGraph).Perm graph.nodes := by
  unfold reachable Paging.ascending
  apply (List.perm_insertionSort _ _).trans
  rw [List.filter_eq_self.mpr]
  intro node stored
  have natural := Int64.le_iff_toInt_le.mp (graph.natural node stored)
  have positive : node.id.toInt ≠ 0 := fun zero =>
    noneAtStart node stored (Int64.toInt_inj.mp (by rw [zero, Int64.toInt_zero]))
  rw [Int64.toInt_zero] at natural
  have later : 0 < storedId node := by
    unfold storedId
    omega
  simpa using later

/-- No request ever brings a node whose id is zero. -/
theorem zero_not_loaded (graph : Graph) (settings : Settings) (requests : Nat) :
    let loader := loaded graph settings requests
    (0 ≤ loader.lastId ∧ loader.lastId < 2 ^ 31) ∧ ∀ node ∈ loader.nodes, node.id ≠ 0 := by
  induction requests with
  | zero => exact ⟨by simp [loaded], by simp [loaded]⟩
  | succ requests ih =>
    obtain ⟨⟨low, high⟩, nonzero⟩ := ih
    rw [loaded_succ]
    unfold fetchPart
    split
    · exact ⟨⟨low, high⟩, nonzero⟩
    · refine ⟨?_, ?_⟩
      · simp only [onPart, ↓reduceIte]
        split
        · exact ⟨le_max_of_le_left low, max_lt high (shownId_lt _)⟩
        · exact ⟨low, high⟩
      · intro node held
        simp only [onPart, ↓reduceIte] at held
        rcases List.mem_append.mp held with before | given
        · exact nonzero node before
        · rw [part_eq_page _ _ low high] at given
          have later := (Paging.mem_of_mem_page given).2
          intro zero
          simp only [storedId, zero, Int64.toInt_zero] at later
          omega

/-- A part size that does not fit is larger than any part: the load ends with
the first one. -/
theorem loaded_of_large (graph : Graph) (large : 2 ^ 31 ≤ settings.nodePartSize.size)
    (requests : Nat) :
    let loader := loaded graph settings (requests + 1)
    loader.complete = true ∧
      loader.nodes = (reachable graph).take settings.nodePartSize.limit.toInt.toNat := by
  induction requests with
  | zero =>
    have given : part graph 0 settings.nodePartSize =
        (reachable graph).take settings.nodePartSize.limit.toInt.toNat :=
      part_eq_page _ _ (le_refl _) (by decide)
    have few := List.length_take_le settings.nodePartSize.limit.toInt.toNat (reachable graph)
    have small := Int32.toInt_lt settings.nodePartSize.limit
    have start : loaded graph settings 1 =
        onPart settings {} (some (part graph 0 settings.nodePartSize)) := by
      simp [loaded, after, fetchPart]
    rw [start, given]
    refine ⟨?_, by simp [onPart]⟩
    simp only [onPart, decide_eq_true_eq]
    omega
  | succ requests ih =>
    rw [loaded_succ]
    have still : fetchPart graph settings (loaded graph settings (requests + 1)) true =
        loaded graph settings (requests + 1) := by
      simp [fetchPart, ih.1]
    rw [still]
    exact ih

theorem reachable_length_le (graph : Graph) : (reachable graph).length ≤ graph.nodes.length := by
  unfold reachable Paging.ascending
  rw [List.length_insertionSort]
  exact List.length_filter_le _ _

/-- The load ends, with every node of the graph once, exactly when no node has
the id zero, the part size arrives, and no part ends with an id that is shown as
another one. -/
theorem loaded_once_iff (graph : NeoGraph) (settings : Settings) :
    (∃ requests, LoadedOnce graph.toGraph (loaded graph.toGraph settings requests)) ↔
      Loadable graph.toGraph settings.nodePartSize := by
  have short := reachable_length_le graph.toGraph
  have small := Int32.toInt_lt settings.nodePartSize.limit
  constructor
  · rintro ⟨requests, ended, perm⟩
    have noneAtStart : ∀ node ∈ graph.nodes, node.id ≠ 0 := fun node stored =>
      (zero_not_loaded graph.toGraph settings requests).2 node (perm.mem_iff.mpr stored)
    by_cases fits : settings.nodePartSize.size < 2 ^ 31
    · refine ⟨noneAtStart, Or.inl fits, ?_⟩
      have distinct : (loaded graph.toGraph settings requests).nodes.Nodup :=
        perm.nodup_iff.mpr (List.Nodup.of_map _ graph.distinct)
      rcases loaded_cases graph settings fits requests with
        underway | finished | repeating | repeated
      · rw [underway.asking.2] at ended
        cases ended
      · exact finished.endsShown
      · rw [repeating.asking.2] at ended
        cases ended
      · exact absurd distinct repeated
    · have large : 2 ^ 31 ≤ settings.nodePartSize.size := not_lt.mp fits
      cases requests with
      | zero => simp [loaded] at ended
      | succ requests =>
        have taken := (loaded_of_large graph.toGraph large requests).2
        rw [taken] at perm
        have all := perm.length_eq
        rw [List.length_take] at all
        refine ⟨noneAtStart, Or.inr (by omega), ?_⟩
        intro index node ends
        have within := (List.getElem?_eq_some_iff.mp ends.1).1
        have atLeast := Nat.le_of_dvd (Nat.succ_pos _) ends.2
        omega
  · rintro ⟨noneAtStart, sizeArrives, endsShown⟩
    have perm := reachable_perm graph noneAtStart
    by_cases fits : settings.nodePartSize.size < 2 ^ 31
    · obtain ⟨requests, finished⟩ := load_finishes graph settings fits endsShown
      refine ⟨requests, finished.ended, ?_⟩
      rw [finished.taken]
      exact perm
    · have large : 2 ^ 31 ≤ settings.nodePartSize.size := not_lt.mp fits
      obtain ⟨ended, taken⟩ := loaded_of_large graph.toGraph large 0
      refine ⟨1, ended, ?_⟩
      have enough : graph.nodes.length ≤ settings.nodePartSize.limit.toInt.toNat :=
        sizeArrives.resolve_left fits
      rw [taken, List.take_of_length_le (le_trans short enough)]
      exact perm

/-- A graph of one node, the first that Neo4j numbers. -/
def firstNode : NeoGraph where
  nodes := [{ id := 0 }]
  distinct := by simp
  natural := by simp

/-- The part size that the settings come with. -/
def defaultSettings : Settings where
  nodePartSize := ⟨10, by decide, 10, fun _ => by decide⟩

/-- The only node of a graph is never loaded when it is the first one. -/
theorem first_node_not_loaded :
    ¬ ∃ requests, LoadedOnce firstNode.toGraph (loaded firstNode.toGraph defaultSettings requests) := by
  rintro ⟨requests, _, perm⟩
  have held : ({ id := 0 } : Host) ∈ (loaded firstNode.toGraph defaultSettings requests).nodes :=
    perm.mem_iff.mpr (by simp [firstNode])
  exact (zero_not_loaded firstNode.toGraph defaultSettings requests).2 _ held rfl

end NetGraphz.InitialLoad
