import NetGraphz.StartCounts

/-! What the page starts with. While the network fails no request for a part,
the page does what the loader does alone: it starts once at most, with all that
the loader has taken, the user's parameters and the links. -/
namespace NetGraphz.SingleStart
open GraphStorage NodeParts InitialLoad PageStart StartCounts

variable {π lam : Type} {page : Page π lam} {graph : Graph} {settings : Settings}

/-- A part is not failed, and what is read of it is what the graph has. -/
structure Served (graph : Graph) (settings : Settings) (page : Page π lam) (event : Event π lam) :
    Prop where
  notFailed : failsPart page event = false
  nodes : ∀ i answer lastId, event = .answered i answer → page.requests[i]? = some (.part lastId) →
    answer.outcome = .read → answer.nodes = part graph lastId settings.nodePartSize

/-- So it has been all along. -/
def ServedAll (graph : Graph) (settings : Settings) (history : List (Event π lam)) : Prop :=
  ∀ past event, past ++ [event] <+: history →
    Served graph settings (pageAfter settings past) event

/-! ## Loads with errors -/

/-- A loader as it is after so many parts, however many errors came between. -/
structure Reached (graph : Graph) (settings : Settings) (loader : Loader) (parts : Nat) : Prop where
  lastId : loader.lastId = (loaded graph settings parts).lastId
  nodes : loader.nodes = (loaded graph settings parts).nodes
  complete : loader.complete = (loaded graph settings parts).complete

theorem loaded_goesOn (graph : Graph) (settings : Settings) (parts : Nat) :
    (loaded graph settings parts).loadCancel = false := by
  induction parts with
  | zero => rfl
  | succ parts ih =>
    rw [loaded_succ]
    unfold InitialLoad.fetchPart
    split
    · exact ih
    · exact ih

/-- A load that has ended stays as it is. -/
theorem loaded_of_complete (complete : (loaded graph settings parts).complete = true) (more : Nat) :
    loaded graph settings (parts + more) = loaded graph settings parts := by
  induction more with
  | zero => rfl
  | succ more ih =>
    rw [← Nat.add_assoc, loaded_succ, ih]
    simp [InitialLoad.fetchPart, complete]

theorem loaded_complete_unique (one : (loaded graph settings m).complete = true)
    (other : (loaded graph settings n).complete = true) :
    loaded graph settings m = loaded graph settings n := by
  rw [← loaded_of_complete one n, ← loaded_of_complete other m, Nat.add_comm]

/-- However the load ended, every node has been taken once. -/
theorem Reached.all_taken {graph : NeoGraph} (reached : Reached graph.toGraph settings loader parts)
    (complete : loader.complete = true) (loadable : Loadable graph.toGraph settings.nodePartSize) :
    loader.nodes.Perm graph.nodes := by
  obtain ⟨requests, ended, perm⟩ := (loaded_once_iff graph settings).mpr loadable
  rw [reached.complete] at complete
  rw [reached.nodes, loaded_complete_unique complete ended]
  exact perm

theorem Reached.onPart (reached : Reached graph settings loader parts)
    (asking : loader.complete = false) :
    Reached graph settings
      (InitialLoad.onPart settings loader (some (part graph loader.lastId settings.nodePartSize)))
      (parts + 1) := by
  have goesOn := loaded_goesOn graph settings parts
  have next : loaded graph settings (parts + 1) = InitialLoad.onPart settings
      (loaded graph settings parts) (some (part graph loader.lastId settings.nodePartSize)) := by
    rw [loaded_succ, fetchPart_asking ⟨goesOn, reached.complete.symm.trans asking⟩, reached.lastId]
  constructor <;> simp [next, InitialLoad.onPart, reached.lastId, reached.nodes]

theorem Reached.onError (reached : Reached graph settings loader parts) :
    Reached graph settings (InitialLoad.onPart settings loader none) parts :=
  ⟨reached.lastId, reached.nodes, reached.complete⟩

theorem Reached.cancel (reached : Reached graph settings loader parts) :
    Reached graph settings { loader with loadCancel := true } parts :=
  ⟨reached.lastId, reached.nodes, reached.complete⟩

/-! ## The phases of the page -/

/-- One chain of requests fetches the nodes, or has been given up. -/
structure Fetching (graph : Graph) (settings : Settings) (page : Page π lam) (parts : Nat) :
    Prop where
  level : page.fetchLevel = 2
  params : page.params.isSome
  starts : page.starts = []
  reached : Reached graph settings page.loader parts
  asking : page.loader.complete = false
  chain : (page.requests = [.part page.loader.lastId] ∧ page.timers = 0) ∨
    (page.requests = [] ∧ page.timers ≤ 1)

/-- All nodes are there, and the links may be. -/
structure Complete (graph : Graph) (settings : Settings) (page : Page π lam) : Prop where
  reached : ∃ parts, Reached graph settings page.loader parts
  complete : page.loader.complete = true
  params : page.params.isSome
  timers : page.timers = 0

inductive Phase (graph : Graph) (settings : Settings) (page : Page π lam) : Prop where
  | status (preparing : Preparing page 0 .status) (fresh : Reached graph settings page.loader 0)
  | userParameters (preparing : Preparing page 1 .userParameters)
      (fresh : Reached graph settings page.loader 0)
  | fetching (parts : Nat) (fetching : Fetching graph settings page parts)
  | linking (complete : Complete graph settings page) (level : page.fetchLevel = 3)
      (requests : page.requests = [.links] ∨ page.requests = []) (starts : page.starts = [])
  | started (complete : Complete graph settings page) (requests : page.requests = [])
      (links : page.links.isSome)
      (starts : page.starts = [⟨page.params, page.loader.nodes, page.links⟩])

theorem status_answered (page : Page π lam) (level : page.fetchLevel = 0)
    (requests : page.requests = []) (timers : page.timers = 0) (starts : page.starts = [])
    (fresh : Reached graph settings page.loader 0) (outcome : Outcome) :
    Phase graph settings (outcome.calls.foldl onStatus page) := by
  rw [foldl_calls onStatus_settled, onStatus]
  split
  · rw [updateSequence_zero level, requests]
    exact .userParameters ⟨rfl, .inl rfl, timers, starts⟩ fresh
  · exact .status ⟨level, .inr requests, timers, starts⟩ fresh.cancel

theorem userParameters_answered (page : Page π lam) (level : page.fetchLevel = 1)
    (requests : page.requests = []) (timers : page.timers = 0) (starts : page.starts = [])
    (fresh : Reached graph settings page.loader 0) (params : π) (outcome : Outcome) :
    Phase graph settings (outcome.calls.foldl (onUserParameters params) page) := by
  rw [foldl_calls (onUserParameters_settled params), onUserParameters]
  split
  · exact .userParameters ⟨level, .inr requests, timers, starts⟩ fresh
  split
  · have first : ({ page with params := some params } : Page π lam).fetchLevel = 1 := level
    rw [updateSequence_one first]
    exact .fetching 0 ⟨rfl, rfl, starts, fresh, fresh.complete, .inr ⟨requests, by simp [timers]⟩⟩
  · exact .userParameters ⟨level, .inr requests, timers, starts⟩ fresh.cancel

theorem nodes_complete (page : Page π lam) (complete : Complete graph settings page)
    (level : page.fetchLevel = 2) (requests : page.requests = []) (starts : page.starts = []) :
    Phase graph settings (updateSequence page) := by
  rw [updateSequence_two level, requests]
  exact .linking ⟨complete.reached, complete.complete, complete.params, complete.timers⟩ rfl
    (.inl rfl) starts

theorem links_complete (page : Page π lam) (complete : Complete graph settings page)
    (level : page.fetchLevel = 3) (requests : page.requests = []) (starts : page.starts = [])
    (links : page.links.isSome) : Phase graph settings (updateSequence page) := by
  rw [updateSequence_later level.ge]
  refine .started ⟨complete.reached, complete.complete, complete.params, complete.timers⟩ requests
    links ?_
  simp [startNetgraphz, starts]

theorem part_read (page : Page π lam) (fetching : Fetching graph settings page parts)
    (requests : page.requests = []) (timers : page.timers = 0) :
    Phase graph settings
      (onPart settings (part graph page.loader.lastId settings.nodePartSize) page true) := by
  have next := fetching.reached.onPart fetching.asking
  simp only [PageStart.onPart, if_true]
  split
  next short =>
    have ended := decide_eq_true short
    exact nodes_complete _ ⟨⟨_, next⟩, ended, fetching.params, timers⟩ fetching.level requests
      fetching.starts
  next whole =>
    have goesOn := decide_eq_false whole
    exact .fetching (parts + 1) ⟨fetching.level, fetching.params, fetching.starts, next, goesOn,
      .inr ⟨requests, by simp [timers]⟩⟩

theorem part_unreadable (page : Page π lam) (fetching : Fetching graph settings page parts)
    (requests : page.requests = []) (timers : page.timers = 0) (nodes : List Host) :
    Phase graph settings (onPart settings nodes page false) := by
  have next := fetching.reached.onError
  simp only [PageStart.onPart, Bool.false_eq_true, if_false]
  split
  · exact .fetching parts ⟨fetching.level, fetching.params, fetching.starts, next, fetching.asking,
      .inr ⟨requests, by simp [timers]⟩⟩
  · exact .fetching parts ⟨fetching.level, fetching.params, fetching.starts, next, fetching.asking,
      .inr ⟨requests, by simp [timers]⟩⟩

theorem links_answered (page : Page π lam) (complete : Complete graph settings page)
    (level : page.fetchLevel = 3) (requests : page.requests = []) (starts : page.starts = [])
    (links : lam) (outcome : Outcome) :
    Phase graph settings (outcome.calls.foldl (onLinks links) page) := by
  rw [foldl_calls (onLinks_settled links), onLinks]
  split
  · exact .linking complete level (.inr requests) starts
  split
  · exact links_complete _ ⟨complete.reached, complete.complete, complete.params, complete.timers⟩
      level requests starts rfl
  · obtain ⟨⟨parts, reached⟩, ended, params, timers⟩ := complete
    exact .linking ⟨⟨parts, reached.cancel⟩, ended, params, timers⟩ level (.inr requests) starts

/-! ## Every run -/

theorem phase_timer (phase : Phase graph settings page) :
    Phase graph settings (step settings page .timer) := by
  rcases phase with ⟨preparing, fresh⟩ | ⟨preparing, fresh⟩ | ⟨parts, fetching⟩ |
    ⟨complete, level, requests, starts⟩ | ⟨complete, requests, links, starts⟩
  · rw [preparing_timer preparing]
    exact .status preparing fresh
  · rw [preparing_timer preparing]
    exact .userParameters preparing fresh
  · simp only [step]
    split
    · exact .fetching parts fetching
    next ticking =>
      rcases fetching.chain with ⟨_, none⟩ | ⟨requests, few⟩
      · exact absurd none ticking
      · refine .fetching parts ⟨fetching.level, fetching.params, fetching.starts, fetching.reached,
          fetching.asking, .inl ⟨?_, ?_⟩⟩
        · simp [PageStart.fetchPart, requests]
        · simp only [PageStart.fetchPart]
          omega
  · simp only [step, complete.timers, if_true]
    exact .linking complete level requests starts
  · simp only [step, complete.timers, if_true]
    exact .started complete requests links starts

theorem phase_answered (phase : Phase graph settings page) (answer : Answer π lam)
    (served : Served graph settings page (.answered i answer)) :
    Phase graph settings (step settings page (.answered i answer)) := by
  cases asked : page.requests[i]? with
  | none =>
    simp only [step, asked]
    exact phase
  | some request =>
    simp only [step, asked]
    let left : Page π lam := { page with requests := page.requests.eraseIdx i }
    rcases phase with ⟨preparing, fresh⟩ | ⟨preparing, fresh⟩ | ⟨parts, fetching⟩ |
      ⟨complete, level, requests, starts⟩ | ⟨complete, requests, links, starts⟩
    · obtain ⟨rfl, gone⟩ := answered_alone preparing.requests asked
      exact status_answered left preparing.level gone preparing.timers preparing.starts fresh _
    · obtain ⟨rfl, gone⟩ := answered_alone preparing.requests asked
      exact userParameters_answered left preparing.level gone preparing.timers preparing.starts
        fresh _ _
    · rcases fetching.chain with ⟨one, none⟩ | ⟨requests, _⟩
      · obtain ⟨rfl, gone⟩ := answered_alone (.inl one) asked
        have rest : Fetching graph settings left parts :=
          ⟨fetching.level, fetching.params, fetching.starts, fetching.reached, fetching.asking,
            .inr ⟨gone, by simp [left, none]⟩⟩
        cases outcome : answer.outcome with
        | read =>
          have given := served.nodes i answer _ rfl asked outcome
          simp only [Outcome.calls, List.foldl_cons, List.foldl_nil, callback, given]
          exact part_read left rest gone none
        | unreadable =>
          simp only [Outcome.calls, List.foldl_cons, List.foldl_nil, callback]
          exact part_unreadable left rest gone none answer.nodes
        | failed =>
          have never := served.notFailed
          simp [failsPart, outcome, asked, isPart] at never
      · rw [requests] at asked
        cases asked
    · obtain ⟨rfl, gone⟩ := answered_alone requests asked
      have rest : Complete graph settings left :=
        ⟨complete.reached, complete.complete, complete.params, complete.timers⟩
      exact links_answered left rest level gone starts _ _
    · rw [requests] at asked
      cases asked

theorem phase_after (graph : Graph) (settings : Settings) (history : List (Event π lam))
    (served : ServedAll graph settings history) :
    Phase graph settings (pageAfter settings history) := by
  refine prefix_induction (fun past => Phase graph settings (pageAfter settings past)) ?_ ?_ history
    (List.prefix_refl history)
  · exact .status ⟨rfl, .inl rfl, rfl, rfl⟩ ⟨rfl, rfl, rfl⟩
  · intro past last within phase
    have served := served past last within
    unfold pageAfter at phase served ⊢
    rw [after_concat]
    cases last with
    | answered i answer => exact phase_answered phase answer served
    | timer => exact phase_timer phase

/-! ## The run that starts -/

theorem servedAll_concat {history : List (Event π lam)} (before : ServedAll graph settings history)
    (now : Served graph settings (pageAfter settings history) event) :
    ServedAll graph settings (history ++ [event]) := by
  intro past last within
  rcases List.prefix_concat_iff.mp within with whole | earlier
  · obtain ⟨rfl, same⟩ := List.append_inj' whole rfl
    cases same
    exact now
  · exact before past last earlier

/-- The page after a history in which the parts were served. -/
def Reachable (graph : Graph) (settings : Settings) (page : Page π lam) : Prop :=
  ∃ history, ServedAll graph settings history ∧ pageAfter settings history = page

theorem Reachable.step (reachable : Reachable graph settings page)
    (served : Served graph settings page event) :
    Reachable graph settings (step settings page event) := by
  obtain ⟨history, before, rfl⟩ := reachable
  exact ⟨history ++ [event], servedAll_concat before served, after_concat _ _ _ _⟩

/-- What is not a part is served in any way. -/
theorem served_other (other : ∀ i answer, event = .answered i answer →
    ∀ lastId, page.requests[i]? ≠ some (.part lastId)) : Served graph settings page event := by
  refine ⟨?_, fun i answer lastId answered asked => absurd asked (other i answer answered lastId)⟩
  cases event with
  | timer => rfl
  | answered i answer =>
    have different := other i answer rfl
    cases asked : page.requests[i]? with
    | none => simp [failsPart, asked]
    | some request => cases request <;> simp_all [failsPart, isPart]

/-- The next part will be fetched. -/
structure Ready (graph : Graph) (settings : Settings) (page : Page π lam) (parts : Nat) : Prop
    extends Fetching graph settings page parts where
  requests : page.requests = []
  timers : page.timers = 1
  goesOn : page.loader.loadCancel = false

/-- The links have been asked for. -/
structure Linking (page : Page π lam) : Prop where
  level : page.fetchLevel = 3
  requests : page.requests = [.links]
  goesOn : page.loader.loadCancel = false
  starts : page.starts = []

theorem ready_begin (graph : Graph) (settings : Settings) (params : π) (links : lam) :
    ∃ page : Page π lam, Reachable graph settings page ∧ Ready graph settings page 0 := by
  let answer : Answer π lam := ⟨.read, params, [], links⟩
  have loaded : Reachable graph settings (loadedPage : Page π lam) :=
    ⟨[], fun past event within => by simp at within, rfl⟩
  let second : Page π lam := step settings loadedPage (.answered 0 answer)
  have status : Served graph settings (loadedPage : Page π lam) (.answered 0 answer) :=
    served_other (by rintro _ _ ⟨⟩ _ ⟨⟩)
  have userParameters : Served graph settings second (.answered 0 answer) :=
    served_other (by rintro _ _ ⟨⟩ _ ⟨⟩)
  refine ⟨_, (loaded.step status).step userParameters, ?_⟩
  exact ⟨⟨rfl, rfl, rfl, ⟨rfl, rfl, rfl⟩, rfl, .inr ⟨rfl, le_refl _⟩⟩, rfl, rfl, rfl⟩

/-- A part is fetched and read, and if it is short the links are asked for. -/
theorem ready_onward (reachable : Reachable graph settings page)
    (ready : Ready graph settings page parts) (params : π) (links : lam) :
    ∃ next : Page π lam, Reachable graph settings next ∧
      (Ready graph settings next (parts + 1) ∨ Linking next) := by
  let asking : Page π lam := step settings page .timer
  let answer : Answer π lam :=
    ⟨.read, params, part graph page.loader.lastId settings.nodePartSize, links⟩
  have asked : asking.requests = [.part page.loader.lastId] := by
    simp [asking, step, ready.timers, PageStart.fetchPart, ready.requests]
  have timer : Served graph settings page (.timer : Event π lam) := served_other (by rintro _ _ ⟨⟩)
  have answered : Served graph settings asking (.answered 0 answer) := by
    refine ⟨by simp [failsPart, answer], ?_⟩
    rintro _ _ lastId ⟨⟩ held _
    rw [asked] at held
    cases held
    rfl
  have reached : Reachable graph settings (step settings asking (.answered 0 answer)) :=
    (reachable.step timer).step answered
  have read : step settings asking (.answered 0 answer) =
      onPart settings (part graph page.loader.lastId settings.nodePartSize)
        { page with requests := [], timers := 0 } true := by
    simp [asking, answer, step, ready.timers, PageStart.fetchPart, ready.requests, Outcome.calls,
      callback]
  have next := ready.reached.onPart ready.asking
  rw [read] at reached
  refine ⟨_, reached, ?_⟩
  simp only [PageStart.onPart, if_true]
  split
  next short =>
    rw [updateSequence_two]
    · exact .inr ⟨rfl, rfl, ready.goesOn, ready.starts⟩
    · exact ready.level
  next whole =>
    have goesOn := decide_eq_false whole
    exact .inl ⟨⟨ready.level, ready.params, ready.starts, next, goesOn, .inr ⟨rfl, le_refl _⟩⟩, rfl,
      rfl, ready.goesOn⟩

/-- Sooner or later a part is short. -/
theorem linking_reachable (graph : NeoGraph) (settings : Settings)
    (loadable : Loadable graph.toGraph settings.nodePartSize) (params : π) (links : lam) :
    ∃ page : Page π lam, Reachable graph.toGraph settings page ∧ Linking page := by
  have onward : ∀ parts, ∃ page : Page π lam, Reachable graph.toGraph settings page ∧
      (Ready graph.toGraph settings page parts ∨ Linking page) := by
    intro parts
    induction parts with
    | zero =>
      obtain ⟨page, reachable, ready⟩ := ready_begin graph.toGraph settings params links
      exact ⟨page, reachable, .inl ready⟩
    | succ parts ih =>
      obtain ⟨page, reachable, ready | linking⟩ := ih
      · exact ready_onward reachable ready params links
      · exact ⟨page, reachable, .inr linking⟩
  obtain ⟨requests, ended, _⟩ := (loaded_once_iff graph settings).mpr loadable
  obtain ⟨page, reachable, ready | linking⟩ := onward requests
  · have asking := ready.reached.complete.symm.trans ready.asking
    rw [ended] at asking
    cases asking
  · exact ⟨page, reachable, linking⟩

theorem start_reachable (graph : NeoGraph) (settings : Settings)
    (loadable : Loadable graph.toGraph settings.nodePartSize) (params : π) (links : lam) :
    ∃ page : Page π lam, Reachable graph.toGraph settings page ∧ page.starts ≠ [] := by
  obtain ⟨page, reachable, linking⟩ := linking_reachable graph settings loadable params links
  let answer : Answer π lam := ⟨.read, params, [], links⟩
  have other : Served graph.toGraph settings page (.answered 0 answer) := by
    refine served_other ?_
    rintro _ _ ⟨⟩ lastId asked
    rw [linking.requests] at asked
    cases asked
  refine ⟨_, reachable.step other, ?_⟩
  simp [step, linking.requests, answer, Outcome.calls, callback, onLinks, linking.goesOn,
    updateSequence, linking.level, startNetgraphz]

/-- **Of a loadable graph the page starts with every node once**, with the
user's parameters and with the links, and once at most, as long as the network
fails no request for a part. It can start so. -/
theorem single_start_is_whole (graph : NeoGraph) (settings : Settings)
    (loadable : Loadable graph.toGraph settings.nodePartSize) :
    (∀ history : List (Event π lam), ServedAll graph.toGraph settings history →
      (pageAfter settings history).starts.length ≤ 1 ∧
        ∀ start ∈ (pageAfter settings history).starts,
          start.params.isSome ∧ start.nodes.Perm graph.nodes ∧ start.links.isSome) ∧
    (π → lam → ∃ history : List (Event π lam), ServedAll graph.toGraph settings history ∧
      (pageAfter settings history).starts ≠ []) := by
  refine ⟨fun history served => ?_, fun params links => ?_⟩
  · rcases phase_after graph.toGraph settings history served with ⟨preparing, _⟩ | ⟨preparing, _⟩ |
      ⟨parts, fetching⟩ | ⟨_, _, _, starts⟩ | ⟨complete, _, links, starts⟩
    · simp [preparing.starts]
    · simp [preparing.starts]
    · simp [fetching.starts]
    · simp [starts]
    · obtain ⟨parts, reached⟩ := complete.reached
      rw [starts]
      refine ⟨le_refl _, fun start held => ?_⟩
      rw [List.mem_singleton.mp held]
      exact ⟨complete.params, reached.all_taken complete.complete loadable, links⟩
  · obtain ⟨_, ⟨history, served, rfl⟩, started⟩ :=
      start_reachable graph settings loadable params links
    exact ⟨history, served, started⟩

/-- A graph of one node, the second that Neo4j numbered. -/
def secondNode : NeoGraph where
  nodes := [{ id := 1 }]
  distinct := by simp
  natural := by simp

theorem secondNode_loadable : Loadable secondNode.toGraph defaultSettings.nodePartSize where
  noneAtStart := by simp [secondNode]
  sizeArrives := .inl (by simp [defaultSettings])
  endsShown := by
    intro index node ends
    have within := (List.getElem?_eq_some_iff.mp ends.1).1
    have few := reachable_length_le secondNode.toGraph
    have atLeast := Nat.le_of_dvd (Nat.succ_pos _) ends.2
    simp [secondNode, defaultSettings] at few atLeast within
    omega

/-- A page with this graph starts with its node. -/
theorem second_node_started :
    ∃ history : List (Event Nat Nat), ∃ start ∈ (pageAfter defaultSettings history).starts,
      start.nodes.Perm [{ id := 1 }] := by
  have whole := @single_start_is_whole Nat Nat secondNode defaultSettings secondNode_loadable
  obtain ⟨history, served, started⟩ := whole.2 0 0
  obtain ⟨start, held⟩ := List.exists_mem_of_ne_nil _ started
  exact ⟨history, start, held, ((whole.1 history served).2 start held).2.1⟩

end NetGraphz.SingleStart
