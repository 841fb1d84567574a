import Mathlib
import NetGraphz.PageStart

/-! How often the page starts. Every request for a part that the network fails
is called back twice, and so is fetched again twice; each of these fetches goes
on by itself and ends by itself. What follows is a bound on the starts by the
number of such failures. -/
namespace NetGraphz.StartCounts
open GraphStorage NodeParts InitialLoad PageStart

variable {π lam : Type}

def isPart : Request → Bool
  | .part _ => true
  | _ => false

/-- The network fails a request for a part. -/
def failsPart (page : Page π lam) : Event π lam → Bool
  | .answered i answer => answer.outcome = .failed && (page.requests[i]?).any isPart
  | .timer => false

/-- A step that counts these failures. -/
def counting (settings : Settings) (state : Page π lam × Nat) (event : Event π lam) :
    Page π lam × Nat :=
  (step settings state.1 event, state.2 + (failsPart state.1 event).toNat)

/-- How many requests for a part the network has failed. -/
def partFailures (settings : Settings) (history : List (Event π lam)) : Nat :=
  (after (counting settings) (loadedPage, 0) history).2

/-- Each chain is a request for a part, or a timer that will send one. -/
def chains (page : Page π lam) : Nat := page.timers + page.requests.countP isPart

def linkRequests (page : Page π lam) : Nat := page.requests.count .links

/-- The page once it fetches nodes: of all chains some have ended, and of all
requests for the links some have been answered. -/
structure Loading (page : Page π lam) (allowed ended linked : Nat) : Prop where
  level : page.fetchLevel = 2 + ended + linked
  kinds : ∀ request ∈ page.requests, request = .links ∨ isPart request = true
  chains : chains page + ended ≤ allowed
  asked : linkRequests page + linked ≤ 1
  first : ended = 0 → linkRequests page + linked = 0
  starts : page.starts.length = page.fetchLevel - 3

/-- The page before it fetches nodes, waiting for one request at most. -/
structure Preparing (page : Page π lam) (level : Nat) (request : Request) : Prop where
  level : page.fetchLevel = level
  requests : page.requests = [request] ∨ page.requests = []
  timers : page.timers = 0
  starts : page.starts = []

inductive Phase (page : Page π lam) (failures : Nat) : Prop where
  | status (preparing : Preparing page 0 .status)
  | userParameters (preparing : Preparing page 1 .userParameters)
  | loading (ended linked : Nat) (loading : Loading page (1 + failures) ended linked)

/-! ## The callbacks -/

variable {page : Page π lam} {allowed ended linked : Nat}

theorem Loading.later (loading : Loading page allowed ended linked) (more : allowed ≤ allowed') :
    Loading page allowed' ended linked :=
  ⟨loading.level, loading.kinds, loading.chains.trans more, loading.asked, loading.first,
    loading.starts⟩

theorem updateSequence_zero (level : page.fetchLevel = 0) :
    updateSequence page =
      { page with fetchLevel := 1, requests := page.requests ++ [.userParameters] } := by
  simp [updateSequence, level]

theorem updateSequence_one (level : page.fetchLevel = 1) :
    updateSequence page = { page with fetchLevel := 2, timers := page.timers + 1 } := by
  simp [updateSequence, level]

theorem updateSequence_two (level : page.fetchLevel = 2) :
    updateSequence page = { page with fetchLevel := 3, requests := page.requests ++ [.links] } := by
  simp [updateSequence, level]

theorem updateSequence_later (level : 3 ≤ page.fetchLevel) :
    updateSequence page = startNetgraphz { page with fetchLevel := page.fetchLevel + 1 } := by
  obtain ⟨more, level⟩ := Nat.exists_eq_add_of_le level
  simp [updateSequence, level, show 3 + more + 1 = more + 4 by omega]

/-- The first chain that ends asks for the links, and every other one starts the
page. -/
theorem Loading.chain_ends (loading : Loading page allowed ended linked) :
    Loading (updateSequence page) (allowed + 1) (ended + 1) linked := by
  obtain ⟨level, kinds, chained, asked, first, starts⟩ := loading
  by_cases none : ended = 0
  · have unasked := first none
    rw [updateSequence_two (by omega)]
    refine ⟨by simp only; omega, ?_, ?_, ?_, by omega, by simp only; omega⟩
    · intro request held
      rcases List.mem_append.mp held with before | last
      · exact kinds request before
      · exact .inl (List.mem_singleton.mp last)
    · simp [StartCounts.chains, isPart] at chained ⊢
      omega
    · simp [linkRequests] at unasked ⊢
      omega
  · rw [updateSequence_later (by omega)]
    refine ⟨by simp only [startNetgraphz]; omega, kinds, ?_, asked, by omega, ?_⟩
    · simp only [StartCounts.chains, startNetgraphz] at chained ⊢
      omega
    · simp only [startNetgraphz, List.length_append, List.length_singleton]
      omega

/-- The links start the page. -/
theorem Loading.links_arrive (loading : Loading page allowed ended linked) (some : ended ≠ 0)
    (unlinked : linkRequests page + linked = 0) :
    Loading (updateSequence page) allowed ended (linked + 1) := by
  obtain ⟨level, kinds, chained, asked, first, starts⟩ := loading
  rw [updateSequence_later (by omega)]
  refine ⟨by simp only [startNetgraphz]; omega, kinds, chained, ?_, by omega, ?_⟩
  · simp only [linkRequests, startNetgraphz] at unlinked ⊢
    omega
  · simp only [startNetgraphz, List.length_append, List.length_singleton]
    omega

/-- A part's callback ends a chain, or sets one more timer. -/
theorem Loading.onPart (loading : Loading page allowed ended linked) (settings : Settings)
    (nodes : List Host) (read : Bool) :
    ∃ ended', Loading (onPart settings nodes page read) (allowed + 1) ended' linked := by
  have again (loader : Loader) :
      Loading { page with loader := loader, timers := page.timers + 1 } (allowed + 1) ended
        linked := by
    refine ⟨loading.level, loading.kinds, ?_, loading.asked, loading.first, loading.starts⟩
    have chained := loading.chains
    simp only [StartCounts.chains] at chained ⊢
    omega
  have same (loader : Loader) : Loading { page with loader := loader } allowed ended linked :=
    ⟨loading.level, loading.kinds, loading.chains, loading.asked, loading.first, loading.starts⟩
  unfold PageStart.onPart
  cases read with
  | true =>
    simp only [if_true]
    split
    · exact ⟨ended + 1, (same _).chain_ends⟩
    · exact ⟨ended, again _⟩
  | false =>
    simp only [Bool.false_eq_true, if_false]
    split
    · exact ⟨ended, (same _).later (Nat.le_succ allowed)⟩
    · exact ⟨ended, again _⟩

/-- All the calls that one answer makes of it. -/
theorem Loading.part_answered (loading : Loading page allowed ended linked) (settings : Settings)
    (nodes : List Host) (calls : List Bool) :
    ∃ ended', Loading (calls.foldl (PageStart.onPart settings nodes) page) (allowed + calls.length)
      ended' linked := by
  induction calls generalizing page allowed ended with
  | nil => exact ⟨ended, loading⟩
  | cons read rest ih =>
    obtain ⟨ended', next⟩ := loading.onPart settings nodes read
    obtain ⟨ended'', last⟩ := ih next
    exact ⟨ended'', last.later (by simp only [List.length_cons]; omega)⟩

theorem loading_cancel (loading : Loading page allowed ended linked) :
    Loading (cancel page) allowed ended linked :=
  ⟨loading.level, loading.kinds, loading.chains, loading.asked, loading.first, loading.starts⟩

/-- The calls that one answer makes of the links' callback. -/
theorem Loading.links_answered (loading : Loading page allowed ended linked) (some : ended ≠ 0)
    (unlinked : linkRequests page + linked = 0) (links : lam) (outcome : Outcome) :
    ∃ linked', Loading (outcome.calls.foldl (onLinks links) page) allowed ended linked' := by
  rw [foldl_calls (onLinks_settled links), onLinks]
  split
  · exact ⟨linked, loading⟩
  split
  · have given : Loading { page with links := Option.some links } allowed ended linked :=
      ⟨loading.level, loading.kinds, loading.chains, loading.asked, loading.first, loading.starts⟩
    exact ⟨linked + 1, given.links_arrive some unlinked⟩
  · exact ⟨linked, loading_cancel loading⟩

/-! ## One event -/

/-- An answered request is gone, and the others are still there. -/
theorem countP_answered {requests : List Request} {i : Nat} (p : Request → Bool)
    (asked : requests[i]? = some request) :
    requests.countP p = (requests.eraseIdx i).countP p + (p request).toNat := by
  obtain ⟨within, rfl⟩ := List.getElem?_eq_some_iff.mp asked
  rw [← (List.getElem_cons_eraseIdx_perm within).countP_eq, List.countP_cons]
  cases p requests[i] <;> rfl

/-- A part's request is a chain, which is gone when it is answered. -/
theorem Loading.part_leaves (loading : Loading page (allowed + 1) ended linked)
    (asked : page.requests[i]? = some request) (part : isPart request = true) :
    Loading { page with requests := page.requests.eraseIdx i } allowed ended linked := by
  have parts := countP_answered isPart asked
  have links := countP_answered (· == Request.links) asked
  have other : (request == Request.links) = false := by cases request <;> first | rfl | cases part
  obtain ⟨level, kinds, chained, askedLinks, first, starts⟩ := loading
  simp only [StartCounts.chains, part, Bool.toNat_true] at chained parts
  simp only [linkRequests, List.count, other, Bool.toNat_false] at askedLinks first links
  refine ⟨level, fun request held => kinds request (List.mem_of_mem_eraseIdx held), ?_, ?_, ?_,
    starts⟩
  · simp only [StartCounts.chains]
    omega
  · simp only [linkRequests, List.count]
    omega
  · intro none
    have unasked := first none
    simp only [linkRequests, List.count]
    omega

/-- The request for the links is sent once, after a chain has ended. -/
theorem Loading.links_leave (loading : Loading page allowed ended linked)
    (asked : page.requests[i]? = some .links) :
    Loading { page with requests := page.requests.eraseIdx i } allowed ended linked ∧
      ended ≠ 0 ∧ (page.requests.eraseIdx i).count .links + linked = 0 := by
  have parts := countP_answered isPart asked
  have links := countP_answered (· == Request.links) asked
  have same : isPart Request.links = false := rfl
  obtain ⟨level, kinds, chained, askedLinks, first, starts⟩ := loading
  simp only [StartCounts.chains, same, Bool.toNat_false] at chained parts
  simp only [linkRequests, List.count, beq_self_eq_true, Bool.toNat_true] at askedLinks first links
  have left : (page.requests.eraseIdx i).count .links + linked = 0 := by
    simp only [List.count]
    omega
  refine ⟨⟨level, fun request held => kinds request (List.mem_of_mem_eraseIdx held), ?_, ?_, ?_,
    starts⟩, ?_, left⟩
  · simp only [StartCounts.chains]
    omega
  · simp only [linkRequests]
    omega
  · exact fun _ => left
  · intro none
    have unasked := first none
    omega

theorem calls_length (outcome : Outcome) :
    outcome.calls.length = 1 + (decide (outcome = .failed)).toNat := by
  cases outcome <;> rfl

theorem loading_answered (loading : Loading page (1 + failures) ended linked) (settings : Settings)
    (i : Nat) (answer : Answer π lam) :
    ∃ ended' linked', Loading (step settings page (.answered i answer))
      (1 + (failures + (failsPart page (.answered i answer)).toNat)) ended' linked' := by
  simp only [step, failsPart]
  cases asked : page.requests[i]? with
  | none => exact ⟨ended, linked, loading.later (by omega)⟩
  | some request =>
    rcases loading.kinds request (List.mem_of_getElem? asked) with rfl | part
    · obtain ⟨left, some, unlinked⟩ := loading.links_leave asked
      obtain ⟨linked', last⟩ := left.links_answered some unlinked answer.links answer.outcome
      exact ⟨ended, linked', last.later (by omega)⟩
    · rw [Nat.add_comm] at loading
      obtain ⟨ended', last⟩ :=
        (loading.part_leaves asked part).part_answered settings answer.nodes answer.outcome.calls
      have heard : callback settings answer request = PageStart.onPart settings answer.nodes := by
        cases request <;> first | rfl | cases part
      refine ⟨ended', linked, ?_⟩
      simp only [heard]
      refine last.later ?_
      simp only [calls_length, Option.any_some, part, Bool.and_true]
      omega

/-- A timer becomes the request that it sends. -/
theorem loading_timer (loading : Loading page allowed ended linked) (settings : Settings) :
    Loading (step settings page .timer) allowed ended linked := by
  simp only [step]
  split
  · exact loading
  · obtain ⟨level, kinds, chained, asked, first, starts⟩ := loading
    refine ⟨level, ?_, ?_, ?_, ?_, starts⟩
    · intro request held
      rcases List.mem_append.mp held with before | last
      · exact kinds request before
      · exact .inr (List.mem_singleton.mp last ▸ rfl)
    · simp [StartCounts.chains, PageStart.fetchPart, isPart] at chained ⊢
      omega
    · simpa [linkRequests, PageStart.fetchPart] using asked
    · simpa [linkRequests, PageStart.fetchPart] using first

/-- The request of a list that holds none or one. -/
theorem answered_alone {requests : List Request} (alone : requests = [request] ∨ requests = [])
    (asked : requests[i]? = some other) : other = request ∧ requests.eraseIdx i = [] := by
  rcases alone with rfl | rfl
  · rw [List.getElem?_singleton] at asked
    split at asked
    next first =>
      subst first
      exact ⟨(Option.some.inj asked).symm, rfl⟩
    next => cases asked
  · cases asked

theorem preparing_timer {level : Nat} (preparing : Preparing page level request)
    (settings : Settings) :
    step settings page .timer = page := by
  simp only [step, preparing.timers, if_true]

theorem status_answered (page : Page π lam) (level : page.fetchLevel = 0)
    (requests : page.requests = []) (timers : page.timers = 0) (starts : page.starts = [])
    (outcome : Outcome) : Phase (outcome.calls.foldl onStatus page) failures := by
  rw [foldl_calls onStatus_settled, onStatus]
  split
  · rw [updateSequence_zero level, requests]
    exact .userParameters ⟨rfl, .inl rfl, timers, starts⟩
  · exact .status ⟨level, .inr requests, timers, starts⟩

theorem userParameters_answered (page : Page π lam) (level : page.fetchLevel = 1)
    (requests : page.requests = []) (timers : page.timers = 0) (starts : page.starts = [])
    (params : π) (outcome : Outcome) :
    Phase (outcome.calls.foldl (onUserParameters params) page) failures := by
  rw [foldl_calls (onUserParameters_settled params), onUserParameters]
  split
  · exact .userParameters ⟨level, .inr requests, timers, starts⟩
  split
  · refine .loading 0 0 ?_
    have first : ({ page with params := some params } : Page π lam).fetchLevel = 1 := level
    rw [updateSequence_one first]
    refine ⟨rfl, ?_, ?_, ?_, ?_, ?_⟩
    · simp [requests]
    · simp [StartCounts.chains, requests, timers]
    · simp [linkRequests, requests]
    · simp [linkRequests, requests]
    · simp [starts]
  · exact .userParameters ⟨level, .inr requests, timers, starts⟩

/-- **Every event keeps to the phases.** -/
theorem phase_step (phase : Phase page failures) (settings : Settings) (event : Event π lam) :
    Phase (step settings page event) (failures + (failsPart page event).toNat) := by
  rcases phase with preparing | preparing | ⟨ended, linked, loading⟩
  · cases event with
    | timer =>
      rw [preparing_timer preparing]
      exact .status preparing
    | answered i answer =>
      simp only [step, failsPart]
      cases asked : page.requests[i]? with
      | none => exact .status preparing
      | some request =>
        obtain ⟨rfl, gone⟩ := answered_alone preparing.requests asked
        let left : Page π lam := { page with requests := page.requests.eraseIdx i }
        exact status_answered left preparing.level gone preparing.timers preparing.starts
          answer.outcome
  · cases event with
    | timer =>
      rw [preparing_timer preparing]
      exact .userParameters preparing
    | answered i answer =>
      simp only [step, failsPart]
      cases asked : page.requests[i]? with
      | none => exact .userParameters preparing
      | some request =>
        obtain ⟨rfl, gone⟩ := answered_alone preparing.requests asked
        let left : Page π lam := { page with requests := page.requests.eraseIdx i }
        exact userParameters_answered left preparing.level gone preparing.timers
          preparing.starts answer.params answer.outcome
  · cases event with
    | timer => exact .loading ended linked (loading_timer loading settings)
    | answered i answer =>
      obtain ⟨ended', linked', next⟩ := loading_answered loading settings i answer
      exact .loading ended' linked' next

/-- Only the end of a chain and the links start the page, and the first chain
that ends does not. -/
theorem Phase.starts_le (phase : Phase page failures) : page.starts.length ≤ 1 + failures := by
  rcases phase with preparing | preparing | ⟨ended, linked, loading⟩
  · simp [preparing.starts]
  · simp [preparing.starts]
  · obtain ⟨level, _, chained, asked, first, starts⟩ := loading
    by_cases none : ended = 0
    · have unlinked := first none
      omega
    · omega

theorem counted_page (settings : Settings) (history : List (Event π lam)) :
    (after (counting settings) (loadedPage, 0) history).1 = pageAfter settings history :=
  after_projects (step settings) (counting settings) Prod.fst (fun _ _ => rfl) (loadedPage, 0)
    history

theorem phase_after (settings : Settings) (history : List (Event π lam)) :
    Phase (pageAfter settings history) (partFailures settings history) := by
  rw [← counted_page]
  refine after_invariant (counting settings) (fun state => Phase state.1 state.2) ?_ ?_ history
  · exact .status ⟨rfl, .inl rfl, rfl, rfl⟩
  · exact fun state event phase => phase_step phase settings event

/-! ## Starts that happen -/

/-- The page waits for timers only, each of which will fetch a part. -/
structure Waiting (page : Page π lam) (timers : Nat) : Prop where
  level : page.fetchLevel = 2
  requests : page.requests = []
  timers : page.timers = timers
  starts : page.starts = []
  goesOn : page.loader.loadCancel = false

/-- One chain has ended, and the links are not answered yet. -/
structure Asked (page : Page π lam) (timers starts : Nat) : Prop where
  level : 3 ≤ page.fetchLevel
  requests : page.requests = [.links]
  timers : page.timers = timers
  starts : page.starts.length = starts
  goesOn : page.loader.loadCancel = false

/-- A part that the network fails, so that it is fetched again twice. -/
def failing (params : π) (links : lam) : List (Event π lam) :=
  [.timer, .answered 0 ⟨.failed, params, [], links⟩]

/-- A part with no nodes, which ends a chain. -/
def ending (params : π) (links : lam) (i : Nat) : List (Event π lam) :=
  [.timer, .answered i ⟨.read, params, [], links⟩]

/-- Failures begin more and more chains, and then all of them end. -/
def repeatedly (params : π) (links : lam) (failures : Nat) : List (Event π lam) :=
  List.replicate 2 (.answered 0 ⟨.read, params, [], links⟩) ++
    (List.replicate failures (failing params links)).flatten ++
    ending params links 0 ++
    (List.replicate failures (ending params links 1)).flatten ++
    [.answered 0 ⟨.read, params, [], links⟩]

/-- The settings as they are shipped, with which retries do not run out. -/
def shipped (parts : PartSize) : Settings := { nodePartSize := parts }

theorem prepared (parts : PartSize) (params : π) (links : lam) :
    ∃ page, after (counting (shipped parts)) (loadedPage, 0)
      (List.replicate 2 (.answered 0 ⟨.read, params, [], links⟩)) = (page, 0) ∧ Waiting page 1 :=
  ⟨_, rfl, rfl, rfl, rfl, rfl, rfl⟩

theorem after_failing (waiting : Waiting page (timers + 1)) (parts : PartSize) (params : π)
    (links : lam) (failures : Nat) :
    ∃ next, after (counting (shipped parts)) (page, failures) (failing params links) =
      (next, failures + 1) ∧ Waiting next (timers + 2) := by
  obtain ⟨level, requests, timed, starts, goesOn⟩ := waiting
  refine ⟨_, Prod.ext rfl ?_, ?_⟩
  · simp [after, failing, counting, step, timed, PageStart.fetchPart, requests, failsPart, isPart]
  · constructor <;>
      simp [after, failing, counting, step, timed, PageStart.fetchPart, requests, callback,
        Outcome.calls, PageStart.onPart, InitialLoad.onPart, shipped, level, starts, goesOn]

theorem after_first_ending (waiting : Waiting page (timers + 1)) (parts : PartSize) (params : π)
    (links : lam) (failures : Nat) :
    ∃ next, after (counting (shipped parts)) (page, failures) (ending params links 0) =
      (next, failures) ∧ Asked next timers 0 := by
  obtain ⟨level, requests, timed, starts, goesOn⟩ := waiting
  refine ⟨_, Prod.ext rfl ?_, ?_⟩
  · simp [after, ending, counting, step, timed, PageStart.fetchPart, failsPart]
  · constructor <;>
      simp [counting, step, timed, PageStart.fetchPart, requests, callback,
        Outcome.calls, PageStart.onPart, InitialLoad.onPart, shipped, updateSequence, level, starts,
        goesOn, parts.positive]

theorem after_ending (asked : Asked page (timers + 1) started) (parts : PartSize) (params : π)
    (links : lam) (failures : Nat) :
    ∃ next, after (counting (shipped parts)) (page, failures) (ending params links 1) =
      (next, failures) ∧ Asked next timers (started + 1) := by
  obtain ⟨level, requests, timed, starts, goesOn⟩ := asked
  obtain ⟨more, level⟩ := Nat.exists_eq_add_of_le level
  refine ⟨_, Prod.ext rfl ?_, ?_⟩
  · simp [after, ending, counting, step, timed, PageStart.fetchPart, failsPart]
  · constructor <;>
      simp [counting, step, timed, PageStart.fetchPart, requests, callback,
        Outcome.calls, PageStart.onPart, InitialLoad.onPart, shipped, updateSequence,
        startNetgraphz, level, starts, goesOn, parts.positive, show 3 + more + 1 = more + 4 by omega]

theorem after_failings (waiting : Waiting page 1) (parts : PartSize) (params : π) (links : lam)
    (failures : Nat) :
    ∃ next, after (counting (shipped parts)) (page, 0)
      (List.replicate failures (failing params links)).flatten = (next, failures) ∧
      Waiting next (failures + 1) := by
  induction failures with
  | zero => exact ⟨page, rfl, waiting⟩
  | succ failures ih =>
    obtain ⟨before, reached, waiting⟩ := ih
    obtain ⟨next, failed, more⟩ := after_failing waiting parts params links failures
    refine ⟨next, ?_, more⟩
    rw [List.replicate_succ', List.flatten_append, List.flatten_singleton, after_append, reached,
      failed]

theorem after_endings (asked : Asked page timers 0) (parts : PartSize) (params : π) (links : lam)
    (failures : Nat) :
    ∀ ended, ended ≤ timers → ∃ next, after (counting (shipped parts)) (page, failures)
      (List.replicate ended (ending params links 1)).flatten = (next, failures) ∧
      Asked next (timers - ended) ended := by
  intro ended
  induction ended with
  | zero => exact fun _ => ⟨page, rfl, asked⟩
  | succ ended ih =>
    intro within
    obtain ⟨before, reached, asked⟩ := ih (by omega)
    rw [show timers - ended = timers - (ended + 1) + 1 by omega] at asked
    obtain ⟨next, short, more⟩ := after_ending asked parts params links failures
    refine ⟨next, ?_, more⟩
    rw [List.replicate_succ', List.flatten_append, List.flatten_singleton, after_append, reached,
      short]

theorem after_links (asked : Asked page timers started) (parts : PartSize) (params : π)
    (links : lam) (failures : Nat) :
    ∃ next, after (counting (shipped parts)) (page, failures)
      [.answered 0 ⟨.read, params, [], links⟩] = (next, failures) ∧
      next.starts.length = started + 1 := by
  obtain ⟨level, requests, timed, starts, goesOn⟩ := asked
  obtain ⟨more, level⟩ := Nat.exists_eq_add_of_le level
  refine ⟨_, Prod.ext rfl ?_, ?_⟩
  · simp [after, counting, failsPart, requests, isPart]
  · simp [step, requests, callback, Outcome.calls, onLinks, goesOn, updateSequence, level,
      startNetgraphz, starts, show 3 + more + 1 = more + 4 by omega]

/-- So many failures, and one start more. -/
theorem repeatedly_starts (parts : PartSize) (params : π) (links : lam) (failures : Nat) :
    ∃ page, after (counting (shipped parts)) (loadedPage, 0) (repeatedly params links failures) =
      (page, failures) ∧ page.starts.length = failures + 1 := by
  obtain ⟨first, begun, waiting⟩ := prepared parts params links
  obtain ⟨second, failed, waiting⟩ := after_failings waiting parts params links failures
  obtain ⟨third, ended, asked⟩ := after_first_ending waiting parts params links failures
  obtain ⟨fourth, short, asked⟩ :=
    after_endings asked parts params links failures failures (le_refl failures)
  obtain ⟨last, linked, starts⟩ := after_links asked parts params links failures
  refine ⟨last, ?_, starts⟩
  rw [repeatedly, after_append, after_append, after_append, after_append, begun, failed, ended,
    short, linked]

/-- **The page starts at most once more often than the network has failed a
request for a part**: no other answer, and no order of them, starts it again.
With the settings as they are shipped it can start as often. The calls of a
request are the fetcher's (`PageStart.calls_eq_invocations`). -/
theorem starts_at_most :
    (∀ settings (history : List (Event π lam)),
      (pageAfter settings history).starts.length ≤ 1 + partFailures settings history) ∧
    ∀ parts failures, π → lam → ∃ history : List (Event π lam),
      partFailures (shipped parts) history = failures ∧
      (pageAfter (shipped parts) history).starts.length = failures + 1 := by
  refine ⟨fun settings history => (phase_after settings history).starts_le, ?_⟩
  intro parts failures params links
  obtain ⟨page, reached, starts⟩ := repeatedly_starts parts params links failures
  refine ⟨repeatedly params links failures, congrArg Prod.snd reached, ?_⟩
  rw [← counted_page, reached]
  exact starts

end NetGraphz.StartCounts
