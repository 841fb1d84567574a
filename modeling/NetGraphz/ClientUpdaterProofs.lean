import NetGraphz.ClientUpdater

/-! The updater keeps to one chain as long as it is stopped only while it waits
between two rotations: stopping clears no other timer and no fetch. -/
namespace NetGraphz.ClientUpdaterProofs
open ClientUpdater

variable {updater : Updater} {event : Event}

/-- What a chain is doing; an updater that is not started has none. -/
inductive Phase (updater : Updater) : Prop where
  | idle (stopped : updater.updaterStarted = false) (noTimeouts : updater.timeouts = [])
      (noFetches : updater.fetches = [])
  | waiting (handle : Nat) (wait : Int) (started : updater.updaterStarted = true)
      (armed : updater.timeouts = [⟨handle, .updateCallback, wait⟩])
      (held : updater.globalTimer = some handle) (noFetches : updater.fetches = [])
      (fromStart : updater.lastId = 0)
  | between (handle : Nat) (wait : Int) (started : updater.updaterStarted = true)
      (armed : updater.timeouts = [⟨handle, .updatePartStart, wait⟩])
      (held : updater.partTimer = some handle) (apart : updater.globalTimer ≠ some handle)
      (noFetches : updater.fetches = [])
  | fetching (id : Int) (started : updater.updaterStarted = true)
      (noTimeouts : updater.timeouts = []) (asked : updater.fetches = [id])

theorem Phase.one_chain (phase : Phase updater) : updater.chains ≤ 1 := by
  unfold Updater.chains
  cases phase with
  | idle stopped noTimeouts noFetches => simp [noTimeouts, noFetches]
  | waiting handle wait started armed held noFetches fromStart => simp [armed, noFetches]
  | between handle wait started armed held apart noFetches => simp [armed, noFetches]
  | fetching id started noTimeouts asked => simp [noTimeouts, asked]

/-- The handle in `_global_timer` is one that was given out. -/
def GivenOut (updater : Updater) : Prop :=
  ∀ handle, updater.globalTimer = some handle → handle < updater.nextHandle

/-- Started, with the chain in the hands of a callback: nothing is armed and
nothing is in flight. -/
structure Handling (updater : Updater) : Prop where
  started : updater.updaterStarted = true
  noTimeouts : updater.timeouts = []
  noFetches : updater.fetches = []
  givenOut : GivenOut updater

theorem armPart_between (handling : Handling updater) (wait : Int) :
    Phase (updater.armPart wait) := by
  refine .between updater.nextHandle wait handling.started ?_ rfl ?_ handling.noFetches
  · simp [Updater.armPart, Updater.setTimeout, handling.noTimeouts]
  · intro same
    exact Nat.lt_irrefl _ (handling.givenOut updater.nextHandle same)

theorem armGlobal_waiting (handling : Handling updater) (fromStart : updater.lastId = 0)
    (wait : Int) : Phase (updater.armGlobal wait) := by
  refine .waiting updater.nextHandle wait handling.started ?_ rfl handling.noFetches fromStart
  simp [Updater.armGlobal, Updater.setTimeout, handling.noTimeouts]

theorem clearTimeout_handling (handling : Handling updater) (handle : Option Nat) :
    Handling (updater.clearTimeout handle) :=
  ⟨handling.started, by simp [Updater.clearTimeout, handling.noTimeouts], handling.noFetches,
    handling.givenOut⟩

theorem givenOut_armPart (givenOut : GivenOut updater) (wait : Int) :
    GivenOut (updater.armPart wait) := fun handle held => Nat.lt_succ_of_lt (givenOut handle held)

theorem givenOut_armGlobal (updater : Updater) (wait : Int) :
    GivenOut (updater.armGlobal wait) := by
  intro handle held
  cases held
  exact Nat.lt_succ_self _

/-- An error leaves the retry armed. -/
theorem onError_between (handling : Handling updater) : Phase (onError updater) := by
  unfold onError
  exact armPart_between (clearTimeout_handling handling _) 35000

/-- The second of two errors takes back the retry of the first. -/
theorem onError_cleared (noTimeouts : updater.timeouts = []) :
    ((onError updater).clearTimeout (onError updater).partTimer).timeouts = [] := by
  simp [onError, Updater.clearTimeout, Updater.armPart, Updater.setTimeout, noTimeouts]

theorem onError_again (handling : Handling updater) : Phase (onError (onError updater)) := by
  have cleared : Handling ((onError updater).clearTimeout (onError updater).partTimer) :=
    ⟨handling.started, onError_cleared handling.noTimeouts, handling.noFetches,
      givenOut_armPart handling.givenOut 35000⟩
  exact armPart_between cleared 35000

theorem passPart_handling (handling : Handling updater) (nodes : List GraphStorage.Host) :
    Handling (passPart updater nodes) := by
  unfold passPart
  split
  · exact handling
  · exact ⟨handling.started, handling.noTimeouts, handling.noFetches, handling.givenOut⟩

/-- However a fetch ends, the chain goes on with one timer. -/
theorem onResponse_phase (settings : Settings) (now : Int) (response : Response)
    (handling : Handling updater) : Phase (onResponse settings updater now response) := by
  cases response with
  | part nodes throws =>
    have passed := passPart_handling handling nodes
    simp only [onResponse]
    split
    · exact onError_between passed
    · simp only [onPart]
      split
      · have finishing : Handling { passPart updater nodes with rotationEndTime := now, lastId := 0 } :=
          ⟨passed.started, passed.noTimeouts, passed.noFetches, passed.givenOut⟩
        exact armGlobal_waiting finishing rfl _
      · exact armPart_between passed _
  | object => exact armPart_between handling _
  | unreadable => exact onError_between handling
  | networkFailure => exact onError_again handling

/-- The updater is stopped only while no part is fetched or about to be. -/
def StopsWaiting (updater : Updater) (event : Event) : Prop :=
  event = .stop →
    updater.fetches = [] ∧ ∀ timeout ∈ updater.timeouts, timeout.callback = .updateCallback

theorem start_phase (settings : Settings) (phase : Phase updater) (givenOut : GivenOut updater) :
    Phase (start settings updater) := by
  unfold start
  split
  · exact phase
  · rename_i notStarted
    cases phase with
    | idle stopped noTimeouts noFetches =>
      have starting : Handling { updater with lastId := 0, updaterStarted := true } :=
        ⟨rfl, noTimeouts, noFetches, givenOut⟩
      exact armGlobal_waiting starting rfl _
    | waiting handle wait started => exact absurd started notStarted
    | between handle wait started => exact absurd started notStarted
    | fetching id started => exact absurd started notStarted

/-- A stop while the chain waits ends it. -/
theorem stop_phase (phase : Phase updater) (waits : StopsWaiting updater .stop) :
    Phase (stop updater) := by
  obtain ⟨noFetch, onlyGlobal⟩ := waits rfl
  unfold stop
  cases phase with
  | idle stopped noTimeouts noFetches =>
    rw [if_neg (by simp [stopped])]
    exact .idle stopped noTimeouts noFetches
  | waiting handle wait started armed held noFetches fromStart =>
    rw [if_pos started]
    exact .idle rfl (by simp [Updater.clearTimeout, armed, held]) noFetches
  | between handle wait started armed held apart noFetches =>
    have own := onlyGlobal ⟨handle, .updatePartStart, wait⟩ (by simp [armed])
    cases own
  | fetching id started noTimeouts asked =>
    rw [asked] at noFetch
    cases noFetch

theorem step_phase (settings : Settings) (phase : Phase updater) (givenOut : GivenOut updater)
    (waits : StopsWaiting updater event) : Phase (step settings updater event) := by
  cases event with
  | start => exact start_phase settings phase givenOut
  | stop => exact stop_phase phase waits
  | fire index now =>
    unfold step
    cases phase with
    | idle stopped noTimeouts noFetches =>
      simp only [noTimeouts, List.getElem?_nil]
      exact .idle stopped noTimeouts noFetches
    | waiting handle wait started armed held noFetches fromStart =>
      cases index with
      | zero =>
        simp only [armed, List.getElem?_cons_zero, List.eraseIdx_cons_zero]
        have fired : Handling { updater with timeouts := [], rotationStartTime := now } :=
          ⟨started, rfl, noFetches, givenOut⟩
        exact armPart_between fired _
      | succ index =>
        simp only [armed, List.getElem?_cons_succ, List.getElem?_nil]
        exact .waiting handle wait started armed held noFetches fromStart
    | between handle wait started armed held apart noFetches =>
      cases index with
      | zero =>
        simp only [armed, List.getElem?_cons_zero, List.eraseIdx_cons_zero]
        exact .fetching updater.lastId started rfl (by simp [updatePartStart, noFetches])
      | succ index =>
        simp only [armed, List.getElem?_cons_succ, List.getElem?_nil]
        exact .between handle wait started armed held apart noFetches
    | fetching id started noTimeouts asked =>
      simp only [noTimeouts, List.getElem?_nil]
      exact .fetching id started noTimeouts asked
  | respond index now response =>
    unfold step
    cases phase with
    | idle stopped noTimeouts noFetches =>
      simp only [noFetches, List.getElem?_nil]
      exact .idle stopped noTimeouts noFetches
    | waiting handle wait started armed held noFetches fromStart =>
      simp only [noFetches, List.getElem?_nil]
      exact .waiting handle wait started armed held noFetches fromStart
    | between handle wait started armed held apart noFetches =>
      simp only [noFetches, List.getElem?_nil]
      exact .between handle wait started armed held apart noFetches
    | fetching id started noTimeouts asked =>
      cases index with
      | zero =>
        simp only [asked, List.getElem?_cons_zero, List.eraseIdx_cons_zero]
        have ended : Handling { updater with fetches := [] } :=
          ⟨started, noTimeouts, rfl, givenOut⟩
        exact onResponse_phase settings now response ended
      | succ index =>
        simp only [asked, List.getElem?_cons_succ, List.getElem?_nil]
        exact .fetching id started noTimeouts asked

theorem givenOut_onResponse (settings : Settings) (now : Int) (response : Response)
    (givenOut : GivenOut updater) : GivenOut (onResponse settings updater now response) := by
  have passed (nodes : List GraphStorage.Host) : GivenOut (passPart updater nodes) := by
    unfold passPart
    split
    · exact givenOut
    · exact givenOut
  cases response with
  | part nodes throws =>
    simp only [onResponse]
    split
    · exact givenOut_armPart (passed nodes) 35000
    · simp only [onPart]
      split
      · exact givenOut_armGlobal _ _
      · exact givenOut_armPart (passed nodes) _
  | object => exact givenOut_armPart givenOut settings.partInterval
  | unreadable => exact givenOut_armPart givenOut 35000
  | networkFailure => exact givenOut_armPart (givenOut_armPart givenOut 35000) 35000

theorem givenOut_step (settings : Settings) (event : Event) (givenOut : GivenOut updater) :
    GivenOut (step settings updater event) := by
  cases event with
  | start =>
    simp only [step, start]
    split
    · exact givenOut
    · exact givenOut_armGlobal _ _
  | stop =>
    simp only [step, stop]
    split
    · exact givenOut
    · exact givenOut
  | fire index now =>
    simp only [step]
    split
    · exact givenOut
    · split
      · exact givenOut_armPart givenOut settings.partInterval
      · exact givenOut
  | respond index now response =>
    simp only [step]
    split
    · exact givenOut
    · exact givenOut_onResponse settings now response givenOut

theorem givenOut_after (settings : Settings) (history : List Event) :
    GivenOut (updaterAfter settings history) :=
  after_invariant (step settings) GivenOut (fun handle held => by cases held)
    (fun _ event givenOut => givenOut_step settings event givenOut) history

/-- In a run that is stopped only while it waits, the phases follow each other. -/
theorem phase_after (settings : Settings) (history : List Event)
    (waits : ∀ past event, past ++ [event] <+: history → Phase (updaterAfter settings past) →
      StopsWaiting (updaterAfter settings past) event) :
    ∀ past, past <+: history → Phase (updaterAfter settings past) := by
  refine prefix_induction (fun past => Phase (updaterAfter settings past)) (.idle rfl rfl rfl) ?_
  intro past event within phase
  have givenOut := givenOut_after settings past
  have allowed := waits past event within phase
  unfold updaterAfter at phase givenOut allowed ⊢
  rw [after_concat]
  exact step_phase settings phase givenOut allowed

/-- Nothing but a start does anything to an updater that has no chain. -/
theorem step_idle (settings : Settings) (stopped : updater.updaterStarted = false)
    (noTimeouts : updater.timeouts = []) (noFetches : updater.fetches = []) (noStart : event ≠ .start) :
    step settings updater event = updater := by
  cases event with
  | start => exact absurd rfl noStart
  | stop => simp [step, stop, stopped]
  | fire index now => simp [step, noTimeouts]
  | respond index now response => simp [step, noFetches]

theorem after_idle (stopped : updater.updaterStarted = false) (noTimeouts : updater.timeouts = [])
    (noFetches : updater.fetches = []) (noStart : Event.start ∉ later) :
    after (step settings) updater later = updater := by
  induction later with
  | nil => rfl
  | cons event later ih =>
    have same := step_idle settings stopped noTimeouts noFetches
      (fun start => noStart (start ▸ List.mem_cons_self))
    have rest := ih fun member => noStart (List.mem_cons_of_mem _ member)
    unfold after at rest ⊢
    rw [List.foldl_cons, same]
    exact rest

theorem stop_stopped (updater : Updater) : (stop updater).updaterStarted = false := by
  unfold stop
  split
  · rfl
  · rename_i notStarted
    simpa using notStarted

/-- At most one chain is live, and after a stop with no later start no fetch is
issued. -/
structure OneChain (settings : Settings) (history : List Event) : Prop where
  single : (updaterAfter settings history).chains ≤ 1
  silent : ∀ past later, history = past ++ .stop :: later → Event.start ∉ later →
    (updaterAfter settings history).issued = (updaterAfter settings (past ++ [.stop])).issued

/-- What the phases of a run say about its end. -/
theorem one_chain_of_phases (settings : Settings) (reached : List Event)
    (phases : ∀ past, past <+: reached → Phase (updaterAfter settings past)) :
    OneChain settings reached := by
  refine ⟨(phases reached (List.prefix_refl _)).one_chain, ?_⟩
  intro past later split noStart
  have rejoined : reached = (past ++ [.stop]) ++ later := by
    rw [split, List.append_assoc, List.singleton_append]
  have stopped : (updaterAfter settings (past ++ [.stop])).updaterStarted = false := by
    unfold updaterAfter
    rw [after_concat]
    exact stop_stopped _
  have halted : updaterAfter settings reached = updaterAfter settings (past ++ [.stop]) := by
    cases phases (past ++ [.stop]) ⟨later, rejoined.symm⟩ with
    | idle _ noTimeouts noFetches =>
      unfold updaterAfter at stopped noTimeouts noFetches ⊢
      rw [rejoined, after_append]
      exact after_idle stopped noTimeouts noFetches noStart
    | waiting handle wait started =>
      rw [stopped] at started
      cases started
    | between handle wait started =>
      rw [stopped] at started
      cases started
    | fetching id started =>
      rw [stopped] at started
      cases started
  rw [halted]

/-- In every run in which the updater is stopped only while it waits, one chain
at most is live at any time, and none once it is stopped for good. -/
theorem one_chain_of_stops_waiting (settings : Settings) (history : List Event)
    (waits : ∀ past event, past ++ [event] <+: history →
      StopsWaiting (updaterAfter settings past) event) :
    ∀ past, past <+: history → OneChain settings past := by
  intro past within
  exact one_chain_of_phases settings past fun earlier before =>
    phase_after settings history (fun past event inside _ => waits past event inside) earlier
      (before.trans within)

/-- The settings of the updater. -/
def defaultSettings : Settings := ⟨30000, 1200, ⟨30, by decide, 30, fun _ => by decide⟩⟩

/-- The updater is stopped before its first rotation and started again. -/
theorem restart_before_rotation : OneChain defaultSettings [.start, .stop, .start] := by
  refine one_chain_of_stops_waiting defaultSettings [.start, .stop, .start] ?_ _ (List.prefix_refl _)
  rintro past event within rfl
  rcases past with _ | ⟨first, _ | ⟨second, _ | ⟨third, rest⟩⟩⟩
  · simp at within
  · simp only [List.cons_append, List.nil_append, List.cons_prefix_cons] at within
    obtain ⟨rfl, -, -⟩ := within
    simp [updaterAfter, after, step, start, Updater.armGlobal, Updater.setTimeout]
  · simp at within
  · simp at within

/-- A stop in any other phase leaves the chain alive, so that the next start
makes a second one. -/
theorem restart_doubles (settings : Settings) (phase : Phase updater)
    (underway : ¬ StopsWaiting updater .stop) :
    (start settings (stop updater)).chains = 2 := by
  cases phase with
  | idle stopped noTimeouts noFetches =>
    exact absurd (fun _ => ⟨noFetches, by simp [noTimeouts]⟩) underway
  | waiting handle wait started armed held noFetches fromStart =>
    exact absurd (fun _ => ⟨noFetches, by simp [armed]⟩) underway
  | between handle wait started armed held apart noFetches =>
    simp [stop, start, started, Updater.chains, Updater.armGlobal, Updater.setTimeout,
      Updater.clearTimeout, armed, apart.symm, noFetches]
  | fetching id started noTimeouts asked =>
    simp [stop, start, started, Updater.chains, Updater.armGlobal, Updater.setTimeout,
      Updater.clearTimeout, noTimeouts, asked]

/-- Exactly the runs that are stopped only while the updater waits can be
started again at any point. -/
theorem restart_safe_iff (settings : Settings) (history : List Event) :
    (∀ past, past <+: history → OneChain settings (past ++ [.start])) ↔
      ∀ past event, past ++ [event] <+: history →
        StopsWaiting (updaterAfter settings past) event := by
  constructor
  · intro safe past event within
    -- a stop that does not wait shows at the next start
    have waits (past : List Event) (event : Event) (within : past ++ [event] <+: history)
        (phase : Phase (updaterAfter settings past)) :
        StopsWaiting (updaterAfter settings past) event := by
      rintro rfl
      by_contra underway
      have doubled := restart_doubles settings phase fun waits => underway (waits rfl)
      have single := (safe _ within).single
      unfold updaterAfter at doubled single
      rw [after_concat, after_concat] at single
      simp only [step] at single
      omega
    have phase := phase_after settings history waits past
      ((List.prefix_append past [event]).trans within)
    exact waits past event within phase
  · intro waits past within
    apply one_chain_of_phases settings _
    intro earlier before
    refine phase_after settings (past ++ [.start]) ?_ earlier before
    intro earlier event inside _
    rcases List.prefix_concat_iff.mp inside with same | inPast
    · obtain ⟨_, isStart⟩ := List.append_inj' same rfl
      cases isStart
      intro isStop
      cases isStop
    · exact waits earlier event (inPast.trans within)

/-- A stop while the first part is being fetched, and a start. -/
def stoppedInFlight : List Event := [.start, .fire 0 0, .fire 0 0, .stop, .start]

/-- Then two chains are live. -/
theorem two_chains_live : ¬ OneChain defaultSettings stoppedInFlight := by
  intro oneChain
  have single := oneChain.single
  revert single
  decide

end NetGraphz.ClientUpdaterProofs
