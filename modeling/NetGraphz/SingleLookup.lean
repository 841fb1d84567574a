import NetGraphz.StatusServiceProofs

/-! Looking one host up against the batch lookup of the same host: the batch
gives what it has together with an error, and the single lookup keeps nothing
of it once any fetch of any source has failed. -/
namespace NetGraphz.SingleLookup
open SourcePasses StateCache StateCacheProofs StatusService StatusServiceProofs

/-- The source is there and answers this fetch. -/
def Answers (srv : Service) (sourceName : String) (fetch : Nat) (names : List String) : Prop :=
  ∃ src states, getSourceByName srv sourceName = some src ∧
    src.getHostsStateByName fetch names = .ok states

/-- Both fetches of a source are answered: of the hosts that have expired, and
of those that the cache does not have, as the loop finds them. -/
def BothAnswered (clock : Clock) (hostNames : List String) (serving : Serving)
    (source : StateSource × Nat) : Prop :=
  let lookups := lookUpAll serving.srv clock source.2 source.1.getFullName hostNames
  Answers serving.srv source.1.getFullName (2 * source.2) lookups.cacheExpiredHostnames ∧
    Answers serving.srv source.1.getFullName (2 * source.2 + 1) lookups.cacheMissed

/-- Every fetch of the call is answered, whichever source it goes to. -/
def AllAnswered (srv : Service) (clock : Clock) (hostNames : List String) : Prop :=
  ∀ past source, past ++ [source] <+: srv.sources.zipIdx →
    BothAnswered clock hostNames (past.foldl (serveSource clock hostNames) ⟨srv, ∅, none⟩) source

variable (clock : Clock) (hostNames : List String)

/-- A fetch reports an error exactly when it is not answered. -/
theorem fetch_error_eq_none_iff (srv : Service) (fetch : Nat) (m : NameMap) (names : List String)
    (sourceName : String) :
    (fetchCacheNameMap srv clock fetch m names sourceName).2.2.2 = none ↔
      Answers srv sourceName fetch names := by
  unfold fetchCacheNameMap Answers
  cases getSourceByName srv sourceName with
  | none => simp
  | some src => cases answer : src.getHostsStateByName fetch names <;> simp [answer]

/-- A fetch leaves the sources of the service alone. -/
theorem fetch_sources (srv : Service) (fetch : Nat) (m : NameMap) (names : List String)
    (sourceName : String) :
    (fetchCacheNameMap srv clock fetch m names sourceName).1.sources = srv.sources := by
  unfold fetchCacheNameMap
  cases getSourceByName srv sourceName with
  | none => rfl
  | some src =>
    cases answer : src.getHostsStateByName fetch names <;> simp only [answer, putStatesCache]

theorem answers_congr {srv srv' : Service} (same : srv'.sources = srv.sources)
    (sourceName : String) (fetch : Nat) (names : List String) :
    Answers srv' sourceName fetch names ↔ Answers srv sourceName fetch names := by
  simp only [Answers, getSourceByName, same]

/-- An error stays, and every fetch that fails sets one. -/
theorem serveSource_lastError_eq_none_iff (serving : Serving) (source : StateSource × Nat) :
    (serveSource clock hostNames serving source).lastError = none ↔
      serving.lastError = none ∧ BothAnswered clock hostNames serving source := by
  obtain ⟨src, i⟩ := source
  simp only [serveSource, BothAnswered]
  generalize lookUpAll serving.srv clock i src.getFullName hostNames = lookups
  have refresh := fetch_error_eq_none_iff clock serving.srv (2 * i)
    (statesToNameMap serving.m lookups.cacheFound) lookups.cacheExpiredHostnames src.getFullName
  have sources := fetch_sources clock serving.srv (2 * i)
    (statesToNameMap serving.m lookups.cacheFound) lookups.cacheExpiredHostnames src.getFullName
  generalize fetchCacheNameMap serving.srv clock (2 * i)
    (statesToNameMap serving.m lookups.cacheFound) lookups.cacheExpiredHostnames
    src.getFullName = refreshed at refresh sources ⊢
  obtain ⟨srv', m', count, err⟩ := refreshed
  have missed (m : NameMap) := fetch_error_eq_none_iff clock srv' (2 * i + 1) m
    lookups.cacheMissed src.getFullName
  simp only [answers_congr sources] at missed
  rw [← refresh]
  cases err with
  | none =>
    rw [← missed m']
    cases (fetchCacheNameMap srv' clock (2 * i + 1) m' lookups.cacheMissed
      src.getFullName).2.2.2 <;> simp
  | some err =>
    cases (fetchCacheNameMap srv' clock (2 * i + 1) (statesToNameMap m' lookups.cacheExpired)
      lookups.cacheMissed src.getFullName).2.2.2 <;> simp

/-- The loop ends without an error exactly when every fetch on its way was
answered. -/
theorem lastError_eq_none_iff (sources : List (StateSource × Nat)) (start : Serving) :
    (sources.foldl (serveSource clock hostNames) start).lastError = none ↔
      start.lastError = none ∧ ∀ past source, past ++ [source] <+: sources →
        BothAnswered clock hostNames (past.foldl (serveSource clock hostNames) start) source := by
  induction sources using List.reverseRecOn with
  | nil => simp
  | append_singleton before last ih =>
    rw [List.foldl_append, List.foldl_cons, List.foldl_nil, serveSource_lastError_eq_none_iff, ih,
      and_assoc]
    apply and_congr_right
    intro _
    constructor
    · rintro ⟨earlier, answered⟩ past source within
      rcases List.prefix_concat_iff.mp within with whole | within
      · obtain ⟨rfl, same⟩ := List.append_inj' whole rfl
        cases same
        exact answered
      · exact earlier past source within
    · intro all
      refine ⟨?_, all before last (List.prefix_refl _)⟩
      intro past source within
      exact all past source (within.trans (List.prefix_append before [last]))

theorem getHostsStatusByName_lastError_iff (srv : Service) :
    (getHostsStatusByName srv clock hostNames).lastError = none ↔
      AllAnswered srv clock hostNames := by
  rw [getHostsStatusByName, lastError_eq_none_iff, AllAnswered]
  simp

/-- What a batch lookup has under a host, the single lookup gives if there was
no error, and drops if there was one. -/
theorem getHostStatusByName_of_served (srv : Service) (hostName : String)
    (served : statesOf (getHostsStatusByName srv clock [hostName]).m hostName ≠ []) :
    (getHostStatusByName srv clock hostName).2 =
      match (getHostsStatusByName srv clock [hostName]).lastError with
      | some err => .error err
      | none => .ok (statesOf (getHostsStatusByName srv clock [hostName]).m hostName) := by
  have some : (getHostsStatusByName srv clock [hostName]).m ≠ ∅ := by
    intro empty
    rw [empty] at served
    exact served rfl
  rw [getHostStatusByName]
  cases (getHostsStatusByName srv clock [hostName]).lastError with
  | some err => rfl
  | none => simp only [if_neg some]

/-- The single lookup gives what the batch lookup has under the host. -/
def GivesBatchStates (srv : Service) (hostName : String) : Prop :=
  (getHostStatusByName srv clock hostName).2 =
    .ok (statesOf (getHostsStatusByName srv clock [hostName]).m hostName)

theorem givesBatchStates_iff_lastError (srv : Service) (hostName : String)
    (served : statesOf (getHostsStatusByName srv clock [hostName]).m hostName ≠ []) :
    GivesBatchStates clock srv hostName ↔
      (getHostsStatusByName srv clock [hostName]).lastError = none := by
  rw [GivesBatchStates, getHostStatusByName_of_served clock srv hostName served]
  cases (getHostsStatusByName srv clock [hostName]).lastError <;> simp

/-- **A single lookup needs every source.** Where the batch lookup has states of
the host, the single lookup gives them exactly when every source answers both
of its fetches, those with nothing to fetch included. -/
theorem single_lookup_iff_all_answered (srv : Service) (hostName : String)
    (served : statesOf (getHostsStatusByName srv clock [hostName]).m hostName ≠ []) :
    GivesBatchStates clock srv hostName ↔ AllAnswered srv clock [hostName] :=
  (givesBatchStates_iff_lastError clock srv hostName served).trans
    (getHostsStatusByName_lastError_iff clock [hostName] srv)

/-- For sources with names of their own, the fetches can be told from the cache
as it stood before the call. -/
theorem single_lookup_iff_sources_up (srv : Service) (hostName : String)
    (served : statesOf (getHostsStatusByName srv clock [hostName]).m hostName ≠ [])
    (named : (srv.sources.map StateSource.getFullName).Nodup)
    (own : ∀ src ∈ srv.sources, OwnStates src) (indexed : Indexed srv.cache) :
    GivesBatchStates clock srv hostName ↔
      ∀ source ∈ srv.sources.zipIdx, failureOf clock [hostName] source srv = none := by
  rw [givesBatchStates_iff_lastError clock srv hostName served,
    getHostsStatusByName_eq clock [hostName] srv named own indexed, ← Option.not_isSome_iff_eq_none,
    foldl_or_isSome]
  simp

/-- The monitoring source that is up answers every fetch. -/
theorem single_lookup_of_answering_source :
    let core : HostState := { source := "icinga", hostName := "core" }
    let icinga : StateSource := ⟨"icinga", fun _ names => .ok (if "core" ∈ names then [core] else [])⟩
    GivesBatchStates ⟨fun _ _ => 10, fun _ _ => 10⟩ ⟨[icinga], newMemoryStateCache, 5⟩ "core" := by
  intro core icinga
  apply (single_lookup_iff_all_answered _ _ "core" (by decide)).mpr
  intro past source within
  have first : past = [] ∧ source = (icinga, 0) := by
    obtain ⟨rest, whole⟩ := within
    cases past with
    | nil => exact ⟨rfl, (List.cons.inj whole).1⟩
    | cons => simp at whole
  obtain ⟨rfl, rfl⟩ := first
  exact ⟨⟨icinga, _, rfl, rfl⟩, ⟨icinga, _, rfl, rfl⟩⟩

/-- The only source is down, the batch lookup serves the expired state, and the
single lookup gives the error alone. -/
theorem down_source_hides_cached_state :
    ¬ ∀ (srv : Service) (clock : Clock) (hostName : String) (updates : List Update),
      srv.cache = cacheAfter updates →
      statesOf (getHostsStatusByName srv clock [hostName]).m hostName ≠ [] →
      GivesBatchStates clock srv hostName := by
  intro claimed
  let core : HostState := { source := "icinga", hostName := "core" }
  let icinga : StateSource := ⟨"icinga", fun _ _ => .error "timeout"⟩
  let srv : Service := ⟨[icinga], cacheAfter [(core, 0)], 5⟩
  let clock : Clock := ⟨fun _ _ => 10, fun _ _ => 10⟩
  have served : statesOf (getHostsStatusByName srv clock ["core"]).m "core" = [core] := by decide
  have gives := claimed srv clock "core" [(core, 0)] rfl (by rw [served]; simp)
  have failed : (getHostStatusByName srv clock "core").2 = .error "timeout" := rfl
  rw [GivesBatchStates, failed] at gives
  cases gives

end NetGraphz.SingleLookup
