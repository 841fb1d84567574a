import NetGraphz.Base.Keyed
import NetGraphz.Base.Multimap
import NetGraphz.SourcePasses
import NetGraphz.StatusService

/-! What a call of the status service serves: under each host, source by
source, the cached state where it is recent, else the fetched one, else the
expired one where the refresh failed. -/
namespace NetGraphz.StatusServiceProofs
open SourcePasses StateCache StateCacheProofs StatusService

/-! ## The map of states -/

/-- No host is listed without a state. -/
def NoneEmpty (m : NameMap) : Prop := ∀ hostName, m.lookup hostName ≠ some []

/-- A state joins those of its host, as in any such map. -/
theorem statesOf_push (m : NameMap) (own hostName : String) (state : HostState) :
    statesOf (m.insert own (statesOf m own ++ [state])) hostName =
      if hostName = own then statesOf m hostName ++ [state] else statesOf m hostName :=
  Multimap.under_push m own hostName state

/-- Each state joins the others of its host. -/
theorem statesOf_statesToNameMap (m : NameMap) (states : List HostState) (hostName : String) :
    statesOf (statesToNameMap m states) hostName =
      statesOf m hostName ++ states.filter fun state => state.hostName = hostName := by
  unfold statesToNameMap
  induction states generalizing m with
  | nil => simp
  | cons state rest ih =>
    rw [List.foldl_cons, ih, statesOf_push, List.filter_cons]
    by_cases same : hostName = state.hostName
    · simp [same]
    · simp [same, Ne.symm same]

theorem noneEmpty_empty : NoneEmpty ∅ := Multimap.noneEmpty_empty

theorem noneEmpty_statesToNameMap (full : NoneEmpty m) (states : List HostState) :
    NoneEmpty (statesToNameMap m states) := by
  unfold statesToNameMap
  induction states generalizing m with
  | nil => exact full
  | cons state rest ih => exact ih (Multimap.NoneEmpty.push full state.hostName state)

/-- Such a map is what it has under each host. -/
theorem NoneEmpty.lookup_eq (full : NoneEmpty m) (hostName : String) :
    m.lookup hostName = if statesOf m hostName = [] then none else some (statesOf m hostName) :=
  Multimap.NoneEmpty.lookup_eq full hostName

theorem NoneEmpty.eq_empty_iff (full : NoneEmpty m) : m = ∅ ↔ ∀ hostName, statesOf m hostName = [] :=
  Multimap.NoneEmpty.eq_empty_iff full

/-! ## A source's pass over the hosts -/

/-- What the cache has of one source, by host. -/
abbrev Known := Records String

variable (ttl : Duration) (known : Known) (now : Nat → Time)

/-- The cached records of one source. -/
def knownOf (cache : MemoryStateCache) (source : String) : Known :=
  fun hostName => getByName cache hostName source

/-- The pass sorts the hosts into the three kinds, in order. -/
theorem lookUpAll_eq (srv : Service) (clock : Clock) (i : Nat) (source : String)
    (hostNames : List String) :
    let known := knownOf srv.cache source
    let hosts := hostNames.zipIdx
    lookUpAll srv clock i source hostNames =
      ⟨hosts.filterMap (missed known),
        hosts.filterMap (expired srv.cacheTtl known (clock.lookup i)),
        (hosts.filterMap (expired srv.cacheTtl known (clock.lookup i))).map HostState.hostName,
        hosts.filterMap (recent srv.cacheTtl known (clock.lookup i))⟩ := by
  intro known hosts
  refine pass_eq srv.cacheTtl known (clock.lookup i)
    (fun missed expired found => Lookups.mk missed expired (expired.map HostState.hostName) found)
    _ ?_ hosts
  intro missed expired found host
  cases cached : getByName srv.cache host.1 source <;> simp [lookUp, known, knownOf, cached]

/-! ## One source -/

variable (clock : Clock) (hostNames : List String) (source : StateSource × Nat)

def freshStates : List HostState :=
  hostNames.zipIdx.filterMap (recent ttl known (clock.lookup source.2))

def expiredStates : List HostState :=
  hostNames.zipIdx.filterMap (expired ttl known (clock.lookup source.2))

def missedHosts : List String := hostNames.zipIdx.filterMap (missed known)

/-- The answer to the fetch of the expired hosts. -/
def refreshAnswer : Except String (List HostState) :=
  source.1.getHostsStateByName (2 * source.2)
    ((expiredStates ttl known clock hostNames source).map HostState.hostName)

/-- The answer to the fetch of the missed hosts. -/
def missedAnswer : Except String (List HostState) :=
  source.1.getHostsStateByName (2 * source.2 + 1) (missedHosts known hostNames)

/-- All the states a source adds to the map. -/
def contribution : List HostState :=
  freshStates ttl known clock hostNames source ++
    (statesOr (refreshAnswer ttl known clock hostNames source)
        (expiredStates ttl known clock hostNames source) ++
      statesOr (missedAnswer known hostNames source) [])

/-- All the states a source's fetches put into the cache. -/
def puts : List Update :=
  stamped (clock.put (2 * source.2)) (statesOr (refreshAnswer ttl known clock hostNames source) [])
    ++ stamped (clock.put (2 * source.2 + 1)) (statesOr (missedAnswer known hostNames source) [])

theorem statesToNameMap_append (m : NameMap) (states more : List HostState) :
    statesToNameMap m (states ++ more) = statesToNameMap (statesToNameMap m states) more := by
  rw [statesToNameMap, List.foldl_append]
  rfl

/-- A fetch in one equation, whether it fails or not. -/
theorem fetchCacheNameMap_eq (srv : Service) (fetch : Nat) (m : NameMap) (names : List String)
    {src : StateSource} (found : getSourceByName srv src.getFullName = some src) :
    let answer := src.getHostsStateByName fetch names
    fetchCacheNameMap srv clock fetch m names src.getFullName =
      ({ srv with cache := (stamped (clock.put fetch) (statesOr answer [])).foldl update srv.cache },
        statesToNameMap m (statesOr answer []), (statesOr answer []).length, failure answer) := by
  intro answer
  unfold fetchCacheNameMap
  rw [found]
  exact fetch_eq (putStatesCache · (clock.put fetch)) statesToNameMap (fun _ => rfl) (fun _ => rfl)
    answer srv m

/-- The loop's body in one equation. -/
theorem serveSource_eq (serving : Serving)
    (found : getSourceByName serving.srv source.1.getFullName = some source.1) :
    let ttl := serving.srv.cacheTtl
    let known := knownOf serving.srv.cache source.1.getFullName
    serveSource clock hostNames serving source =
      ⟨{ serving.srv with
          cache := (puts ttl known clock hostNames source).foldl update serving.srv.cache },
        statesToNameMap serving.m (contribution ttl known clock hostNames source),
        (failure (missedAnswer known hostNames source)).or
          ((failure (refreshAnswer ttl known clock hostNames source)).or serving.lastError)⟩ := by
  intro ttl known
  obtain ⟨src, i⟩ := source
  simp only [serveSource, lookUpAll_eq, fetchCacheNameMap_eq clock serving.srv _ _ _ found]
  rw [fetchCacheNameMap_eq clock _ _ _ _ (by exact found)]
  simp only [puts, List.foldl_append]
  exact serve_eq statesToNameMap (fun _ => rfl) statesToNameMap_append
    (refreshAnswer ttl known clock hostNames (src, i)) (missedAnswer known hostNames (src, i)) _ _ _
    (Serving.mk _) _

/-! ## All sources -/

/-- Every state a source answers with names that source. -/
def OwnStates (src : StateSource) : Prop :=
  ∀ fetch names states, src.getHostsStateByName fetch names = .ok states →
    ∀ state ∈ states, state.source = src.getFullName

theorem OwnStates.statesOr (own : OwnStates src) (fetch : Nat) (names : List String) :
    ∀ state ∈ statesOr (src.getHostsStateByName fetch names) [], state.source = src.getFullName := by
  cases answer : src.getHostsStateByName fetch names with
  | ok states => exact own fetch names states answer
  | error err => simp [SourcePasses.statesOr]

/-- A source only ever updates its own part of the cache. -/
theorem puts_source (own : OwnStates source.1) (member : entry ∈ puts ttl known clock hostNames source) :
    entry.1.source = source.1.getFullName :=
  source_of_stamped (own.statesOr _ _) (own.statesOr _ _) member

theorem knownOf_foldl (indexed : Indexed cache) (updates : List Update)
    (others : ∀ entry ∈ updates, entry.1.source ≠ name) :
    knownOf (updates.foldl update cache) name = knownOf cache name := by
  refine records_foldl (knownOf · name) ?_ indexed updates others
  intro cache entry indexed apart
  funext hostName
  rw [knownOf, indexed.getByName_update, if_neg (fun same => apart same.2)]
  rfl

theorem getSourceByName_of_mem (named : (srv.sources.map StateSource.getFullName).Nodup)
    (member : src ∈ srv.sources) : getSourceByName srv src.getFullName = some src :=
  Keyed.find_of_mem named member

variable (srv : Service)

/-- What a source adds to the map, as the cache stood before the call. -/
def contributionOf : List HostState :=
  contribution srv.cacheTtl (knownOf srv.cache source.1.getFullName) clock hostNames source

/-- The errors of a source's fetches, the later one first. -/
def failureOf : Option String :=
  let known := knownOf srv.cache source.1.getFullName
  (failure (missedAnswer known hostNames source)).or
    (failure (refreshAnswer srv.cacheTtl known clock hostNames source))

def putsOf : List Update :=
  puts srv.cacheTtl (knownOf srv.cache source.1.getFullName) clock hostNames source

/-- A loop over some of the sources, in one equation. -/
theorem serve_prefix (named : (srv.sources.map StateSource.getFullName).Nodup)
    (own : ∀ src ∈ srv.sources, OwnStates src) (indexed : Indexed srv.cache)
    (passed : List (StateSource × Nat)) (within : passed <+: srv.sources.zipIdx) :
    passed.foldl (serveSource clock hostNames) ⟨srv, ∅, none⟩ =
      ⟨{ srv with
          cache := (passed.flatMap fun source => putsOf clock hostNames source srv).foldl update
            srv.cache },
        statesToNameMap ∅ (passed.flatMap fun source => contributionOf clock hostNames source srv),
        passed.foldl (fun err source => (failureOf clock hostNames source srv).or err) none⟩ := by
  have mine : ∀ source ∈ srv.sources.zipIdx, source.1 ∈ srv.sources :=
    fun source member => List.fst_mem_of_mem_zipIdx member
  induction passed using List.reverseRecOn with
  | nil => rfl
  | append_singleton past source ih =>
    have earlier := (List.prefix_append past [source]).trans within
    have apart := Keyed.earlier_apart named within
    have member := mine source
      (within.subset (List.mem_append_right past (List.mem_singleton_self source)))
    -- what the sources before put into the cache is not this source's
    have untouched : knownOf ((past.flatMap fun source => putsOf clock hostNames source srv).foldl
        update srv.cache) source.1.getFullName = knownOf srv.cache source.1.getFullName := by
      apply knownOf_foldl indexed
      intro entry put
      obtain ⟨other, past', put⟩ := List.mem_flatMap.mp put
      rw [puts_source _ _ _ _ _ (own _ (mine other (earlier.subset past'))) put]
      exact apart other past'
    have found : ∀ cache, getSourceByName { srv with cache := cache } source.1.getFullName =
        some source.1 := fun _ => getSourceByName_of_mem named member
    rw [List.foldl_append, ih earlier, List.foldl_cons, List.foldl_nil,
      serveSource_eq _ _ _ _ (found _)]
    simp only [untouched, List.flatMap_append, List.flatMap_singleton, List.foldl_append,
      statesToNameMap_append, List.foldl_cons, List.foldl_nil]
    simp only [contributionOf, putsOf, failureOf, Option.or_assoc]

/-- The whole call. -/
theorem getHostsStatusByName_eq (named : (srv.sources.map StateSource.getFullName).Nodup)
    (own : ∀ src ∈ srv.sources, OwnStates src) (indexed : Indexed srv.cache) :
    let sources := srv.sources.zipIdx
    getHostsStatusByName srv clock hostNames =
      ⟨{ srv with
          cache := (sources.flatMap fun source => putsOf clock hostNames source srv).foldl update
            srv.cache },
        statesToNameMap ∅ (sources.flatMap fun source => contributionOf clock hostNames source srv),
        sources.foldl (fun err source => (failureOf clock hostNames source srv).or err) none⟩ :=
  serve_prefix clock hostNames srv named own indexed _ (List.prefix_refl _)

theorem statesOf_getHostsStatusByName (named : (srv.sources.map StateSource.getFullName).Nodup)
    (own : ∀ src ∈ srv.sources, OwnStates src) (indexed : Indexed srv.cache) (hostName : String) :
    statesOf (getHostsStatusByName srv clock hostNames).m hostName =
      srv.sources.zipIdx.flatMap fun source =>
        (contributionOf clock hostNames source srv).filter fun state => state.hostName = hostName := by
  rw [getHostsStatusByName_eq clock hostNames srv named own indexed, statesOf_statesToNameMap,
    List.filter_flatMap]
  simp [statesOf]

theorem noneEmpty_getHostsStatusByName (named : (srv.sources.map StateSource.getFullName).Nodup)
    (own : ∀ src ∈ srv.sources, OwnStates src) (indexed : Indexed srv.cache) :
    NoneEmpty (getHostsStatusByName srv clock hostNames).m := by
  rw [getHostsStatusByName_eq clock hostNames srv named own indexed]
  exact noneEmpty_statesToNameMap noneEmpty_empty _

theorem foldl_or_isSome (sources : List α) (fault : α → Option String) :
    (sources.foldl (fun err source => (fault source).or err) none).isSome ↔
      ∃ source ∈ sources, (fault source).isSome := by
  induction sources using List.reverseRecOn with
  | nil => simp
  | append_singleton past source ih =>
    rw [List.foldl_append, List.foldl_cons, List.foldl_nil, Option.isSome_or, Bool.or_eq_true, ih]
    simp only [List.mem_append, List.mem_singleton, or_and_right, exists_or, exists_eq_left]
    exact or_comm

/-! ## Requests that name each host once -/

/-- What a successful fetch of a source is: at most one state for each host
asked for, none for another host, and each state the source's own. -/
structure Honest (src : StateSource) : Prop where
  own : OwnStates src
  one : ∀ {fetch names states}, src.getHostsStateByName fetch names = .ok states →
    (states.map HostState.hostName).Nodup
  asked : ∀ {fetch names states}, src.getHostsStateByName fetch names = .ok states →
    ∀ state ∈ states, state.hostName ∈ names

/-- The state for a host in an answer. -/
def stateIn (states : List HostState) (hostName : String) : Option HostState :=
  states.find? fun state => state.hostName = hostName

/-- What a source serves for a host: its cached state while that is recent,
then the state its fetch brought, and the expired one if its refresh failed. -/
def servedState (hostName : String) : Option HostState :=
  match known hostName with
  | none => stateIn (statesOr (missedAnswer known hostNames source) []) hostName
  | some record =>
    if (clock.lookup source.2 (hostNames.idxOf hostName)).sub record.time ≤ ttl then
      some record.state
    else
      match refreshAnswer ttl known clock hostNames source with
      | .ok states => stateIn states hostName
      | .error _ => some record.state

/-- In a list of different hosts, those picked under one host are the one
picked for it. -/
theorem filter_filterMap_zipIdx (distinct : hostNames.Nodup)
    (pick : String × Nat → Option HostState)
    (keyed : ∀ host state, pick host = some state → state.hostName = host.1) (hostName : String) :
    (hostNames.zipIdx.filterMap pick).filter (fun state => state.hostName = hostName) =
      if hostName ∈ hostNames then (pick (hostName, hostNames.idxOf hostName)).toList else [] := by
  suffices ∀ start, ((hostNames.zipIdx start).filterMap pick).filter
      (fun state => state.hostName = hostName) =
        if hostName ∈ hostNames then
          (pick (hostName, start + hostNames.idxOf hostName)).toList else [] by
    simpa using this 0
  induction hostNames with
  | nil => simp
  | cons first rest ih =>
    intro start
    obtain ⟨absent, distinct⟩ := List.nodup_cons.mp distinct
    have later := ih distinct (start + 1)
    rw [List.zipIdx_cons, List.filterMap_cons]
    by_cases same : first = hostName
    · subst same
      rw [if_neg absent] at later
      cases picked : pick (first, start) with
      | none => simp [later, picked]
      | some state => simp [later, picked, keyed _ _ picked]
    · have position : start + 1 + rest.idxOf hostName = start + (first :: rest).idxOf hostName := by
        rw [List.idxOf_cons_ne _ same]
        omega
      rw [position] at later
      cases picked : pick (first, start) with
      | none => simp [later, Ne.symm same]
      | some state => simp [later, keyed _ _ picked, same, Ne.symm same]

theorem filter_of_nodup (one : (states.map HostState.hostName).Nodup) (hostName : String) :
    states.filter (fun state => state.hostName = hostName) = (stateIn states hostName).toList := by
  unfold stateIn
  induction states with
  | nil => rfl
  | cons state rest ih =>
    obtain ⟨absent, one⟩ := List.nodup_cons.mp one
    by_cases same : state.hostName = hostName
    · have others : rest.filter (fun state => state.hostName = hostName) = [] := by
        apply List.filter_eq_nil_iff.mpr
        intro other member
        have apart : other.hostName ≠ state.hostName :=
          fun again => absent (again ▸ List.mem_map_of_mem member)
        simpa [← same] using apart
      simp [same, others]
    · simp [same, ih one]

/-- Every record of a source is filed under its host. -/
def Keyed (known : Known) : Prop :=
  ∀ hostName record, known hostName = some record → record.state.hostName = hostName

theorem keyed_knownOf (indexed : Indexed cache) (source : String) : Keyed (knownOf cache source) :=
  fun _ _ found => (indexed.getByName_keyed found).1

variable {known}

theorem Keyed.fresh (keyed : Keyed known) (ttl : Duration) (now : Nat → Time)
    (host : String × Nat) (state : HostState) (picked : recent ttl known now host = some state) :
    state.hostName = host.1 := by
  obtain ⟨record, found, recent⟩ := Option.bind_eq_some_iff.mp picked
  split at recent
  · cases recent
  · cases recent
    exact keyed _ _ found

theorem Keyed.expired (keyed : Keyed known) (ttl : Duration) (now : Nat → Time)
    (host : String × Nat) (state : HostState) (picked : expired ttl known now host = some state) :
    state.hostName = host.1 := by
  obtain ⟨record, found, old⟩ := Option.bind_eq_some_iff.mp picked
  split at old
  · cases old
    exact keyed _ _ found
  · cases old

theorem mem_missedHosts :
    hostName ∈ missedHosts known hostNames ↔ hostName ∈ hostNames ∧ known hostName = none := by
  simp only [missedHosts, List.mem_filterMap, missed, Option.isNone_iff_eq_none]
  constructor
  · rintro ⟨⟨host, i⟩, member, picked⟩
    split at picked
    · cases picked
      exact ⟨List.fst_mem_of_mem_zipIdx member, by assumption⟩
    · cases picked
  · rintro ⟨member, none⟩
    obtain ⟨i, within, rfl⟩ := List.getElem_of_mem member
    exact ⟨(hostNames[i], i), by simp [List.mem_zipIdx_iff_getElem?, within], by simp [none]⟩

variable {ttl clock hostNames source srv}

/-- What a fetch brings for a host it is asked for. -/
theorem Honest.filter_asked (honest : Honest src) (fetch : Nat) (names : List String)
    (hostName : String) :
    (statesOr (src.getHostsStateByName fetch names) []).filter
        (fun state => state.hostName = hostName) =
      (stateIn (statesOr (src.getHostsStateByName fetch names) []) hostName).toList := by
  cases answer : src.getHostsStateByName fetch names with
  | ok states => exact filter_of_nodup (honest.one answer) hostName
  | error err => rfl

/-- What a fetch brings for a host it is not asked for, with what stands in for
it when it fails. -/
theorem Honest.filter_not_asked (honest : Honest src) (fetch : Nat) (absent : hostName ∉ names)
    (none : otherwise.filter (fun state : HostState => state.hostName = hostName) = []) :
    (statesOr (src.getHostsStateByName fetch names) otherwise).filter
        (fun state => state.hostName = hostName) = [] := by
  cases answer : src.getHostsStateByName fetch names with
  | ok states =>
    apply List.filter_eq_nil_iff.mpr
    intro state member
    have asked := honest.asked answer state member
    have apart : state.hostName ≠ hostName := fun same => absent (same ▸ asked)
    simpa using apart
  | error err => exact none

/-- A refresh adds nothing under a host that has not expired. -/
theorem Honest.filter_refresh (honest : Honest source.1)
    (none : (expiredStates ttl known clock hostNames source).filter
      (fun state => state.hostName = hostName) = []) :
    (statesOr (refreshAnswer ttl known clock hostNames source)
        (expiredStates ttl known clock hostNames source)).filter
      (fun state => state.hostName = hostName) = [] := by
  refine honest.filter_not_asked (2 * source.2) ?_ none
  intro asked
  obtain ⟨state, member, same⟩ := List.mem_map.mp asked
  have absent := List.filter_eq_nil_iff.mp none state member
  simp [same] at absent

section
variable (distinct : hostNames.Nodup) (keyed : Keyed known)
include distinct keyed

theorem filter_freshStates (hostName : String) :
    (freshStates ttl known clock hostNames source).filter (fun state => state.hostName = hostName) =
      if hostName ∈ hostNames then
        (recent ttl known (clock.lookup source.2) (hostName, hostNames.idxOf hostName)).toList
      else [] :=
  filter_filterMap_zipIdx hostNames distinct _ (keyed.fresh ttl (clock.lookup source.2)) hostName

theorem filter_expiredStates (hostName : String) :
    (expiredStates ttl known clock hostNames source).filter
        (fun state => state.hostName = hostName) =
      if hostName ∈ hostNames then
        (expired ttl known (clock.lookup source.2) (hostName, hostNames.idxOf hostName)).toList
      else [] :=
  filter_filterMap_zipIdx hostNames distinct _ (keyed.expired ttl (clock.lookup source.2)) hostName

variable (honest : Honest source.1)
include honest

/-- Under a requested host a source adds the state it serves, if any. -/
theorem filter_contribution (requested : hostName ∈ hostNames) :
    (contribution ttl known clock hostNames source).filter
        (fun state => state.hostName = hostName) =
      (servedState ttl known clock hostNames source hostName).toList := by
  have recent : (freshStates ttl known clock hostNames source).filter
      (fun state => state.hostName = hostName) = _ := filter_freshStates distinct keyed hostName
  have old : (expiredStates ttl known clock hostNames source).filter
      (fun state => state.hostName = hostName) = _ := filter_expiredStates distinct keyed hostName
  rw [if_pos requested] at recent old
  rw [contribution, List.filter_append, List.filter_append, recent]
  cases found : known hostName with
  | none =>
    have never : (expiredStates ttl known clock hostNames source).filter
        (fun state => state.hostName = hostName) = [] := by
      rw [old]
      simp [expired, found]
    have fetch := honest.filter_asked (2 * source.2 + 1) (missedHosts known hostNames) hostName
    rw [honest.filter_refresh never, missedAnswer, fetch]
    simp [SourcePasses.recent, found, servedState, missedAnswer]
  | some record =>
    have present : hostName ∉ missedHosts known hostNames := by
      rw [mem_missedHosts, found]
      simp
    have fetch := honest.filter_not_asked (2 * source.2 + 1) present List.filter_nil
    rw [missedAnswer, fetch, List.append_nil]
    by_cases within : (clock.lookup source.2 (hostNames.idxOf hostName)).sub record.time ≤ ttl
    · have never : (expiredStates ttl known clock hostNames source).filter
          (fun state => state.hostName = hostName) = [] := by
        rw [old]
        simp [expired, found, within]
      rw [honest.filter_refresh never]
      simp [SourcePasses.recent, found, servedState, within]
    · have passed := Int.not_le.mp within
      have none : SourcePasses.recent ttl known (clock.lookup source.2)
          (hostName, hostNames.idxOf hostName) = none := by
        simp [SourcePasses.recent, found, passed]
      have some : expired ttl known (clock.lookup source.2)
          (hostName, hostNames.idxOf hostName) = some record.state := by
        simp [expired, found, passed]
      rw [none, Option.toList_none, List.nil_append]
      simp only [servedState, found, if_neg within]
      cases answer : refreshAnswer ttl known clock hostNames source with
      | ok states => exact filter_of_nodup (honest.one answer) hostName
      | error err =>
        rw [statesOr, old, some]

/-- Nothing is listed under a host that was not requested. -/
theorem filter_contribution_not_requested (absent : hostName ∉ hostNames) :
    (contribution ttl known clock hostNames source).filter
        (fun state => state.hostName = hostName) = [] := by
  have recent : (freshStates ttl known clock hostNames source).filter
      (fun state => state.hostName = hostName) = _ := filter_freshStates distinct keyed hostName
  have old : (expiredStates ttl known clock hostNames source).filter
      (fun state => state.hostName = hostName) = _ := filter_expiredStates distinct keyed hostName
  rw [if_neg absent] at recent old
  have missing : hostName ∉ missedHosts known hostNames := by
    rw [mem_missedHosts]
    exact fun asked => absent asked.1
  have fetch := honest.filter_not_asked (2 * source.2 + 1) missing List.filter_nil
  rw [contribution, List.filter_append, List.filter_append, recent, honest.filter_refresh old,
    missedAnswer, fetch]
  rfl

end

/-- **Each source serves its state of each host.** Under a requested host the
map has, source by source, the state served for it, and no entry when there is
none; it has nothing else; and the error is set exactly when a fetch failed. -/
theorem each_source_serves_its_state (srv : Service) (clock : Clock) (hostNames : List String)
    (updates : List Update) (reachable : srv.cache = cacheAfter updates)
    (distinct : hostNames.Nodup) (named : (srv.sources.map StateSource.getFullName).Nodup)
    (honest : ∀ src ∈ srv.sources, Honest src) :
    let served := getHostsStatusByName srv clock hostNames
    let known (source : StateSource × Nat) := knownOf srv.cache source.1.getFullName
    (∀ hostName ∈ hostNames,
      statesOf served.m hostName = srv.sources.zipIdx.filterMap fun source =>
        servedState srv.cacheTtl (known source) clock hostNames source hostName) ∧
    (∀ hostName, hostName ∉ hostNames → statesOf served.m hostName = []) ∧
    (∀ hostName, served.m.lookup hostName ≠ some []) ∧
    (served.lastError ≠ none ↔ ∃ source ∈ srv.sources.zipIdx,
      failure (missedAnswer (known source) hostNames source) ≠ none ∨
        failure (refreshAnswer srv.cacheTtl (known source) clock hostNames source) ≠ none) := by
  intro served known
  have indexed : Indexed srv.cache := reachable ▸ indexed_cacheAfter updates
  have keyed := fun source : StateSource × Nat => keyed_knownOf indexed source.1.getFullName
  have own : ∀ src ∈ srv.sources, OwnStates src := fun src member => (honest src member).own
  have truthful : ∀ source ∈ srv.sources.zipIdx, Honest source.1 :=
    fun source member => honest _ (List.fst_mem_of_mem_zipIdx member)
  have listed := statesOf_getHostsStatusByName clock hostNames srv named own indexed
  refine ⟨?_, ?_, noneEmpty_getHostsStatusByName clock hostNames srv named own indexed, ?_⟩
  · intro hostName requested
    rw [listed, List.filterMap_eq_flatMap_toList]
    apply List.flatMap_congr
    intro source member
    exact filter_contribution distinct (keyed source) (truthful source member) requested
  · intro hostName absent
    rw [listed]
    apply List.flatMap_eq_nil_iff.mpr
    intro source member
    exact filter_contribution_not_requested distinct (keyed source) (truthful source member) absent
  · have errors : served.lastError = _ := congrArg Serving.lastError
      (getHostsStatusByName_eq clock hostNames srv named own indexed)
    rw [errors, ← Option.isSome_iff_ne_none, foldl_or_isSome]
    simp only [failureOf, Option.isSome_or, Bool.or_eq_true, Option.isSome_iff_ne_none]
    rfl

/-- An expired state is served on while its source is down. -/
theorem expired_state_outlives_its_source :
    let edge : HostState := { source := "spare", hostName := "edge" }
    let icinga : StateSource := ⟨"icinga", fun _ names =>
      .ok (if "core" ∈ names then [{ source := "icinga", hostName := "core" }] else [])⟩
    let spare : StateSource := ⟨"spare", fun _ names =>
      if names = [] then .ok [] else .error "timeout"⟩
    let srv : Service := ⟨[icinga, spare], cacheAfter [(edge, 0)], 5⟩
    let clock : Clock := ⟨fun _ _ => 10, fun _ _ => 10⟩
    statesOf (getHostsStatusByName srv clock ["core", "edge"]).m "edge" = [edge] := by
  intro edge icinga spare srv clock
  have honest : ∀ src ∈ srv.sources, Honest src := by
    intro src member
    rcases List.mem_pair.mp member with rfl | rfl
    · refine ⟨?_, ?_, ?_⟩
      all_goals
        intro fetch names states answer
        cases answer
        split <;> simp_all [icinga]
    · refine ⟨?_, ?_, ?_⟩
      all_goals
        intro fetch names states answer
        by_cases empty : names = [] <;> simp_all [spare]
  have served := (each_source_serves_its_state srv clock ["core", "edge"] [(edge, 0)] rfl
    (by decide) (by decide) honest).1 "edge" (by decide)
  exact served.trans (by decide)

end NetGraphz.StatusServiceProofs
