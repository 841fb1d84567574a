import NetGraphz.StatusServiceProofs
import Mathlib.Algebra.Order.BigOperators.Group.List
import Mathlib.Algebra.Order.Group.Nat
import Mathlib.Data.Multiset.Defs

/-! Whether the cache shows. Against sources that always answer the same, a
call is served the same states from any cache the service can have, unless a
host that the request repeats is found in it. -/
namespace NetGraphz.CacheTransparency
open SourcePasses StateCache StateCacheProofs StatusService StatusServiceProofs

/-- Two maps hold the same states under the same hosts, in any order. -/
def SameStates (m m' : NameMap) : Prop :=
  ∀ hostName, (m.lookup hostName).map (Multiset.ofList) = (m'.lookup hostName).map Multiset.ofList

/-- A source that always answers with one state for each host it knows. -/
structure Steady (src : StateSource) (answer : String → Option HostState) : Prop where
  answers : ∀ fetch names, ∃ states, src.getHostsStateByName fetch names = .ok states ∧
    states.Perm (names.dedup.filterMap answer)
  keyed : ∀ {hostName state}, answer hostName = some state →
    state.hostName = hostName ∧ state.source = src.getFullName

/-- The cache of a source holds only what the source answers. -/
def Recalls (known : Known) (answer : String → Option HostState) : Prop :=
  ∀ hostName record, known hostName = some record → answer hostName = some record.state

variable {src : StateSource} {answer : String → Option HostState}

/-- What such a source answers, it answers for that very host. -/
theorem Steady.of_mem (steady : Steady src answer)
    (member : state ∈ statesOr (src.getHostsStateByName fetch names) []) :
    answer state.hostName = some state ∧ state.source = src.getFullName := by
  obtain ⟨states, answered, perm⟩ := steady.answers fetch names
  rw [answered] at member
  obtain ⟨hostName, _, found⟩ := List.mem_filterMap.mp (perm.subset member)
  obtain ⟨sameHost, sameSource⟩ := steady.keyed found
  exact ⟨sameHost ▸ found, sameSource⟩

theorem Steady.ownStates (steady : Steady src answer) : OwnStates src := by
  intro fetch names states answered state member
  have listed : state ∈ statesOr (src.getHostsStateByName fetch names) [] := by
    rw [answered]
    exact member
  exact (steady.of_mem listed).2

/-- A steady source answers for each host asked for, once. -/
theorem Steady.filter_answer (steady : Steady src answer) (fetch : Nat) (names : List String)
    (otherwise : List HostState) (hostName : String) :
    (statesOr (src.getHostsStateByName fetch names) otherwise).filter
        (fun state => state.hostName = hostName) =
      if hostName ∈ names then (answer hostName).toList else [] := by
  obtain ⟨states, answered, perm⟩ := steady.answers fetch names
  have picked := filter_filterMap_zipIdx names.dedup names.nodup_dedup
    (fun host => answer host.1) (fun _ _ picked => (steady.keyed picked).1) hostName
  have plain : names.dedup.zipIdx.filterMap (fun host => answer host.1) =
      names.dedup.filterMap answer := by
    have fst := List.zipIdx_map_fst 0 names.dedup
    rw [← congrArg (List.filterMap answer) fst, List.filterMap_map]
    rfl
  rw [plain] at picked
  have filtered := perm.filter fun state => state.hostName = hostName
  rw [picked] at filtered
  simp only [List.mem_dedup] at filtered
  rw [answered]
  change states.filter _ = _
  split
  · rename_i asked
    rw [if_pos asked] at filtered
    cases found : answer hostName with
    | none => simpa [found] using filtered
    | some state => simpa [found] using filtered
  · rename_i absent
    rw [if_neg absent] at filtered
    exact filtered.eq_nil

variable {known : Known} {ttl : Duration} {clock : Clock} {hostNames : List String}
  {source : StateSource × Nat} {hostName : String}

theorem Recalls.keyed (recalls : Recalls known answer) (steady : Steady src answer) :
    Keyed known := fun hostName record found => (steady.keyed (recalls hostName record found)).1

/-- The states of one host among others. -/
def ofHost (hostName : String) (states : List HostState) : List HostState :=
  states.filter fun state => state.hostName = hostName

theorem fresh_known (picked : recent ttl known now host = some state) :
    ∃ record, known host.1 = some record ∧ state = record.state := by
  obtain ⟨record, found, recent⟩ := Option.bind_eq_some_iff.mp picked
  split at recent
  · cases recent
  · exact ⟨record, found, (Option.some.inj recent).symm⟩

theorem expired_known (picked : expired ttl known now host = some state) :
    ∃ record, known host.1 = some record ∧ state = record.state := by
  obtain ⟨record, found, old⟩ := Option.bind_eq_some_iff.mp picked
  split at old
  · exact ⟨record, found, (Option.some.inj old).symm⟩
  · cases old

/-- The cached states of a host are all the one its record holds. -/
theorem mem_ofHost_fresh (keyed : Keyed known)
    (member : state ∈ ofHost hostName (freshStates ttl known clock hostNames source)) :
    ∃ record, known hostName = some record ∧ state = record.state := by
  obtain ⟨member, same⟩ := List.mem_filter.mp member
  obtain ⟨host, _, picked⟩ := List.mem_filterMap.mp member
  have own := keyed.fresh ttl (clock.lookup source.2) host state picked
  rw [decide_eq_true_eq, own] at same
  exact same ▸ fresh_known picked

theorem mem_ofHost_expired (keyed : Keyed known)
    (member : state ∈ ofHost hostName (expiredStates ttl known clock hostNames source)) :
    ∃ record, known hostName = some record ∧ state = record.state := by
  obtain ⟨member, same⟩ := List.mem_filter.mp member
  obtain ⟨host, _, picked⟩ := List.mem_filterMap.mp member
  have own := keyed.expired ttl (clock.lookup source.2) host state picked
  rw [decide_eq_true_eq, own] at same
  exact same ▸ expired_known picked

/-- A host in the cache is found at each of its positions, recent or expired. -/
theorem length_cached (keyed : Keyed known) (found : known hostName = some record) :
    (ofHost hostName (freshStates ttl known clock hostNames source)).length +
        (ofHost hostName (expiredStates ttl known clock hostNames source)).length =
      hostNames.count hostName := by
  unfold freshStates expiredStates
  generalize 0 = start
  induction hostNames generalizing start with
  | nil => rfl
  | cons first rest ih =>
    have later := ih (start + 1)
    rw [List.zipIdx_cons, List.filterMap_cons, List.filterMap_cons, List.count_cons]
    by_cases same : first = hostName
    · subst same
      have own := keyed first record found
      by_cases old : (clock.lookup source.2 start).sub record.time > ttl
      · simp [recent, expired, found, old, ofHost, own] at later ⊢
        omega
      · simp [recent, expired, found, old, ofHost, own] at later ⊢
        omega
    · have apart : ∀ state, recent ttl known (clock.lookup source.2) (first, start) = some state →
          state.hostName ≠ hostName := fun state picked => by
        rw [keyed.fresh _ _ _ state picked]
        exact same
      have apart' : ∀ state, expired ttl known (clock.lookup source.2) (first, start) = some state →
          state.hostName ≠ hostName := fun state picked => by
        rw [keyed.expired _ _ _ state picked]
        exact same
      cases recent : recent ttl known (clock.lookup source.2) (first, start) <;>
        cases old : expired ttl known (clock.lookup source.2) (first, start) <;>
        simp_all [ofHost]

theorem mem_hostNames_iff (states : List HostState) :
    hostName ∈ states.map HostState.hostName ↔ ofHost hostName states ≠ [] := by
  simp [ofHost, List.filter_eq_nil_iff]

/-- A refresh answers for an expired host, once. -/
theorem ofHost_refresh (steady : Steady source.1 answer) :
    ofHost hostName (statesOr (refreshAnswer ttl known clock hostNames source)
        (expiredStates ttl known clock hostNames source)) =
      if ofHost hostName (expiredStates ttl known clock hostNames source) ≠ [] then
        (answer hostName).toList
      else [] := by
  simp only [← mem_hostNames_iff]
  exact steady.filter_answer _ _ _ hostName

/-- All that a source adds under one host. -/
theorem ofHost_contribution (steady : Steady source.1 answer) :
    ofHost hostName (contribution ttl known clock hostNames source) =
      ofHost hostName (freshStates ttl known clock hostNames source) ++
        ((if ofHost hostName (expiredStates ttl known clock hostNames source) ≠ [] then
            (answer hostName).toList
          else []) ++
        if hostName ∈ hostNames ∧ known hostName = none then (answer hostName).toList else []) := by
  have fetch : ofHost hostName (statesOr (missedAnswer known hostNames source) []) = _ :=
    steady.filter_answer _ _ _ hostName
  simp only [mem_missedHosts] at fetch
  rw [← ofHost_refresh steady, ← fetch, contribution, ofHost, List.filter_append,
    List.filter_append]
  rfl

/-- A host the cache does not know is neither recent nor expired. -/
theorem ofHost_cached_unknown (keyed : Keyed known) (unknown : known hostName = none) :
    ofHost hostName (freshStates ttl known clock hostNames source) = [] ∧
      ofHost hostName (expiredStates ttl known clock hostNames source) = [] := by
  constructor
  · apply List.eq_nil_iff_forall_not_mem.mpr
    intro state member
    obtain ⟨record, found, _⟩ := mem_ofHost_fresh keyed member
    rw [unknown] at found
    cases found
  · apply List.eq_nil_iff_forall_not_mem.mpr
    intro state member
    obtain ⟨record, found, _⟩ := mem_ofHost_expired keyed member
    rw [unknown] at found
    cases found

/-- Under a host the cache does not know, a source adds what it answers. -/
theorem ofHost_contribution_unknown (steady : Steady source.1 answer)
    (recalls : Recalls known answer) (unknown : known hostName = none) :
    ofHost hostName (contribution ttl known clock hostNames source) =
      if hostName ∈ hostNames then (answer hostName).toList else [] := by
  obtain ⟨recent, old⟩ := ofHost_cached_unknown (recalls.keyed steady) unknown
  rw [ofHost_contribution steady, recent, old]
  simp [unknown]

/-- Under a host the cache knows, a source adds the cached state for each
recent position, and once more when a position has expired. -/
theorem ofHost_contribution_known (steady : Steady source.1 answer)
    (recalls : Recalls known answer) (found : known hostName = some record) :
    ofHost hostName (contribution ttl known clock hostNames source) =
      ofHost hostName (freshStates ttl known clock hostNames source) ++
        if ofHost hostName (expiredStates ttl known clock hostNames source) ≠ [] then
          [record.state]
        else [] := by
  rw [ofHost_contribution steady, recalls hostName record found, found]
  simp

theorem ofHost_fresh_eq (keyed : Keyed known) (found : known hostName = some record) :
    ofHost hostName (freshStates ttl known clock hostNames source) =
      List.replicate (ofHost hostName (freshStates ttl known clock hostNames source)).length
        record.state := by
  apply List.eq_replicate_of_mem
  intro state member
  obtain ⟨record', found', same⟩ := mem_ofHost_fresh keyed member
  rw [found, Option.some.injEq] at found'
  rw [same, found']

/-- A host is not both repeated and found. -/
def Quiet (ttl : Duration) (known : Known) (clock : Clock) (hostNames : List String)
    (source : StateSource × Nat) (hostName : String) : Prop :=
  2 ≤ hostNames.count hostName →
    ofHost hostName (freshStates ttl known clock hostNames source) = []

/-- A repeated host that a position finds in the cache is not quiet. -/
theorem not_quiet_of_found (keyed : Keyed known) (within : host ∈ hostNames.zipIdx)
    (repeated : 2 ≤ hostNames.count host.1)
    (picked : recent ttl known (clock.lookup source.2) host = some state) :
    ¬ Quiet ttl known clock hostNames source host.1 := by
  intro quiet
  have own := keyed.fresh _ _ host state picked
  have listed := List.mem_filterMap.mpr ⟨host, within, picked⟩
  exact List.filter_eq_nil_iff.mp (quiet repeated) state listed (by simpa using own)

/-- A quiet host's source adds what it answers, from the cache or not. -/
theorem ofHost_contribution_quiet (steady : Steady source.1 answer)
    (recalls : Recalls known answer) (quiet : Quiet ttl known clock hostNames source hostName) :
    ofHost hostName (contribution ttl known clock hostNames source) =
      if hostName ∈ hostNames then (answer hostName).toList else [] := by
  cases found : known hostName with
  | none => exact ofHost_contribution_unknown steady recalls found
  | some record =>
    have keyed := recalls.keyed steady
    have lengths : (ofHost hostName (freshStates ttl known clock hostNames source)).length + _ = _ :=
      length_cached keyed found
    rw [ofHost_contribution_known steady recalls found, recalls hostName record found,
      ofHost_fresh_eq keyed found]
    unfold Quiet at quiet
    rw [← List.length_eq_zero_iff] at quiet
    simp only [ne_eq, ← List.length_eq_zero_iff, ← List.count_pos_iff, ← lengths] at quiet ⊢
    generalize (ofHost hostName (freshStates ttl known clock hostNames source)).length = recent
      at quiet ⊢
    generalize (ofHost hostName (expiredStates ttl known clock hostNames source)).length = old
      at quiet ⊢
    -- one recent position, or only expired ones, or none at all
    rcases recent with _ | _ | recent
    · cases old <;> simp
    · cases old with
      | zero => simp
      | succ old => exact absurd (quiet (by omega)) (by omega)
    · exact absurd (quiet (by omega)) (by omega)

/-- Otherwise it adds the host's state more than once. -/
theorem two_le_ofHost_contribution (steady : Steady source.1 answer)
    (recalls : Recalls known answer) (found : known hostName = some record)
    (loud : ¬ Quiet ttl known clock hostNames source hostName) :
    2 ≤ (ofHost hostName (contribution ttl known clock hostNames source)).length := by
  have lengths : (ofHost hostName (freshStates ttl known clock hostNames source)).length + _ = _ :=
    length_cached (recalls.keyed steady) found
  obtain ⟨repeated, recent⟩ := Classical.not_imp.mp loud
  have some := List.length_pos_iff.mpr recent
  rw [ofHost_contribution_known steady recalls found, List.length_append]
  split
  · rw [List.length_singleton]
    omega
  · rename_i none
    rw [ne_eq, not_not] at none
    rw [none, List.length_nil] at lengths
    omega

/-- In any case it does not add less than it answers. -/
theorem length_le_ofHost_contribution (steady : Steady source.1 answer)
    (recalls : Recalls known answer) (requested : hostName ∈ hostNames) :
    (answer hostName).toList.length ≤
      (ofHost hostName (contribution ttl known clock hostNames source)).length := by
  by_cases quiet : Quiet ttl known clock hostNames source hostName
  · rw [ofHost_contribution_quiet steady recalls quiet, if_pos requested]
  · cases found : known hostName with
    | none => rw [ofHost_contribution_unknown steady recalls found, if_pos requested]
    | some record =>
      have two := two_le_ofHost_contribution steady recalls found quiet
      rw [recalls hostName record found]
      exact Nat.le_of_succ_le two

/-! ## Calls -/

theorem SameStates.perm (same : SameStates m m') (hostName : String) :
    (statesOf m hostName).Perm (statesOf m' hostName) := by
  have lists := same hostName
  unfold statesOf
  cases found : m.lookup hostName <;> cases found' : m'.lookup hostName <;>
    simp_all

/-- A cache that holds nothing but answers of the sources, as the earlier calls
leave it. -/
def Recalled (answer : String → String → Option HostState) (cache : MemoryStateCache) : Prop :=
  ∃ updates, cache = cacheAfter updates ∧
    ∀ entry ∈ updates, answer entry.1.source entry.1.hostName = some entry.1

theorem recalled_new (answer : String → String → Option HostState) :
    Recalled answer newMemoryStateCache :=
  ⟨[], rfl, by simp⟩

variable {srv : Service} {answers : String → String → Option HostState}

theorem Recalled.indexed (recalled : Recalled answers cache) : Indexed cache := by
  obtain ⟨updates, rfl, _⟩ := recalled
  exact indexed_cacheAfter updates

theorem Recalled.recalls (recalled : Recalled answers cache) (source : String) :
    Recalls (knownOf cache source) (answers source) := by
  obtain ⟨updates, rfl, answered⟩ := recalled
  intro hostName record found
  rw [knownOf, getByName_is_last_update] at found
  obtain ⟨entry, last, rfl⟩ := Option.map_eq_some_iff.mp found
  obtain ⟨member, own⟩ := List.mem_filter.mp (List.mem_of_getLast? last)
  obtain ⟨rfl, rfl⟩ := of_decide_eq_true own
  exact answered entry member

section
variable (named : (srv.sources.map StateSource.getFullName).Nodup)
  (steady : ∀ src ∈ srv.sources, Steady src (answers src.getFullName))
include named steady

/-- A call leaves such a cache too. -/
theorem recalled_call (recalled : Recalled answers srv.cache) (clock : Clock)
    (hostNames : List String) :
    Recalled answers (getHostsStatusByName srv clock hostNames).srv.cache := by
  have own : ∀ src ∈ srv.sources, OwnStates src := fun src member => (steady src member).ownStates
  rw [getHostsStatusByName_eq clock hostNames srv named own recalled.indexed]
  obtain ⟨updates, known, answered⟩ := recalled
  refine ⟨updates ++ srv.sources.zipIdx.flatMap fun source => putsOf clock hostNames source srv,
    ?_, ?_⟩
  · rw [known, cacheAfter, cacheAfter, after, after, List.foldl_append]
  · intro entry member
    rcases List.mem_append.mp member with earlier | put
    · exact answered entry earlier
    · obtain ⟨source, within, put⟩ := List.mem_flatMap.mp put
      have truthful := steady source.1 (List.fst_mem_of_mem_zipIdx within)
      rcases List.mem_append.mp put with refreshed | fetched
      · obtain ⟨found, sameSource⟩ := truthful.of_mem (mem_stamped refreshed)
        exact sameSource ▸ found
      · obtain ⟨found, sameSource⟩ := truthful.of_mem (mem_stamped fetched)
        exact sameSource ▸ found

theorem statesOf_eq_ofHost (recalled : Recalled answers srv.cache) (clock : Clock)
    (hostNames : List String) (hostName : String) :
    statesOf (getHostsStatusByName srv clock hostNames).m hostName =
      srv.sources.zipIdx.flatMap fun source =>
        ofHost hostName (contributionOf clock hostNames source srv) :=
  statesOf_getHostsStatusByName clock hostNames srv named
    (fun src member => (steady src member).ownStates) recalled.indexed hostName

/-- From an empty cache each source serves what it answers. -/
theorem statesOf_from_empty_cache (clock : Clock) (hostNames : List String) (hostName : String) :
    statesOf (getHostsStatusByName { srv with cache := newMemoryStateCache } clock hostNames).m
        hostName =
      srv.sources.zipIdx.flatMap fun source =>
        if hostName ∈ hostNames then (answers source.1.getFullName hostName).toList else [] := by
  let empty : Service := { srv with cache := newMemoryStateCache }
  have recalled : Recalled answers empty.cache := recalled_new answers
  have named : (empty.sources.map StateSource.getFullName).Nodup := named
  have served : statesOf (getHostsStatusByName empty clock hostNames).m hostName = _ :=
    statesOf_eq_ofHost named steady recalled clock hostNames hostName
  rw [served]
  apply List.flatMap_congr
  intro source member
  have truthful := steady source.1 (List.fst_mem_of_mem_zipIdx member)
  exact ofHost_contribution_unknown truthful (recalled.recalls _) rfl

end

/-- At no position where the request repeats a host is that host found in the
cache, recent enough, for any of the sources. -/
def NoRepeatFound (srv : Service) (clock : Clock) (hostNames : List String) : Prop :=
  ∀ source ∈ srv.sources.zipIdx, ∀ host ∈ hostNames.zipIdx, 2 ≤ hostNames.count host.1 →
    recent srv.cacheTtl (knownOf srv.cache source.1.getFullName) (clock.lookup source.2) host = none

theorem quiet_of_noRepeatFound (quiet : NoRepeatFound srv clock hostNames)
    (indexed : Indexed srv.cache) (member : source ∈ srv.sources.zipIdx) (hostName : String) :
    Quiet srv.cacheTtl (knownOf srv.cache source.1.getFullName) clock hostNames source hostName := by
  intro repeated
  apply List.filter_eq_nil_iff.mpr
  intro state picked same
  obtain ⟨host, within, picked⟩ := List.mem_filterMap.mp picked
  have own := (keyed_knownOf indexed source.1.getFullName).fresh _ _ host state picked
  have sameHost : host.1 = hostName := own.symm.trans (of_decide_eq_true same)
  rw [quiet source member host within (sameHost ▸ repeated)] at picked
  cases picked

/-- **The cache does not show exactly when no repeated host is found in it.**
Against steady sources, a call on a cache that earlier calls left serves the
states that a call on an empty cache serves, under every host, if and only if
no host that the request names twice is found in the cache. -/
theorem cache_transparent_iff (srv : Service) (clock clock' : Clock) (hostNames : List String)
    (answers : String → String → Option HostState)
    (named : (srv.sources.map StateSource.getFullName).Nodup)
    (steady : ∀ src ∈ srv.sources, Steady src (answers src.getFullName))
    (recalled : Recalled answers srv.cache) :
    SameStates (getHostsStatusByName srv clock hostNames).m
        (getHostsStatusByName { srv with cache := newMemoryStateCache } clock' hostNames).m ↔
      NoRepeatFound srv clock hostNames := by
  have own : ∀ src ∈ srv.sources, OwnStates src := fun src member => (steady src member).ownStates
  have served := statesOf_eq_ofHost named steady recalled clock hostNames
  have plain := statesOf_from_empty_cache named steady clock' hostNames
  constructor
  · intro same source member host within repeated
    by_contra found
    obtain ⟨state, picked⟩ := Option.ne_none_iff_exists'.mp found
    obtain ⟨record, known, _⟩ := fresh_known picked
    have requested : host.1 ∈ hostNames := List.fst_mem_of_mem_zipIdx within
    have loud := not_quiet_of_found (keyed_knownOf recalled.indexed source.1.getFullName) within
      repeated picked
    have truthful : ∀ source ∈ srv.sources.zipIdx,
        Steady source.1 (answers source.1.getFullName) :=
      fun source member => steady source.1 (List.fst_mem_of_mem_zipIdx member)
    -- each source serves at least what it answers, and this one serves more
    have more : (srv.sources.zipIdx.map fun source =>
          (answers source.1.getFullName host.1).toList.length).sum <
        (srv.sources.zipIdx.map fun source =>
          (ofHost host.1 (contributionOf clock hostNames source srv)).length).sum := by
      apply List.sum_lt_sum
      · intro source member
        exact length_le_ofHost_contribution (truthful source member) (recalled.recalls _) requested
      · refine ⟨source, member, ?_⟩
        have two := two_le_ofHost_contribution (truthful source member) (recalled.recalls _)
          known loud
        rw [recalled.recalls _ _ _ known]
        exact two
    have equal := (same.perm host.1).length_eq
    rw [served, plain, List.length_flatMap, List.length_flatMap] at equal
    simp only [if_pos requested] at equal
    omega
  · intro quiet hostName
    have full := noneEmpty_getHostsStatusByName clock hostNames srv named own recalled.indexed
    have full' := noneEmpty_getHostsStatusByName clock' hostNames
      { srv with cache := newMemoryStateCache } named own indexed_new
    have equal : statesOf (getHostsStatusByName srv clock hostNames).m hostName =
        statesOf (getHostsStatusByName { srv with cache := newMemoryStateCache } clock'
          hostNames).m hostName := by
      rw [served, plain]
      apply List.flatMap_congr
      intro source member
      exact ofHost_contribution_quiet (steady source.1 (List.fst_mem_of_mem_zipIdx member))
        (recalled.recalls _) (quiet_of_noRepeatFound quiet recalled.indexed member hostName)
    rw [full.lookup_eq, full'.lookup_eq, equal]

/-! ## One host, twice -/

/-- A source that answers from a table. -/
def tableSource (name : String) (answer : String → Option HostState) : StateSource :=
  ⟨name, fun _ names => .ok (names.dedup.filterMap answer)⟩

/-- One source that knows the host `core`. -/
def coreState : HostState := { source := "icinga", hostName := "core" }

def coreAnswers (source hostName : String) : Option HostState :=
  if source = "icinga" ∧ hostName = "core" then some coreState else none

def coreService (cache : MemoryStateCache) : Service :=
  ⟨[tableSource "icinga" (coreAnswers "icinga")], cache, 60⟩

def coreClock : Clock := ⟨fun _ _ => 0, fun _ _ => 0⟩

theorem coreSources_steady :
    ∀ src ∈ (coreService cache).sources, Steady src (coreAnswers src.getFullName) := by
  intro src member
  rw [List.mem_singleton.mp member]
  refine ⟨fun fetch names => ⟨_, rfl, List.Perm.refl _⟩, ?_⟩
  intro hostName state found
  unfold coreAnswers at found
  split at found
  · rename_i same
    cases found
    exact ⟨same.2.symm, rfl⟩
  · cases found

/-- The cache after the host was asked for once. -/
def coreCache : MemoryStateCache :=
  (getHostsStatusByName (coreService newMemoryStateCache) coreClock ["core"]).srv.cache

theorem coreService_named (cache : MemoryStateCache) :
    ((coreService cache).sources.map StateSource.getFullName).Nodup := List.nodup_singleton _

theorem coreCache_recalled : Recalled coreAnswers coreCache :=
  recalled_call (coreService_named newMemoryStateCache) coreSources_steady (recalled_new _)
    coreClock ["core"]

/-- A request that names each host once. -/
theorem single_request_is_served_alike :
    SameStates (getHostsStatusByName (coreService coreCache) coreClock ["core"]).m
      (getHostsStatusByName (coreService newMemoryStateCache) coreClock ["core"]).m := by
  refine (cache_transparent_iff (coreService coreCache) coreClock coreClock ["core"] coreAnswers
    (coreService_named coreCache) coreSources_steady coreCache_recalled).mpr ?_
  intro source _ host _ repeated
  have short := List.count_le_length (a := host.1) (l := ["core"])
  rw [List.length_singleton] at short
  omega

/-- Two nodes with the host's name: it is served once from an empty cache and
twice from the cache that the first call left. -/
theorem repeated_host_is_served_twice :
    ¬ ∀ (srv : Service) (clock clock' : Clock) (hostNames : List String)
      (answers : String → String → Option HostState),
      (srv.sources.map StateSource.getFullName).Nodup →
      (∀ src ∈ srv.sources, Steady src (answers src.getFullName)) →
      Recalled answers srv.cache →
      SameStates (getHostsStatusByName srv clock hostNames).m
        (getHostsStatusByName { srv with cache := newMemoryStateCache } clock' hostNames).m := by
  intro claimed
  have same := claimed (coreService coreCache) coreClock coreClock ["core", "core"] coreAnswers
    (coreService_named coreCache) coreSources_steady coreCache_recalled
  have cached : statesOf (getHostsStatusByName (coreService coreCache) coreClock
      ["core", "core"]).m "core" = [coreState, coreState] := by decide
  have fetched : statesOf (getHostsStatusByName (coreService newMemoryStateCache) coreClock
      ["core", "core"]).m "core" = [coreState] := by decide
  have lengths := (same.perm "core").length_eq
  rw [cached] at lengths
  change _ = (statesOf (getHostsStatusByName (coreService newMemoryStateCache) coreClock
    ["core", "core"]).m "core").length at lengths
  rw [fetched] at lengths
  cases lengths

end NetGraphz.CacheTransparency
