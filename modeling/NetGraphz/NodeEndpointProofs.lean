import NetGraphz.CacheTransparency
import NetGraphz.FetchOrderProofs

/-! The two ways to one node. A page streams a node whatever could be fetched
for it; the request by id gives up where a part is missing. And each of them
lists the metrics of the node's host in an order of its own. -/
namespace NetGraphz.NodeEndpointProofs
open GraphStorage Metrics RpcFormater RpcServer SourcePasses StateCache StateCacheProofs
open StatusService StatusServiceProofs CacheTransparency SampleCounts
open FetchOrderProofs (entered SentInAnyOrder sentValues views_agree_iff
  lastMetricValuesToRpc_eq_iff)

/-! ## Sources that stay as they are -/

/-- What a source answers for a host, when it answers at all. -/
abbrev Answer := Option (String → Option HostState)

/-- A source that cannot be reached: it fails whenever it has to ask. -/
structure Down (src : StateSource) : Prop where
  idle : ∀ fetch, src.getHostsStateByName fetch [] = .ok []
  fails : ∀ fetch {names}, names ≠ [] → ∃ err, src.getHostsStateByName fetch names = .error err

/-- The source is steady with that answer, or down without one. -/
def Standing (src : StateSource) : Answer → Prop
  | some answer => Steady src answer
  | none => Down src

theorem Steady.honest (steady : Steady src answer) : Honest src := by
  refine ⟨steady.ownStates, ?_, ?_⟩
  · intro fetch names states answered
    obtain ⟨states', answered', perm⟩ := steady.answers fetch names
    cases answered.symm.trans answered'
    have hosts : ((names.dedup.filterMap answer).map HostState.hostName).Sublist names.dedup := by
      generalize names.dedup = asked
      induction asked with
      | nil => exact List.Sublist.refl _
      | cons first rest ih =>
        rw [List.filterMap_cons]
        cases found : answer first with
        | none => exact ih.cons first
        | some state =>
          rw [List.map_cons, (steady.keyed found).1]
          exact ih.cons_cons first
    exact (perm.map _).nodup_iff.mpr (hosts.nodup names.nodup_dedup)
  · intro fetch names states answered state member
    obtain ⟨states', answered', perm⟩ := steady.answers fetch names
    cases answered.symm.trans answered'
    obtain ⟨hostName, asked, found⟩ := List.mem_filterMap.mp (perm.subset member)
    rw [(steady.keyed found).1]
    exact List.mem_dedup.mp asked

theorem Down.nothing (down : Down src)
    (answered : src.getHostsStateByName fetch names = .ok states) : states = [] := by
  by_cases asked : names = []
  · subst asked
    cases answered.symm.trans (down.idle fetch)
    rfl
  · obtain ⟨err, failed⟩ := down.fails fetch asked
    cases answered.symm.trans failed

theorem Down.honest (down : Down src) : Honest src := by
  refine ⟨?_, ?_, ?_⟩
  · intro fetch names states answered
    rw [down.nothing answered]
    simp
  · intro fetch names states answered
    rw [down.nothing answered]
    simp
  · intro fetch names states answered
    rw [down.nothing answered]
    simp

theorem Standing.honest (standing : Standing src answer) : Honest src := by
  cases answer with
  | some answer => exact Steady.honest standing
  | none => exact Down.honest standing

theorem ownStates_of_standing {sources : List StateSource} {answers : String → Answer}
    (standing : ∀ src ∈ sources, Standing src (answers src.getFullName)) :
    ∀ src ∈ sources, OwnStates src :=
  fun src member => (standing src member).honest.own

/-- Such a source fails when it has to ask and is down. -/
theorem Standing.failure_eq_none_iff (standing : Standing src answer) (fetch : Nat)
    (names : List String) :
    SourcePasses.failure (src.getHostsStateByName fetch names) = none ↔
      names = [] ∨ answer ≠ none := by
  cases answer with
  | some answer =>
    obtain ⟨states, answered, _⟩ := Steady.answers standing fetch names
    simp [answered, SourcePasses.failure]
  | none =>
    by_cases asked : names = []
    · subst asked
      simp [Down.idle standing fetch, SourcePasses.failure]
    · obtain ⟨err, failed⟩ := Down.fails standing fetch asked
      simp [failed, SourcePasses.failure, asked]

/-! ## A host's record under two clocks -/

/-- No record of the host expires from one reading to another. -/
def Settled (ttl : Duration) (known : Known) (hostName : String) (now now' : Nat → Time) : Prop :=
  ∀ record, known hostName = some record →
    ∀ i j, (now i).sub record.time ≤ ttl ↔ (now' j).sub record.time ≤ ttl

variable {ttl : Duration} {known : Known} {hostName : String} {now now' : Nat → Time}

theorem Settled.self (settled : Settled ttl known hostName now now') :
    Settled ttl known hostName now' now' :=
  fun record found i j => (settled record found 0 i).symm.trans (settled record found 0 j)

variable {clock : Clock} {hostNames : List String} {source : StateSource × Nat}

/-- What the host's first look-up finds, every look-up finds. -/
theorem Settled.fresh_eq (settled : Settled ttl known hostName now now') (i j : Nat) :
    recent ttl known now (hostName, i) = recent ttl known now' (hostName, j) := by
  unfold recent
  cases found : known hostName with
  | none => rfl
  | some record =>
    have same := settled record found i j
    by_cases recent : (now i).sub record.time ≤ ttl
    · simp [Int.not_lt.mpr recent, Int.not_lt.mpr (same.mp recent)]
    · have old := Int.not_le.mp recent
      have old' := Int.not_le.mp (mt same.mpr recent)
      simp [old, old']

theorem expired_of_fresh (picked : recent ttl known now host = some state) :
    expired ttl known now host = none := by
  unfold recent at picked
  unfold expired
  cases found : known host.1 with
  | none => rfl
  | some record =>
    by_cases old : (now host.2).sub record.time > ttl
    · simp [found, old] at picked
    · simp [old]

section
variable (keyed : Keyed known) {found : Option HostState}
  (alike : ∀ i, recent ttl known (clock.lookup source.2) (hostName, i) = found)
include keyed alike

theorem ofHost_freshStates_none (none : found = none) :
    ofHost hostName (freshStates ttl known clock hostNames source) = [] := by
  apply List.filter_eq_nil_iff.mpr
  intro state member same
  obtain ⟨host, _, picked⟩ := List.mem_filterMap.mp member
  have own := keyed.fresh ttl (clock.lookup source.2) host state picked
  have sameHost : host.1 = hostName := own.symm.trans (of_decide_eq_true same)
  obtain ⟨first, i⟩ := host
  subst sameHost
  rw [alike, none] at picked
  cases picked

theorem ofHost_freshStates_some (some : found = some state) :
    ofHost hostName (freshStates ttl known clock hostNames source) =
      List.replicate (hostNames.count hostName) state := by
  have own : state.hostName = hostName :=
    keyed.fresh ttl (clock.lookup source.2) (hostName, 0) state ((alike 0).trans some)
  unfold freshStates
  generalize 0 = start
  induction hostNames generalizing start with
  | nil => rfl
  | cons first rest ih =>
    have later := ih (start + 1)
    rw [List.zipIdx_cons, List.filterMap_cons, List.count_cons]
    by_cases same : first = hostName
    · subst same
      rw [alike, some]
      simpa [ofHost, own, List.replicate_succ] using later
    · have apart : ∀ state, recent ttl known (clock.lookup source.2) (first, start) = Option.some state →
          state.hostName ≠ hostName := fun state picked => by
        rw [keyed.fresh _ _ _ state picked]
        exact same
      cases picked : recent ttl known (clock.lookup source.2) (first, start) with
      | none => simpa [same] using later
      | some other => simpa [same, ofHost, apart other picked] using later

theorem ofHost_expiredStates_none (some : found = some state) :
    ofHost hostName (expiredStates ttl known clock hostNames source) = [] := by
  apply List.filter_eq_nil_iff.mpr
  intro other member same
  obtain ⟨host, _, picked⟩ := List.mem_filterMap.mp member
  have own := keyed.expired ttl (clock.lookup source.2) host other picked
  have sameHost : host.1 = hostName := own.symm.trans (of_decide_eq_true same)
  obtain ⟨first, i⟩ := host
  subst sameHost
  rw [expired_of_fresh ((alike i).trans some)] at picked
  cases picked

/-- A host whose record is recent is served it at each position. -/
theorem ofHost_contribution_found (honest : Honest source.1) (some : found = some state) :
    ofHost hostName (contribution ttl known clock hostNames source) =
      List.replicate (hostNames.count hostName) state := by
  obtain ⟨record, known', _⟩ := fresh_known ((alike 0).trans some)
  have present : hostName ∉ missedHosts known hostNames := by
    rw [mem_missedHosts, known']
    simp
  have never : (expiredStates ttl known clock hostNames source).filter
      (fun state => state.hostName = hostName) = [] := ofHost_expiredStates_none keyed alike some
  have fetch := honest.filter_not_asked (2 * source.2 + 1) present List.filter_nil
  rw [← ofHost_freshStates_some keyed alike some, contribution, ofHost, List.filter_append,
    List.filter_append, honest.filter_refresh never, missedAnswer, fetch]
  simp [ofHost]

/-- A host without a recent record is served what the source answers, once. -/
theorem ofHost_contribution_asked (steady : Steady source.1 answer) (none : found = none) :
    ofHost hostName (contribution ttl known clock hostNames source) =
      if hostName ∈ hostNames then (answer hostName).toList else [] := by
  have recent : ofHost hostName (freshStates ttl known clock hostNames source) = [] :=
    ofHost_freshStates_none keyed alike none
  rw [ofHost_contribution steady, recent, List.nil_append]
  cases known' : known hostName with
  | none =>
    have old : ofHost hostName (expiredStates ttl known clock hostNames source) = [] :=
      (ofHost_cached_unknown keyed known').2
    simp [old]
  | some record =>
    have lengths : (ofHost hostName (freshStates ttl known clock hostNames source)).length +
        (ofHost hostName (expiredStates ttl known clock hostNames source)).length = _ :=
      length_cached keyed known'
    rw [recent, List.length_nil, Nat.zero_add] at lengths
    have asked : ofHost hostName (expiredStates ttl known clock hostNames source) ≠ [] ↔
        hostName ∈ hostNames := by
      rw [← List.length_pos_iff, lengths, List.count_pos_iff]
    simp only [asked]
    simp

end

/-! ## The two requests to the status service -/

/-- The recent state of a host that the cache has from a source. -/
def cachedState (srv : Service) (clock : Clock) (hostName : String)
    (source : StateSource × Nat) : Option HostState :=
  recent srv.cacheTtl (knownOf srv.cache source.1.getFullName) (clock.lookup source.2) (hostName, 0)

/-- The state of a host that a source has, in the cache or on request. -/
def stateOf (srv : Service) (clock : Clock) (answers : String → Answer) (hostName : String)
    (source : StateSource × Nat) : Option HostState :=
  (cachedState srv clock hostName source).or
    ((answers source.1.getFullName).bind fun answer => answer hostName)

/-- For no source does a record of the host expire between two clocks. -/
def SettledBetween (srv : Service) (hostName : String) (clock clock' : Clock) : Prop :=
  ∀ source ∈ srv.sources.zipIdx, Settled srv.cacheTtl (knownOf srv.cache source.1.getFullName)
    hostName (clock.lookup source.2) (clock'.lookup source.2)

theorem SettledBetween.self {clock' : Clock} (settled : SettledBetween srv hostName clock clock') :
    SettledBetween srv hostName clock' clock' :=
  fun source member => (settled source member).self

/-- Every source that has to be asked for the host can be. -/
def Reached (srv : Service) (clock : Clock) (answers : String → Answer) (hostName : String) : Prop :=
  ∀ source ∈ srv.sources.zipIdx,
    cachedState srv clock hostName source = none → answers source.1.getFullName ≠ none

variable {srv : Service} {answers : String → Answer}

/-- A source fails the request for one host exactly when it is down and the
cache does not stand in for it. -/
theorem failureOf_eq_none_iff (standing : Standing source.1 (answers source.1.getFullName))
    (clock : Clock) (hostName : String) :
    failureOf clock [hostName] source srv = none ↔
      (cachedState srv clock hostName source = none → answers source.1.getFullName ≠ none) := by
  simp only [failureOf, Option.or_eq_none_iff, missedAnswer, refreshAnswer,
    standing.failure_eq_none_iff, missedHosts, expiredStates, cachedState]
  generalize answers source.1.getFullName = answer
  cases found : knownOf srv.cache source.1.getFullName hostName with
  | none => simp [missed, expired, recent, found]
  | some record =>
    by_cases old : (clock.lookup source.2 0).sub record.time > srv.cacheTtl
    · simp [missed, expired, recent, found, old]
    · simp [missed, expired, recent, found, old]

section
variable (named : (srv.sources.map StateSource.getFullName).Nodup)
  (standing : ∀ src ∈ srv.sources, Standing src (answers src.getFullName))
  (indexed : Indexed srv.cache)
include named standing indexed

theorem lastError_eq_none_iff (clock : Clock) (hostName : String) :
    (getHostsStatusByName srv clock [hostName]).lastError = none ↔
      Reached srv clock answers hostName := by
  have own := ownStates_of_standing standing
  rw [getHostsStatusByName_eq clock [hostName] srv named own indexed, ← Option.not_isSome_iff_eq_none,
    foldl_or_isSome]
  unfold Reached
  simp only [not_exists, not_and, Option.not_isSome_iff_eq_none]
  apply forall₂_congr
  intro source member
  exact failureOf_eq_none_iff (standing _ (List.fst_mem_of_mem_zipIdx member)) clock hostName

/-- The states that a request serves under a host none of whose records
expires meanwhile. -/
theorem statesOf_served {clock clock' : Clock} (reached : Reached srv clock' answers hostName)
    (settled : SettledBetween srv hostName clock clock') (requested : hostName ∈ hostNames) :
    statesOf (getHostsStatusByName srv clock hostNames).m hostName =
      srv.sources.zipIdx.flatMap fun source =>
        match cachedState srv clock' hostName source with
        | some state => List.replicate (hostNames.count hostName) state
        | none => (stateOf srv clock' answers hostName source).toList := by
  have own := ownStates_of_standing standing
  rw [statesOf_getHostsStatusByName clock hostNames srv named own indexed]
  apply List.flatMap_congr
  intro source member
  have stands := standing _ (List.fst_mem_of_mem_zipIdx member)
  have keyed := keyed_knownOf indexed source.1.getFullName
  have alike : ∀ i, recent srv.cacheTtl (knownOf srv.cache source.1.getFullName)
      (clock.lookup source.2) (hostName, i) = cachedState srv clock' hostName source :=
    fun i => (settled source member).fresh_eq i 0
  cases found : cachedState srv clock' hostName source with
  | some state => exact ofHost_contribution_found keyed alike stands.honest found
  | none =>
    obtain ⟨answer, up⟩ := Option.ne_none_iff_exists'.mp (reached source member found)
    rw [up] at stands
    have asked : ofHost hostName (contributionOf clock hostNames source srv) = _ :=
      ofHost_contribution_asked keyed alike stands found
    rw [if_pos requested] at asked
    exact asked.trans (by simp [stateOf, found, up])

/-- Nothing is served under another host. -/
theorem statesOf_other (clock : Clock) {other : String} (apart : other ≠ hostName) :
    statesOf (getHostsStatusByName srv clock [hostName]).m other = [] := by
  have own := ownStates_of_standing standing
  rw [statesOf_getHostsStatusByName clock [hostName] srv named own indexed]
  apply List.flatMap_eq_nil_iff.mpr
  intro source member
  exact filter_contribution_not_requested (List.nodup_singleton hostName)
    (keyed_knownOf indexed source.1.getFullName)
    (standing _ (List.fst_mem_of_mem_zipIdx member)).honest (by simpa using apart)

/-- A request for the host alone serves one state for each source that has one. -/
theorem statesOf_alone {clock : Clock} (reached : Reached srv clock answers hostName)
    (settled : SettledBetween srv hostName clock clock) :
    statesOf (getHostsStatusByName srv clock [hostName]).m hostName =
      srv.sources.zipIdx.filterMap (stateOf srv clock answers hostName) := by
  rw [statesOf_served named standing indexed reached settled List.mem_cons_self,
    List.filterMap_eq_flatMap_toList]
  apply List.flatMap_congr
  intro source _
  cases found : cachedState srv clock hostName source with
  | none => rfl
  | some state => simp [stateOf, found]

/-- Its map is empty when it has nothing under that host. -/
theorem map_eq_empty_iff (clock : Clock) (hostName : String) :
    (getHostsStatusByName srv clock [hostName]).m = ∅ ↔
      statesOf (getHostsStatusByName srv clock [hostName]).m hostName = [] := by
  have own := ownStates_of_standing standing
  have full := noneEmpty_getHostsStatusByName clock [hostName] srv named own indexed
  rw [full.eq_empty_iff]
  constructor
  · intro none
    exact none hostName
  · intro none other
    by_cases same : other = hostName
    · exact same ▸ none
    · exact statesOf_other named standing indexed clock same

/-- The request for one host: it is answered when every source that has to be
asked can be and some source has a state. -/
theorem getHostStatusByName_ok_iff {clock : Clock}
    (settled : SettledBetween srv hostName clock clock) (states : List HostState) :
    (getHostStatusByName srv clock hostName).2 = .ok states ↔
      Reached srv clock answers hostName ∧
        (∃ source ∈ srv.sources.zipIdx, stateOf srv clock answers hostName source ≠ none) ∧
          states = srv.sources.zipIdx.filterMap (stateOf srv clock answers hostName) := by
  have failed := lastError_eq_none_iff named standing indexed clock hostName
  have empty := map_eq_empty_iff named standing indexed clock hostName
  unfold getHostStatusByName
  cases error : (getHostsStatusByName srv clock [hostName]).lastError with
  | some err =>
    rw [error] at failed
    have unreached : ¬ Reached srv clock answers hostName := by simp [← failed]
    simp [error, unreached]
  | none =>
    have reached := failed.mp error
    have listed := statesOf_alone named standing indexed reached settled
    simp only [error, empty, listed, reached, true_and]
    have some : srv.sources.zipIdx.filterMap (stateOf srv clock answers hostName) = [] ↔
        ¬ ∃ source ∈ srv.sources.zipIdx, stateOf srv clock answers hostName source ≠ none := by
      simp [List.filterMap_eq_nil_iff]
    by_cases none : srv.sources.zipIdx.filterMap (stateOf srv clock answers hostName) = []
    · simp [none, some.mp none]
    · simp only [none, if_false, Except.ok.injEq, not_not.mp (mt some.mpr none), true_and]
      exact eq_comm

/-- A page serves a host as the request for it does, unless the page names it
again and the cache has it. -/
theorem states_agree_iff {clock clock' : Clock} (reached : Reached srv clock' answers hostName)
    (settled : SettledBetween srv hostName clock clock') (requested : hostName ∈ hostNames) :
    (statesOf (getHostsStatusByName srv clock hostNames).m hostName).map stateToRpc =
        (srv.sources.zipIdx.filterMap (stateOf srv clock' answers hostName)).map stateToRpc ↔
      ((∃ source ∈ srv.sources.zipIdx, cachedState srv clock' hostName source ≠ none) →
        hostNames.count hostName = 1) := by
  rw [statesOf_served named standing indexed reached settled requested,
    List.filterMap_eq_flatMap_toList]
  have once : 1 ≤ hostNames.count hostName := List.count_pos_iff.mpr requested
  constructor
  · rintro same ⟨source, member, cached⟩
    by_contra again
    have lengths := congrArg List.length same
    rw [List.length_map, List.length_map, List.length_flatMap, List.length_flatMap] at lengths
    -- no source is served less by the page, and this one is served more
    have more : (srv.sources.zipIdx.map fun source =>
          (stateOf srv clock' answers hostName source).toList.length).sum <
        (srv.sources.zipIdx.map fun source =>
          (match cachedState srv clock' hostName source with
            | some state => List.replicate (hostNames.count hostName) state
            | none => (stateOf srv clock' answers hostName source).toList).length).sum := by
      apply List.sum_lt_sum
      · intro source _
        cases found : cachedState srv clock' hostName source with
        | none => exact Nat.le_refl _
        | some state => simpa [stateOf, found] using once
      · refine ⟨source, member, ?_⟩
        obtain ⟨state, found⟩ := Option.ne_none_iff_exists'.mp cached
        simp only [stateOf, found, Option.some_or, Option.toList_some, List.length_singleton,
          List.length_replicate]
        omega
    omega
  · intro single
    apply congrArg (List.map stateToRpc)
    apply List.flatMap_congr
    intro source member
    cases found : cachedState srv clock' hostName source with
    | none => rfl
    | some state =>
      have one := single ⟨source, member, by simp [found]⟩
      simp [stateOf, found, one]

end

/-! ## The two requests to the node service -/

/-- What the request for a streamed node rests on, but for the metrics. -/
structure FoundById (server : RPCServer) (clock : Clock) (answers : String → Answer)
    (hosts : List Host) (host : Host) : Prop where
  /-- the id as a 32-bit number leads to the node, or to one just like it -/
  found : ∃ other, server.store.getNodeById host.id.toInt32.toInt64 = .ok other ∧
    hostToRpc other [] ∅ = hostToRpc host [] ∅
  reached : Reached server.statusSrv clock answers host.icingaName
  monitored : ∃ source ∈ server.statusSrv.sources.zipIdx,
    stateOf server.statusSrv clock answers host.icingaName source ≠ none
  /-- the page does not share a cached host among nodes -/
  once : (∃ source ∈ server.statusSrv.sources.zipIdx,
    cachedState server.statusSrv clock host.icingaName source ≠ none) →
      (hosts.map Host.icingaName).count host.icingaName = 1

structure ShownById (server : RPCServer) (clock : Clock) (answers : String → Answer)
    (req : NodesAllRequest) (hosts : List Host) (host : Host) : Prop
    extends FoundById server clock answers hosts host where
  /-- the metrics can be listed, and their order does not matter -/
  metered : req.includeLastMetrics.toUInt32 = 0 ∨
    ∃ metrics, server.metricSrv.getMetricsByHost host.name = .ok metrics ∧
      SentInAnyOrder server.metricSrv req.includeLastMetrics.toUInt32 metrics

/-- An id that fits 32 bits leads to its node. -/
theorem found_of_small_id (server : RPCServer) (fromId : Int64) (nTake : Int32) (host : Host)
    (listed : server.store.getAllNodesFrom fromId nTake = .ok hosts) (member : host ∈ hosts)
    (small : host.id.toInt32.toInt64 = host.id) :
    server.store.getNodeById host.id.toInt32.toInt64 = .ok host := by
  rw [small]
  exact server.store.consistent listed host member

/-! ### The metrics of both -/

theorem exists_listing {first metrics : List Metric} (perm : first.Perm metrics) :
    ∃ listing : Listing, listing.list metrics = first := by
  classical
  refine ⟨⟨fun others => if others = metrics then first else others, fun others => ?_⟩, if_pos rfl⟩
  split
  · rename_i same
    exact same ▸ perm
  · exact List.Perm.refl _

theorem fetchLastMetrics_zero (metricSrv : MetricStorage) (hostName : String) :
    fetchLastMetrics metricSrv hostName 0 = .ok ∅ := rfl

theorem fetchLastMetrics_listedIn {metricSrv : MetricStorage} (some : nGet ≠ 0)
    (listed : metricSrv.getMetricsByHost hostName = .ok metrics) (listing : Listing) :
    fetchLastMetrics (metricSrv.listedIn listing) hostName nGet =
      .ok (entered metricSrv nGet (listing.list metrics)) := by
  have inOrder : (metricSrv.listedIn listing).getMetricsByHost hostName =
      .ok (listing.list metrics) := by
    simp only [MetricStorage.listedIn, listed]
    rfl
  rw [fetchLastMetrics_eq _ nGet inOrder, requested, if_pos (UInt32.pos_iff_ne_zero.mpr some)]
  rfl

theorem fetchLastMetrics_refused {metricSrv : MetricStorage} (some : nGet ≠ 0)
    (refused : metricSrv.getMetricsByHost hostName = .error err) (listing : Listing) :
    fetchLastMetrics (metricSrv.listedIn listing) hostName nGet = .error err := by
  simp only [fetchLastMetrics, if_pos (UInt32.pos_iff_ne_zero.mpr some), MetricStorage.listedIn,
    refused]
  rfl

/-- Both requests fetch the metrics of the host, and send the same of them. -/
def SentAlike (metricSrv : MetricStorage) (nGet : UInt32) (hostName : String)
    (listing listing' : Listing) : Prop :=
  ∃ metrics metrics', fetchLastMetrics (metricSrv.listedIn listing) hostName nGet = .ok metrics ∧
    fetchLastMetrics (metricSrv.listedIn listing') hostName nGet = .ok metrics' ∧
      lastMetricValuesToRpc metrics' = lastMetricValuesToRpc metrics

/-- They do so in whatever orders they list them exactly if the order does not
matter to any metric. -/
theorem sentAlike_iff (metricSrv : MetricStorage) (nGet : UInt32) (hostName : String)
    (distinct : ∀ metrics, metricSrv.getMetricsByHost hostName = .ok metrics →
      (metrics.map getMetricString).Nodup) :
    (∀ listing listing', SentAlike metricSrv nGet hostName listing listing') ↔
      nGet = 0 ∨ ∃ metrics, metricSrv.getMetricsByHost hostName = .ok metrics ∧
        SentInAnyOrder metricSrv nGet metrics := by
  by_cases none : nGet = 0
  · subst none
    exact iff_of_true (fun _ _ => ⟨∅, ∅, rfl, rfl, rfl⟩) (.inl rfl)
  rw [or_iff_right none]
  cases listed : metricSrv.getMetricsByHost hostName with
  | error err =>
    have same : Listing := ⟨id, List.Perm.refl⟩
    refine iff_of_false (fun alike => ?_) (fun ⟨_, known, _⟩ => by cases known)
    obtain ⟨_, _, fetched, -⟩ := alike same same
    rw [fetchLastMetrics_refused none listed] at fetched
    cases fetched
  | ok metrics =>
    simp only [Except.ok.injEq, exists_eq_left']
    have agree := @views_agree_iff metricSrv nGet _ sentValues metrics (distinct metrics listed)
    simp only [← lastMetricValuesToRpc_eq_iff] at agree
    rw [SentInAnyOrder, ← agree]
    constructor
    · intro alike first second perm perm'
      obtain ⟨listing, rfl⟩ := exists_listing perm
      obtain ⟨listing', rfl⟩ := exists_listing perm'
      obtain ⟨_, _, fetched, fetched', same⟩ := alike listing listing'
      rw [fetchLastMetrics_listedIn none listed] at fetched fetched'
      cases fetched
      cases fetched'
      exact same.symm
    · intro same listing listing'
      exact ⟨_, _, fetchLastMetrics_listedIn none listed listing,
        fetchLastMetrics_listedIn none listed listing',
        same _ _ (listing'.perm metrics) (listing.perm metrics)⟩

/-! ### The nodes -/

/-- Two nodes are shown alike when their hosts, their states and their metrics
are. -/
theorem hostToRpc_eq_iff (host other : Host) (states states' : List HostState)
    (metrics metrics' : MetricMap) :
    hostToRpc other states metrics = hostToRpc host states' metrics' ↔
      hostToRpc other [] ∅ = hostToRpc host [] ∅ ∧
        states.map stateToRpc = states'.map stateToRpc ∧
          lastMetricValuesToRpc metrics = lastMetricValuesToRpc metrics' := by
  simp only [hostToRpc, Node.mk.injEq, List.map_nil, true_and]
  tauto

theorem streamedNode_eq (states : NameMap)
    (fetched : fetchLastMetrics metricSrv host.name nGet = .ok metrics) :
    streamedNode metricSrv nGet states host =
      hostToRpc host (statesOf states host.icingaName) metrics := by
  unfold streamedNode
  rw [fetched]

theorem streamedNode_id (metricSrv : MetricStorage) (nGet : UInt32) (states : NameMap)
    (host : Host) : (streamedNode metricSrv nGet states host).id = host.id.toInt32 := rfl

theorem getNodeById_ok_iff (server : RPCServer) (clock : Clock) (listing : Listing)
    (nodeId count : Int32) (node : Node) :
    (getNodeById server clock listing ⟨nodeId, true, count⟩).2 = .ok node ↔
      ∃ host states metrics, server.store.getNodeById nodeId.toInt64 = .ok host ∧
        (getHostStatusByName server.statusSrv clock host.icingaName).2 = .ok states ∧
          fetchLastMetrics (server.metricSrv.listedIn listing) host.name count.toUInt32 =
              .ok metrics ∧
            node = hostToRpc host states metrics := by
  unfold getNodeById
  cases looked : server.store.getNodeById nodeId.toInt64 with
  | error err => simp
  | ok host =>
    simp only [if_true, Except.ok.injEq]
    cases asked : (getHostStatusByName server.statusSrv clock host.icingaName).2 with
    | error err => simp [asked, bind, Except.bind]
    | ok states =>
      cases fetched : fetchLastMetrics (server.metricSrv.listedIn listing) host.name
          count.toUInt32 with
      | error err => simp [asked, fetched, bind, Except.bind]
      | ok metrics => simp [asked, fetched, bind, Except.bind, pure, Except.pure, eq_comm]

section
variable {server : RPCServer} {pageClock clock : Clock} {hosts : List Host} {host : Host}
  {answers : String → Answer} {nGet : UInt32} {listing' : Listing}

/-- Where a host's metrics cannot be fetched in one order, they cannot in another. -/
theorem fetched_in_other (metricSrv : MetricStorage) (listing : Listing)
    (fetched : fetchLastMetrics (metricSrv.listedIn listing') hostName nGet = .ok metrics') :
    ∃ metrics, fetchLastMetrics (metricSrv.listedIn listing) hostName nGet = .ok metrics := by
  by_cases none : nGet = 0
  · exact ⟨∅, none ▸ fetchLastMetrics_zero _ _⟩
  · cases listed : metricSrv.getMetricsByHost hostName with
    | error err =>
      rw [fetchLastMetrics_refused none listed] at fetched
      cases fetched
    | ok metrics => exact ⟨_, fetchLastMetrics_listedIn none listed listing⟩

/-- One request after one page, each in its own order. -/
theorem node_by_id_iff (listing listing' : Listing) (count : Int32)
    (indexed : Indexed server.statusSrv.cache)
    (named : (server.statusSrv.sources.map StateSource.getFullName).Nodup)
    (standing : ∀ src ∈ server.statusSrv.sources, Standing src (answers src.getFullName))
    (settled : SettledBetween server.statusSrv host.icingaName pageClock clock)
    (requested : host.icingaName ∈ hosts.map Host.icingaName) :
    let page := getHostsStatusByName server.statusSrv pageClock (hosts.map Host.icingaName)
    (getNodeById server clock listing' ⟨host.id.toInt32, true, count⟩).2 =
        .ok (streamedNode (server.metricSrv.listedIn listing) count.toUInt32 page.m host) ↔
      FoundById server clock answers hosts host ∧
        SentAlike server.metricSrv count.toUInt32 host.name listing listing' := by
  intro page
  have answered := getHostStatusByName_ok_iff named standing indexed settled.self
  rw [getNodeById_ok_iff]
  constructor
  · rintro ⟨other, states, metrics', looked, asked, fetched', same⟩
    have name : host.name = other.name := congrArg Node.name same
    have icingaName : host.icingaName = other.icingaName := congrArg Node.icingaName same
    rw [← name] at fetched'
    rw [← icingaName] at asked
    obtain ⟨reached, monitored, rfl⟩ := (answered states).mp asked
    obtain ⟨metrics, fetched⟩ := fetched_in_other server.metricSrv listing fetched'
    obtain ⟨alike, served, sent⟩ := (hostToRpc_eq_iff host other _ _ metrics' metrics).mp
      (same.symm.trans (streamedNode_eq page.m fetched))
    have agreed := states_agree_iff named standing indexed reached settled requested
    exact ⟨⟨⟨other, looked, alike⟩, reached, monitored, agreed.mp served.symm⟩,
      metrics, metrics', fetched, fetched', sent⟩
  · rintro ⟨⟨⟨other, looked, alike⟩, reached, monitored, once⟩, metrics, metrics', fetched,
      fetched', sent⟩
    have name : other.name = host.name := congrArg Node.name alike
    have icingaName : other.icingaName = host.icingaName := congrArg Node.icingaName alike
    have agreed := (states_agree_iff named standing indexed reached settled requested).mpr once
    let states := server.statusSrv.sources.zipIdx.filterMap
      (stateOf server.statusSrv clock answers host.icingaName)
    refine ⟨other, states, metrics', looked, ?_, name ▸ fetched', ?_⟩
    · rw [icingaName]
      exact (answered states).mpr ⟨reached, monitored, rfl⟩
    · have same := (hostToRpc_eq_iff host other _ _ metrics' metrics).mpr
        ⟨alike, agreed.symm, sent⟩
      exact (streamedNode_eq page.m fetched).trans same.symm

end

/-- **When a streamed node is found by its id.** Against sources that each
stay up or down, and with no record of the host expiring between the two
requests, the request by id answers with the very node a page streamed, in
whatever orders the two list the host's metrics, if and only if the id fits its
32 bits, the sources that the cache does not stand in for can be asked, some
source has a state of the host, a cached host is not shared by nodes of the page,
and the metrics of the host can be listed and do not depend on the order. -/
theorem node_by_id_as_streamed_iff (server : RPCServer) (pageClock clock : Clock)
    (req : NodesAllRequest) (hosts : List Host) (i : Nat) (host : Host)
    (answers : String → Answer) (updates : List Update) (withState : req.includeState = true)
    (listed : server.store.getAllNodesFrom req.lastId.toInt64 req.nTake = .ok hosts)
    (placed : hosts[i]? = some host)
    (reachable : server.statusSrv.cache = cacheAfter updates)
    (named : (server.statusSrv.sources.map StateSource.getFullName).Nodup)
    (standing : ∀ src ∈ server.statusSrv.sources, Standing src (answers src.getFullName))
    (settled : SettledBetween server.statusSrv host.icingaName pageClock clock)
    (distinct : ∀ metrics, server.metricSrv.getMetricsByHost host.name = .ok metrics →
      (metrics.map getMetricString).Nodup) :
    (∀ (listings : Nat → Listing) (listing : Listing) (node : Node),
      (getAllNodes server pageClock listings req).2.1[i]? = some node →
        (getNodeById server clock listing ⟨node.id, true, req.includeLastMetrics⟩).2 = .ok node) ↔
      ShownById server clock answers req hosts host := by
  have indexed : Indexed server.statusSrv.cache := reachable ▸ indexed_cacheAfter updates
  have requested : host.icingaName ∈ hosts.map Host.icingaName :=
    List.mem_map_of_mem (List.mem_of_getElem? placed)
  let page := getHostsStatusByName server.statusSrv pageClock (hosts.map Host.icingaName)
  let nGet := req.includeLastMetrics.toUInt32
  have streamed (listings : Nat → Listing) : (getAllNodes server pageClock listings req).2.1[i]? =
      some (streamedNode (server.metricSrv.listedIn (listings i)) nGet page.m host) := by
    simp only [getAllNodes, listed, withState, if_true, List.getElem?_mapIdx, placed,
      Option.map_some, nGet, page]
  have each (listing listing' : Listing) := node_by_id_iff listing listing'
    req.includeLastMetrics indexed named standing settled requested
  have metered := sentAlike_iff server.metricSrv nGet host.name distinct
  constructor
  · intro shown
    have both (listing listing' : Listing) : FoundById server clock answers hosts host ∧
        SentAlike server.metricSrv nGet host.name listing listing' := by
      have answered := shown (fun _ => listing) listing' _ (streamed fun _ => listing)
      rw [streamedNode_id] at answered
      exact (each listing listing').mp answered
    have same : Listing := ⟨id, List.Perm.refl⟩
    exact { (both same same).1 with
      metered := metered.mp fun listing listing' => (both listing listing').2 }
  · intro shown listings listing node isNode
    obtain rfl := Option.some.inj ((streamed listings).symm.trans isNode)
    rw [streamedNode_id]
    exact (each (listings i) listing).mpr ⟨shown.toFoundById, metered.mpr shown.metered _ _⟩

/-! ## A monitored node and another -/

/-- A server over one node, with a source that knows the host `core`. -/
def serverOf (host : Host) : RPCServer where
  store := Graph.storage ⟨[host], List.nodup_singleton _⟩
  statusSrv := coreService newMemoryStateCache
  metricSrv := ⟨fun _ => .ok [], fun _ _ _ => .ok []⟩

def pageRequest : NodesAllRequest := ⟨0, 10, true, 0⟩

/-- The node as a page of one streams it. -/
def nodeOf (host : Host) : Node :=
  streamedNode (serverOf host).metricSrv 0
    (getHostsStatusByName (serverOf host).statusSrv coreClock [host.icingaName]).m host

/-- Metrics in the order in which they are given. -/
def asGiven : Listing := ⟨id, List.Perm.refl⟩

theorem core_standing (host : Host) : ∀ src ∈ (serverOf host).statusSrv.sources,
    Standing src (some (coreAnswers src.getFullName)) :=
  coreSources_steady

theorem core_settled (host : Host) :
    SettledBetween (serverOf host).statusSrv host.icingaName coreClock coreClock :=
  fun _ _ _ _ _ _ => Iff.rfl

/-- A monitored node is the same by its id. -/
theorem monitored_node_is_shown_by_id :
    let host : Host := { id := 7, icingaName := "core" }
    ∀ (listings : Nat → Listing) (listing : Listing) (node : Node),
      (getAllNodes (serverOf host) coreClock listings pageRequest).2.1[0]? = some node →
        (getNodeById (serverOf host) coreClock listing ⟨node.id, true, 0⟩).2 = .ok node := by
  intro host
  refine (node_by_id_as_streamed_iff (serverOf host) coreClock coreClock pageRequest [host] 0 host
    (fun name => some (coreAnswers name)) [] rfl rfl rfl rfl
    (coreService_named _) (core_standing host) (core_settled host) ?_).mpr ?_
  · intro metrics none
    cases none
    exact List.nodup_nil
  have looked := found_of_small_id (serverOf host) 0 10 host rfl List.mem_cons_self rfl
  refine ⟨⟨⟨host, looked, rfl⟩, ?_, ⟨_, List.mem_cons_self, ?_⟩, fun _ => ?_⟩, .inl rfl⟩
  · intro source _ _
    simp
  · decide
  · decide

/-- A node that no source monitors is streamed, and not found by its id. -/
theorem unmonitored_node_is_not_shown_by_id :
    ¬ ∀ (server : RPCServer) (pageClock clock : Clock) (req : NodesAllRequest)
      (hosts : List Host) (i : Nat) (host : Host) (answers : String → Answer)
      (updates : List Update), req.includeState = true →
      server.store.getAllNodesFrom req.lastId.toInt64 req.nTake = .ok hosts →
      hosts[i]? = some host → server.statusSrv.cache = cacheAfter updates →
      (server.statusSrv.sources.map StateSource.getFullName).Nodup →
      (∀ src ∈ server.statusSrv.sources, Standing src (answers src.getFullName)) →
      SettledBetween server.statusSrv host.icingaName pageClock clock →
      ∀ (listings : Nat → Listing) (listing : Listing) (node : Node),
        (getAllNodes server pageClock listings req).2.1[i]? = some node →
          (getNodeById server clock listing ⟨node.id, true, req.includeLastMetrics⟩).2 = .ok node := by
  intro claimed
  let host : Host := { id := 7, icingaName := "printer" }
  have shown := claimed (serverOf host) coreClock coreClock pageRequest [host] 0 host
    (fun name => some (coreAnswers name)) [] rfl rfl rfl rfl (coreService_named _)
    (core_standing host) (core_settled host) (fun _ => asGiven) asGiven (nodeOf host) rfl
  have refused : (getNodeById (serverOf host) coreClock asGiven ⟨(nodeOf host).id, true, 0⟩).2 =
      .error "Status not found" := by decide
  cases shown.symm.trans refused

end NetGraphz.NodeEndpointProofs
