import NetGraphz.AddressFilters
import NetGraphz.AddressLookup
import NetGraphz.StatusServiceProofs

/-! What a lookup by address lists. A state is pushed under both addresses of
its host, so a host with two addresses that are asked for is listed twice under
each of them, and one of them alone brings up the other. -/
namespace NetGraphz.AddressLookupProofs
open AddressLookup SourcePasses StateCache StateCacheProofs
open StatusService (Clock)

/-! ## The map of states -/

/-- What a state is listed as under an address. -/
def listings (address : IPBinString) (state : HostState) : List HostState :=
  (if state.ip = some address then [state] else []) ++
    if state.ip6 = some address then [state] else []

theorem under_pushUnder (m : IPMap) (ip : NetIP) (state : HostState) (address : IPBinString) :
    (pushUnder m ip state).under address =
      m.under address ++ if ip = some address then [state] else [] := by
  cases ip with
  | none => simp [pushUnder]
  | some bytes =>
    rw [pushUnder, Multimap.under_push, ipToBinString, Option.getD_some]
    by_cases same : address = bytes
    · simp [same]
    · simp [same, Ne.symm same]

theorem under_statesToIPMap (m : IPMap) (states : List HostState) (address : IPBinString) :
    (statesToIPMap m states).under address = m.under address ++ states.flatMap (listings address) := by
  unfold statesToIPMap
  induction states generalizing m with
  | nil => simp
  | cons state rest ih =>
    rw [List.foldl_cons, ih, under_pushUnder, under_pushUnder, List.flatMap_cons, listings]
    simp only [List.append_assoc]

theorem noneEmpty_pushUnder (full : m.NoneEmpty) (ip : NetIP) (state : HostState) :
    (pushUnder m ip state).NoneEmpty := by
  cases ip with
  | none => exact full
  | some bytes => exact full.push bytes state

theorem noneEmpty_statesToIPMap (full : m.NoneEmpty) (states : List HostState) :
    (statesToIPMap m states).NoneEmpty := by
  unfold statesToIPMap
  induction states generalizing m with
  | nil => exact full
  | cons state rest ih => exact ih (noneEmpty_pushUnder (noneEmpty_pushUnder full _ _) _ _)

theorem statesToIPMap_append (m : IPMap) (states more : List HostState) :
    statesToIPMap m (states ++ more) = statesToIPMap (statesToIPMap m states) more := by
  rw [statesToIPMap, List.foldl_append]
  rfl

theorem mem_listings : state' ∈ listings address state ↔
    state' = state ∧ HasAddress state address := by
  simp only [listings, HasAddress, List.mem_append, List.mem_ite_nil_right, List.mem_singleton,
    ← or_and_right]
  exact and_comm

/-- The source and the host of a state. -/
def keyOf (state : HostState) : String × String := (state.source, state.hostName)

/-- Two states of one host share no address. -/
def Apart (first second : HostState) : Prop :=
  keyOf first = keyOf second → ∀ address, HasAddress first address → ¬ HasAddress second address

/-- The host has one address twice. -/
def Doubled (state : HostState) : Prop :=
  ∃ address, state.ip = some address ∧ state.ip6 = some address

theorem forall_pairwise {related : γ → α → α → Prop} {items : List α} :
    (∀ c, items.Pairwise (related c)) ↔ items.Pairwise fun a b => ∀ c, related c a b := by
  simp only [List.pairwise_iff_forall_sublist]
  exact ⟨fun all _ _ sub c => all c sub, fun all c _ _ sub => all sub c⟩

/-- The states of a list come once under each address exactly if each has two
addresses, and those of one host have different ones. -/
theorem nodup_listings_iff (states : List HostState) :
    (∀ address, ((states.flatMap (listings address)).map keyOf).Nodup) ↔
      (∀ state ∈ states, ¬ Doubled state) ∧ states.Pairwise Apart := by
  have single : ∀ address state, ((listings address state).map keyOf).Nodup ↔
      ¬ (state.ip = some address ∧ state.ip6 = some address) := by
    intro address state
    by_cases first : state.ip = some address <;> by_cases second : state.ip6 = some address <;>
      simp [listings, first, second]
  have cross : ∀ first second : HostState,
      (∀ address, ∀ x ∈ (listings address first).map keyOf,
        ∀ y ∈ (listings address second).map keyOf, x ≠ y) ↔ Apart first second := by
    intro first second
    simp only [List.forall_mem_map, mem_listings]
    constructor
    · intro distinct same address has has'
      exact distinct address first ⟨rfl, has⟩ second ⟨rfl, has'⟩ same
    · rintro apart address _ ⟨rfl, has⟩ _ ⟨rfl, has'⟩ same
      exact apart same address has has'
  have each : ∀ address, ((states.flatMap (listings address)).map keyOf).Nodup ↔
      (∀ state ∈ states, ((listings address state).map keyOf).Nodup) ∧
        states.Pairwise fun first second => ∀ x ∈ (listings address first).map keyOf,
          ∀ y ∈ (listings address second).map keyOf, x ≠ y := by
    intro address
    rw [List.map_flatMap, List.Nodup, List.pairwise_flatMap]
  simp only [each, forall_and, forall_pairwise, cross, single]
  apply and_congr_left
  intro _
  constructor
  · rintro once state member ⟨address, doubled⟩
    exact once address state member doubled
  · intro once address state member doubled
    exact once state member ⟨address, doubled⟩

/-! ## A source's pass over the addresses -/

/-- What the cache has of one source, by address. -/
abbrev Known := Records NetIP

variable (ttl : Duration) (known : Known) (now : Nat → Time)

/-- The cached records of one source. -/
def knownOf (cache : MemoryStateCache) (source : String) : Known := fun ip => getByIP cache ip source

/-- The pass sorts the addresses into the three kinds, in order. -/
theorem lookUpAll_eq (srv : Service) (clock : Clock) (i : Nat) (source : String)
    (ipAddresses : List NetIP) :
    let known := knownOf srv.cache source
    let ips := ipAddresses.zipIdx
    lookUpAll srv clock i source ipAddresses =
      ⟨ips.filterMap (missed known),
        ips.filterMap (expired srv.cacheTtl known (clock.lookup i)),
        (ips.filterMap (expired srv.cacheTtl known (clock.lookup i))).flatMap addressesOf,
        ips.filterMap (recent srv.cacheTtl known (clock.lookup i))⟩ := by
  intro known ips
  refine pass_eq srv.cacheTtl known (clock.lookup i)
    (fun missed expired found => Lookups.mk missed expired (expired.flatMap addressesOf) found)
    _ ?_ ips
  intro missed expired found ip
  cases cached : getByIP srv.cache ip.1 source <;> simp [lookUp, known, knownOf, cached]

/-! ## One source -/

variable (clock : Clock) (ipAddresses : List NetIP) (source : AddressSource × Nat)

def recentStates : List HostState :=
  ipAddresses.zipIdx.filterMap (recent ttl known (clock.lookup source.2))

def expiredStates : List HostState :=
  ipAddresses.zipIdx.filterMap (expired ttl known (clock.lookup source.2))

/-- The answer to the fetch of the expired hosts, by all their addresses. -/
def refreshAnswer : Except String (List HostState) :=
  source.1.getHostsStateByIP (2 * source.2)
    ((expiredStates ttl known clock ipAddresses source).flatMap addressesOf)

/-- The answer to the fetch of the addresses that lead nowhere. -/
def missedAnswer : Except String (List HostState) :=
  source.1.getHostsStateByIP (2 * source.2 + 1) (ipAddresses.zipIdx.filterMap (missed known))

/-- The states a source's fetches bring, or that stand in for them. -/
def fetched : List HostState :=
  statesOr (refreshAnswer ttl known clock ipAddresses source)
      (expiredStates ttl known clock ipAddresses source) ++
    statesOr (missedAnswer known ipAddresses source) []

/-- All the states a source adds to the map. -/
def contribution : List HostState :=
  recentStates ttl known clock ipAddresses source ++ fetched ttl known clock ipAddresses source

/-- All the states a source's fetches put into the cache. -/
def puts : List Update :=
  stamped (clock.put (2 * source.2)) (statesOr (refreshAnswer ttl known clock ipAddresses source) [])
    ++ stamped (clock.put (2 * source.2 + 1)) (statesOr (missedAnswer known ipAddresses source) [])

/-- A fetch in one equation, whether it fails or not. -/
theorem fetchCacheIPMap_eq (srv : Service) (fetch : Nat) (m : IPMap) (ips : List NetIP)
    {src : AddressSource} (found : getSourceByName srv src.getFullName = some src) :
    let answer := src.getHostsStateByIP fetch ips
    fetchCacheIPMap srv clock fetch m ips src.getFullName =
      ({ srv with cache := (stamped (clock.put fetch) (statesOr answer [])).foldl update srv.cache },
        statesToIPMap m (statesOr answer []), (statesOr answer []).length, failure answer) := by
  intro answer
  unfold fetchCacheIPMap
  rw [found]
  exact fetch_eq (putStatesCache · (clock.put fetch)) statesToIPMap (fun _ => rfl) (fun _ => rfl)
    answer srv m

/-- The loop's body in one equation. -/
theorem serveSource_eq (serving : Serving)
    (found : getSourceByName serving.srv source.1.getFullName = some source.1) :
    let ttl := serving.srv.cacheTtl
    let known := knownOf serving.srv.cache source.1.getFullName
    serveSource clock ipAddresses serving source =
      ⟨{ serving.srv with
          cache := (puts ttl known clock ipAddresses source).foldl update serving.srv.cache },
        statesToIPMap serving.m (contribution ttl known clock ipAddresses source),
        (failure (missedAnswer known ipAddresses source)).or
          ((failure (refreshAnswer ttl known clock ipAddresses source)).or serving.lastError)⟩ := by
  intro ttl known
  obtain ⟨src, i⟩ := source
  simp only [serveSource, lookUpAll_eq, fetchCacheIPMap_eq clock serving.srv _ _ _ found]
  rw [fetchCacheIPMap_eq clock _ _ _ _ (by exact found)]
  simp only [puts, List.foldl_append]
  exact serve_eq statesToIPMap (fun _ => rfl) statesToIPMap_append
    (refreshAnswer ttl known clock ipAddresses (src, i))
    (missedAnswer known ipAddresses (src, i)) _ _ _ (Serving.mk _) _

/-! ## All sources -/

/-- A source that answers every fetch, with its own states and each host once. -/
structure AnswersOnce (src : AddressSource) : Prop where
  answers : ∀ fetch ips, ∃ states, src.getHostsStateByIP fetch ips = .ok states
  own : ∀ {fetch ips states}, src.getHostsStateByIP fetch ips = .ok states →
    ∀ state ∈ states, state.source = src.getFullName
  one : ∀ {fetch ips states}, src.getHostsStateByIP fetch ips = .ok states →
    (states.map HostState.hostName).Nodup

theorem AnswersOnce.failure_eq_none (answering : AnswersOnce src) (fetch : Nat) (ips : List NetIP) :
    failure (src.getHostsStateByIP fetch ips) = none := by
  obtain ⟨states, answer⟩ := answering.answers fetch ips
  rw [answer]
  rfl

theorem AnswersOnce.statesOr_eq (answering : AnswersOnce src) (fetch : Nat) (ips : List NetIP)
    (otherwise : List HostState) :
    statesOr (src.getHostsStateByIP fetch ips) otherwise =
      statesOr (src.getHostsStateByIP fetch ips) [] := by
  obtain ⟨states, answer⟩ := answering.answers fetch ips
  rw [answer]
  rfl

theorem AnswersOnce.statesOr_own (answering : AnswersOnce src) (fetch : Nat) (ips : List NetIP)
    (otherwise : List HostState) :
    ∀ state ∈ statesOr (src.getHostsStateByIP fetch ips) otherwise, state.source = src.getFullName := by
  obtain ⟨states, answer⟩ := answering.answers fetch ips
  rw [answer]
  exact answering.own answer

theorem AnswersOnce.statesOr_one (answering : AnswersOnce src) (fetch : Nat) (ips : List NetIP)
    (otherwise : List HostState) :
    (statesOr (src.getHostsStateByIP fetch ips) otherwise).Pairwise Apart := by
  obtain ⟨states, answer⟩ := answering.answers fetch ips
  rw [answer]
  apply (List.pairwise_map.mp (answering.one answer)).imp
  intro first second distinct same
  exact absurd (congrArg Prod.snd same) distinct

/-- A source only ever updates its own part of the cache. -/
theorem puts_source (answering : AnswersOnce source.1)
    (member : entry ∈ puts ttl known clock ipAddresses source) :
    entry.1.source = source.1.getFullName :=
  source_of_stamped (answering.statesOr_own _ _ _) (answering.statesOr_own _ _ _) member

theorem knownOf_foldl (indexed : Indexed cache) (updates : List Update)
    (others : ∀ entry ∈ updates, entry.1.source ≠ name) :
    knownOf (updates.foldl update cache) name = knownOf cache name := by
  refine records_foldl (knownOf · name) ?_ indexed updates others
  intro cache entry indexed apart
  funext ip
  exact indexed.getByIP_update_other apart ip

variable (srv : Service)

/-- What a source adds to the map, as the cache stood before the call. -/
def contributionOf : List HostState :=
  contribution srv.cacheTtl (knownOf srv.cache source.1.getFullName) clock ipAddresses source

def putsOf : List Update :=
  puts srv.cacheTtl (knownOf srv.cache source.1.getFullName) clock ipAddresses source

/-- A loop over some of the sources: the cache it leaves, the map, and no error. -/
theorem serveSource_foldl (named : (srv.sources.map fun src => src.getFullName).Nodup)
    (answering : ∀ src ∈ srv.sources, AnswersOnce src) (indexed : Indexed srv.cache)
    (passed : List (AddressSource × Nat)) (within : passed <+: srv.sources.zipIdx) :
    let served := passed.foldl (serveSource clock ipAddresses) ⟨srv, ∅, none⟩
    served.srv = { srv with
        cache := (passed.flatMap fun source => putsOf clock ipAddresses source srv).foldl update
          srv.cache } ∧
      served.m =
        statesToIPMap ∅ (passed.flatMap fun source => contributionOf clock ipAddresses source srv) ∧
      served.lastError = none := by
  have mine : ∀ source ∈ srv.sources.zipIdx, source.1 ∈ srv.sources :=
    fun source member => List.fst_mem_of_mem_zipIdx member
  induction passed using List.reverseRecOn with
  | nil => exact ⟨rfl, rfl, rfl⟩
  | append_singleton past source ih =>
    have earlier := (List.prefix_append past [source]).trans within
    have apart := Keyed.earlier_apart named within
    have member := mine source
      (within.subset (List.mem_append_right past (List.mem_singleton_self source)))
    -- what the sources before put into the cache is not this source's
    have untouched : knownOf ((past.flatMap fun source => putsOf clock ipAddresses source srv).foldl
        update srv.cache) source.1.getFullName = knownOf srv.cache source.1.getFullName := by
      apply knownOf_foldl indexed
      intro entry put
      obtain ⟨other, past', put⟩ := List.mem_flatMap.mp put
      rw [puts_source _ _ _ _ _ (answering _ (mine other (earlier.subset past'))) put]
      exact apart other past'
    obtain ⟨left, listed, noError⟩ := ih earlier
    have found : getSourceByName (past.foldl (serveSource clock ipAddresses) ⟨srv, ∅, none⟩).srv
        source.1.getFullName = some source.1 := by
      rw [left]
      exact Keyed.find_of_mem named member
    have answers := (answering _ member).failure_eq_none
    rw [List.foldl_append, List.foldl_cons, List.foldl_nil, serveSource_eq _ _ _ _ found, left,
      listed, noError]
    simp only [untouched, List.flatMap_append, List.flatMap_singleton, List.foldl_append,
      statesToIPMap_append, missedAnswer, refreshAnswer, answers, Option.none_or]
    exact ⟨rfl, rfl, trivial⟩

/-! ## Where nothing is listed twice -/

/-- Only requested addresses are listed, and under each of them a host of a
source once. -/
def ListsOnce (requested : List NetIP) (m : IPMap) : Prop :=
  (∀ address, address ∈ m → address ∈ requested.map ipToBinString) ∧
    ∀ address, ((m.under address).map keyOf).Nodup

/-- No host is among both, with a common address. -/
def AllApart (states others : List HostState) : Prop :=
  ∀ state ∈ states, ∀ other ∈ others, Apart state other

/-- No two of the addresses lead to one recent state, unless it has none itself. -/
def OneWay : Prop :=
  ipAddresses.zipIdx.Pairwise fun first second => ∀ state,
    recent ttl known now first = some state → recent ttl known now second = some state →
      ∀ address, ¬ HasAddress state address

/-- What a source serves comes up only under what was asked for, and once. -/
structure ServesOnce : Prop where
  /-- Its states have no address that was not asked for. -/
  requested : ∀ state ∈ contributionOf clock ipAddresses source srv, ∀ address,
    HasAddress state address → address ∈ ipAddresses.map ipToBinString
  different : ∀ state ∈ contributionOf clock ipAddresses source srv, ¬ Doubled state
  oneWay : OneWay srv.cacheTtl (knownOf srv.cache source.1.getFullName) (clock.lookup source.2)
    ipAddresses
  /-- A host with a recent state is not fetched again under an address of that. -/
  notRefetched :
    let known := knownOf srv.cache source.1.getFullName
    AllApart (recentStates srv.cacheTtl known clock ipAddresses source)
      (fetched srv.cacheTtl known clock ipAddresses source)
  /-- Nor is a host in both answers under one address. -/
  notTwice :
    let known := knownOf srv.cache source.1.getFullName
    AllApart (statesOr (refreshAnswer srv.cacheTtl known clock ipAddresses source) [])
      (statesOr (missedAnswer known ipAddresses source) [])

variable {ttl known now srv clock ipAddresses source}

theorem recent_found (found : recent ttl known now ip = some state) :
    ∃ record, known ip.1 = some record ∧ record.state = state := by
  obtain ⟨record, leads, kept⟩ := Option.bind_eq_some_iff.mp found
  split at kept
  · cases kept
  · exact ⟨record, leads, Option.some.inj kept⟩

theorem recent_source (indexed : Indexed cache)
    (found : recent ttl (knownOf cache name) now ip = some state) : state.source = name := by
  obtain ⟨record, leads, rfl⟩ := recent_found found
  exact (indexed.getByIP_named leads).1

/-- Recent states of one host are one state. -/
theorem recent_unique (indexed : Indexed cache)
    (first : recent ttl (knownOf cache name) now ip = some state)
    (second : recent ttl (knownOf cache name) now ip' = some state')
    (same : keyOf state = keyOf state') : state = state' := by
  obtain ⟨record, leads, rfl⟩ := recent_found first
  obtain ⟨record', leads', rfl⟩ := recent_found second
  have host : record.state.hostName = record'.state.hostName := congrArg Prod.snd same
  have named := (indexed.getByIP_named leads).2.1
  have named' := (indexed.getByIP_named leads').2.1
  rw [host] at named
  rw [Option.some.inj (named.symm.trans named')]

/-- The recent states are apart exactly if each is found by one address. -/
theorem pairwise_recent_iff (indexed : Indexed cache) :
    (ipAddresses.zipIdx.filterMap (recent ttl (knownOf cache name) now)).Pairwise Apart ↔
      OneWay ttl (knownOf cache name) now ipAddresses := by
  rw [List.pairwise_filterMap, OneWay]
  apply List.Pairwise.iff
  intro first second
  constructor
  · intro apart state found again address has
    exact apart state found state again rfl address has has
  · intro oneWay state found state' found' same address has
    have own := recent_unique indexed found found' same
    subst own
    exact absurd has (oneWay state found found' address)

theorem contribution_source (answering : AnswersOnce source.1) (indexed : Indexed srv.cache) :
    ∀ state ∈ contributionOf clock ipAddresses source srv, state.source = source.1.getFullName := by
  intro state member
  rcases List.mem_append.mp member with cached | brought
  · obtain ⟨ip, _, found⟩ := List.mem_filterMap.mp cached
    exact recent_source indexed found
  · rcases List.mem_append.mp brought with refreshed | missed
    · exact answering.statesOr_own _ _ _ _ refreshed
    · exact answering.statesOr_own _ _ _ _ missed

/-- What one source adds is listed once under each address. -/
theorem pairwise_contribution_iff (answering : AnswersOnce source.1) (indexed : Indexed srv.cache) :
    let known := knownOf srv.cache source.1.getFullName
    (contributionOf clock ipAddresses source srv).Pairwise Apart ↔
      OneWay srv.cacheTtl known (clock.lookup source.2) ipAddresses ∧
      AllApart (statesOr (refreshAnswer srv.cacheTtl known clock ipAddresses source) [])
        (statesOr (missedAnswer known ipAddresses source) []) ∧
      AllApart (recentStates srv.cacheTtl known clock ipAddresses source)
        (fetched srv.cacheTtl known clock ipAddresses source) := by
  intro known
  have refreshed : (statesOr (refreshAnswer srv.cacheTtl known clock ipAddresses source) []).Pairwise
      Apart := answering.statesOr_one _ _ _
  have brought : (statesOr (missedAnswer known ipAddresses source) []).Pairwise Apart :=
    answering.statesOr_one _ _ _
  have answered : statesOr (refreshAnswer srv.cacheTtl known clock ipAddresses source)
      (expiredStates srv.cacheTtl known clock ipAddresses source) = _ :=
    answering.statesOr_eq _ _ _
  have both : (fetched srv.cacheTtl known clock ipAddresses source).Pairwise Apart ↔
      AllApart (statesOr (refreshAnswer srv.cacheTtl known clock ipAddresses source) [])
        (statesOr (missedAnswer known ipAddresses source) []) := by
    rw [fetched, answered, List.pairwise_append]
    exact ⟨fun parts => parts.2.2, fun apart => ⟨refreshed, brought, apart⟩⟩
  rw [contributionOf, contribution, List.pairwise_append, both, recentStates,
    pairwise_recent_iff indexed]
  exact Iff.rfl

/-- All that the sources add is listed once exactly if it is for each of them. -/
theorem pairwise_contributions_iff (named : (srv.sources.map fun src => src.getFullName).Nodup)
    (answering : ∀ src ∈ srv.sources, AnswersOnce src) (indexed : Indexed srv.cache) :
    (srv.sources.zipIdx.flatMap fun source => contributionOf clock ipAddresses source srv).Pairwise
        Apart ↔
      ∀ source ∈ srv.sources.zipIdx, (contributionOf clock ipAddresses source srv).Pairwise Apart := by
  rw [List.pairwise_flatMap]
  refine and_iff_left ((Keyed.apart_zipIdx named).imp_of_mem ?_)
  intro first second member member' apart state inFirst other inSecond same
  have own := contribution_source (answering _ (List.fst_mem_of_mem_zipIdx member)) indexed state inFirst
  have own' := contribution_source (answering _ (List.fst_mem_of_mem_zipIdx member')) indexed other
    inSecond
  exact absurd (own.symm.trans ((congrArg Prod.fst same).trans own')) apart

/-- **Each source has to serve what was asked for, once.** -/
theorem lists_once_iff (srv : Service) (clock : Clock) (ipAddresses : List NetIP)
    (updates : List Update) (reachable : srv.cache = cacheAfter updates)
    (named : (srv.sources.map fun src => src.getFullName).Nodup)
    (answering : ∀ src ∈ srv.sources, AnswersOnce src) :
    ListsOnce ipAddresses (getHostsStatusByIP srv clock ipAddresses).m ↔
      ∀ source ∈ srv.sources.zipIdx, ServesOnce clock ipAddresses source srv := by
  have indexed : Indexed srv.cache := reachable ▸ indexed_cacheAfter updates
  have listed := (serveSource_foldl clock ipAddresses srv named answering indexed _
    (List.prefix_refl _)).2.1
  have full := noneEmpty_statesToIPMap Multimap.noneEmpty_empty
    (srv.sources.zipIdx.flatMap fun source => contributionOf clock ipAddresses source srv)
  rw [getHostsStatusByIP, listed, ListsOnce]
  simp only [full.mem_iff, under_statesToIPMap, Multimap.under_empty, List.nil_append,
    nodup_listings_iff, pairwise_contributions_iff named answering indexed]
  constructor
  · rintro ⟨keys, different, apart⟩ source member
    have inAll : ∀ state ∈ contributionOf clock ipAddresses source srv, state ∈
        srv.sources.zipIdx.flatMap fun source => contributionOf clock ipAddresses source srv :=
      fun state served => List.mem_flatMap.mpr ⟨source, member, served⟩
    obtain ⟨oneWay, notTwice, notRefetched⟩ := (pairwise_contribution_iff
      (answering _ (List.fst_mem_of_mem_zipIdx member)) indexed).mp (apart source member)
    refine ⟨?_, fun state served => different state (inAll state served), oneWay, notRefetched,
      notTwice⟩
    intro state served address has
    refine keys address (List.ne_nil_of_mem (a := state) ?_)
    exact List.mem_flatMap.mpr ⟨state, inAll state served, mem_listings.mpr ⟨rfl, has⟩⟩
  · intro serves
    refine ⟨?_, ?_, ?_⟩
    · intro address some
      obtain ⟨state, there⟩ := List.exists_mem_of_ne_nil _ some
      obtain ⟨state', inAll, listing⟩ := List.mem_flatMap.mp there
      obtain ⟨source, member, served⟩ := List.mem_flatMap.mp inAll
      exact (serves source member).requested state' served address (mem_listings.mp listing).2
    · intro state inAll
      obtain ⟨source, member, served⟩ := List.mem_flatMap.mp inAll
      exact (serves source member).different state served
    · intro source member
      have own := serves source member
      exact (pairwise_contribution_iff (answering _ (List.fst_mem_of_mem_zipIdx member))
        indexed).mpr ⟨own.oneWay, own.notTwice, own.notRefetched⟩

/-- A lookup of one address gives what is listed under it, which may be nothing;
it finds nothing only where no state that came up has an address. -/
theorem getHostStatusByIP_eq (srv : Service) (clock : Clock) (ip : NetIP)
    (indexed : Indexed srv.cache) (named : (srv.sources.map fun src => src.getFullName).Nodup)
    (answering : ∀ src ∈ srv.sources, AnswersOnce src) :
    let states := srv.sources.zipIdx.flatMap fun source => contributionOf clock [ip] source srv
    (getHostStatusByIP srv clock ip).2 =
      if statesToIPMap ∅ states = ∅ then .error "Status not found"
      else .ok (states.flatMap (listings (ipToBinString ip))) := by
  intro states
  obtain ⟨_, listed, noError⟩ := serveSource_foldl clock [ip] srv named answering indexed _
    (List.prefix_refl _)
  rw [getHostStatusByIP, getHostsStatusByIP, noError, listed]
  simp only
  split
  · rfl
  · rw [under_statesToIPMap, Multimap.under_empty, List.nil_append]

/-! ## Sources with a table -/

/-- The Icinga source, as the service asks it. -/
def icingaSource (self : IcingaSource.IcingaStateSource) : AddressSource where
  getFullName := IcingaSource.getFullName self
  getHostsStateByName _ names := IcingaSource.getHostsStateByName self names
  getHostsStateByIP _ ips := IcingaSource.getHostsStateByIP self ips

/-- It answers each host once, if the table has it once. -/
theorem icingaSource_answersOnce (config : IcingaSource.Config) (table : List HostsTable.HostRow)
    (distinct : (table.map HostsTable.HostRow.hostName).Nodup) :
    AnswersOnce
      (icingaSource ⟨config, HostsTable.serving (table.map HostsTable.HostRow.record)⟩) := by
  have made : ∀ sourceName row,
      (HostDispatch.stateOf sourceName (HostsTable.offered row)).source = sourceName ∧
        (HostDispatch.stateOf sourceName (HostsTable.offered row)).hostName = row.hostName := by
    intro sourceName row
    rw [HostsTable.stateOf_offered]
    exact ⟨rfl, rfl⟩
  constructor
  · intro fetch ips
    exact ⟨_, AddressFilters.getHostsStateByIP_serving config table ips⟩
  · intro fetch ips states answer state member
    cases (AddressFilters.getHostsStateByIP_serving config table ips).symm.trans answer
    obtain ⟨row, _, rfl⟩ := List.mem_map.mp member
    exact (made _ row).1
  · intro fetch ips states answer
    cases (AddressFilters.getHostsStateByIP_serving config table ips).symm.trans answer
    simp only [List.map_map, Function.comp_def, made]
    exact distinct.sublist (List.filter_sublist.map _)

/-- A source that answers with the hosts of a table that have an address asked for. -/
def tableSource (name : String) (table : List HostState) : AddressSource where
  getFullName := name
  getHostsStateByName _ names := .ok (table.filter fun state => state.hostName ∈ names)
  getHostsStateByIP _ ips := .ok (table.filter fun state =>
    ips.any fun ip => ip.isSome ∧ (state.ip = ip ∨ state.ip6 = ip))

theorem tableSource_answersOnce (own : ∀ state ∈ table, state.source = name)
    (distinct : (table.map HostState.hostName).Nodup) : AnswersOnce (tableSource name table) := by
  constructor
  · intro fetch ips
    exact ⟨_, rfl⟩
  · intro fetch ips states answer state member
    cases answer
    exact own state (List.mem_filter.mp member).1
  · intro fetch ips states answer
    cases answer
    exact distinct.sublist (List.filter_sublist.map _)

/-- A host with an IPv4 address. -/
def core : HostState := { source := "icinga", hostName := "core", ip := some [10, 0, 0, 1] }

/-- A host with two addresses. -/
def dual : HostState := { core with ip6 := some (List.replicate 16 1) }

/-- The first of them, asked for by its address, is served from its source. -/
theorem one_address_listed_once :
    let srv : Service := ⟨[tableSource "icinga" [core]], newMemoryStateCache, 60⟩
    let clock : Clock := ⟨fun _ _ => 0, fun _ _ => 0⟩
    ListsOnce [core.ip] (getHostsStatusByIP srv clock [core.ip]).m := by
  intro srv clock
  refine (lists_once_iff srv clock [core.ip] [] rfl (List.nodup_singleton _) ?_).mpr ?_
  · rw [List.forall_mem_singleton]
    exact tableSource_answersOnce (List.forall_mem_singleton.mpr rfl) (List.nodup_singleton _)
  · intro source member
    cases List.mem_singleton.mp member
    have served : contributionOf clock [core.ip] (tableSource "icinga" [core], 0) srv = [core] := by
      decide +kernel
    constructor
    · intro state inAll address has
      rw [served] at inAll
      cases List.mem_singleton.mp inAll
      rcases has with first | second
      · cases first
        exact List.mem_singleton_self _
      · cases second
    · rintro state inAll ⟨address, _, second⟩
      rw [served] at inAll
      cases List.mem_singleton.mp inAll
      cases second
    · exact List.pairwise_singleton _ _
    · intro known state recent
      cases recent
    · intro known state refreshed
      cases refreshed

/-- Both addresses of the other one, while it is in the cache. -/
theorem both_addresses_list_twice : ¬ ∀ (srv : Service) (clock : Clock) (ipAddresses : List NetIP)
    (updates : List Update), srv.cache = cacheAfter updates →
      (srv.sources.map fun src => src.getFullName).Nodup →
      (∀ src ∈ srv.sources, AnswersOnce src) → ipAddresses.Nodup →
        ListsOnce ipAddresses (getHostsStatusByIP srv clock ipAddresses).m := by
  intro claimed
  have answering : AnswersOnce (tableSource "icinga" [dual]) :=
    tableSource_answersOnce (List.forall_mem_singleton.mpr rfl) (List.nodup_singleton _)
  have once := (claimed ⟨[tableSource "icinga" [dual]], cacheAfter [(dual, 0)], 60⟩
    ⟨fun _ _ => 0, fun _ _ => 0⟩ [dual.ip, dual.ip6] [(dual, 0)] rfl (List.nodup_singleton _)
    (List.forall_mem_singleton.mpr answering) (by decide)).2 [10, 0, 0, 1]
  revert once
  decide +kernel

end NetGraphz.AddressLookupProofs
