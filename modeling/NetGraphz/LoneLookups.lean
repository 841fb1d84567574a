import Mathlib.Logic.Relation
import NetGraphz.AddressLookupProofs
import NetGraphz.ConcurrentLookups

/-! A call that nothing interrupts: its sections, one after the other, do what
the two functions of the service do, for hosts by name and by address alike. -/
namespace NetGraphz.LoneLookups
open StateCache ConcurrentLookups
open SourcePasses (statesOr failure stamped)
open StatusService (Clock)

/-- The map of a call by name: what `states_to_name_map` makes of the states it
is passed. -/
def nameMap (call : Call) : StatusService.NameMap := StatusService.statesToNameMap ∅ call.listed

/-- The map of a call by address. -/
def ipMap (call : Call) : AddressLookup.IPMap := AddressLookup.statesToIPMap ∅ call.listed

/-- The map of the call has the state: under its host's name, or under each
address that it has. -/
def InMap (call : Call) (state : HostState) : Prop :=
  match call.kind with
  | .byName => state ∈ StatusService.statesOf (nameMap call) state.hostName
  | .byIP => ∀ address, StateCacheProofs.HasAddress state address → state ∈ (ipMap call).under address

/-- What a call has listed is in its map. -/
theorem inMap_of_listed (listed : state ∈ call.listed) : InMap call state := by
  unfold InMap
  cases call.kind with
  | byName =>
    dsimp only
    rw [nameMap, StatusServiceProofs.statesOf_statesToNameMap]
    exact List.mem_append_right _ (List.mem_filter.mpr ⟨listed, by simp⟩)
  | byIP =>
    intro address has
    rw [ipMap, AddressLookupProofs.under_statesToIPMap]
    exact List.mem_append_right _
      (List.mem_flatMap.mpr ⟨state, listed, AddressLookupProofs.mem_listings.mpr ⟨rfl, has⟩⟩)

/-- One call's next section, with no other call between. -/
def GoesOn (ttl : Duration) (before later : MemoryStateCache × Call) : Prop :=
  ∃ reading answer, later = before.2.goOn ttl reading answer before.1

/-- Some sections of the one call. -/
abbrev Reaches (ttl : Duration) := Relation.ReflTransGen (GoesOn ttl)

theorem reaches_next (reading : Time) (answer : Except String (List HostState))
    (reaches : Reaches ttl (call.goOn ttl reading answer cache) later) :
    Reaches ttl (cache, call) later :=
  Relation.ReflTransGen.head ⟨reading, answer, rfl⟩ reaches

/-- One key of the pass, looked up at `now`. -/
def look (kind : LookupKind) (ttl : Duration) (cache : MemoryStateCache) (source : String)
    (now : Nat → Time) (lookups : Lookups) (key : Key × Nat) : Lookups :=
  match key.1.record cache source with
  | none => lookups.miss key.1
  | some cacheRec => lookups.judge kind ttl (now key.2) cacheRec

section
variable (ttl : Duration) (call : Call) {source : String} {later : List String}
  (serving : call.sources = source :: later)
include serving

theorem reaches_pass (cache : MemoryStateCache) (now : Nat → Time) (keys : List (Key × Nat))
    (lookups : Lookups) :
    Reaches ttl (cache, { call with stage := .looking (keys.map Prod.fst) lookups })
      (cache, { call with
        stage := .looking [] (keys.foldl (look call.kind ttl cache source now) lookups) }) := by
  induction keys generalizing lookups with
  | nil => exact .refl
  | cons key rest ih =>
    apply reaches_next (now key.2) (.ok [])
    cases found : key.1.record cache source with
    | none =>
      have missed : look call.kind ttl cache source now lookups key = lookups.miss key.1 := by
        simp [look, found]
      rw [List.foldl_cons, missed]
      simpa only [Call.goOn, serving, List.map_cons, found] using ih (lookups.miss key.1)
    | some cacheRec =>
      have judged : look call.kind ttl cache source now lookups key =
          lookups.judge call.kind ttl (now key.2) cacheRec := by
        simp [look, found]
      rw [List.foldl_cons, judged]
      simp only [Call.goOn, serving, List.map_cons, found]
      apply reaches_next (now key.2) (.ok [])
      simpa only [Call.goOn, serving] using ih (lookups.judge call.kind ttl (now key.2) cacheRec)

theorem reaches_put (cache : MemoryStateCache) (now : Nat → Time) (round : Round)
    (lookups : Lookups) (states rest : List HostState) :
    Reaches ttl (cache, { call with stage := .putting round lookups states rest })
      ((stamped now rest).foldl update cache,
        { call with stage := .putting round lookups states [] }) := by
  induction rest generalizing cache now with
  | nil => exact .refl
  | cons state rest ih =>
    apply reaches_next (now 0) (.ok [])
    simp only [Call.goOn, serving]
    apply reaches_next (now 0) (.ok [])
    simp only [Call.goOn, stamped, List.mapIdx_cons, List.foldl_cons]
    simpa only [serving, stamped] using ih (update cache (state, now 0)) fun j => now (j + 1)

/-- A fetch, whether it fails or not. -/
theorem reaches_fetched (cache : MemoryStateCache) (now : Nat → Time) (round : Round)
    (lookups : Lookups) (answer : Except String (List HostState)) :
    Reaches ttl (cache, { call with stage := .asking round lookups })
      ((stamped now (statesOr answer [])).foldl update cache,
        { call with
          listed := call.listed ++ statesOr answer (lookups.instead round)
          lastError := (failure answer).or call.lastError }.next later lookups round) := by
  apply reaches_next 0 answer
  cases answer with
  | error err =>
    simp only [Call.goOn, serving]
    exact .refl
  | ok states =>
    have put := reaches_put ttl call serving cache now round lookups states states
    refine Relation.ReflTransGen.trans (by simpa only [Call.goOn, serving] using put) ?_
    apply reaches_next 0 (.ok [])
    simp only [Call.goOn, serving]
    exact .refl

end

/-! ## One source -/

/-- What the outside brings to a source's turn: the readings of the clock and
the answers, by the keys asked for. -/
structure Turn where
  source : String
  lookup : Nat → Time
  put : Round → Nat → Time
  answer : Round → List Key → Except String (List HostState)

/-- The cache, the states entered into the map, and the error. -/
structure Served where
  cache : MemoryStateCache
  listed : List HostState
  lastError : Option String

/-- A source's pass over the keys. -/
def Turn.lookups (turn : Turn) (kind : LookupKind) (ttl : Duration) (requested : List Key)
    (cache : MemoryStateCache) : Lookups :=
  requested.zipIdx.foldl (look kind ttl cache turn.source turn.lookup) {}

/-- A source's turn. -/
def Turn.serve (kind : LookupKind) (ttl : Duration) (requested : List Key) (served : Served)
    (turn : Turn) : Served :=
  let lookups := turn.lookups kind ttl requested served.cache
  let refreshed := turn.answer .refresh lookups.cacheExpiredKeys
  let fetched := turn.answer .fetch lookups.cacheMissed
  { cache := (stamped (turn.put .refresh) (statesOr refreshed []) ++
      stamped (turn.put .fetch) (statesOr fetched [])).foldl update served.cache
    listed := served.listed ++ lookups.cacheFound ++ statesOr refreshed lookups.cacheExpired ++
      statesOr fetched []
    lastError := (failure fetched).or ((failure refreshed).or served.lastError) }

/-- A call before the turns of its sources. -/
def Served.call (served : Served) (kind : LookupKind) (requested : List Key) (sources : List String) :
    Call where
  kind := kind
  requested := requested
  sources := sources
  stage := .looking requested {}
  listed := served.listed
  lastError := served.lastError

theorem reaches_turn (kind : LookupKind) (ttl : Duration) (requested : List Key) (served : Served)
    (turn : Turn) (later : List String) :
    Reaches ttl (served.cache, served.call kind requested (turn.source :: later))
      ((turn.serve kind ttl requested served).cache,
        (turn.serve kind ttl requested served).call kind requested later) := by
  let start := served.call kind requested (turn.source :: later)
  let lookups := turn.lookups kind ttl requested served.cache
  let refreshed := turn.answer .refresh lookups.cacheExpiredKeys
  let fetched := turn.answer .fetch lookups.cacheMissed
  have pass := reaches_pass ttl start rfl served.cache turn.lookup requested.zipIdx {}
  rw [List.zipIdx_map_fst] at pass
  let looked := { start with listed := served.listed ++ lookups.cacheFound }
  have refresh := reaches_fetched ttl looked rfl served.cache (turn.put .refresh) .refresh lookups
    refreshed
  let again := { start with
    listed := served.listed ++ lookups.cacheFound ++ statesOr refreshed lookups.cacheExpired
    lastError := (failure refreshed).or served.lastError }
  have fetch := reaches_fetched ttl again rfl
    ((stamped (turn.put .refresh) (statesOr refreshed [])).foldl update served.cache)
    (turn.put .fetch) .fetch lookups fetched
  refine Relation.ReflTransGen.trans pass (reaches_next 0 (.ok []) ?_)
  refine Relation.ReflTransGen.trans refresh (Relation.ReflTransGen.trans fetch ?_)
  simp only [Turn.serve, Served.call, Call.next, List.foldl_append]
  exact .refl

/-- All turns of a call. -/
theorem reaches_turns (kind : LookupKind) (ttl : Duration) (requested : List Key) (served : Served)
    (turns : List Turn) :
    Reaches ttl (served.cache, served.call kind requested (turns.map Turn.source))
      ((turns.foldl (Turn.serve kind ttl requested) served).cache,
        (turns.foldl (Turn.serve kind ttl requested) served).call kind requested []) := by
  induction turns generalizing served with
  | nil => exact .refl
  | cons turn rest ih =>
    exact (reaches_turn kind ttl requested served turn (rest.map Turn.source)).trans
      (ih (turn.serve kind ttl requested served))

/-! ## The two functions -/

/-- The hosts among the keys. -/
def hostNamesOf (keys : List Key) : List String :=
  keys.filterMap fun
    | .name hostName => some hostName
    | .address _ => none

/-- The addresses among the keys. -/
def addressesAmong (keys : List Key) : List NetIP :=
  keys.filterMap fun
    | .name _ => none
    | .address ip => some ip

@[simp] theorem hostNamesOf_map (hostNames : List String) :
    hostNamesOf (hostNames.map Key.name) = hostNames := by
  simp [hostNamesOf, List.filterMap_map]

@[simp] theorem addressesAmong_map (ips : List NetIP) :
    addressesAmong (ips.map Key.address) = ips := by
  simp [addressesAmong, List.filterMap_map]

/-- The turn of the source at a position, asked by name. -/
def nameTurn (clock : Clock) (source : StatusService.StateSource × Nat) : Turn where
  source := source.1.getFullName
  lookup := clock.lookup source.2
  put
    | .refresh => clock.put (2 * source.2)
    | .fetch => clock.put (2 * source.2 + 1)
  answer
    | .refresh, keys => source.1.getHostsStateByName (2 * source.2) (hostNamesOf keys)
    | .fetch, keys => source.1.getHostsStateByName (2 * source.2 + 1) (hostNamesOf keys)

/-- The turn of the source at a position, asked by address. -/
def addressTurn (clock : Clock) (source : AddressLookup.AddressSource × Nat) : Turn where
  source := source.1.getFullName
  lookup := clock.lookup source.2
  put
    | .refresh => clock.put (2 * source.2)
    | .fetch => clock.put (2 * source.2 + 1)
  answer
    | .refresh, keys => source.1.getHostsStateByIP (2 * source.2) (addressesAmong keys)
    | .fetch, keys => source.1.getHostsStateByIP (2 * source.2 + 1) (addressesAmong keys)

theorem nameTurn_lookups (srv : StatusService.Service) (clock : Clock) (hostNames : List String)
    (source : StatusService.StateSource × Nat) :
    let lookups := StatusService.lookUpAll srv clock source.2 source.1.getFullName hostNames
    (nameTurn clock source).lookups .byName srv.cacheTtl (hostNames.map Key.name) srv.cache =
      ⟨lookups.cacheMissed.map Key.name, lookups.cacheExpired,
        lookups.cacheExpiredHostnames.map Key.name, lookups.cacheFound⟩ := by
  intro lookups
  simp only [lookups, Turn.lookups, StatusService.lookUpAll, List.zipIdx_map, List.foldl_map]
  induction hostNames.zipIdx using List.reverseRecOn with
  | nil => rfl
  | append_singleton before host ih =>
    rw [List.foldl_append, List.foldl_append, ih]
    simp only [List.foldl_cons, List.foldl_nil, look, StatusService.lookUp, Key.record, nameTurn,
      Prod.map_fst]
    cases getByName srv.cache host.1 source.1.getFullName with
    | none => simp [Lookups.miss]
    | some cacheRec =>
      by_cases old : (clock.lookup source.2 host.2).sub cacheRec.time > srv.cacheTtl <;>
        simp [Lookups.judge, old, LookupKind.again]

theorem addressTurn_lookups (srv : AddressLookup.Service) (clock : Clock)
    (ipAddresses : List NetIP) (source : AddressLookup.AddressSource × Nat) :
    let lookups := AddressLookup.lookUpAll srv clock source.2 source.1.getFullName ipAddresses
    (addressTurn clock source).lookups .byIP srv.cacheTtl (ipAddresses.map Key.address) srv.cache =
      ⟨lookups.cacheMissed.map Key.address, lookups.cacheExpired,
        lookups.cacheExpiredIP.map Key.address, lookups.cacheFound⟩ := by
  intro lookups
  simp only [lookups, Turn.lookups, AddressLookup.lookUpAll, List.zipIdx_map, List.foldl_map]
  induction ipAddresses.zipIdx using List.reverseRecOn with
  | nil => rfl
  | append_singleton before ip ih =>
    rw [List.foldl_append, List.foldl_append, ih]
    simp only [List.foldl_cons, List.foldl_nil, look, AddressLookup.lookUp, Key.record, addressTurn,
      Prod.map_fst]
    cases getByIP srv.cache ip.1 source.1.getFullName with
    | none => simp [Lookups.miss]
    | some cacheRec =>
      by_cases old : (clock.lookup source.2 ip.2).sub cacheRec.time > srv.cacheTtl <;>
        simp [Lookups.judge, old, LookupKind.again]

/-- The loop of a call by name, as far as it has served. -/
def nameServing (srv : StatusService.Service) (cache : MemoryStateCache) (call : Call) :
    StatusService.Serving :=
  ⟨{ srv with cache := cache }, nameMap call, call.lastError⟩

/-- The loop of a call by address, as far as it has served. -/
def addressServing (srv : AddressLookup.Service) (cache : MemoryStateCache) (call : Call) :
    AddressLookup.Serving :=
  ⟨{ srv with cache := cache }, ipMap call, call.lastError⟩

/-- The body of the loop over the sources is the source's turn. -/
theorem serveSource_nameServing (srv : StatusService.Service)
    (named : (srv.sources.map StatusService.StateSource.getFullName).Nodup) (clock : Clock)
    (hostNames : List String) (served : Served) (source : StatusService.StateSource × Nat)
    (member : source ∈ srv.sources.zipIdx) :
    let requested := hostNames.map Key.name
    let later := (nameTurn clock source).serve .byName srv.cacheTtl requested served
    StatusService.serveSource clock hostNames
        (nameServing srv served.cache (served.call .byName requested [])) source =
      nameServing srv later.cache (later.call .byName requested []) := by
  have found : StatusService.getSourceByName { srv with cache := served.cache }
      source.1.getFullName = some source.1 :=
    StatusServiceProofs.getSourceByName_of_mem named (List.fst_mem_of_mem_zipIdx member)
  have passed := nameTurn_lookups { srv with cache := served.cache } clock hostNames source
  simp only [StatusServiceProofs.lookUpAll_eq] at passed
  intro requested later
  rw [nameServing, StatusServiceProofs.serveSource_eq clock hostNames source _ found]
  simp only [later, requested, Turn.serve, passed]
  simp only [nameServing, nameMap, Served.call, nameTurn, hostNamesOf_map,
    StatusServiceProofs.statesToNameMap_append, StatusServiceProofs.contribution]
  rfl

theorem serveSource_addressServing (srv : AddressLookup.Service)
    (named : (srv.sources.map fun src => src.getFullName).Nodup) (clock : Clock)
    (ipAddresses : List NetIP) (served : Served) (source : AddressLookup.AddressSource × Nat)
    (member : source ∈ srv.sources.zipIdx) :
    let requested := ipAddresses.map Key.address
    let later := (addressTurn clock source).serve .byIP srv.cacheTtl requested served
    AddressLookup.serveSource clock ipAddresses
        (addressServing srv served.cache (served.call .byIP requested [])) source =
      addressServing srv later.cache (later.call .byIP requested []) := by
  have found : AddressLookup.getSourceByName { srv with cache := served.cache }
      source.1.getFullName = some source.1 :=
    Keyed.find_of_mem named (List.fst_mem_of_mem_zipIdx member)
  have passed := addressTurn_lookups { srv with cache := served.cache } clock ipAddresses source
  simp only [AddressLookupProofs.lookUpAll_eq] at passed
  intro requested later
  rw [addressServing, AddressLookupProofs.serveSource_eq clock ipAddresses source _ found]
  simp only [later, requested, Turn.serve, passed]
  simp only [addressServing, ipMap, Served.call, addressTurn, addressesAmong_map,
    AddressLookupProofs.statesToIPMap_append, AddressLookupProofs.contribution,
    AddressLookupProofs.fetched]
  rfl

/-- **Alone, a call by name computes `GetHostsStatusByName`**: its sections can
take it to its return, with the cache, the map and the error of the function. -/
theorem alone_by_name (srv : StatusService.Service)
    (named : (srv.sources.map StatusService.StateSource.getFullName).Nodup) (clock : Clock)
    (hostNames : List String) : ∃ cache call,
      Reaches srv.cacheTtl
        (srv.cache, begin .byName (hostNames.map Key.name)
          (srv.sources.map StatusService.StateSource.getFullName)) (cache, call) ∧
      call.sources = [] ∧
      StatusService.getHostsStatusByName srv clock hostNames = nameServing srv cache call := by
  let requested := hostNames.map Key.name
  let serve := Turn.serve .byName srv.cacheTtl requested
  let served := (srv.sources.zipIdx.map (nameTurn clock)).foldl serve ⟨srv.cache, [], none⟩
  refine ⟨served.cache, served.call .byName requested [], ?_, rfl, ?_⟩
  · have turns := reaches_turns .byName srv.cacheTtl requested ⟨srv.cache, [], none⟩
      (srv.sources.zipIdx.map (nameTurn clock))
    have names := congrArg (List.map fun src => src.getFullName) (List.zipIdx_map_fst 0 srv.sources)
    rw [List.map_map] at turns names
    rw [← names]
    exact turns
  · simp only [served, List.foldl_map]
    refine List.foldl_rel (r := fun serving (served : Served) =>
      serving = nameServing srv served.cache (served.call .byName requested [])) rfl ?_
    rintro source member _ served rfl
    exact serveSource_nameServing srv named clock hostNames served source member

/-- **Alone, a call by address computes `GetHostsStatusByIP`.** -/
theorem alone_by_address (srv : AddressLookup.Service)
    (named : (srv.sources.map fun src => src.getFullName).Nodup) (clock : Clock)
    (ipAddresses : List NetIP) : ∃ cache call,
      Reaches srv.cacheTtl
        (srv.cache, begin .byIP (ipAddresses.map Key.address)
          (srv.sources.map fun src => src.getFullName)) (cache, call) ∧
      call.sources = [] ∧
      AddressLookup.getHostsStatusByIP srv clock ipAddresses = addressServing srv cache call := by
  let requested := ipAddresses.map Key.address
  let serve := Turn.serve .byIP srv.cacheTtl requested
  let served := (srv.sources.zipIdx.map (addressTurn clock)).foldl serve ⟨srv.cache, [], none⟩
  refine ⟨served.cache, served.call .byIP requested [], ?_, rfl, ?_⟩
  · have turns := reaches_turns .byIP srv.cacheTtl requested ⟨srv.cache, [], none⟩
      (srv.sources.zipIdx.map (addressTurn clock))
    have names := congrArg (List.map fun src => src.getFullName) (List.zipIdx_map_fst 0 srv.sources)
    rw [List.map_map] at turns names
    rw [← names]
    exact turns
  · simp only [served, List.foldl_map]
    refine List.foldl_rel (r := fun serving (served : Served) =>
      serving = addressServing srv served.cache (served.call .byIP requested [])) rfl ?_
    rintro source member _ served rfl
    exact serveSource_addressServing srv named clock ipAddresses served source member

end NetGraphz.LoneLookups
