import NetGraphz.StateCache

/-! The status service: states of hosts by name, from the cache where it is
recent enough and from the monitoring sources where it is not. -/
namespace NetGraphz.StatusService
open StateCache

/-- A state source. What a fetch answers is up to the outside: the answer is
taken by the number of the fetch within a call of the service. -/
structure StateSource where
  getFullName : String
  getHostsStateByName : Nat → List String → Except String (List HostState)

/-- `StatusService`. -/
structure Service where
  sources : List StateSource
  cache : MemoryStateCache
  cacheTtl : Duration

/-- The readings of `time.Now()` during a call: when the host at a position is
looked up for the source at a position, and when the states of a fetch are put
into the cache. -/
structure Clock where
  lookup : Nat → Nat → Time
  put : Nat → Nat → Time

/-- `map[string][]HostState`. -/
abbrev NameMap := Finmap (fun _ : String => List HostState)

/-- What the map has under a host. -/
def statesOf (m : NameMap) (hostName : String) : List HostState := (m.lookup hostName).getD []

/-- `states_to_name_map`. -/
def statesToNameMap (m : NameMap) (states : List HostState) : NameMap :=
  states.foldl (fun m state => m.insert state.hostName (statesOf m state.hostName ++ [state])) m

/-- `get_source_by_name`. -/
def getSourceByName (srv : Service) (sourceName : String) : Option StateSource :=
  srv.sources.find? fun src => src.getFullName = sourceName

/-- `put_states_cache`. -/
def putStatesCache (srv : Service) (now : Nat → Time) (states : List HostState) : Service :=
  { srv with cache := (states.mapIdx fun j state => (state, now j)).foldl update srv.cache }

/-- `fetch_cache_name_map`: the service, the map, the count and the error. -/
def fetchCacheNameMap (srv : Service) (clock : Clock) (fetch : Nat) (m : NameMap)
    (hostNames : List String) (source : String) : Service × NameMap × Nat × Option String :=
  match getSourceByName srv source with
  | none => (srv, m, 0, some "source not found")
  | some src =>
    match src.getHostsStateByName fetch hostNames with
    | .error err => (srv, m, 0, some err)
    | .ok states =>
      (putStatesCache srv (clock.put fetch) states, statesToNameMap m states, states.length, none)

/-- The lists a source's pass over the requested hosts fills. -/
structure Lookups where
  cacheMissed : List String := []
  cacheExpired : List HostState := []
  cacheExpiredHostnames : List String := []
  cacheFound : List HostState := []

/-- One host of the pass, looked up at `now`. -/
def lookUp (srv : Service) (source : String) (now : Time) (lookups : Lookups)
    (hostName : String) : Lookups :=
  match getByName srv.cache hostName source with
  | none => { lookups with cacheMissed := lookups.cacheMissed ++ [hostName] }
  | some cacheRec =>
    if now.sub cacheRec.time > srv.cacheTtl then
      { lookups with
        cacheExpired := lookups.cacheExpired ++ [cacheRec.state]
        cacheExpiredHostnames := lookups.cacheExpiredHostnames ++ [cacheRec.state.hostName] }
    else { lookups with cacheFound := lookups.cacheFound ++ [cacheRec.state] }

/-- The pass of the source at position `i` over the requested hosts. -/
def lookUpAll (srv : Service) (clock : Clock) (i : Nat) (source : String)
    (hostNames : List String) : Lookups :=
  hostNames.zipIdx.foldl
    (fun lookups host => lookUp srv source (clock.lookup i host.2) lookups host.1) {}

/-- What the loop over the sources carries along. -/
structure Serving where
  srv : Service
  m : NameMap
  lastError : Option String

/-- The body of that loop. The source at position `i` is asked in the fetches
`2 * i` and `2 * i + 1`. -/
def serveSource (clock : Clock) (hostNames : List String) (serving : Serving)
    (source : StateSource × Nat) : Serving :=
  let (src, i) := source
  let lookups := lookUpAll serving.srv clock i src.getFullName hostNames
  let m := statesToNameMap serving.m lookups.cacheFound
  let (srv, m, _, err) := fetchCacheNameMap serving.srv clock (2 * i) m
    lookups.cacheExpiredHostnames src.getFullName
  let (m, lastError) := match err with
    | some err => (statesToNameMap m lookups.cacheExpired, some err)
    | none => (m, serving.lastError)
  let (srv, m, _, err) := fetchCacheNameMap srv clock (2 * i + 1) m lookups.cacheMissed
    src.getFullName
  let lastError := match err with
    | some err => some err
    | none => lastError
  ⟨srv, m, lastError⟩

/-- `GetHostsStatusByName`, with the service it leaves. -/
def getHostsStatusByName (srv : Service) (clock : Clock) (hostNames : List String) : Serving :=
  srv.sources.zipIdx.foldl (serveSource clock hostNames) ⟨srv, ∅, none⟩

/-- `GetHostStatusByName`. -/
def getHostStatusByName (srv : Service) (clock : Clock) (hostName : String) :
    Service × Except String (List HostState) :=
  let served := getHostsStatusByName srv clock [hostName]
  match served.lastError with
  | some err => (served.srv, .error err)
  | none =>
    if served.m = ∅ then (served.srv, .error "Status not found")
    else (served.srv, .ok (statesOf served.m hostName))

end NetGraphz.StatusService
