import NetGraphz.Base.Multimap
import NetGraphz.StatusService

/-! The status service asked by address. A state is listed under both addresses
of its host, whichever of them was asked for. -/
namespace NetGraphz.AddressLookup
open StateCache
open StatusService (Clock)

/-- A state source that can be asked by address as well; the answer is taken by
the number of the fetch within a call of the service. -/
structure AddressSource extends StatusService.StateSource where
  getHostsStateByIP : Nat → List NetIP → Except String (List HostState)

/-- `StatusService`. -/
structure Service where
  sources : List AddressSource
  cache : MemoryStateCache
  cacheTtl : Duration

/-- `map[IPBinString][]HostState`. -/
abbrev IPMap := Multimap IPBinString HostState

/-- One address of a state, where the host has it. -/
def pushUnder (m : IPMap) (ip : NetIP) (state : HostState) : IPMap :=
  match ip with
  | none => m
  | some _ => m.push (ipToBinString ip) state

/-- `states_to_ip_map`. -/
def statesToIPMap (m : IPMap) (states : List HostState) : IPMap :=
  states.foldl (fun m state => pushUnder (pushUnder m state.ip state) state.ip6 state) m

/-- `get_source_by_name`. -/
def getSourceByName (srv : Service) (sourceName : String) : Option AddressSource :=
  srv.sources.find? fun src => src.getFullName = sourceName

/-- `put_states_cache`. -/
def putStatesCache (srv : Service) (now : Nat → Time) (states : List HostState) : Service :=
  { srv with cache := (states.mapIdx fun j state => (state, now j)).foldl update srv.cache }

/-- `fetch_cache_ip_map`: the service, the map, the count and the error. -/
def fetchCacheIPMap (srv : Service) (clock : Clock) (fetch : Nat) (m : IPMap)
    (ipAddrs : List NetIP) (source : String) : Service × IPMap × Nat × Option String :=
  match getSourceByName srv source with
  | none => (srv, m, 0, some "source not found")
  | some src =>
    match src.getHostsStateByIP fetch ipAddrs with
    | .error err => (srv, m, 0, some err)
    | .ok states =>
      (putStatesCache srv (clock.put fetch) states, statesToIPMap m states, states.length, none)

/-- The lists a source's pass over the requested addresses fills. -/
structure Lookups where
  cacheMissed : List NetIP := []
  cacheExpired : List HostState := []
  cacheExpiredIP : List NetIP := []
  cacheFound : List HostState := []

/-- The addresses the host has. -/
def addressesOf (state : HostState) : List NetIP := [state.ip, state.ip6].filter Option.isSome

/-- One address of the pass, looked up at `now`. -/
def lookUp (srv : Service) (source : String) (now : Time) (lookups : Lookups) (ip : NetIP) :
    Lookups :=
  match getByIP srv.cache ip source with
  | none => { lookups with cacheMissed := lookups.cacheMissed ++ [ip] }
  | some cacheRec =>
    if now.sub cacheRec.time > srv.cacheTtl then
      { lookups with
        cacheExpired := lookups.cacheExpired ++ [cacheRec.state]
        cacheExpiredIP := lookups.cacheExpiredIP ++ addressesOf cacheRec.state }
    else { lookups with cacheFound := lookups.cacheFound ++ [cacheRec.state] }

/-- The pass of the source at position `i` over the requested addresses. -/
def lookUpAll (srv : Service) (clock : Clock) (i : Nat) (source : String)
    (ipAddresses : List NetIP) : Lookups :=
  ipAddresses.zipIdx.foldl
    (fun lookups ip => lookUp srv source (clock.lookup i ip.2) lookups ip.1) {}

/-- What the loop over the sources carries along. -/
structure Serving where
  srv : Service
  m : IPMap
  lastError : Option String

/-- The body of that loop. The source at position `i` is asked in the fetches
`2 * i` and `2 * i + 1`. -/
def serveSource (clock : Clock) (ipAddresses : List NetIP) (serving : Serving)
    (source : AddressSource × Nat) : Serving :=
  let (src, i) := source
  let lookups := lookUpAll serving.srv clock i src.getFullName ipAddresses
  let m := statesToIPMap serving.m lookups.cacheFound
  let (srv, m, _, err) := fetchCacheIPMap serving.srv clock (2 * i) m lookups.cacheExpiredIP
    src.getFullName
  let (m, lastError) := match err with
    | some err => (statesToIPMap m lookups.cacheExpired, some err)
    | none => (m, serving.lastError)
  let (srv, m, _, err) := fetchCacheIPMap srv clock (2 * i + 1) m lookups.cacheMissed
    src.getFullName
  let lastError := match err with
    | some err => some err
    | none => lastError
  ⟨srv, m, lastError⟩

/-- `GetHostsStatusByIP`, with the service it leaves. -/
def getHostsStatusByIP (srv : Service) (clock : Clock) (ipAddresses : List NetIP) :
    Serving :=
  srv.sources.zipIdx.foldl (serveSource clock ipAddresses) ⟨srv, ∅, none⟩

/-- `GetHostStatusByIP`. -/
def getHostStatusByIP (srv : Service) (clock : Clock) (ipAddress : NetIP) :
    Service × Except String (List HostState) :=
  let served := getHostsStatusByIP srv clock [ipAddress]
  match served.lastError with
  | some err => (served.srv, .error err)
  | none =>
    if served.m = ∅ then (served.srv, .error "Status not found")
    else (served.srv, .ok (served.m.under (ipToBinString ipAddress)))

end NetGraphz.AddressLookup
