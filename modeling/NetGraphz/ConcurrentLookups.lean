import NetGraphz.AddressLookup

/-! Calls of the status service that run at once on one cache. The cache is
locked for one reading or one `AddUpdate` at a time, so a call goes on section
by section, and between two sections of a call any other call may act. -/
namespace NetGraphz.ConcurrentLookups
open StateCache

/-- What a call asks for: hosts by name, or by address. -/
inductive Key where
  | name (hostName : String)
  | address (ip : NetIP)
  deriving DecidableEq

/-- `s.cache.GetByName(host_name, ..)` and `s.cache.GetByIP(ip, ..)`. -/
def Key.record (cache : MemoryStateCache) (source : String) : Key → Option CacheRecord
  | .name hostName => getByName cache hostName source
  | .address ip => getByIP cache ip source

/-- `GetHostsStatusByName` or `GetHostsStatusByIP`. -/
inductive LookupKind where
  | byName
  | byIP
  deriving DecidableEq

/-- What is fetched again for an expired state: its host's name, or every
address that it has. -/
def LookupKind.again : LookupKind → HostState → List Key
  | .byName, state => [.name state.hostName]
  | .byIP, state => (AddressLookup.addressesOf state).map Key.address

/-- The lists a source's pass over the keys fills. -/
structure Lookups where
  cacheMissed : List Key := []
  cacheExpired : List HostState := []
  cacheExpiredKeys : List Key := []
  cacheFound : List HostState := []
  deriving DecidableEq

/-- The two fetches from a source: of what has expired, then of what was not in
the cache. -/
inductive Round where
  | refresh
  | fetch
  deriving DecidableEq

/-- Where a call stands with the source it is serving. -/
inductive Stage where
  /-- Before the next reading of the cache. -/
  | looking (rest : List Key) (lookups : Lookups)
  /-- The record is read, `time.Now()` is not. -/
  | aging (cacheRec : CacheRecord) (rest : List Key) (lookups : Lookups)
  | asking (round : Round) (lookups : Lookups)
  /-- In `put_states_cache`, before `time.Now()`. -/
  | putting (round : Round) (lookups : Lookups) (states rest : List HostState)
  /-- In `put_states_cache`, before `AddUpdate`. -/
  | adding (round : Round) (lookups : Lookups) (states : List HostState) (state : HostState)
      (timestamp : Time) (rest : List HostState)
  deriving DecidableEq

/-- A call: the sources it has left, the first of which it is serving, and the
states it has passed to `states_to_name_map` or `states_to_ip_map`, in order.
The latter enters a state under each address that it has, so under none if it
has none. With no source left the call has returned. -/
structure Call where
  kind : LookupKind
  requested : List Key
  sources : List String
  stage : Stage
  listed : List HostState := []
  lastError : Option String := none
  deriving DecidableEq

def begin (kind : LookupKind) (requested : List Key) (sources : List String) : Call where
  kind := kind
  requested := requested
  sources := sources
  stage := .looking requested {}

/-- A reading that missed. -/
def Lookups.miss (lookups : Lookups) (key : Key) : Lookups :=
  { lookups with cacheMissed := lookups.cacheMissed ++ [key] }

/-- `if time.Now().Sub(cache_rec.Time) > s.cache_ttl { .. }`. -/
def Lookups.judge (lookups : Lookups) (kind : LookupKind) (ttl : Duration) (reading : Time)
    (cacheRec : CacheRecord) : Lookups :=
  if reading.sub cacheRec.time > ttl then
    { lookups with
      cacheExpired := lookups.cacheExpired ++ [cacheRec.state]
      cacheExpiredKeys := lookups.cacheExpiredKeys ++ kind.again cacheRec.state }
  else { lookups with cacheFound := lookups.cacheFound ++ [cacheRec.state] }

/-- After a fetch comes the next one, or the next source. -/
def Call.next (call : Call) (later : List String) (lookups : Lookups) : Round → Call
  | .refresh => { call with stage := .asking .fetch lookups }
  | .fetch => { call with sources := later, stage := .looking call.requested {} }

/-- What stands in for the states of a fetch that fails. -/
def Lookups.instead (lookups : Lookups) : Round → List HostState
  | .refresh => lookups.cacheExpired
  | .fetch => []

/-- One section of a call. `reading` is what `time.Now()` gives and `answer`
what the source says, where the section asks for them. -/
def Call.goOn (call : Call) (ttl : Duration) (reading : Time)
    (answer : Except String (List HostState)) (cache : MemoryStateCache) :
    MemoryStateCache × Call :=
  match call.sources with
  | [] => (cache, call)
  | source :: later =>
    match call.stage with
    | .looking [] lookups =>
      (cache, { call with
        listed := call.listed ++ lookups.cacheFound
        stage := .asking .refresh lookups })
    | .looking (key :: rest) lookups =>
      match key.record cache source with
      | none => (cache, { call with stage := .looking rest (lookups.miss key) })
      | some cacheRec => (cache, { call with stage := .aging cacheRec rest lookups })
    | .aging cacheRec rest lookups =>
      (cache, { call with stage := .looking rest (lookups.judge call.kind ttl reading cacheRec) })
    | .asking round lookups =>
      match answer with
      | .ok states => (cache, { call with stage := .putting round lookups states states })
      | .error err =>
        (cache, { call with
          listed := call.listed ++ lookups.instead round
          lastError := some err }.next later lookups round)
    | .putting round lookups states [] =>
      (cache, { call with listed := call.listed ++ states }.next later lookups round)
    | .putting round lookups states (state :: rest) =>
      (cache, { call with stage := .adding round lookups states state reading rest })
    | .adding round lookups states state timestamp rest =>
      (update cache (state, timestamp), { call with stage := .putting round lookups states rest })

/-- The cache and all calls, those that have returned included. -/
structure Serving where
  cache : MemoryStateCache
  calls : List Call

/-- What happens: a call begins with the sources there are, or the call at a
position goes on. -/
inductive Event where
  | call (kind : LookupKind) (requested : List Key) (sources : List String)
  | goOn (i : Nat) (reading : Time) (answer : Except String (List HostState))

def step (ttl : Duration) (serving : Serving) : Event → Serving
  | .call kind requested sources =>
    { serving with calls := serving.calls ++ [begin kind requested sources] }
  | .goOn i reading answer =>
    match serving.calls[i]? with
    | none => serving
    | some call =>
      let (cache, call) := call.goOn ttl reading answer serving.cache
      ⟨cache, serving.calls.set i call⟩

end NetGraphz.ConcurrentLookups
