import Mathlib.Data.Finmap
import NetGraphz.Base.Heap
import NetGraphz.Base.GoNet
import NetGraphz.Base.GoTime

/-! The monitoring state a source reports for one host, and the memory cache
of the status service: records reached through a name index and an address
index that share their pointers. -/
namespace NetGraphz.StateCache

/-- A float32 that the services store and pass on, as its IEEE bits. -/
abbrev Float32Bits := UInt32

/-- `IPBinString`: a Go string is its bytes. -/
abbrev IPBinString := List UInt8

/-- `HostState`. -/
structure HostState where
  type : Int16 := 0
  state : Int16 := 0
  hardState : Int16 := 0
  effectiveState : Int16 := 0
  loss : Float32Bits := 0
  rtt : Float32Bits := 0
  time : Time := 0
  source : String := ""
  hostName : String := ""
  output : String := ""
  numServices : Int32 := 0
  numServicesCritical : Int32 := 0
  numServicesWarning : Int32 := 0
  numServicesPending : Int32 := 0
  numServicesOk : Int32 := 0
  numServicesUnknown : Int32 := 0
  isExecuting : Bool := false
  isFlapping : Bool := false
  isReachable : Bool := false
  isHardState : Bool := false
  ip : NetIP := none
  ip6 : NetIP := none
  name : String := ""
  label : String := ""
  notes : String := ""
  isDuplicate : Bool := false
  hasBeenChecked : Bool := false
  deriving DecidableEq

/-- `CacheRecord`. -/
structure CacheRecord where
  state : HostState
  time : Time
  deriving DecidableEq

/-- `hostNameMapKey`, with the embedded `hostMapKey` spelled out. -/
structure HostNameMapKey where
  source : String
  hostName : String
  deriving DecidableEq

/-- `ipMapKey`. -/
structure IPMapKey where
  source : String
  ip : IPBinString
  deriving DecidableEq

/-- `IPToBinString`: slicing nil gives the empty string. -/
def ipToBinString (ip : NetIP) : IPBinString := ip.getD []

/-- `getNameMapKey`. -/
def getNameMapKey (hostName source : String) : HostNameMapKey := ⟨source, hostName⟩

/-- `getIPMapKey`. -/
def getIPMapKey (ip : NetIP) (source : String) : IPMapKey := ⟨source, ipToBinString ip⟩

/-- `MemoryStateCache`. Both indexes hold pointers into `records`. -/
structure MemoryStateCache where
  records : Heap CacheRecord
  nameMap : Finmap (fun _ : HostNameMapKey => Ref)
  ipMap : Finmap (fun _ : IPMapKey => Ref)
  srcMap : Finmap (fun _ : String => Bool)

/-- `NewMemoryStateCache`. -/
def newMemoryStateCache : MemoryStateCache := ⟨{}, ∅, ∅, ∅⟩

/-- `if ip != nil { c.ip_map[getIPMapKey(ip, source)] = r }`. -/
def indexIP (cache : MemoryStateCache) (ip : NetIP) (source : String) (r : Ref) :
    MemoryStateCache :=
  match ip with
  | none => cache
  | some _ => { cache with ipMap := cache.ipMap.insert (getIPMapKey ip source) r }

/-- `AddUpdate`. A known host is overwritten in place and the call returns
there; only a new host is entered into the indexes. -/
def addUpdate (cache : MemoryStateCache) (state : HostState) (timestamp : Time) :
    MemoryStateCache × CacheRecord :=
  let cache := { cache with srcMap := cache.srcMap.insert state.source true }
  let keyName := getNameMapKey state.hostName state.source
  let record : CacheRecord := ⟨state, timestamp⟩
  match cache.nameMap.lookup keyName with
  | some r => ({ cache with records := cache.records.write r record }, record)
  | none =>
    let (records, r) := cache.records.alloc record
    let cache := { cache with records := records, nameMap := cache.nameMap.insert keyName r }
    let cache := indexIP cache state.ip state.source r
    let cache := indexIP cache state.ip6 state.source r
    (cache, record)

/-- `GetByName`. -/
def getByName (cache : MemoryStateCache) (hostName source : String) : Option CacheRecord :=
  (cache.nameMap.lookup (getNameMapKey hostName source)).bind cache.records.read

/-- `GetByIP`. -/
def getByIP (cache : MemoryStateCache) (ip : NetIP) (source : String) : Option CacheRecord :=
  (cache.ipMap.lookup (getIPMapKey ip source)).bind cache.records.read

/-- `if ip != nil { delete(c.ip_map, getIPMapKey(ip, source)) }`. -/
def dropIP (cache : MemoryStateCache) (ip : NetIP) (source : String) : MemoryStateCache :=
  match ip with
  | none => cache
  | some _ => { cache with ipMap := cache.ipMap.erase (getIPMapKey ip source) }

/-- `RemoveByName`, without its locks. -/
def removeByName (cache : MemoryStateCache) (hostName source : String) : MemoryStateCache × Bool :=
  match getByName cache hostName source with
  | none => (cache, false)
  | some r =>
    let cache := { cache with nameMap := cache.nameMap.erase (getNameMapKey hostName source) }
    let cache := dropIP cache r.state.ip source
    let cache := dropIP cache r.state.ip6 source
    (cache, true)

/-- `RemoveByIP`, without its locks. Only the second address is dropped along
with the one that was asked for. -/
def removeByIP (cache : MemoryStateCache) (ip : NetIP) (source : String) :
    MemoryStateCache × Bool :=
  match getByIP cache ip source with
  | none => (cache, false)
  | some r =>
    let cache := { cache with ipMap := cache.ipMap.erase (getIPMapKey ip source) }
    let cache :=
      { cache with nameMap := cache.nameMap.erase (getNameMapKey r.state.hostName source) }
    let cache := dropIP cache r.state.ip6 source
    (cache, true)

/-- One entry of a cache history: the arguments of an `AddUpdate` call. -/
abbrev Update := HostState × Time

/-- One `AddUpdate`, keeping the cache. -/
def update (cache : MemoryStateCache) (entry : Update) : MemoryStateCache :=
  (addUpdate cache entry.1 entry.2).1

@[simp] theorem indexIP_records (cache : MemoryStateCache) (ip : NetIP) (source : String)
    (r : Ref) : (indexIP cache ip source r).records = cache.records := by
  cases ip <;> rfl

@[simp] theorem indexIP_nameMap (cache : MemoryStateCache) (ip : NetIP) (source : String)
    (r : Ref) : (indexIP cache ip source r).nameMap = cache.nameMap := by
  cases ip <;> rfl

@[simp] theorem indexIP_srcMap (cache : MemoryStateCache) (ip : NetIP) (source : String)
    (r : Ref) : (indexIP cache ip source r).srcMap = cache.srcMap := by
  cases ip <;> rfl

/-- An address entry leads to the new record under the indexed address, and
where it led before under every other one. -/
theorem lookup_indexIP (cache : MemoryStateCache) (ip : NetIP) (source : String) (r : Ref)
    (key : IPMapKey) :
    (indexIP cache ip source r).ipMap.lookup key =
      if ip.isSome ∧ key = getIPMapKey ip source then some r else cache.ipMap.lookup key := by
  cases ip with
  | none => simp [indexIP]
  | some bytes =>
    by_cases same : key = getIPMapKey (some bytes) source
    · subst same
      simp [indexIP]
    · simp [indexIP, same]

@[simp] theorem dropIP_records (cache : MemoryStateCache) (ip : NetIP) (source : String) :
    (dropIP cache ip source).records = cache.records := by
  cases ip <;> rfl

@[simp] theorem dropIP_nameMap (cache : MemoryStateCache) (ip : NetIP) (source : String) :
    (dropIP cache ip source).nameMap = cache.nameMap := by
  cases ip <;> rfl

/-- A dropped address leads nowhere, and every other one where it led before. -/
theorem lookup_dropIP (cache : MemoryStateCache) (ip : NetIP) (source : String)
    (key : IPMapKey) :
    (dropIP cache ip source).ipMap.lookup key =
      if ip.isSome ∧ key = getIPMapKey ip source then none else cache.ipMap.lookup key := by
  cases ip with
  | none => simp [dropIP]
  | some bytes =>
    by_cases same : key = getIPMapKey (some bytes) source
    · subst same
      simp [dropIP]
    · simp [dropIP, same]

/-- An update notes its source. -/
theorem update_srcMap (cache : MemoryStateCache) (entry : Update) :
    (update cache entry).srcMap = cache.srcMap.insert entry.1.source true := by
  simp only [update, addUpdate]
  split
  · rfl
  · simp

/-- A known host: one record is overwritten and both indexes stay. -/
theorem update_known {cache : MemoryStateCache} {entry : Update} {r : Ref}
    (known : cache.nameMap.lookup (getNameMapKey entry.1.hostName entry.1.source) = some r) :
    (update cache entry).records = cache.records.write r ⟨entry.1, entry.2⟩ ∧
      (update cache entry).nameMap = cache.nameMap ∧
      (update cache entry).ipMap = cache.ipMap := by
  simp [update, addUpdate, known]

/-- A new host: a fresh record enters the name index under the host, and the
address index under each address it has. -/
theorem update_new {cache : MemoryStateCache} {entry : Update}
    (fresh : cache.nameMap.lookup (getNameMapKey entry.1.hostName entry.1.source) = none) :
    let cell := cache.records.alloc (⟨entry.1, entry.2⟩ : CacheRecord)
    (update cache entry).records = cell.1 ∧
      (update cache entry).nameMap =
        cache.nameMap.insert (getNameMapKey entry.1.hostName entry.1.source) cell.2 ∧
      ∀ key, (update cache entry).ipMap.lookup key =
        if (entry.1.ip.isSome ∧ key = getIPMapKey entry.1.ip entry.1.source) ∨
            (entry.1.ip6.isSome ∧ key = getIPMapKey entry.1.ip6 entry.1.source)
        then some cell.2 else cache.ipMap.lookup key := by
  refine ⟨by simp [update, addUpdate, fresh], by simp [update, addUpdate, fresh], ?_⟩
  intro key
  simp only [update, addUpdate, fresh, lookup_indexIP]
  by_cases first : entry.1.ip.isSome ∧ key = getIPMapKey entry.1.ip entry.1.source <;>
    by_cases second : entry.1.ip6.isSome ∧ key = getIPMapKey entry.1.ip6 entry.1.source <;>
    simp [first, second]

end NetGraphz.StateCache
