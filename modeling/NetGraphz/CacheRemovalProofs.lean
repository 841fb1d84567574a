import NetGraphz.StateCache
import NetGraphz.Base.History

/-! Removals from the state cache, over all histories of updates and removals.
A host is filed under its name and up to two addresses; a removal forgets some
of these keys, and other hosts may have taken the addresses over meanwhile. -/
namespace NetGraphz.CacheRemovalProofs
open StateCache

/-- How a host is removed: by its name or by one of its addresses. -/
inductive Removal where
  | byName (hostName source : String)
  | byIP (ip : NetIP) (source : String)

namespace Removal

def source : Removal → String
  | byName _ source => source
  | byIP _ source => source

/-- The record that the removal finds. -/
def found (cache : MemoryStateCache) : Removal → Option CacheRecord
  | byName hostName source => getByName cache hostName source
  | byIP ip source => getByIP cache ip source

def run (cache : MemoryStateCache) : Removal → MemoryStateCache × Bool
  | byName hostName source => removeByName cache hostName source
  | byIP ip source => removeByIP cache ip source

end Removal

/-- A call that changes the cache. -/
inductive CacheCall where
  | addUpdate (state : HostState) (timestamp : Time)
  | remove (removal : Removal)

def call (cache : MemoryStateCache) : CacheCall → MemoryStateCache
  | .addUpdate state timestamp => update cache (state, timestamp)
  | .remove removal => (removal.run cache).1

/-- The cache after a history of calls on a new one. -/
def cacheAfterCalls (calls : List CacheCall) : MemoryStateCache :=
  after call newMemoryStateCache calls

/-! ## What every key leads to -/

/-- A name leads to the record of that very host and source, and an address to
some record of its source. A record that was removed may still be reached by an
address, so nothing is said of the name index there. -/
structure Filed (cache : MemoryStateCache) : Prop where
  named : ∀ {key r}, cache.nameMap.lookup key = some r → ∃ record,
    cache.records.read r = some record ∧
      getNameMapKey record.state.hostName record.state.source = key
  addressed : ∀ {key r}, cache.ipMap.lookup key = some r → ∃ record,
    cache.records.read r = some record ∧ record.state.source = key.source

theorem filed_new : Filed newMemoryStateCache :=
  ⟨by simp [newMemoryStateCache], by simp [newMemoryStateCache]⟩

theorem Filed.getByName_keyed (filed : Filed cache)
    (found : getByName cache hostName source = some record) :
    record.state.hostName = hostName ∧ record.state.source = source := by
  obtain ⟨r, known, holds⟩ := Option.bind_eq_some_iff.mp found
  obtain ⟨record', holds', keyed⟩ := filed.named known
  rw [holds] at holds'
  cases holds'
  simp only [getNameMapKey, HostNameMapKey.mk.injEq] at keyed
  exact ⟨keyed.2, keyed.1⟩

theorem Filed.getByIP_source (filed : Filed cache)
    (found : getByIP cache ip source = some record) : record.state.source = source := by
  obtain ⟨r, known, holds⟩ := Option.bind_eq_some_iff.mp found
  obtain ⟨record', holds', keyed⟩ := filed.addressed known
  rw [holds] at holds'
  cases holds'
  exact keyed

private theorem filed_update_known (filed : Filed cache)
    (known : cache.nameMap.lookup (getNameMapKey entry.1.hostName entry.1.source) = some r) :
    Filed (update cache entry) := by
  obtain ⟨records, names, addresses⟩ := update_known known
  obtain ⟨held, holds, own⟩ := filed.named known
  constructor
  · intro key r' lookup
    rw [names] at lookup
    obtain ⟨record, holds', keyed⟩ := filed.named lookup
    rw [records, Heap.read_write holds]
    by_cases same : r' = r
    · subst same
      rw [holds] at holds'
      cases holds'
      exact ⟨⟨entry.1, entry.2⟩, if_pos rfl, own.symm.trans keyed⟩
    · exact ⟨record, by rw [if_neg same, holds'], keyed⟩
  · intro key r' lookup
    rw [addresses] at lookup
    obtain ⟨record, holds', sourced⟩ := filed.addressed lookup
    rw [records, Heap.read_write holds]
    by_cases same : r' = r
    · subst same
      rw [holds] at holds'
      cases holds'
      have kept : held.state.source = entry.1.source := congrArg HostNameMapKey.source own
      exact ⟨⟨entry.1, entry.2⟩, if_pos rfl, kept.symm.trans sourced⟩
    · exact ⟨record, by rw [if_neg same, holds'], sourced⟩

private theorem filed_update_new (filed : Filed cache)
    (fresh : cache.nameMap.lookup (getNameMapKey entry.1.hostName entry.1.source) = none) :
    Filed (update cache entry) := by
  obtain ⟨records, names, addresses⟩ := update_new fresh
  constructor
  · intro key r lookup
    rw [names] at lookup
    rw [records]
    by_cases same : key = getNameMapKey entry.1.hostName entry.1.source
    · subst same
      rw [Finmap.lookup_insert, Option.some.injEq] at lookup
      subst lookup
      exact ⟨⟨entry.1, entry.2⟩, Heap.read_alloc_self _ _, rfl⟩
    · rw [Finmap.lookup_insert_of_ne _ same] at lookup
      obtain ⟨record, holds, keyed⟩ := filed.named lookup
      exact ⟨record, Heap.read_alloc_of_read holds _, keyed⟩
  · intro key r lookup
    rw [addresses] at lookup
    rw [records]
    split at lookup
    · rename_i own
      have source : entry.1.source = key.source := by
        rcases own with ⟨_, rfl⟩ | ⟨_, rfl⟩ <;> rfl
      cases lookup
      exact ⟨⟨entry.1, entry.2⟩, Heap.read_alloc_self _ _, source⟩
    · obtain ⟨record, holds, sourced⟩ := filed.addressed lookup
      exact ⟨record, Heap.read_alloc_of_read holds _, sourced⟩

/-! ## A removal, as the two indexes see it -/

variable {before later : MemoryStateCache} {dropped : IPMapKey → Prop}

/-- The records stay, the host's name leads nowhere, and so do the dropped
addresses; every other key leads where it led. -/
structure Removes (before later : MemoryStateCache) (hostName source : String)
    (dropped : IPMapKey → Prop) : Prop where
  records : later.records = before.records
  nameGone : later.nameMap.lookup (getNameMapKey hostName source) = none
  otherNames : ∀ key, key ≠ getNameMapKey hostName source →
    later.nameMap.lookup key = before.nameMap.lookup key
  addressGone : ∀ key, dropped key → later.ipMap.lookup key = none
  otherAddresses : ∀ key, ¬ dropped key → later.ipMap.lookup key = before.ipMap.lookup key

/-- The key of an address that is there. -/
def KeyOf (ip : NetIP) (source : String) (key : IPMapKey) : Prop :=
  ip.isSome ∧ key = getIPMapKey ip source

theorem dropIP_key (cache : MemoryStateCache) (own : KeyOf ip source key) :
    (dropIP cache ip source).ipMap.lookup key = none :=
  (lookup_dropIP cache ip source key).trans (if_pos own)

theorem dropIP_other (cache : MemoryStateCache) (other : ¬ KeyOf ip source key) :
    (dropIP cache ip source).ipMap.lookup key = cache.ipMap.lookup key :=
  (lookup_dropIP cache ip source key).trans (if_neg other)

/-- `RemoveByName` drops both addresses of the host. -/
theorem removeByName_removes (found : getByName cache hostName source = some removed) :
    (removeByName cache hostName source).2 = true ∧
      Removes cache (removeByName cache hostName source).1 hostName source fun key =>
        KeyOf removed.state.ip source key ∨ KeyOf removed.state.ip6 source key := by
  simp only [removeByName, found, true_and]
  refine ⟨by simp, by simp, ?_, ?_, ?_⟩
  · intro key apart
    simp [Finmap.lookup_erase_ne apart]
  · intro key dropped
    by_cases second : KeyOf removed.state.ip6 source key
    · rw [dropIP_key _ second]
    · rw [dropIP_other _ second, dropIP_key _ (dropped.resolve_right second)]
  · intro key kept
    obtain ⟨first, second⟩ := not_or.mp kept
    rw [dropIP_other _ second, dropIP_other _ first]

/-- `RemoveByIP` drops the address it was asked for and the second one. -/
theorem removeByIP_removes (found : getByIP cache ip source = some removed) :
    (removeByIP cache ip source).2 = true ∧
      Removes cache (removeByIP cache ip source).1 removed.state.hostName source fun key =>
        key = getIPMapKey ip source ∨ KeyOf removed.state.ip6 source key := by
  simp only [removeByIP, found, true_and]
  refine ⟨by simp, by simp, ?_, ?_, ?_⟩
  · intro key apart
    simp [Finmap.lookup_erase_ne apart]
  · intro key dropped
    by_cases second : KeyOf removed.state.ip6 source key
    · rw [dropIP_key _ second]
    · rw [dropIP_other _ second, dropped.resolve_right second, Finmap.lookup_erase]
  · intro key kept
    obtain ⟨asked, second⟩ := not_or.mp kept
    rw [dropIP_other _ second, Finmap.lookup_erase_ne asked]

theorem Removes.filed (removes : Removes before later hostName source dropped)
    (filed : Filed before) : Filed later := by
  constructor
  · intro key r lookup
    have apart : key ≠ getNameMapKey hostName source := by
      rintro rfl
      rw [removes.nameGone] at lookup
      cases lookup
    rw [removes.otherNames key apart] at lookup
    rw [removes.records]
    exact filed.named lookup
  · intro key r lookup
    have kept : ¬ dropped key := by
      intro gone
      rw [removes.addressGone key gone] at lookup
      cases lookup
    rw [removes.otherAddresses key kept] at lookup
    rw [removes.records]
    exact filed.addressed lookup

/-- Every call keeps the records filed. -/
theorem filed_call (cache : MemoryStateCache) (made : CacheCall) (filed : Filed cache) :
    Filed (call cache made) := by
  cases made with
  | addUpdate state timestamp =>
    cases known : cache.nameMap.lookup (getNameMapKey state.hostName state.source) with
    | none => exact filed_update_new filed known
    | some r => exact filed_update_known filed known
  | remove removal =>
    cases removal with
    | byName hostName source =>
      cases found : getByName cache hostName source with
      | none => simpa [call, Removal.run, removeByName, found] using filed
      | some removed => exact (removeByName_removes found).2.filed filed
    | byIP ip source =>
      cases found : getByIP cache ip source with
      | none => simpa [call, Removal.run, removeByIP, found] using filed
      | some removed => exact (removeByIP_removes found).2.filed filed

theorem filed_cacheAfterCalls (calls : List CacheCall) : Filed (cacheAfterCalls calls) :=
  after_invariant call Filed filed_new filed_call calls

theorem Removes.getByName_other (removes : Removes before later hostName source dropped)
    (apart : ¬ (name = hostName ∧ source' = source)) :
    getByName later name source' = getByName before name source' := by
  have keys : getNameMapKey name source' ≠ getNameMapKey hostName source := by
    intro same
    simp only [getNameMapKey, HostNameMapKey.mk.injEq] at same
    exact apart ⟨same.2, same.1⟩
  rw [getByName, removes.otherNames _ keys, removes.records]
  rfl

theorem Removes.getByIP_dropped (removes : Removes before later hostName source dropped)
    (gone : dropped (getIPMapKey ip source')) : getByIP later ip source' = none := by
  rw [getByIP, removes.addressGone _ gone]
  rfl

theorem Removes.getByIP_kept (removes : Removes before later hostName source dropped)
    (kept : ¬ dropped (getIPMapKey ip source')) :
    getByIP later ip source' = getByIP before ip source' := by
  rw [getByIP, removes.otherAddresses _ kept, removes.records]
  rfl

/-! ## Clean removals -/

/-- The record is of this host, as this source reports it. -/
def IsOf (record : CacheRecord) (hostName source : String) : Prop :=
  record.state.hostName = hostName ∧ record.state.source = source

/-- The host of a record is removed and nothing else: it is found neither under
a name nor under the addresses of the record, and every record of another host
that was found still is. -/
structure CleanRemoval (before later : MemoryStateCache) (removed : CacheRecord)
    (source : String) : Prop where
  unnamed : ∀ name record, getByName later name source = some record →
    ¬ IsOf record removed.state.hostName source
  unaddressed : ∀ ip, ip.isSome → (removed.state.ip = ip ∨ removed.state.ip6 = ip) →
    ∀ record, getByIP later ip source = some record → ¬ IsOf record removed.state.hostName source
  othersNamed : ∀ name source' record, getByName before name source' = some record →
    ¬ IsOf record removed.state.hostName source → getByName later name source' = some record
  othersAddressed : ∀ ip source' record, getByIP before ip source' = some record →
    ¬ IsOf record removed.state.hostName source → getByIP later ip source' = some record

/-- The name is always handled right; which addresses are dropped decides. -/
theorem Removes.clean_iff (filed : Filed before)
    (removes : Removes before later removed.state.hostName source dropped) :
    CleanRemoval before later removed source ↔
      (∀ ip, ip.isSome → (removed.state.ip = ip ∨ removed.state.ip6 = ip) →
        ¬ dropped (getIPMapKey ip source) → ∀ record, getByIP before ip source = some record →
          ¬ IsOf record removed.state.hostName source) ∧
      ∀ ip source', dropped (getIPMapKey ip source') → ∀ record,
        getByIP before ip source' = some record → IsOf record removed.state.hostName source := by
  constructor
  · intro clean
    constructor
    · intro ip present own kept record found
      rw [← removes.getByIP_kept kept] at found
      exact clean.unaddressed ip present own record found
    · intro ip source' gone record found
      by_contra other
      have still := clean.othersAddressed ip source' record found other
      rw [removes.getByIP_dropped gone] at still
      cases still
  · rintro ⟨own, others⟩
    refine ⟨?_, ?_, ?_, ?_⟩
    · intro name record found isOf
      obtain ⟨rfl, _⟩ := (removes.filed filed).getByName_keyed found
      rw [getByName, isOf.1, removes.nameGone] at found
      cases found
    · intro ip present address record found
      by_cases gone : dropped (getIPMapKey ip source)
      · rw [removes.getByIP_dropped gone] at found
        cases found
      · rw [removes.getByIP_kept gone] at found
        exact own ip present address gone record found
    · intro name source' record found other
      obtain ⟨rfl, rfl⟩ := filed.getByName_keyed found
      rw [removes.getByName_other other, found]
    · intro ip source' record found other
      have kept : ¬ dropped (getIPMapKey ip source') :=
        fun gone => other (others ip source' gone record found)
      rw [removes.getByIP_kept kept, found]

/-- The address is one of a host's, but has been taken over by another host. -/
def TakenOver (cache : MemoryStateCache) (hostName : String) (ip : NetIP) (source : String) :
    Prop :=
  ip.isSome ∧ ∃ record, getByIP cache ip source = some record ∧ record.state.hostName ≠ hostName

/-- The first address of a host that is removed by another address: it leads to
the host and neither the asked address nor the second one is the same. -/
def Outlives (cache : MemoryStateCache) (removed : CacheRecord) (asked : NetIP)
    (source : String) : Prop :=
  removed.state.ip.isSome ∧
    getIPMapKey removed.state.ip source ≠ getIPMapKey asked source ∧
    ¬ KeyOf removed.state.ip6 source (getIPMapKey removed.state.ip source) ∧
    ∃ record, getByIP cache removed.state.ip source = some record ∧
      record.state.hostName = removed.state.hostName

/-- What has to be so before a removal for it to be clean: no address that it
drops leads to another host by now, and, of a host removed by its address, the
first address is dropped or does not lead to it. -/
def Removal.Safe (cache : MemoryStateCache) : Removal → Prop
  | byName hostName source => ∀ removed, getByName cache hostName source = some removed →
    ¬ TakenOver cache hostName removed.state.ip source ∧
      ¬ TakenOver cache hostName removed.state.ip6 source
  | byIP ip source => ∀ removed, getByIP cache ip source = some removed →
    ¬ Outlives cache removed ip source ∧
      ¬ TakenOver cache removed.state.hostName removed.state.ip6 source

/-- A removal that reports success is clean. -/
def Removal.Clean (cache : MemoryStateCache) (removal : Removal) : Prop :=
  (removal.run cache).2 = true → ∀ removed, removal.found cache = some removed →
    CleanRemoval cache (removal.run cache).1 removed removal.source

/-- Dropping an address does another host no harm unless it was taken over. -/
theorem not_takenOver_iff (filed : Filed cache) (hostName : String) (ip : NetIP)
    (source : String) :
    ¬ TakenOver cache hostName ip source ↔
      ∀ ip' source', KeyOf ip source (getIPMapKey ip' source') → ∀ record,
        getByIP cache ip' source' = some record → IsOf record hostName source := by
  constructor
  · rintro kept ip' source' ⟨present, key⟩ record found
    have same : getByIP cache ip' source' = getByIP cache ip source := by
      rw [getByIP, key, getByIP]
    rw [same] at found
    refine ⟨?_, filed.getByIP_source found⟩
    by_contra other
    exact kept ⟨present, record, found, other⟩
  · rintro harmless ⟨present, record, found, other⟩
    exact other (harmless ip source ⟨present, rfl⟩ record found).1

private theorem byName_clean_iff (filed : Filed cache)
    (found : getByName cache hostName source = some removed) :
    CleanRemoval cache (removeByName cache hostName source).1 removed source ↔
      ¬ TakenOver cache hostName removed.state.ip source ∧
        ¬ TakenOver cache hostName removed.state.ip6 source := by
  obtain ⟨rfl, _⟩ := filed.getByName_keyed found
  rw [(removeByName_removes found).2.clean_iff filed, not_takenOver_iff filed,
    not_takenOver_iff filed]
  constructor
  · rintro ⟨_, others⟩
    exact ⟨fun ip source' key => others ip source' (.inl key),
      fun ip source' key => others ip source' (.inr key)⟩
  · rintro ⟨first, second⟩
    constructor
    · rintro ip present (rfl | rfl) kept
      · exact absurd (.inl ⟨present, rfl⟩) kept
      · exact absurd (.inr ⟨present, rfl⟩) kept
    · rintro ip source' (key | key)
      · exact first ip source' key
      · exact second ip source' key

private theorem byIP_clean_iff (filed : Filed cache)
    (found : getByIP cache ip source = some removed) :
    CleanRemoval cache (removeByIP cache ip source).1 removed source ↔
      ¬ Outlives cache removed ip source ∧
        ¬ TakenOver cache removed.state.hostName removed.state.ip6 source := by
  have own := filed.getByIP_source found
  rw [(removeByIP_removes found).2.clean_iff filed, not_takenOver_iff filed]
  constructor
  · rintro ⟨gone, others⟩
    refine ⟨?_, fun ip' source' key => others ip' source' (.inr key)⟩
    rintro ⟨present, asked, second, record, still, sameHost⟩
    exact gone _ present (.inl rfl) (not_or.mpr ⟨asked, second⟩) record still
      ⟨sameHost, filed.getByIP_source still⟩
  · rintro ⟨first, second⟩
    constructor
    · rintro address present (rfl | rfl) kept record still isOf
      · obtain ⟨asked, notSecond⟩ := not_or.mp kept
        exact first ⟨present, asked, notSecond, record, still, isOf.1⟩
      · exact kept (.inr ⟨present, rfl⟩)
    · rintro ip' source' (asked | key)
      · intro record hit
        rw [getByIP, asked, ← getByIP, found] at hit
        cases hit
        exact ⟨rfl, own⟩
      · exact second ip' source' key

/-- **A removal is clean exactly when it is safe.** In every cache that updates
and removals lead to, a removal that reports success takes out the host it
found and nothing else exactly when no address it drops has been taken over by
another host and, if the host is removed by its address, its first address does
not outlive it. -/
theorem removal_clean_iff_safe (calls : List CacheCall) (removal : Removal) :
    removal.Clean (cacheAfterCalls calls) ↔ removal.Safe (cacheAfterCalls calls) := by
  have filed := filed_cacheAfterCalls calls
  generalize cacheAfterCalls calls = cache at filed ⊢
  cases removal with
  | byName hostName source =>
    constructor
    · intro clean removed found
      exact (byName_clean_iff filed found).mp (clean (removeByName_removes found).1 removed found)
    · intro safe _ removed found
      exact (byName_clean_iff filed found).mpr (safe removed found)
  | byIP ip source =>
    constructor
    · intro clean removed found
      exact (byIP_clean_iff filed found).mp (clean (removeByIP_removes found).1 removed found)
    · intro safe _ removed found
      exact (byIP_clean_iff filed found).mpr (safe removed found)

/-- A host with an IPv4 and an IPv6 address, removed by the latter, is still
found by the former. -/
theorem first_address_outlives_host :
    ¬ ∀ (calls : List CacheCall) (removal : Removal), removal.Clean (cacheAfterCalls calls) := by
  intro claimed
  let core : HostState :=
    { source := "icinga", hostName := "core", ip := some [10, 0, 0, 1], ip6 := some [0xfd, 1] }
  have clean := claimed [.addUpdate core 0] (.byIP (some [0xfd, 1]) "icinga") (by decide)
    ⟨core, 0⟩ (by decide)
  exact clean.unaddressed (some [10, 0, 0, 1]) rfl (.inl rfl) ⟨core, 0⟩ (by decide) ⟨rfl, rfl⟩

end NetGraphz.CacheRemovalProofs
