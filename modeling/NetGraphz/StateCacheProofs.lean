import NetGraphz.StateCache
import NetGraphz.Base.History

/-! What the two indexes of the state cache say of one another over whole
histories of `AddUpdate`: every pointer in the address index is the pointer the
name index holds for that host, so the indexes never disagree on a record; but
an update of a known host does not touch the address index, so which addresses
it answers for depends on the hosts keeping theirs. -/
namespace NetGraphz.StateCacheProofs
open StateCache

/-- The cache after a history of `AddUpdate` calls on a new one. -/
def cacheAfter (updates : List Update) : MemoryStateCache :=
  after update newMemoryStateCache updates

/-- The last `AddUpdate` for one host and source. -/
def lastUpdate (updates : List Update) (hostName source : String) : Option Update :=
  (updates.filter fun entry => entry.1.hostName = hostName ∧ entry.1.source = source).getLast?

theorem lastUpdate_concat (updates : List Update) (entry : Update) (hostName source : String) :
    lastUpdate (updates ++ [entry]) hostName source =
      if entry.1.hostName = hostName ∧ entry.1.source = source then some entry
      else lastUpdate updates hostName source := by
  by_cases same : entry.1.hostName = hostName ∧ entry.1.source = source <;>
    simp [lastUpdate, List.filter_append, same]

/-- The invariant of the pointers: a name entry leads to the record of that
very host and source, and an address entry leads where some name entry of its
source leads. -/
structure Indexed (cache : MemoryStateCache) : Prop where
  named : ∀ {key r}, cache.nameMap.lookup key = some r → ∃ record,
    cache.records.read r = some record ∧
      getNameMapKey record.state.hostName record.state.source = key
  addressed : ∀ {key r}, cache.ipMap.lookup key = some r → ∃ hostName,
    cache.nameMap.lookup (getNameMapKey hostName key.source) = some r

theorem indexed_new : Indexed newMemoryStateCache :=
  ⟨by simp [newMemoryStateCache], by simp [newMemoryStateCache]⟩

/-- No two hosts share a record. -/
theorem Indexed.name_unique (indexed : Indexed cache) (first : cache.nameMap.lookup key = some r)
    (second : cache.nameMap.lookup other = some r) : key = other := by
  obtain ⟨record, holds, keyed⟩ := indexed.named first
  obtain ⟨record', holds', keyed'⟩ := indexed.named second
  rw [holds] at holds'
  cases holds'
  exact keyed.symm.trans keyed'

/-- A name entry always leads to a record. -/
theorem Indexed.getByName_of_lookup (indexed : Indexed cache)
    (known : cache.nameMap.lookup (getNameMapKey hostName source) = some r) :
    ∃ record, getByName cache hostName source = some record ∧
      cache.records.read r = some record ∧
      record.state.hostName = hostName ∧ record.state.source = source := by
  obtain ⟨record, holds, keyed⟩ := indexed.named known
  simp only [getNameMapKey, HostNameMapKey.mk.injEq] at keyed
  exact ⟨record, by simp [getByName, known, holds], holds, keyed.2, keyed.1⟩

/-- The record under a name is the record of that host and source. -/
theorem Indexed.getByName_keyed (indexed : Indexed cache)
    (found : getByName cache hostName source = some record) :
    record.state.hostName = hostName ∧ record.state.source = source := by
  obtain ⟨r, known, holds⟩ := Option.bind_eq_some_iff.mp found
  obtain ⟨record', _, holds', keyed⟩ := indexed.getByName_of_lookup known
  rw [holds] at holds'
  cases holds'
  exact keyed

/-- A record found by address is found by its own name, through the same
pointer. -/
theorem Indexed.getByIP_named (indexed : Indexed cache)
    (found : getByIP cache ip source = some record) :
    record.state.source = source ∧
      getByName cache record.state.hostName source = some record ∧
      cache.ipMap.lookup (getIPMapKey ip source) =
        cache.nameMap.lookup (getNameMapKey record.state.hostName source) := by
  obtain ⟨r, entry, holds⟩ := Option.bind_eq_some_iff.mp found
  obtain ⟨hostName, known⟩ := indexed.addressed entry
  obtain ⟨record', byName, holds', sameHost, sameSource⟩ := indexed.getByName_of_lookup known
  rw [holds] at holds'
  cases holds'
  subst sameHost
  exact ⟨sameSource, byName, entry.trans known.symm⟩

private theorem indexed_update_known (indexed : Indexed cache)
    (known : cache.nameMap.lookup (getNameMapKey entry.1.hostName entry.1.source) = some r) :
    Indexed (update cache entry) := by
  obtain ⟨records, names, addresses⟩ := update_known known
  obtain ⟨held, holds, _⟩ := indexed.named known
  constructor
  · intro key r' found
    rw [names] at found
    rw [records, Heap.read_write holds]
    by_cases same : r' = r
    · subst same
      exact ⟨⟨entry.1, entry.2⟩, if_pos rfl, indexed.name_unique known found⟩
    · obtain ⟨record, holds', keyed⟩ := indexed.named found
      exact ⟨record, by rw [if_neg same, holds'], keyed⟩
  · intro key r' found
    rw [addresses] at found
    rw [names]
    exact indexed.addressed found

private theorem indexed_update_new (indexed : Indexed cache)
    (fresh : cache.nameMap.lookup (getNameMapKey entry.1.hostName entry.1.source) = none) :
    Indexed (update cache entry) := by
  obtain ⟨records, names, addresses⟩ := update_new fresh
  constructor
  · intro key r found
    rw [names] at found
    rw [records]
    by_cases same : key = getNameMapKey entry.1.hostName entry.1.source
    · subst same
      rw [Finmap.lookup_insert, Option.some.injEq] at found
      subst found
      exact ⟨⟨entry.1, entry.2⟩, Heap.read_alloc_self _ _, rfl⟩
    · rw [Finmap.lookup_insert_of_ne _ same] at found
      obtain ⟨record, holds, keyed⟩ := indexed.named found
      exact ⟨record, Heap.read_alloc_of_read holds _, keyed⟩
  · intro key r found
    rw [addresses] at found
    rw [names]
    split at found
    · rename_i own
      -- the entry was made by this very call, so its source is the host's
      have source : key.source = entry.1.source := by
        rcases own with ⟨_, rfl⟩ | ⟨_, rfl⟩ <;> rfl
      cases found
      exact ⟨entry.1.hostName, by rw [source, Finmap.lookup_insert]⟩
    · obtain ⟨hostName, known⟩ := indexed.addressed found
      have apart : getNameMapKey hostName key.source ≠
          getNameMapKey entry.1.hostName entry.1.source := by
        intro same
        rw [same, fresh] at known
        cases known
      exact ⟨hostName, by rw [Finmap.lookup_insert_of_ne _ apart, known]⟩

/-- Every `AddUpdate` keeps the pointers straight. -/
theorem indexed_update (cache : MemoryStateCache) (entry : Update) (indexed : Indexed cache) :
    Indexed (update cache entry) := by
  cases known : cache.nameMap.lookup (getNameMapKey entry.1.hostName entry.1.source) with
  | none => exact indexed_update_new indexed known
  | some r => exact indexed_update_known indexed known

theorem indexed_cacheAfter (updates : List Update) : Indexed (cacheAfter updates) :=
  after_invariant update Indexed indexed_new indexed_update updates

/-- `AddUpdate` replaces what `GetByName` finds for its own host and source and
for no other. -/
theorem Indexed.getByName_update (indexed : Indexed cache) (entry : Update)
    (hostName source : String) :
    getByName (update cache entry) hostName source =
      if entry.1.hostName = hostName ∧ entry.1.source = source then some ⟨entry.1, entry.2⟩
      else getByName cache hostName source := by
  have keys : getNameMapKey hostName source = getNameMapKey entry.1.hostName entry.1.source ↔
      entry.1.hostName = hostName ∧ entry.1.source = source := by
    simp [getNameMapKey, eq_comm, and_comm]
  cases known : cache.nameMap.lookup (getNameMapKey entry.1.hostName entry.1.source) with
  | none =>
    obtain ⟨records, names, _⟩ := update_new known
    by_cases same : entry.1.hostName = hostName ∧ entry.1.source = source
    · rw [if_pos same, getByName, names, keys.mpr same, Finmap.lookup_insert, records]
      exact Heap.read_alloc_self _ _
    · rw [if_neg same, getByName, names, Finmap.lookup_insert_of_ne _ (mt keys.mp same), records]
      cases other : cache.nameMap.lookup (getNameMapKey hostName source) with
      | none => simp [getByName, other]
      | some r =>
        obtain ⟨record, byName, holds, _⟩ := indexed.getByName_of_lookup other
        rw [byName]
        exact Heap.read_alloc_of_read holds _
  | some r =>
    obtain ⟨records, names, _⟩ := update_known known
    obtain ⟨held, holds, _⟩ := indexed.named known
    by_cases same : entry.1.hostName = hostName ∧ entry.1.source = source
    · rw [if_pos same, getByName, names, keys.mpr same, known, records]
      exact Heap.read_write_self holds _
    · rw [if_neg same, getByName, names, records]
      cases other : cache.nameMap.lookup (getNameMapKey hostName source) with
      | none => simp [getByName, other]
      | some r' =>
        have apart : r ≠ r' := by
          rintro rfl
          exact same (keys.mp (indexed.name_unique other known))
        simp [getByName, other, Heap.read_write_of_ne apart]

/-- **The name index is the history's last word.** -/
theorem getByName_is_last_update (updates : List Update) (hostName source : String) :
    getByName (cacheAfter updates) hostName source =
      (lastUpdate updates hostName source).map fun entry => ⟨entry.1, entry.2⟩ := by
  induction updates using List.reverseRecOn with
  | nil => rfl
  | append_singleton past entry ih =>
    rw [cacheAfter, after_concat, ← cacheAfter,
      (indexed_cacheAfter past).getByName_update, lastUpdate_concat, ih]
    split <;> rfl

/-- **The indexes agree.** After any history, `GetByName` gives the last state
and time of the host, and a record that `GetByIP` gives is of the asked source
and is the record, by pointer and by content, that `GetByName` gives for its
host. -/
theorem indexes_report_one_record (updates : List Update) (source : String) :
    (∀ hostName, getByName (cacheAfter updates) hostName source =
      (lastUpdate updates hostName source).map fun entry => ⟨entry.1, entry.2⟩) ∧
    ∀ ip record, getByIP (cacheAfter updates) ip source = some record →
      record.state.source = source ∧
      getByName (cacheAfter updates) record.state.hostName source = some record ∧
      (cacheAfter updates).ipMap.lookup (getIPMapKey ip source) =
        (cacheAfter updates).nameMap.lookup (getNameMapKey record.state.hostName source) :=
  ⟨fun hostName => getByName_is_last_update updates hostName source,
    fun _ _ found => (indexed_cacheAfter updates).getByIP_named found⟩

/-! ## Which addresses the index answers for -/

/-- The host has this IPv4 or IPv6 address. -/
def HasAddress (state : HostState) (address : List UInt8) : Prop :=
  state.ip = some address ∨ state.ip6 = some address

instance : Decidable (HasAddress state address) := inferInstanceAs (Decidable (_ ∨ _))

/-- The address index is in step with the hosts: the latest address of every
host is found, and what is found has the address it was found by. -/
def AddressesInStep (updates : List Update) : Prop :=
  ∀ source address,
    (∀ hostName entry, lastUpdate updates hostName source = some entry →
      HasAddress entry.1 address → ∃ found,
        getByIP (cacheAfter updates) (some address) source = some found ∧
          HasAddress found.state address) ∧
    ∀ found, getByIP (cacheAfter updates) (some address) source = some found →
      HasAddress found.state address

/-- An update of a host the cache already knows keeps the index in step: the
index has an entry already for every address the host gains, and none that is
this host's for any address the host loses. A new host is always fine. -/
def KeepsAddresses (cache : MemoryStateCache) (entry : Update) : Prop :=
  ∀ known, getByName cache entry.1.hostName entry.1.source = some known →
    (∀ address, HasAddress entry.1 address → ¬ HasAddress known.state address →
      (cache.ipMap.lookup (getIPMapKey (some address) entry.1.source)).isSome) ∧
    ∀ address, HasAddress known.state address → ¬ HasAddress entry.1 address →
      cache.ipMap.lookup (getIPMapKey (some address) entry.1.source) ≠
        cache.nameMap.lookup (getNameMapKey entry.1.hostName entry.1.source)

/-- `AddressesInStep`, read off the cache alone. -/
private def InStep (cache : MemoryStateCache) : Prop :=
  ∀ source address,
    (∀ hostName record, getByName cache hostName source = some record →
      HasAddress record.state address → ∃ found,
        getByIP cache (some address) source = some found ∧ HasAddress found.state address) ∧
    ∀ found, getByIP cache (some address) source = some found → HasAddress found.state address

private theorem addresses_in_step_iff (updates : List Update) :
    AddressesInStep updates ↔ InStep (cacheAfter updates) := by
  refine forall₂_congr fun source address => and_congr (forall_congr' fun hostName => ?_) Iff.rfl
  rw [getByName_is_last_update]
  constructor
  · intro served record found has
    obtain ⟨entry, last, rfl⟩ := Option.map_eq_some_iff.mp found
    exact served entry last has
  · intro served entry last has
    exact served ⟨entry.1, entry.2⟩ (by rw [last]; rfl) has

/-- An update of a known host is seen through every address entry that leads
to it, and moves no entry. -/
theorem Indexed.getByIP_update_known (indexed : Indexed cache) {entry : Update}
    (known : getByName cache entry.1.hostName entry.1.source = some held) (ip : NetIP)
    (source : String) :
    getByIP (update cache entry) ip source =
      (getByIP cache ip source).map fun found =>
        if found.state.hostName = entry.1.hostName ∧ source = entry.1.source
        then ⟨entry.1, entry.2⟩ else found := by
  obtain ⟨r, named, holds⟩ := Option.bind_eq_some_iff.mp known
  obtain ⟨records, _, addresses⟩ := update_known named
  rw [getByIP, addresses, records]
  cases index : cache.ipMap.lookup (getIPMapKey ip source) with
  | none => simp [getByIP, index]
  | some r' =>
    obtain ⟨hostName, other⟩ := indexed.addressed index
    obtain ⟨found, _, holds', rfl, _⟩ := indexed.getByName_of_lookup other
    have byIP : getByIP cache ip source = some found := by simp [getByIP, index, holds']
    rw [byIP, Option.bind_some, Option.map_some, Heap.read_write holds, holds']
    by_cases same : r' = r
    · subst same
      have key := indexed.name_unique other named
      simp only [getIPMapKey, getNameMapKey, HostNameMapKey.mk.injEq] at key
      rw [if_pos rfl, if_pos ⟨key.2, key.1⟩]
    · rw [if_neg same, if_neg]
      rintro ⟨sameHost, rfl⟩
      rw [sameHost] at other
      exact same (Option.some.inj (other.symm.trans named))

/-- The two address entries of a new host are those of the addresses it has. -/
private theorem own_entry_iff (ip : NetIP) (address : List UInt8) (source other : String) :
    (ip.isSome ∧ getIPMapKey (some address) source = getIPMapKey ip other) ↔
      ip = some address ∧ source = other := by
  cases ip with
  | none => simp
  | some bytes =>
    simp only [getIPMapKey, ipToBinString, Option.isSome_some, true_and, Option.getD_some,
      IPMapKey.mk.injEq, Option.some.injEq]
    exact ⟨fun ⟨source, bytes⟩ => ⟨bytes.symm, source⟩, fun ⟨bytes, source⟩ => ⟨source, bytes.symm⟩⟩

/-- A new host is found under the addresses it has; every other address leads
where it led. -/
theorem Indexed.getByIP_update_new (indexed : Indexed cache) {entry : Update}
    (fresh : getByName cache entry.1.hostName entry.1.source = none) (address : List UInt8)
    (source : String) :
    getByIP (update cache entry) (some address) source =
      if HasAddress entry.1 address ∧ source = entry.1.source then some ⟨entry.1, entry.2⟩
      else getByIP cache (some address) source := by
  have unnamed : cache.nameMap.lookup (getNameMapKey entry.1.hostName entry.1.source) = none := by
    cases named : cache.nameMap.lookup (getNameMapKey entry.1.hostName entry.1.source) with
    | none => rfl
    | some r =>
      obtain ⟨record, byName, _⟩ := indexed.getByName_of_lookup named
      rw [fresh] at byName
      cases byName
  obtain ⟨records, _, addresses⟩ := update_new unnamed
  have entered : (update cache entry).ipMap.lookup (getIPMapKey (some address) source) =
      if HasAddress entry.1 address ∧ source = entry.1.source
      then some (cache.records.alloc (⟨entry.1, entry.2⟩ : CacheRecord)).2
      else cache.ipMap.lookup (getIPMapKey (some address) source) := by
    rw [addresses]
    refine if_congr ?_ rfl rfl
    rw [own_entry_iff, own_entry_iff, ← or_and_right]
    exact Iff.rfl
  rw [getByIP, records, entered]
  split
  · exact Heap.read_alloc_self _ _
  · cases index : cache.ipMap.lookup (getIPMapKey (some address) source) with
    | none => simp [getByIP, index]
    | some r =>
      obtain ⟨hostName, other⟩ := indexed.addressed index
      obtain ⟨found, _, holds, _⟩ := indexed.getByName_of_lookup other
      rw [getByIP, index, Option.bind_some, Option.bind_some, holds]
      exact Heap.read_alloc_of_read holds _

/-- An update of another source is not seen. -/
theorem Indexed.getByIP_update_other (indexed : Indexed cache) {entry : Update}
    (other : entry.1.source ≠ source) (ip : NetIP) :
    getByIP (update cache entry) ip source = getByIP cache ip source := by
  cases known : getByName cache entry.1.hostName entry.1.source with
  | some held =>
    rw [indexed.getByIP_update_known known]
    have same : ∀ found : CacheRecord,
        (if found.state.hostName = entry.1.hostName ∧ source = entry.1.source
          then ⟨entry.1, entry.2⟩ else found) = found :=
      fun found => if_neg fun own => other own.2.symm
    simp only [same, Option.map_id']
  | none =>
    -- nil is looked up under the key of an empty address
    have keyed : ∀ cache, getByIP cache ip source = getByIP cache (some (ipToBinString ip)) source :=
      fun _ => rfl
    rw [keyed, keyed, indexed.getByIP_update_new known, if_neg fun own => other own.2.symm]

private theorem in_step_update_new (indexed : Indexed cache) (inStep : InStep cache)
    (fresh : getByName cache entry.1.hostName entry.1.source = none) :
    InStep (update cache entry) := by
  intro source address
  rw [indexed.getByIP_update_new fresh]
  constructor
  · intro hostName record found has
    by_cases own : HasAddress entry.1 address ∧ source = entry.1.source
    · exact ⟨_, if_pos own, own.1⟩
    · rw [if_neg own]
      rw [indexed.getByName_update] at found
      split at found
      · rename_i same
        cases found
        exact absurd ⟨has, same.2.symm⟩ own
      · exact (inStep source address).1 hostName record found has
  · intro found byIP
    split at byIP
    · rename_i own
      cases byIP
      exact own.1
    · exact (inStep source address).2 found byIP

/-- What an index in step after the update says about the update. -/
private theorem keepsAddresses_of_inStep (indexed : Indexed cache)
    (known : getByName cache entry.1.hostName entry.1.source = some held)
    (after : InStep (update cache entry)) : KeepsAddresses cache entry := by
  have seen := indexed.getByIP_update_known known
  intro held' known'
  rw [known] at known'
  cases known'
  constructor
  · intro address gained _
    obtain ⟨found, byIP, _⟩ := (after entry.1.source address).1 entry.1.hostName
      ⟨entry.1, entry.2⟩ (by rw [indexed.getByName_update, if_pos ⟨rfl, rfl⟩]) gained
    rw [seen] at byIP
    obtain ⟨before, byIP, _⟩ := Option.map_eq_some_iff.mp byIP
    obtain ⟨r, index, _⟩ := Option.bind_eq_some_iff.mp byIP
    rw [index]
    rfl
  · intro address _ lost samePointer
    have byIP : getByIP cache (some address) entry.1.source = some held := by
      rw [getByIP, samePointer, ← getByName, known]
    refine lost ((after entry.1.source address).2 ⟨entry.1, entry.2⟩ ?_)
    rw [seen, byIP, Option.map_some, if_pos ⟨(indexed.getByName_keyed known).1, rfl⟩]

/-- An address that leads to an overwritten host is still the host's. -/
private theorem still_has_address (indexed : Indexed cache) (inStep : InStep cache)
    (keeps : KeepsAddresses cache entry)
    (known : getByName cache entry.1.hostName entry.1.source = some held)
    (byIP : getByIP cache (some address) entry.1.source = some found)
    (sameHost : found.state.hostName = entry.1.hostName) : HasAddress entry.1 address := by
  obtain ⟨_, loses⟩ := keeps held known
  obtain ⟨_, byName, samePointer⟩ := indexed.getByIP_named byIP
  rw [sameHost] at byName samePointer
  rw [known, Option.some.injEq] at byName
  subst byName
  by_contra lost
  exact loses address ((inStep entry.1.source address).2 held byIP) lost samePointer

/-- An address that led to a record leads to one that has it. -/
private theorem hit_update_known (indexed : Indexed cache) (inStep : InStep cache)
    (keeps : KeepsAddresses cache entry)
    (known : getByName cache entry.1.hostName entry.1.source = some held)
    (byIP : getByIP cache (some address) source = some found) :
    ∃ found', getByIP (update cache entry) (some address) source = some found' ∧
      HasAddress found'.state address := by
  rw [indexed.getByIP_update_known known, byIP, Option.map_some]
  by_cases own : found.state.hostName = entry.1.hostName ∧ source = entry.1.source
  · obtain ⟨sameHost, rfl⟩ := own
    have still := still_has_address indexed inStep keeps known byIP sameHost
    exact ⟨_, by rw [if_pos ⟨sameHost, rfl⟩], still⟩
  · exact ⟨_, by rw [if_neg own], (inStep source address).2 found byIP⟩

private theorem inStep_of_keepsAddresses (indexed : Indexed cache) (inStep : InStep cache)
    (known : getByName cache entry.1.hostName entry.1.source = some held)
    (keeps : KeepsAddresses cache entry) : InStep (update cache entry) := by
  intro source address
  constructor
  · intro hostName record found has
    rw [indexed.getByName_update] at found
    split at found
    · rename_i same
      obtain ⟨rfl, rfl⟩ := same
      cases found
      by_cases old : HasAddress held.state address
      · obtain ⟨before, byIP, _⟩ :=
          (inStep entry.1.source address).1 entry.1.hostName held known old
        exact hit_update_known indexed inStep keeps known byIP
      · obtain ⟨gains, _⟩ := keeps held known
        obtain ⟨r, index⟩ := Option.isSome_iff_exists.mp (gains address has old)
        obtain ⟨hostName, named⟩ := indexed.addressed index
        obtain ⟨before, _, holds, _⟩ := indexed.getByName_of_lookup named
        have byIP : getByIP cache (some address) entry.1.source = some before := by
          rw [getByIP, index, Option.bind_some, holds]
        exact hit_update_known indexed inStep keeps known byIP
    · obtain ⟨before, byIP, _⟩ := (inStep source address).1 hostName record found has
      exact hit_update_known indexed inStep keeps known byIP
  · intro found byIP
    rw [indexed.getByIP_update_known known] at byIP
    obtain ⟨before, hitBefore, rfl⟩ := Option.map_eq_some_iff.mp byIP
    split
    · rename_i own
      obtain ⟨sameHost, rfl⟩ := own
      exact still_has_address indexed inStep keeps known hitBefore sameHost
    · exact (inStep source address).2 before hitBefore

/-- One update keeps the address index in step exactly when it is allowed to. -/
theorem in_step_update_iff (indexed : Indexed cache) (inStep : InStep cache) (entry : Update) :
    InStep (update cache entry) ↔ KeepsAddresses cache entry := by
  cases known : getByName cache entry.1.hostName entry.1.source with
  | none =>
    apply iff_of_true (in_step_update_new indexed inStep known)
    intro held found
    rw [known] at found
    cases found
  | some held =>
    constructor
    · exact keepsAddresses_of_inStep indexed known
    · exact inStep_of_keepsAddresses indexed inStep known

/-- **The address index is in step exactly along updates that keep it so.** It
is in step in every state of a run exactly when every update of the run either
brings a new host or keeps the addresses the index answers for. -/
theorem addresses_in_step_throughout_iff (updates : List Update) :
    (∀ past, past <+: updates → AddressesInStep past) ↔
      ∀ past entry, past ++ [entry] <+: updates → KeepsAddresses (cacheAfter past) entry := by
  refine throughout_iff_each_step AddressesInStep
    (fun past entry => KeepsAddresses (cacheAfter past) entry) ?_ ?_ updates
  · intro source address
    exact ⟨by simp [lastUpdate], by simp [cacheAfter, newMemoryStateCache, getByIP]⟩
  · intro past entry inStep
    rw [addresses_in_step_iff, cacheAfter, after_concat, ← cacheAfter]
    exact in_step_update_iff (indexed_cacheAfter past) ((addresses_in_step_iff past).mp inStep) entry

/-- A host whose address changes from 10.0.0.1 to 10.0.0.2 stays filed under
the old address and is not found under the new one. -/
theorem moved_host_stays_under_old_address : ¬ ∀ updates, AddressesInStep updates := by
  intro claimed
  let host (last : UInt8) : HostState :=
    { source := "icinga", hostName := "core", ip := some [10, 0, 0, last] }
  obtain ⟨found, byIP, _⟩ := (claimed [(host 1, 0), (host 2, 1)] "icinga" [10, 0, 0, 2]).1
    "core" (host 2, 1) (by decide) (Or.inl rfl)
  have lost : getByIP (cacheAfter [(host 1, 0), (host 2, 1)]) (some [10, 0, 0, 2]) "icinga"
      = none := by decide
  rw [lost] at byIP
  cases byIP

end NetGraphz.StateCacheProofs
