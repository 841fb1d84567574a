import NetGraphz.MemoryStorageProofs

/-! The map of rings and the maps by host. They are filled by separate branches
of `AddMetricValue` and share their rings; what is listed in one stays in step
with the other. -/
namespace NetGraphz.HostIndexProofs
open Metrics MemoryStorage MemoryStorageProofs

/-- The ring listed for a host under a metric string. -/
def hostEntry (storage : MemoryMetricStorage) (host key : String) : Option Ref :=
  (hostMap storage host).bind (·.lookup key)

/-- The metric a ring was created with. -/
def metricAt (storage : MemoryMetricStorage) (mr : Ref) : Option Metric :=
  (storage.ringCells.read mr).map MemoryMetricRing.m

/-- Every host has its map, and none shares it with another. -/
structure MapsApart (storage : MemoryMetricStorage) : Prop where
  present : ∀ {host ref}, storage.hostRings.lookup host = some ref →
    ∃ map, storage.hostMaps.read ref = some map
  apart : ∀ {host other ref}, storage.hostRings.lookup host = some ref →
    storage.hostRings.lookup other = some ref → host = other

variable {storage : MemoryMetricStorage} {m : Metric} {mr : Ref}

/-! ## The sections of an addition -/

@[simp] theorem enterRing_hostRings (storage : MemoryMetricStorage) (m : Metric)
    (found : Option Ref) : (enterRing storage m found).1.hostRings = storage.hostRings := by
  cases found <;> rfl

@[simp] theorem enterRing_hostMaps (storage : MemoryMetricStorage) (m : Metric)
    (found : Option Ref) : (enterRing storage m found).1.hostMaps = storage.hostMaps := by
  cases found <;> rfl

@[simp] theorem hostEntry_enterRing (storage : MemoryMetricStorage) (m : Metric)
    (found : Option Ref) (host key : String) :
    hostEntry (enterRing storage m found).1 host key = hostEntry storage host key := by
  simp [hostEntry, hostMap]

@[simp] theorem hostEntry_storeValue (storage : MemoryMetricStorage) (found : Bool) (mr : Ref)
    (val : MetricValue) (host key : String) :
    hostEntry (storeValue storage found mr val) host key = hostEntry storage host key := rfl

@[simp] theorem metricAt_enterHost (storage : MemoryMetricStorage) (m : Metric)
    (hostFound : Option Ref) (mr ref : Ref) :
    metricAt (enterHost storage m hostFound mr) ref = metricAt storage ref := by
  simp [metricAt]

@[simp] theorem metricAt_storeValue (storage : MemoryMetricStorage) (found : Bool) (mr ref : Ref)
    (val : MetricValue) : metricAt (storeValue storage found mr val) ref = metricAt storage ref := by
  unfold metricAt storeValue
  rw [Heap.read_modify]
  split
  · cases storage.ringCells.read ref <;> rfl
  · rfl

/-- A ring that is created takes the next free cell; the others stay. -/
theorem metricAt_enterRing_new (storage : MemoryMetricStorage) (m : Metric) (ref : Ref) :
    metricAt (enterRing storage m none).1 ref =
      if ref = storage.ringCells.next then some m else metricAt storage ref := by
  simp only [metricAt, enterRing, Heap.read_alloc]
  split
  · rfl
  · rfl

theorem mapsApart_enterRing (sound : MapsApart storage) (found : Option Ref) :
    MapsApart (enterRing storage m found).1 := by
  refine ⟨fun entered => ?_, fun entered entered' => ?_⟩
  · rw [enterRing_hostRings] at entered
    rw [enterRing_hostMaps]
    exact sound.present entered
  · rw [enterRing_hostRings] at entered entered'
    exact sound.apart entered entered'

/-- A host gets a map of its own, with the one ring in it: nothing else was
listed for it. -/
theorem enterHost_new (sound : MapsApart storage)
    (others : ∀ key mr, hostEntry storage m.getHost key = some mr → key = getMetricString m)
    (mr : Ref) :
    MapsApart (enterHost storage m none mr) ∧ ∀ host key,
      hostEntry (enterHost storage m none mr) host key =
        if host = m.getHost ∧ key = getMetricString m then some mr else hostEntry storage host key := by
  have fresh : ∀ {host ref}, storage.hostRings.lookup host = some ref → ref ≠ storage.hostMaps.next := by
    intro host ref entered
    obtain ⟨map, holds⟩ := sound.present entered
    exact Heap.alloc_fresh holds ((∅ : RingMap).insert (getMetricString m) mr)
  refine ⟨⟨?_, ?_⟩, ?_⟩
  · intro host ref entered
    simp only [enterHost, GoMap.lookup_insert, Heap.read_alloc] at entered ⊢
    split at entered
    · cases entered
      exact ⟨_, if_pos rfl⟩
    · rw [if_neg (fresh entered)]
      exact sound.present entered
  · intro host other ref entered entered'
    simp only [enterHost, GoMap.lookup_insert] at entered entered'
    split at entered
    · rename_i isHost
      split at entered'
      · rename_i isHost'
        exact isHost.trans isHost'.symm
      · cases entered
        exact absurd rfl (fresh entered')
    · split at entered'
      · cases entered'
        exact absurd rfl (fresh entered)
      · exact sound.apart entered entered'
  · intro host key
    by_cases isHost : host = m.getHost
    · subst isHost
      have allocated : (Heap.alloc storage.hostMaps ((∅ : RingMap).insert (getMetricString m) mr)).2 =
        storage.hostMaps.next := rfl
      have listed : hostEntry (enterHost storage m none mr) m.getHost key =
          if key = getMetricString m then some mr else none := by
        simp [hostEntry, hostMap, enterHost, allocated, Heap.read_alloc, GoMap.lookup_insert]
      rw [listed]
      by_cases own : key = getMetricString m
      · rw [if_pos own, if_pos ⟨rfl, own⟩]
      · rw [if_neg own, if_neg fun both => own both.2, eq_comm, Option.eq_none_iff_forall_ne_some]
        exact fun mr listed => own (others key mr listed)
    · simp only [hostEntry, hostMap, enterHost, GoMap.lookup_insert, isHost, if_false, false_and]
      cases entered : storage.hostRings.lookup host with
      | none => rfl
      | some ref => simp [Heap.read_alloc, fresh entered]

/-- A known host has the ring entered in its map. -/
theorem enterHost_known (sound : MapsApart storage)
    (known : storage.hostRings.lookup m.getHost = some hr) (mr : Ref) :
    MapsApart (enterHost storage m (some hr) mr) ∧ ∀ host key,
      hostEntry (enterHost storage m (some hr) mr) host key =
        if host = m.getHost ∧ key = getMetricString m then some mr else hostEntry storage host key := by
  refine ⟨⟨?_, sound.apart⟩, ?_⟩
  · intro host ref entered
    obtain ⟨map, holds⟩ := sound.present entered
    simp only [enterHost, Heap.read_modify, holds]
    split
    · exact ⟨_, rfl⟩
    · exact ⟨map, rfl⟩
  · intro host key
    simp only [hostEntry, hostMap, enterHost]
    by_cases isHost : host = m.getHost
    · subst isHost
      obtain ⟨map, holds⟩ := sound.present known
      simp [known, Heap.read_modify, holds, GoMap.lookup_insert]
    · simp only [isHost, if_false, false_and]
      cases entered : storage.hostRings.lookup host with
      | none => rfl
      | some ref =>
        have other : ref ≠ hr := by
          rintro rfl
          exact isHost (sound.apart entered known)
        simp [Heap.read_modify, other]

/-- **The section that enters a ring under its host**, when it acts on what the
storage still says of that host. -/
theorem enterHost_entry (sound : MapsApart storage)
    (looked : storage.hostRings.lookup m.getHost = hostFound) (mr : Ref) :
    MapsApart (enterHost storage m hostFound mr) ∧ ∀ host key,
      hostEntry (enterHost storage m hostFound mr) host key =
        if host = m.getHost ∧ key = getMetricString m then some mr else hostEntry storage host key := by
  cases hostFound with
  | none =>
    have nothing : ∀ key, hostEntry storage m.getHost key = none := by
      intro key
      simp [hostEntry, hostMap, looked]
    exact enterHost_new sound (fun key _ listed => absurd (listed.symm.trans (nothing key)) nofun) mr
  | some hr => exact enterHost_known sound looked mr

/-! ## One addition -/

/-- The ring that an addition stores its value in. -/
def ringFor (storage : MemoryMetricStorage) (m : Metric) : Ref :=
  (storage.rings.lookup (getMetricString m)).getD storage.ringCells.next

theorem enterRing_ref (storage : MemoryMetricStorage) (m : Metric) :
    (enterRing storage m (storage.rings.lookup (getMetricString m))).2 = ringFor storage m := by
  unfold ringFor
  cases storage.rings.lookup (getMetricString m) <;> rfl

theorem rings_add (storage : MemoryMetricStorage) (m : Metric) (val : MetricValue) (key : String) :
    (addMetricValue storage m val).rings.lookup key =
      if key = getMetricString m then some (ringFor storage m) else storage.rings.lookup key := by
  by_cases own : key = getMetricString m
  · subst own
    rw [if_pos rfl, ringFor]
    cases known : storage.rings.lookup (getMetricString m) with
    | none =>
      rw [(addMetricValue_new val known).2.1, Finmap.lookup_insert]
      rfl
    | some mr =>
      rw [(addMetricValue_known val known).2.1, known]
      rfl
  · rw [if_neg own, rings_add_other storage val own]

theorem hostEntry_add (sound : MapsApart storage) (m : Metric) (val : MetricValue) :
    MapsApart (addMetricValue storage m val) ∧ ∀ host key,
      hostEntry (addMetricValue storage m val) host key =
        if host = m.getHost ∧ key = getMetricString m then some (ringFor storage m)
        else hostEntry storage host key := by
  let found := storage.rings.lookup (getMetricString m)
  have looked : (enterRing storage m found).1.hostRings.lookup m.getHost =
      storage.hostRings.lookup m.getHost := by
    rw [enterRing_hostRings]
  obtain ⟨sound', entries⟩ := enterHost_entry (mapsApart_enterRing sound found) looked (ringFor storage m)
  simp only [addMetricValue, enterRing_ref, hostEntry_storeValue]
  refine ⟨⟨sound'.present, sound'.apart⟩, fun host key => ?_⟩
  rw [entries, hostEntry_enterRing]

theorem metricAt_add (storage : MemoryMetricStorage) (m : Metric) (val : MetricValue) (ref : Ref) :
    metricAt (addMetricValue storage m val) ref =
      if storage.rings.lookup (getMetricString m) = none ∧ ref = storage.ringCells.next then some m
      else metricAt storage ref := by
  unfold addMetricValue
  cases known : storage.rings.lookup (getMetricString m) with
  | none => simp [metricAt_enterRing_new]
  | some mr => simp [enterRing]

/-! ## Any history -/

/-- What is listed under a host is the ring of that metric string, and a ring is
listed under the host of the metric it was created with. -/
structure Paired (storage : MemoryMetricStorage) : Prop where
  sound : MapsApart storage
  shared : ∀ {host key mr}, hostEntry storage host key = some mr → storage.rings.lookup key = some mr
  listed : ∀ {key mr}, storage.rings.lookup key = some mr → ∃ m, metricAt storage mr = some m ∧
    getMetricString m = key ∧ hostEntry storage m.getHost key = some mr

theorem paired_new (capacity : Nat) : Paired (newMemoryStorage capacity) where
  sound := ⟨by simp [newMemoryStorage], by simp [newMemoryStorage]⟩
  shared := by simp [hostEntry, hostMap, newMemoryStorage]
  listed := by simp [newMemoryStorage]

/-- The next free cell is the ring of no metric string. -/
theorem Paired.ref_ne_next (paired : Paired storage) (known : storage.rings.lookup key = some mr) :
    mr ≠ storage.ringCells.next := by
  obtain ⟨m, created, _⟩ := paired.listed known
  obtain ⟨ring, holds, _⟩ := Option.map_eq_some_iff.mp created
  exact Nat.ne_of_lt (Heap.ref_lt_of_read holds)

/-- **One addition keeps the maps paired.** -/
theorem paired_add (paired : Paired storage) (m : Metric) (val : MetricValue) :
    Paired (addMetricValue storage m val) := by
  obtain ⟨sound, entries⟩ := hostEntry_add paired.sound m val
  refine ⟨sound, ?_, ?_⟩
  · intro host key mr entered
    rw [entries] at entered
    rw [rings_add]
    split at entered
    · rename_i own
      rw [if_pos own.2, entered]
    · have old := paired.shared entered
      split
      · rename_i same
        rw [ringFor, ← same, old]
        rfl
      · exact old
  · intro key mr entered
    rw [rings_add] at entered
    simp only [metricAt_add, entries]
    split at entered
    · rename_i same
      cases entered
      cases known : storage.rings.lookup (getMetricString m) with
      | none =>
        refine ⟨m, ?_, same.symm, if_pos ⟨rfl, same⟩⟩
        simp [ringFor, known]
      | some mr =>
        obtain ⟨first, created, keyed, listed⟩ := paired.listed known
        have ring : ringFor storage m = mr := by simp [ringFor, known]
        refine ⟨first, ?_, keyed.trans same.symm, ?_⟩
        · simp [ring, created]
        · rw [ring, same]
          split
          · rfl
          · exact listed
    · rename_i other
      obtain ⟨first, created, keyed, listed⟩ := paired.listed entered
      refine ⟨first, ?_, keyed, ?_⟩
      · rw [if_neg fun new => paired.ref_ne_next entered new.2]
        exact created
      · rw [if_neg fun own => other own.2]
        exact listed

theorem paired_storageAfter (capacity : Nat) (history : List Addition) :
    Paired (storageAfter capacity history) :=
  after_invariant _ Paired (paired_new capacity)
    (fun _ entry paired => paired_add paired entry.1 entry.2) history

/-- A metric string is listed under the hosts it was added for. -/
theorem hostEntry_isSome_iff (capacity : Nat) (history : List Addition) (host key : String) :
    (hostEntry (storageAfter capacity history) host key).isSome ↔
      ∃ entry ∈ history, entry.1.getHost = host ∧ getMetricString entry.1 = key := by
  induction history using List.reverseRecOn with
  | nil => simp [storageAfter, newMemoryStorage, hostEntry, hostMap]
  | append_singleton past entry ih =>
    have entries := (hostEntry_add (paired_storageAfter capacity past).sound entry.1 entry.2).2
    rw [storageAfter, after_concat, ← storageAfter, entries]
    simp only [List.mem_append, List.mem_singleton, or_and_right, exists_or, exists_eq_left, ← ih]
    by_cases own : host = entry.1.getHost ∧ key = getMetricString entry.1
    · simp [own.1, own.2]
    · have other : ¬ (entry.1.getHost = host ∧ getMetricString entry.1 = key) :=
        fun both => own ⟨both.1.symm, both.2.symm⟩
      rw [if_neg own, or_iff_left other]

/-- The first metric that was added under a metric string. -/
def createdWith (history : List Addition) (key : String) : Option Metric :=
  (history.find? fun entry => getMetricString entry.1 = key).map Prod.fst

/-- The metric strings that were added. -/
def metricStrings (history : List Addition) : Finset String :=
  (history.map fun entry => getMetricString entry.1).toFinset

theorem createdWith_concat (past : List Addition) (entry : Addition) (key : String) :
    createdWith (past ++ [entry]) key =
      (createdWith past key).or (if getMetricString entry.1 = key then some entry.1 else none) := by
  unfold createdWith
  rw [List.find?_append]
  cases past.find? fun entry => getMetricString entry.1 = key with
  | some first => rfl
  | none =>
    by_cases own : getMetricString entry.1 = key
    · simp [own]
    · simp [own]

theorem createdWith_isSome_iff : (createdWith history key).isSome ↔ key ∈ metricStrings history := by
  simp [createdWith, metricStrings]

/-- The ring of a metric string was created with the first metric that had it. -/
theorem ring_createdWith (capacity : Nat) (history : List Addition) (key : String) :
    ((storageAfter capacity history).rings.lookup key).bind (metricAt (storageAfter capacity history)) =
      createdWith history key := by
  induction history using List.reverseRecOn with
  | nil => simp [storageAfter, newMemoryStorage, createdWith]
  | append_singleton past entry ih =>
    have paired := paired_storageAfter capacity past
    rw [createdWith_concat, ← ih, storageAfter, after_concat, ← storageAfter, rings_add]
    by_cases own : getMetricString entry.1 = key
    · subst own
      rw [if_pos rfl, if_pos rfl, Option.bind_some, metricAt_add, ringFor]
      cases known : (storageAfter capacity past).rings.lookup (getMetricString entry.1) with
      | none => simp
      | some mr =>
        obtain ⟨first, created, _⟩ := paired.listed known
        simp [created]
    · rw [if_neg (Ne.symm own), if_neg own, Option.or_none]
      cases known : (storageAfter capacity past).rings.lookup key with
      | none => rfl
      | some mr =>
        rw [Option.bind_some, Option.bind_some, metricAt_add,
          if_neg fun new => paired.ref_ne_next known new.2]

theorem keys_rings (capacity : Nat) (history : List Addition) :
    (storageAfter capacity history).rings.keys = metricStrings history := by
  ext key
  rw [Finmap.mem_keys, ← createdWith_isSome_iff, ← ring_createdWith capacity history key,
    ← Finmap.lookup_isSome]
  cases known : (storageAfter capacity history).rings.lookup key with
  | none => rfl
  | some mr =>
    obtain ⟨first, created, _⟩ := (paired_storageAfter capacity history).listed known
    simp [created]

/-- `CountMetrics` counts the metric strings, in 32 bits. -/
theorem countMetrics_eq (capacity : Nat) (history : List Addition) :
    countMetrics (storageAfter capacity history) = Int32.ofNat (metricStrings history).card := by
  rw [countMetrics, ← keys_rings capacity history, Finmap.keys, Finset.card_mk, Multiset.keys,
    Multiset.card_map]

/-! ## What is listed -/

theorem mem_metricsOf {order : RingOrder} {map : RingMap} :
    m ∈ metricsOf storage.ringCells (order.entries map) ↔
      ∃ key mr, map.lookup key = some mr ∧ metricAt storage mr = some m := by
  unfold metricsOf metricAt
  rw [List.mem_filterMap]
  constructor
  · rintro ⟨⟨key, mr⟩, member, created⟩
    exact ⟨key, mr, GoMap.Order.mem_entries.mp member, created⟩
  · rintro ⟨key, mr, entered, created⟩
    exact ⟨⟨key, mr⟩, GoMap.Order.mem_entries.mpr entered, created⟩

theorem mem_getAllMetrics {order : RingOrder} :
    m ∈ getAllMetrics order storage ↔
      ∃ key mr, storage.rings.lookup key = some mr ∧ metricAt storage mr = some m :=
  mem_metricsOf

theorem mem_getMetricsByHost {order : RingOrder} :
    m ∈ getMetricsByHost order storage host ↔
      ∃ key mr, hostEntry storage host key = some mr ∧ metricAt storage mr = some m := by
  unfold getMetricsByHost hostEntry
  cases hostMap storage host with
  | none => simp
  | some map => exact mem_metricsOf

/-- **The two maps agree.** After any additions, what is listed under a host is
the ring of that metric string; every ring is listed under the host of the
metric it was created with; the metric strings are counted in 32 bits; and what
is listed for a host is listed for the storage. -/
theorem two_maps_agree (capacity : Nat) (history : List Addition) :
    let storage := storageAfter capacity history
    (∀ host key mr, hostEntry storage host key = some mr → storage.rings.lookup key = some mr) ∧
      (∀ key mr, storage.rings.lookup key = some mr →
        ∃ m, createdWith history key = some m ∧ hostEntry storage m.getHost key = some mr) ∧
      countMetrics storage = Int32.ofNat (metricStrings history).card ∧
      ∀ order order' host m, m ∈ getMetricsByHost order storage host →
        m ∈ getAllMetrics order' storage := by
  intro storage
  have paired : Paired storage := paired_storageAfter capacity history
  refine ⟨fun host key mr => paired.shared, ?_, countMetrics_eq capacity history, ?_⟩
  · intro key mr entered
    obtain ⟨first, created, _, listed⟩ := paired.listed entered
    refine ⟨first, ?_, listed⟩
    have ring := ring_createdWith capacity history key
    rwa [entered, Option.bind_some, created, eq_comm] at ring
  · intro order order' host m member
    obtain ⟨key, mr, entered, created⟩ := mem_getMetricsByHost.mp member
    exact mem_getAllMetrics.mpr ⟨key, mr, paired.shared entered, created⟩

/-- The series of a host that has this number for its name. -/
def numbered (i : Nat) : Metric :=
  ⟨"Collectd", "core", [], String.ofList (Nat.toDigits 10 i), METRIC_GAUGE, 0⟩

theorem numbered_injective : Function.Injective fun i => getMetricString (numbered i) := by
  intro i j same
  have tokens : ∀ i, getMetricString (numbered i) =
      "Collectd/" ++ String.ofList (Nat.toDigits 10 i) := by
    intro i
    simp [getMetricString, numbered]
  simp only [tokens] at same
  have digits : Nat.toDigits 10 i = Nat.toDigits 10 j := by
    simpa using congrArg String.toList same
  have read := congrArg (fun digits => Nat.ofDigitChars 10 digits 0) digits
  simpa only [Nat.ofDigitChars_ten_toDigits] using read

/-- With 2^31 series the count is negative. -/
theorem many_series_are_miscounted :
    ¬ ∀ capacity history, (countMetrics (storageAfter capacity history)).toInt =
      (metricStrings history).card := by
  intro claimed
  have counted := claimed 10 ((List.range (2 ^ 31)).map fun i => (numbered i, ⟨"", 0, 0, "", .int64 0⟩))
  have distinct : (metricStrings
      ((List.range (2 ^ 31)).map fun i => (numbered i, ⟨"", 0, 0, "", .int64 0⟩))).card = 2 ^ 31 := by
    rw [metricStrings, List.map_map, List.card_toFinset, List.Nodup.dedup, List.length_map,
      List.length_range]
    exact List.nodup_range.map numbered_injective
  rw [countMetrics_eq, distinct] at counted
  exact absurd counted (by decide)

end NetGraphz.HostIndexProofs
