import NetGraphz.MetricStringProofs
import NetGraphz.ShownMetrics

/-! What the page shows first of a metric: the last sample there was when the
server answered, or the rate between the last two. -/
namespace NetGraphz.FreshMetrics
open Metrics MemoryStorage MemoryStorageProofs HostIndexProofs FetchOrderProofs
open LastValuesProofs DerivationProofs SampleCounts RpcFormater RpcAdapter MetricKinds ShownMetrics
open Collectd (CollectdMetric sampleOf)

variable {R S : Type}

/-! ## What can be read -/

/-- Something is read of a series that received something. -/
theorem newest_ne_nil (positive : 0 < capacity) (history : List Addition) (m : Metric)
    (filled : received history m ≠ []) (asked : 0 < nGet) :
    newest (storageAfter capacity history) m nGet ≠ [] := by
  rcases ringOf_storageAfter positive history m with ⟨empty, _⟩ | ⟨mr, ring, holds⟩
  · simp [retained, filled, Nat.ne_of_gt positive] at empty
  · obtain ⟨less, rfl⟩ := Nat.exists_eq_add_of_le' asked
    have kept : retained capacity history m ≠ [] := by
      simp [retained, filled, Nat.ne_of_gt positive]
    obtain ⟨last, older, log⟩ := List.exists_cons_of_ne_nil kept
    have value : mr.r.value = some last := by rw [holds.value positive, log, List.head?_cons]
    rw [newest, ring, Option.elim_some]
    simp [lastValuesLoop, startTime, value]

/-- Samples with rates between all neighbours get older and older. -/
theorem older_of_derives (derives : Derives newer older) : older.time < newer.time := by
  have spaced : (5 * 1000000000 : Int) ≤ max Time.minDuration
    (min Time.maxDuration (newer.time - older.time)) := derives.spaced
  simp only [Time.minDuration, Time.maxDuration] at spaced
  have apart : (0 : Int) < newer.time - older.time := by omega
  exact Int.sub_pos.mp apart

theorem descends_two {r : Ring MetricValue} (holds : r.Holds capacity (last :: older :: rest))
    (several : 2 ≤ capacity) (before : older.time ≤ last.time) (now : Time) :
    Descends r (startTime now r) 2 := by
  have reads := holds.value_iterate_prev (by omega : 0 < capacity)
  have first : r.value = some last := by simpa using reads 0
  have second : r.prev.value = some older := by
    simpa [Nat.mod_eq_of_lt (by omega : 1 < capacity)] using reads 1
  refine ⟨last, first, ?_, older, second, before, trivial⟩
  simp [startTime, first]

/-- Where all samples get older, a walk does not go around the ring. -/
theorem newest_within (several : 2 ≤ capacity) (history : List Addition) (m : Metric)
    (derivable : Derivable (retained capacity history m)) (nGet : Nat) :
    newest (storageAfter capacity history) m nGet <+: retained capacity history m := by
  have positive : 0 < capacity := by omega
  rcases ringOf_storageAfter positive history m with ⟨_, none⟩ | ⟨mr, ring, holds⟩
  · simp [newest, none]
  rw [newest, ring, Option.elim_some]
  generalize retained capacity history m = log at derivable holds
  have begins (lastTime : Time)
      (fits : (lastValuesLoop nGet (Ring.prev^[0] mr.r) lastTime).length ≤ log.length - 0) :
      lastValuesLoop nGet mr.r lastTime <+: log := prefix_of_within holds positive lastTime fits
  refine begins _ ?_
  rw [Function.iterate_zero_apply, Nat.sub_zero, ← Nat.not_lt]
  intro around
  have descends := ((le_length_lastValuesLoop _ _ _ _).mp around).2
  rcases Nat.lt_or_eq_of_le holds.fits with short | full
  · exact not_descends_of_short holds short positive _ descends
  · have times := (descends_around_iff holds full positive 0).mp (by
      rw [Nat.sub_zero, ← full]
      exact descends)
    obtain ⟨several, chain⟩ := derivable
    rcases log with _ | ⟨last, _ | ⟨older, rest⟩⟩
    · simp at several
    · simp at several
    have apart := older_of_derives (List.isChain_cons_cons.mp chain).1
    rw [List.isChain_iff_pairwise] at times
    have again : last.time ≤ older.time := by
      have later := (List.pairwise_cons.mp times).2
      exact (List.pairwise_cons.mp later).1 _ (by simp)
    exact absurd apart (Int.not_lt.mpr again)

/-- With two samples asked for, there are rates of a series that has rates. -/
theorem newest_derivable (several : 2 ≤ capacity) (history : List Addition) (m : Metric)
    (derivable : Derivable (retained capacity history m)) (asked : 2 ≤ nGet) :
    Derivable (newest (storageAfter capacity history) m nGet) := by
  obtain ⟨older, whole⟩ := newest_within several history m derivable nGet
  have chain := derivable.2
  rw [← whole] at chain
  refine ⟨(le_length_newest _ m 1 nGet).mpr ⟨asked, ?_⟩, chain.left_of_append⟩
  rcases ringOf_storageAfter (by omega : 0 < capacity) history m with ⟨empty, _⟩ | ⟨mr, ring, holds⟩
  · have filled := derivable.1
    simp [empty] at filled
  · refine ⟨mr, ring, ?_⟩
    generalize retained capacity history m = log at derivable holds
    rcases log with _ | ⟨last, _ | ⟨older, rest⟩⟩
    · simpa using derivable.1
    · simpa using derivable.1
    have apart := older_of_derives (List.isChain_cons_cons.mp derivable.2).1
    exact descends_two holds several (Int.le_of_lt apart) 0

/-! ## What is sent -/

variable {capacity : Nat} {past : List Addition} {m : Metric} {reading : Reading}

/-- A series is listed for the host of the metric that it began with. -/
theorem listed_of_created (created : createdWith past (getMetricString m) = some m)
    (order : RingOrder) :
    m ∈ MemoryStorage.getMetricsByHost order (storageAfter capacity past) m.getHost := by
  have ring := ring_createdWith capacity past (getMetricString m)
  rw [created] at ring
  obtain ⟨mr, entered, own⟩ := Option.bind_eq_some_iff.mp ring
  obtain ⟨first, at_, _, listed⟩ := (paired_storageAfter capacity past).listed entered
  rw [own] at at_
  cases at_
  exact mem_getMetricsByHost.mpr ⟨_, mr, listed, own⟩

/-- A host has no more metrics than were added. -/
theorem length_listed_le (order : RingOrder) (hostName : String) :
    (MemoryStorage.getMetricsByHost order (storageAfter capacity past) hostName).length ≤
      past.length := by
  have distinct := nodup_names (paired_storageAfter capacity past) order hostName
  have known : (MemoryStorage.getMetricsByHost order (storageAfter capacity past) hostName).map
      getMetricString ⊆ past.map fun entry => getMetricString entry.1 := by
    intro key named
    obtain ⟨m, listed, rfl⟩ := List.mem_map.mp named
    obtain ⟨val, added⟩ := mem_of_createdWith (listed_is_first listed)
    exact List.mem_map.mpr ⟨_, added, rfl⟩
  simpa using (distinct.subperm known).length_le

/-- Where no count wraps, a metric is asked for two samples at least. -/
theorem two_le_count (asked : 0 < nGet) (fits : nGet.toNat + extra + 2 < 2 ^ 32) (m : Metric) :
    2 ≤ (askBehind nGet extra m).2.toNat := by
  have positive : 0 < nGet.toNat := UInt32.lt_iff_toNat_lt.mp asked
  rw [askBehind, nextCount_eq]
  split
  · simp only [UInt32.toNat_add, UInt32.toNat_ofNat', UInt32.toNat_one]
    omega
  · simp only [UInt32.toNat_add, UInt32.toNat_ofNat', UInt32.toNat_one]
    omega

/-- The message has the values of every metric of its host for which there are
some. -/
theorem message_has (asked : 0 < reading.nGet)
    (fits : reading.nGet.toNat + past.length + 2 < 2 ^ 32)
    (listed : m ∈ MemoryStorage.getMetricsByHost reading.order (storageAfter capacity past)
      reading.host.name) :
    ∃ count, 2 ≤ count ∧ ∀ taken, taken ≠ [] →
      (let read := newest (storageAfter capacity past) m count
        if m.getType = METRIC_DERIVE then
          Derivable read ∧ taken = List.zipWith (derived true) read read.tail
        else taken = read) →
      (messageFor (storageAfter capacity past) reading).lastMetricValues.lookup
        (getMetricString m) = some ⟨getMetricString m, taken.map metricValueToRpc⟩ := by
  have paired := paired_storageAfter capacity past
  obtain ⟨first, rest, split⟩ := List.append_of_mem listed
  have few : derives first ≤ past.length := by
    have all : (MemoryStorage.getMetricsByHost reading.order (storageAfter capacity past)
        reading.host.name).length ≤ past.length := length_listed_le reading.order reading.host.name
    have some : derives first ≤ first.length := List.countP_le_length
    rw [split, List.length_append] at all
    omega
  refine ⟨_, two_le_count asked (by omega : reading.nGet.toNat + derives first + 2 < 2 ^ 32) m, ?_⟩
  intro taken filled read
  apply GoMap.lookup_collect_iff.mpr
  refine ⟨taken, ?_, by rw [collectionOf, if_neg filled]⟩
  rw [fetchLastMetrics_memorySource reading.order reading.now asked]
  dsimp only
  rw [lookup_entered _ first rest m split (nodup_names paired reading.order reading.host.name)]
  rw [show askBehind reading.nGet (derives first) m =
    (m, (askBehind reading.nGet (derives first) m).2) from rfl, valuesFor_memorySource]
  dsimp only at read ⊢
  split at read
  next derives =>
    rw [if_pos derives, if_pos read.1, read.2]
  next plain =>
    rw [if_neg plain, read]

/-! ## What is entered -/

/-- A metric whose name no later one has is what is saved under that name. -/
theorem saved_of_distinct {metrics : String → Option (Option (List R))} {node : GraphStore.Node R}
    (distinct : ((node.metrics.getD []).map GraphStore.Metric.name).Nodup)
    (listed : metric ∈ node.metrics.getD []) (ownName : metric.name ≠ "__proto__") :
    GraphStore.saveMetricsOfNode metrics node metric.name = some metric.values := by
  unfold GraphStore.saveMetricsOfNode
  generalize node.metrics.getD [] = all at distinct listed
  obtain ⟨first, rest, rfl⟩ := List.append_of_mem listed
  rw [List.map_append, List.map_cons] at distinct
  have later := (List.nodup_cons.mp (List.nodup_append.mp distinct).2.1).1
  rw [List.foldl_append, List.foldl_cons]
  have own : GraphStore.saveMetric (first.foldl GraphStore.saveMetric metrics) metric metric.name =
      some metric.values := by
    rw [GraphStore.saveMetric, if_neg ownName, Function.update_self]
  generalize GraphStore.saveMetric (first.foldl GraphStore.saveMetric metrics) metric = entered
    at own
  clear distinct listed
  induction rest generalizing entered with
  | nil => exact own
  | cons next rest ih =>
    rw [List.map_cons, List.mem_cons, not_or] at later
    rw [List.foldl_cons]
    refine ih later.2 _ ?_
    unfold GraphStore.saveMetric
    split
    · exact own
    · rw [Function.update_of_ne later.1, own]

/-- The metrics of an answer have different names. -/
theorem nodup_answer (system : System R S) (past : List Addition) (reading : Reading) :
    (((answerTo system past reading).metrics.getD []).map GraphStore.Metric.name).Nodup := by
  have keys := GoMap.Order.nodup_keys reading.collections
    (messageFor (storageAfter system.capacity past) reading).lastMetricValues
  have names : ((answerTo system past reading).metrics.getD []).map GraphStore.Metric.name =
      (reading.collections.entries (messageFor (storageAfter system.capacity past)
        reading).lastMetricValues).map Sigma.fst := by
    simp only [answerTo, clientNode, getNode, Option.getD_some, List.map_map]
    rfl
  rw [names]
  exact keys

/-- A collection of the message is a metric of the answer. -/
theorem answer_has (system : System R S) {taken : List MetricValue}
    (sent : (messageFor (storageAfter system.capacity past) reading).lastMetricValues.lookup key =
      some ⟨key, taken.map metricValueToRpc⟩) :
    (⟨key, some (taken.map fun sample => system.read (shown sample))⟩ : GraphStore.Metric R) ∈
      (answerTo system past reading).metrics.getD [] := by
  have entry : ⟨key, ⟨key, taken.map metricValueToRpc⟩⟩ ∈ reading.collections.entries
      (messageFor (storageAfter system.capacity past) reading).lastMetricValues :=
    GoMap.Order.mem_entries.mpr sent
  refine List.mem_map.mpr ⟨_, List.mem_map.mpr ⟨_, entry, rfl⟩, ?_⟩
  simp only [List.map_map]
  rfl

/-- A metric string of collectd is no name that every object of JavaScript has. -/
theorem getMetricString_ne (metric : CollectdMetric) :
    getMetricString metric.toMetric ≠ "__proto__" ∧
      getMetricString metric.toMetric ≠ "hasOwnProperty" := by
  have text := MetricStringProofs.toList_getMetricString metric
  constructor
  · intro same
    rw [same] at text
    cases text
  · intro same
    rw [same] at text
    cases text

/-! ## The system -/

variable [DecidableEq S]

/-- A series of the storage is named by a metric of collectd. -/
theorem collectd_of_created (system : System R S) (history : List (Event S))
    (within : past <+: (worldAfter system history).additions)
    (created : createdWith past key = some m) :
    getMetricString m = key ∧ key ≠ "__proto__" ∧ key ≠ "hasOwnProperty" := by
  obtain ⟨entry, found, rfl⟩ := Option.map_eq_some_iff.mp created
  have named : getMetricString entry.1 = key := by simpa using List.find?_some found
  have added := within.subset (List.mem_of_find?_eq_some found)
  obtain ⟨_, _, _, _, rfl⟩ := additions_written system history entry added
  rw [← named]
  exact ⟨rfl, getMetricString_ne _⟩

/-- The client's table is never without its methods. -/
theorem not_shadowed (system : System R S) (history : List (Event S)) :
    (worldAfter system history).store.metrics "hasOwnProperty" = none := by
  cases held : (worldAfter system history).store.metrics "hasOwnProperty" with
  | none => rfl
  | some values =>
    obtain ⟨past, taken, within, _, _, m, _, created, _⟩ :=
      (traced_after system history).table _ values held
    exact absurd rfl (collectd_of_created system history within created).2.2

/-- The samples of a series, or its rates, are there to be sent. -/
theorem taken_of_created (positive : 0 < capacity)
    (created : createdWith past (getMetricString m) = some m) (several : 2 ≤ count)
    (steady : m.getType = METRIC_DERIVE → Derivable (retained capacity past m)) :
    ∃ taken, taken ≠ [] ∧
      let read := newest (storageAfter capacity past) m count
      if m.getType = METRIC_DERIVE then
        Derivable read ∧ taken = List.zipWith (derived true) read read.tail
      else taken = read := by
  by_cases derives : m.getType = METRIC_DERIVE
  · have slots : 2 ≤ capacity := by
      have kept := (steady derives).1
      rw [retained, List.length_take] at kept
      omega
    have derivable := newest_derivable slots past m (steady derives) several
    have length := length_of_rates derivable
    refine ⟨_, ?_, by simpa only [derives, if_true] using ⟨derivable, rfl⟩⟩
    intro none
    rw [none] at length
    have enough := derivable.1
    simp only [List.length_nil] at length
    omega
  · obtain ⟨val, added⟩ := mem_of_createdWith created
    have filled : received past m ≠ [] :=
      List.ne_nil_of_mem (List.mem_map.mpr ⟨_, List.mem_filter.mpr ⟨added, by simp⟩, rfl⟩)
    have asked : 0 < count := by omega
    exact ⟨_, newest_ne_nil positive past m filled asked, by simp only [if_neg derives]⟩

/-- The answer that the server gives now, with its metrics entered. -/
theorem entered_of_answer (system : System R S) (history : List (Event S)) (reading : Reading)
    (created : createdWith (worldAfter system history).additions key = some m)
    (named : reading.host.name = m.getHost) (asked : 0 < reading.nGet)
    (fits : reading.nGet.toNat + (worldAfter system history).additions.length + 2 < 2 ^ 32)
    (steady : m.getType = METRIC_DERIVE →
      Derivable (retained system.capacity (worldAfter system history).additions m)) :
    let world := worldAfter system history
    let next := worldAfter system (history ++ [.answered reading, .arrived world.inFlight.length])
    ∃ taken, taken ≠ [] ∧ Snapshot system.capacity world.additions key taken ∧
      next.store.metrics key =
        some (some (taken.map fun sample => system.read (shown sample))) := by
  intro world next
  obtain ⟨rfl, ownName, _⟩ := collectd_of_created system history (List.prefix_refl _) created
  have listed : m ∈ MemoryStorage.getMetricsByHost reading.order
      (storageAfter system.capacity world.additions) m.getHost :=
    listed_of_created created reading.order
  rw [← named] at listed
  obtain ⟨count, several, sent⟩ := message_has asked fits listed
  obtain ⟨taken, filled, read⟩ := taken_of_created system.positive created several steady
  refine ⟨taken, filled, ⟨m, count, created, read⟩, ?_⟩
  have entered : next.store = world.store.enterNode (answerTo system world.additions reading) := by
    simp only [next, worldAfter, after_append]
    simp [after, step, world, worldAfter]
  rw [entered]
  exact saved_of_distinct (nodup_answer system world.additions reading)
    (answer_has system (sent taken filled read)) ownName

/-- A list of values begins with what the last sample of its series was at some
moment, as it is shown; or with the rate between the last two, where the series
began with values to derive. -/
def ShowsLast (system : System R S) (history : List (Event S)) (past : List Addition) (key : String)
    (values : Option (List R)) : Prop :=
  ∃ m last earlier rest, createdWith past key = some m ∧ received past m = earlier ++ [last] ∧
    if m.getType = METRIC_DERIVE then
      ∃ older before, earlier = before ++ [older] ∧
        values = some (system.read (some (.int64 (rate true last older))) :: rest)
    else ∃ writing value, .written writing ∈ history ∧ value ∈ writing.vl.values.zipIdx ∧
      last = (sampleOf system.dsName writing.vl value).2 ∧
        values = some (system.read (shownOf value.1) :: rest)

theorem showsLast_of_snapshot (system : System R S) (history : List (Event S))
    {taken : List MetricValue} (within : past <+: (worldAfter system history).additions)
    (filled : taken ≠ []) (snapshot : Snapshot system.capacity past key taken) :
    ShowsLast system history past key
      (some (taken.map fun sample => system.read (shown sample))) := by
  obtain ⟨m, last, earlier, created, all, first⟩ := snapshot.first system.positive filled
  obtain ⟨head, rest, rfl⟩ := List.exists_cons_of_ne_nil filled
  refine ⟨m, last, earlier, rest.map fun sample => system.read (shown sample), created, all, ?_⟩
  split at first
  next derives =>
    obtain ⟨older, before, rfl, same⟩ := first
    rw [if_pos derives]
    cases same
    exact ⟨older, before, rfl, rfl⟩
  next plain =>
    rw [if_neg plain]
    have same : head = last := Option.some.inj first
    have arrived : last ∈ received past m := by
      rw [all]
      exact List.mem_append_right _ List.mem_cons_self
    obtain ⟨entry, ofMetric, rfl⟩ := List.mem_map.mp arrived
    have added := within.subset (List.mem_filter.mp ofMetric).1
    obtain ⟨writing, written, value, listed, rfl⟩ := additions_written system history entry added
    refine ⟨writing, value, written, listed, rfl, ?_⟩
    rw [List.map_cons, same, shown_sampleOf]

/-- **What the page reads of a metric is nothing, or begins with the last sample
of that series** as it was at some moment: whatever was written meanwhile, in
whatever order the answers arrived, and whichever were lost. -/
theorem table_shows_samples (system : System R S) (history : List (Event S)) (key : String) :
    let world := worldAfter system history
    ∃ values, world.store.getMetricValues key = some values ∧
      (values = some [] ∨
        ∃ past, past <+: world.additions ∧ ShowsLast system history past key values) := by
  intro world
  refine ⟨(world.store.metrics key).getD (some []), ?_, ?_⟩
  · simp [GraphStore.Store.getMetricValues, world, not_shadowed]
  · cases held : world.store.metrics key with
    | none => exact .inl rfl
    | some values =>
      obtain ⟨past, taken, within, filled, rfl, snapshot⟩ :=
        (traced_after system history).table key values held
      exact .inr ⟨past, within, showsLast_of_snapshot system history within filled snapshot⟩

/-- **An answer that arrives at once brings the last sample there is** of every
series that began with a metric of the host, or its last rate where every sample
that is kept has one. -/
theorem fresh_answer_is_shown (system : System R S) (history : List (Event S)) (reading : Reading)
    (created : createdWith (worldAfter system history).additions key = some m)
    (named : reading.host.name = m.getHost) (asked : 0 < reading.nGet)
    (fits : reading.nGet.toNat + (worldAfter system history).additions.length + 2 < 2 ^ 32)
    (steady : m.getType = METRIC_DERIVE →
      Derivable (retained system.capacity (worldAfter system history).additions m)) :
    let world := worldAfter system history
    let next := worldAfter system (history ++ [.answered reading, .arrived world.inFlight.length])
    ∃ values, next.store.getMetricValues key = some values ∧
      ShowsLast system history world.additions key values := by
  intro world next
  obtain ⟨taken, filled, snapshot, held⟩ :=
    entered_of_answer system history reading created named asked fits steady
  refine ⟨_, ?_, showsLast_of_snapshot system history (List.prefix_refl _) filled snapshot⟩
  rw [GraphStore.Store.getMetricValues, not_shadowed, held]
  rfl

/-- Two slots for each series, and values read as they are shown. -/
def smallSystem : System (Option ShownValue) Unit where
  dsName _ _ := "value"
  storage := ()
  capacity := 2
  positive := Nat.two_pos
  read := id

/-- A load that is written twice, ten seconds apart. -/
def loadHistory : List (Event Unit) :=
  [.written (loadWrite 0 (.derive 7)), .written (loadWrite 10000000000 (.derive 27))]

def loadSample (time : Time) (count : Int64) : MetricValue :=
  ⟨"value", time, METRIC_DERIVE, "int64", .int64 count⟩

theorem loadHistory_additions : (worldAfter smallSystem loadHistory).additions =
    [(load METRIC_DERIVE, loadSample 0 7), (load METRIC_DERIVE, loadSample 10000000000 27)] := rfl

theorem loadHistory_retained :
    retained 2 (worldAfter smallSystem loadHistory).additions (load METRIC_DERIVE) =
      [loadSample 10000000000 27, loadSample 0 7] := by
  simp [loadHistory_additions, retained, received]

/-- Its rate is shown to the page that asks for its host. -/
theorem load_is_shown : ∃ reading : Reading, ∃ values,
    let world := worldAfter smallSystem loadHistory
    let next := worldAfter smallSystem
      (loadHistory ++ [.answered reading, .arrived world.inFlight.length])
    next.store.getMetricValues (getMetricString (load METRIC_DERIVE)) = some values ∧
      ShowsLast smallSystem loadHistory world.additions (getMetricString (load METRIC_DERIVE))
        values := by
  obtain ⟨order, _⟩ := GoMap.exists_order (∅ : RingMap) [] rfl
  obtain ⟨collections, _⟩ := GoMap.exists_order (∅ : CollectionMap) [] rfl
  let reading : Reading := ⟨{ id := 1, name := "core" }, [], 1, order, 0, collections⟩
  have created : createdWith (worldAfter smallSystem loadHistory).additions
      (getMetricString (load METRIC_DERIVE)) = some (load METRIC_DERIVE) := by
    simp [loadHistory_additions, createdWith]
  have few : reading.nGet.toNat + (worldAfter smallSystem loadHistory).additions.length + 2 <
      2 ^ 32 := by
    simp [loadHistory_additions, reading]
  have steady : Derivable (retained smallSystem.capacity
      (worldAfter smallSystem loadHistory).additions (load METRIC_DERIVE)) := by
    change Derivable (retained 2 _ _)
    rw [loadHistory_retained]
    decide
  exact ⟨reading, fresh_answer_is_shown smallSystem loadHistory reading created rfl
    (UInt32.lt_iff_toNat_lt.mpr Nat.one_pos) few fun _ => steady⟩

end NetGraphz.FreshMetrics
