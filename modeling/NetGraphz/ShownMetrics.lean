import NetGraphz.FetchOrderProofs
import NetGraphz.GraphStore
import NetGraphz.MetricKinds
import NetGraphz.RpcAdapter

/-! Samples on their way from collectd to the page: written to the storage in
memory, read for a node of the backend, sent, made a node of the page, and
entered into the client's table of metrics. Writes, readings and arrivals come in
any order, and answers may overtake each other or be lost. -/
namespace NetGraphz.ShownMetrics
open Collectd Metrics MemoryStorage MemoryStorageProofs HostIndexProofs FetchOrderProofs
open DerivationProofs SampleCounts StatusService RpcFormater RpcServer RpcAdapter MetricKinds

variable {R S : Type}

/-! ## A node as the client reads it -/

/-- A status, as far as the client's store reads it. A time stamp is one of
PHP's signed integers. -/
def clientStatus (status : NodeStatus) : GraphStore.NodeStatus where
  source := status.source
  effective_state := status.effective_state.toInt
  time := status.time.toInt64.toInt

/-- What becomes of the JSON text of a node; `read` is what the client reads
where a value was written. -/
def clientNode (read : Option ShownValue → R) (node : PageNode) : GraphStore.Node R where
  id := node.id.toInt
  type := some node.type.toInt
  status := some (node.status.map clientStatus)
  metrics := some (node.metrics.map fun metric =>
    { name := metric.name, values := some (metric.values.map fun value => read value.value) })

/-! ## The run -/

/-- What was added to the storage, the answers that have not arrived, and the
client's store. -/
structure World (R : Type) where
  additions : List Addition := []
  inFlight : List (GraphStore.Node R) := []
  store : GraphStore.Store R := GraphStore.newStore

/-- How a node is asked for: of which host, with which states and how many
values, and the orders of the loops that answer. -/
structure Reading where
  host : GraphStorage.Host
  states : List StateCache.HostState
  nGet : UInt32
  order : RingOrder
  now : Time
  collections : GoMap.Order fun _ : String => MetricValCollection

inductive Event (S : Type) where
  | written (writing : Writing S)
  | answered (reading : Reading)
  | arrived (i : Nat)
  | lost (i : Nat)

/-- What the system is made of: the names of collectd's data sources, the storage
that the server reads, its capacity, and how values are read. -/
structure System (R S : Type) where
  dsName : ValueList → Nat → String
  storage : S
  capacity : Nat
  positive : 0 < capacity
  read : Option ShownValue → R

/-- The message of a host. -/
def messageFor (stored : MemoryMetricStorage) (reading : Reading) : Node :=
  let lastMetricValues :=
    match fetchLastMetrics (memorySource reading.order reading.now stored) reading.host.name
      reading.nGet with
    | .ok lastMetricValues => lastMetricValues
    | .error _ => ∅
  hostToRpc reading.host reading.states lastMetricValues

/-- The node that the client gets. -/
def answerTo (system : System R S) (additions : List Addition) (reading : Reading) :
    GraphStore.Node R :=
  let stored := storageAfter system.capacity additions
  clientNode system.read (getNode reading.collections (messageFor stored reading))

def step [DecidableEq S] (system : System R S) (world : World R) : Event S → World R
  | .written writing =>
    { world with
      additions := world.additions ++ additionsTo system.dsName system.storage [writing] }
  | .answered reading =>
    { world with inFlight := world.inFlight ++ [answerTo system world.additions reading] }
  | .arrived i =>
    match world.inFlight[i]? with
    | none => world
    | some node =>
      { world with inFlight := world.inFlight.eraseIdx i, store := world.store.enterNode node }
  | .lost i => { world with inFlight := world.inFlight.eraseIdx i }

def worldAfter [DecidableEq S] (system : System R S) (history : List (Event S)) : World R :=
  after (step system) {} history

/-- What is fetched in a listing of the server's own is fetched in some order of the
storage's loop. -/
theorem fetchLastMetrics_listedIn (stored : MemoryMetricStorage) (order : RingOrder) (now : Time)
    (listing : Listing) (hostName : String) (nGet : UInt32) : ∃ order' : RingOrder,
      fetchLastMetrics ((memorySource order now stored).listedIn listing) hostName nGet =
        fetchLastMetrics (memorySource order' now stored) hostName nGet := by
  obtain ⟨order', same⟩ := (listings order hostName _).mp
    (listing.perm (MemoryStorage.getMetricsByHost order stored hostName))
  refine ⟨order', ?_⟩
  have listed : ((memorySource order now stored).listedIn listing).getMetricsByHost hostName =
      (memorySource order' now stored).getMetricsByHost hostName := congrArg Except.ok same.symm
  unfold fetchLastMetrics
  rw [listed]
  rfl

theorem streamedNode_listedIn (stored : MemoryMetricStorage) (order : RingOrder) (now : Time)
    (listing : Listing) (collections : GoMap.Order fun _ : String => MetricValCollection)
    (nGet : UInt32) (states : NameMap) (host : GraphStorage.Host) : ∃ reading : Reading,
      reading.collections = collections ∧
        streamedNode ((memorySource order now stored).listedIn listing) nGet states host =
          messageFor stored reading := by
  obtain ⟨order', same⟩ := fetchLastMetrics_listedIn stored order now listing host.name nGet
  refine ⟨⟨host, statesOf states host.icingaName, nGet, order', now, collections⟩, rfl, ?_⟩
  unfold streamedNode messageFor
  exact same ▸ rfl

/-- Both endpoints answer with such messages. -/
theorem endpoints_answer (stored : MemoryMetricStorage) (order : RingOrder) (now : Time)
    (s : RPCServer) (reads : s.metricSrv = memorySource order now stored) (clock : Clock)
    (listing : Listing) (listings : Nat → Listing)
    (collections : GoMap.Order fun _ : String => MetricValCollection) :
    (∀ req message, (getNodeById s clock listing req).2 = .ok message → ∃ reading : Reading,
      reading.collections = collections ∧ message = messageFor stored reading) ∧
    ∀ req, ∀ message ∈ (getAllNodes s clock listings req).2.1, ∃ reading : Reading,
      reading.collections = collections ∧ message = messageFor stored reading := by
  constructor
  · intro req message answered
    unfold getNodeById at answered
    split at answered
    · cases answered
    next host found =>
      dsimp only at answered
      generalize (if req.includeState then getHostStatusByName s.statusSrv clock host.icingaName
        else (s.statusSrv, .ok [])).2 = states at answered
      cases states with
      | error err => cases answered
      | ok states =>
        obtain ⟨order', same⟩ := fetchLastMetrics_listedIn stored order now listing host.name
          req.includeMetrics.toUInt32
        rw [reads] at answered
        cases fetched : fetchLastMetrics (memorySource order' now stored) host.name
            req.includeMetrics.toUInt32 with
        | error err =>
          simp only [same, fetched] at answered
          cases answered
        | ok lastMetricValues =>
          refine ⟨⟨host, states, req.includeMetrics.toUInt32, order', now, collections⟩, rfl, ?_⟩
          simp only [messageFor, fetched]
          simp only [same, fetched] at answered
          exact (Except.ok.inj answered).symm
  · intro req message streamed
    unfold getAllNodes at streamed
    split at streamed
    · simp at streamed
    next hosts found =>
      obtain ⟨i, _, rfl⟩ := List.mem_mapIdx.mp streamed
      rw [reads]
      exact streamedNode_listedIn stored order now (listings i) collections _ _ hosts[i]

/-! ## The values of a series -/

/-- What a page shows of a value that collectd wrote. -/
def shownOf : ApiValue → Option ShownValue
  | .gauge bits => some (.float32 (GoFloat.float32OfFloat64 (Float.Model.ofBits bits)).toBits)
  | .derive v => some (.int64 v)
  | .counter v => some (.uint64 v)
  | .other => none

/-- What it shows of a sample. -/
def shown (sample : MetricValue) : Option ShownValue :=
  (getNodeMetricValue (metricValueToRpc sample)).value

theorem shown_sampleOf (dsName : ValueList → Nat → String) (vl : ValueList)
    (entry : ApiValue × Nat) :
    shown (sampleOf dsName vl entry).2 = shownOf entry.1 := by
  obtain ⟨val, i⟩ := entry
  cases val <;> rfl

/-- The newest of the samples that are read is the last one that was received,
and the next one is the one before it. -/
theorem newest_of_history (positive : 0 < capacity) (history : List Addition) (m : Metric)
    (read : (newest (storageAfter capacity history) m nGet)[k]? = some value) :
    (received history m).reverse[k % capacity]? = some value := by
  unfold newest at read
  rcases ringOf_storageAfter positive history m with ⟨_, none⟩ | ⟨mr, ring, holds⟩
  · simp [none] at read
  · rw [ring, Option.elim_some] at read
    have slot := LastValuesProofs.value_of_lastValuesLoop read
    rwa [holds.value_iterate_prev positive, retained,
      List.getElem?_take_of_lt (Nat.mod_lt _ positive)] at slot

/-- No rate is derived between a sample and itself. -/
theorem not_derives_self (sample : MetricValue) : ¬ Derives sample sample := by
  intro derives
  have spaced := derives.spaced
  simp [Time.sub, Time.minDuration] at spaced

/-- A list of values that the server sent for a metric string: of the series that
it knew by that string, the samples it could read, or the rates between them. -/
def Snapshot (capacity : Nat) (past : List Addition) (key : String) (samples : List MetricValue) :
    Prop :=
  ∃ m n, createdWith past key = some m ∧
    let read := newest (storageAfter capacity past) m n
    if m.getType = METRIC_DERIVE then
      Derivable read ∧ samples = List.zipWith (derived true) read read.tail
    else samples = read

/-- The metrics listed for a host are those that their series began with. -/
theorem listed_is_first {order : RingOrder}
    (listed : m ∈ MemoryStorage.getMetricsByHost order (storageAfter capacity past) hostName) :
    createdWith past (getMetricString m) = some m := by
  obtain ⟨key, mr, entered, created⟩ := mem_getMetricsByHost.mp listed
  have ring := (paired_storageAfter capacity past).shared entered
  have everywhere : m ∈ MemoryStorage.getAllMetrics order (storageAfter capacity past) :=
    mem_getAllMetrics.mpr ⟨key, mr, ring, created⟩
  exact stored_is_first everywhere

/-- What a message has under a metric string is a snapshot, and is not empty. -/
theorem snapshot_of_message (past : List Addition) (reading : Reading)
    (held : (messageFor (storageAfter capacity past) reading).lastMetricValues.lookup key =
      some collection) :
    ∃ samples, samples ≠ [] ∧ collection.values = samples.map metricValueToRpc ∧
      Snapshot capacity past key samples := by
  have paired := paired_storageAfter capacity past
  obtain ⟨samples, fetched, made⟩ := GoMap.lookup_collect_iff.mp held
  obtain ⟨filled, rfl⟩ : samples ≠ [] ∧ ⟨key, samples.map metricValueToRpc⟩ = collection := by
    simpa [collectionOf] using made
  refine ⟨samples, filled, rfl, ?_⟩
  by_cases asked : reading.nGet > 0
  · rw [fetchLastMetrics_memorySource reading.order reading.now asked] at fetched
    dsimp only at fetched
    by_cases known : key ∈ (MemoryStorage.getMetricsByHost reading.order
        (storageAfter capacity past) reading.host.name).map getMetricString
    · obtain ⟨m, listed, rfl⟩ := List.mem_map.mp known
      obtain ⟨first, rest, split⟩ := List.append_of_mem listed
      rw [lookup_entered _ first rest m split (nodup_names paired reading.order reading.host.name),
        askBehind, valuesFor_memorySource] at fetched
      dsimp only at fetched
      generalize UInt32.toNat _ = count at fetched
      refine ⟨m, count, listed_is_first listed, ?_⟩
      dsimp only
      split at fetched
      next derives =>
        split at fetched
        next derivable =>
          rw [if_pos derives]
          exact ⟨derivable, (Option.some.inj fetched).symm⟩
        next => cases fetched
      next plain =>
        rw [if_neg plain]
        exact (Option.some.inj fetched).symm
    · rw [lookup_entered_unknown known] at fetched
      cases fetched
  · rw [fetchLastMetrics, if_neg asked] at fetched
    simp at fetched

/-! ## The page -/

/-- The metrics of an answer are snapshots. -/
theorem snapshot_of_answer (system : System R S) (past : List Addition) (reading : Reading)
    (listed : metric ∈ (answerTo system past reading).metrics.getD []) :
    ∃ samples, samples ≠ [] ∧
      metric.values = some (samples.map fun sample => system.read (shown sample)) ∧
      Snapshot system.capacity past metric.name samples := by
  obtain ⟨shownMetric, made, rfl⟩ := List.mem_map.mp listed
  obtain ⟨⟨key, collection⟩, entry, rfl⟩ := List.mem_map.mp made
  obtain ⟨samples, filled, values, snapshot⟩ :=
    snapshot_of_message past reading (GoMap.Order.mem_entries.mp entry)
  refine ⟨samples, filled, ?_, snapshot⟩
  have sent : collection.values = samples.map metricValueToRpc := values
  simp only [sent, List.map_map]
  rfl

/-- An entry of the table was there or came with the node. -/
theorem saved_cases {metrics : String → Option (Option (List R))} {node : GraphStore.Node R}
    (held : GraphStore.saveMetricsOfNode metrics node key = some values) :
    metrics key = some values ∨
      ∃ metric ∈ node.metrics.getD [], metric.name = key ∧ metric.values = values := by
  unfold GraphStore.saveMetricsOfNode at held
  generalize node.metrics.getD [] = listed at held ⊢
  induction listed generalizing metrics with
  | nil => exact .inl held
  | cons metric rest ih =>
    rcases ih held with before | ⟨later, listed, same⟩
    · unfold GraphStore.saveMetric at before
      split at before
      · exact .inl before
      · by_cases own : key = metric.name
        · subst own
          rw [Function.update_self] at before
          exact .inr ⟨metric, List.mem_cons_self, rfl, Option.some.inj before⟩
        · rw [Function.update_of_ne own] at before
          exact .inl before
    · exact .inr ⟨later, List.mem_cons_of_mem _ listed, same⟩

/-- Where a list of values comes from: a snapshot that was made at some moment. -/
def Origin (system : System R S) (additions : List Addition) (key : String)
    (values : Option (List R)) : Prop :=
  ∃ past samples, past <+: additions ∧ samples ≠ [] ∧
    values = some (samples.map fun sample => system.read (shown sample)) ∧
    Snapshot system.capacity past key samples

/-- Everything in the table and on its way has an origin. -/
structure Traced (system : System R S) (world : World R) : Prop where
  table : ∀ key values, world.store.metrics key = some values →
    Origin system world.additions key values
  sent : ∀ node ∈ world.inFlight, ∀ metric ∈ node.metrics.getD [],
    Origin system world.additions metric.name metric.values

theorem Origin.later {system : System R S} (origin : Origin system additions key values)
    (more : additions <+: additions') : Origin system additions' key values := by
  obtain ⟨past, samples, within, rest⟩ := origin
  exact ⟨past, samples, within.trans more, rest⟩

theorem traced_step [DecidableEq S] (system : System R S) (traced : Traced system world)
    (event : Event S) : Traced system (step system world event) := by
  cases event with
  | written writing =>
    have more := List.prefix_append world.additions
      (additionsTo system.dsName system.storage [writing])
    exact ⟨fun key values held => (traced.table key values held).later more,
      fun node flies metric listed => (traced.sent node flies metric listed).later more⟩
  | answered reading =>
    refine ⟨traced.table, fun node flies metric listed => ?_⟩
    rcases List.mem_append.mp flies with before | new
    · exact traced.sent node before metric listed
    · cases List.mem_singleton.mp new
      obtain ⟨samples, filled, values, snapshot⟩ := snapshot_of_answer system _ reading listed
      exact ⟨world.additions, samples, List.prefix_refl _, filled, values, snapshot⟩
  | arrived i =>
    simp only [step]
    cases flies : world.inFlight[i]? with
    | none => exact traced
    | some node =>
      refine ⟨fun key values held => ?_, fun other stays =>
        traced.sent other (List.mem_of_mem_eraseIdx stays)⟩
      rcases saved_cases held with before | ⟨metric, listed, rfl, rfl⟩
      · exact traced.table key values before
      · exact traced.sent node (List.mem_of_getElem? flies) metric listed
  | lost i =>
    exact ⟨traced.table, fun node stays => traced.sent node (List.mem_of_mem_eraseIdx stays)⟩

theorem traced_start (system : System R S) : Traced system ({} : World R) where
  table := by
    intro key values held
    cases held
  sent := by
    intro node flies
    cases flies

theorem traced_after [DecidableEq S] (system : System R S) (history : List (Event S)) :
    Traced system (worldAfter system history) :=
  after_invariant (step system) (Traced system) (traced_start system)
    (fun _ event traced => traced_step system traced event) history

/-! ## What is shown first -/

theorem received_of_newest {values : List MetricValue}
    (first : values.reverse[0]? = some last) : ∃ earlier, values = earlier ++ [last] := by
  rw [← List.head?_eq_getElem?, List.head?_reverse] at first
  obtain ⟨earlier, rfl⟩ := List.getLast?_eq_some_iff.mp first
  exact ⟨earlier, rfl⟩

/-- The first value of a snapshot is that of the last sample, or the rate
between the last two. -/
theorem Snapshot.first {taken : List MetricValue} (positive : 0 < capacity)
    (snapshot : Snapshot capacity past key taken) (filled : taken ≠ []) :
    ∃ m last earlier, createdWith past key = some m ∧ received past m = earlier ++ [last] ∧
      if m.getType = METRIC_DERIVE then
        ∃ older before, earlier = before ++ [older] ∧ taken.head? = some (derived true last older)
      else taken.head? = some last := by
  obtain ⟨m, n, created, read⟩ := snapshot
  generalize walk : newest (storageAfter capacity past) m n = walked at read
  have slot (k : Nat) (value : MetricValue) (held : walked[k]? = some value) :
      (received past m).reverse[k % capacity]? = some value := by
    rw [← walk] at held
    exact newest_of_history positive past m held
  dsimp only at read
  split at read
  next derives =>
    obtain ⟨⟨several, chain⟩, rfl⟩ := read
    rcases walked with _ | ⟨last, _ | ⟨older, rest⟩⟩
    · simp at several
    · simp at several
    have pair : Derives last older := (List.isChain_cons_cons.mp chain).1
    have newest := slot 0 last rfl
    have next := slot 1 older rfl
    rw [Nat.zero_mod] at newest
    obtain ⟨earlier, all⟩ := received_of_newest newest
    refine ⟨m, last, earlier, created, all, ?_⟩
    rw [if_pos derives]
    by_cases alone : capacity = 1
    · rw [alone, Nat.mod_self, newest] at next
      cases next
      exact absurd pair (not_derives_self last)
    · rw [Nat.mod_eq_of_lt (by omega), all, List.reverse_append, List.reverse_singleton,
        List.singleton_append, List.getElem?_cons_succ] at next
      obtain ⟨before, rfl⟩ := received_of_newest next
      exact ⟨older, before, rfl, rfl⟩
  next plain =>
    subst read
    rcases taken with _ | ⟨last, rest⟩
    · exact absurd rfl filled
    have newest := slot 0 last rfl
    rw [Nat.zero_mod] at newest
    obtain ⟨earlier, all⟩ := received_of_newest newest
    refine ⟨m, last, earlier, created, all, ?_⟩
    rw [if_neg plain]
    rfl

/-! ## The system -/

/-- What a call of `Write` adds are samples of collectd's values. -/
theorem sample_of_addition [DecidableEq S] {writes : List (Writing S)} {s : S}
    (added : entry ∈ additionsTo dsName s writes) :
    ∃ writing ∈ writes, ∃ value ∈ writing.vl.values.zipIdx,
      entry = ((sampleOf dsName writing.vl value).1.toMetric,
        (sampleOf dsName writing.vl value).2) := by
  obtain ⟨writing, written, member⟩ := List.mem_flatMap.mp added
  obtain ⟨call, called, rfl⟩ := List.mem_map.mp member
  obtain ⟨value, listed, same⟩ := List.mem_map.mp (mem_write (List.mem_filter.mp called).1)
  exact ⟨writing, written, value, listed, by rw [same]⟩

/-- The sample of a value that collectd has written. -/
def IsWritten (system : System R S) (history : List (Event S)) (entry : Addition) : Prop :=
  ∃ writing, .written writing ∈ history ∧ ∃ value ∈ writing.vl.values.zipIdx,
    entry = ((sampleOf system.dsName writing.vl value).1.toMetric,
      (sampleOf system.dsName writing.vl value).2)

theorem IsWritten.later {system : System R S} (written : IsWritten system past entry)
    (last : Event S) : IsWritten system (past ++ [last]) entry := by
  obtain ⟨writing, happened, sampled⟩ := written
  exact ⟨writing, List.mem_append_left [last] happened, sampled⟩

theorem additions_written [DecidableEq S] (system : System R S) (history : List (Event S)) :
    ∀ entry ∈ (worldAfter system history).additions, IsWritten system history entry := by
  refine history_induction (fun history => ∀ entry ∈ (worldAfter system history).additions,
    IsWritten system history entry) ?_ ?_ history
  · exact fun entry added => absurd added List.not_mem_nil
  · intro past last ih entry added
    unfold worldAfter at ih added
    rw [after_concat] at added
    cases last with
    | written writing =>
      rcases List.mem_append.mp added with before | new
      · exact (ih entry before).later _
      · obtain ⟨_, same, sampled⟩ := sample_of_addition new
        cases List.mem_singleton.mp same
        exact ⟨writing, List.mem_append_right past List.mem_cons_self, sampled⟩
    | answered reading => exact (ih entry added).later _
    | arrived i =>
      simp only [step] at added
      split at added
      · exact (ih entry added).later _
      · exact (ih entry added).later _
    | lost i => exact (ih entry added).later _

end NetGraphz.ShownMetrics
