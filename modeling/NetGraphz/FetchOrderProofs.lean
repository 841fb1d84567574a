import NetGraphz.DerivationProofs
import NetGraphz.LastValuesProofs
import NetGraphz.MetricPaging
import NetGraphz.SampleCounts

/-! The last values of a host's metrics over the orders in which the storage
may list them. The count to get grows with every derived metric, so a metric is
asked for more samples the more derived ones come before it. -/
namespace NetGraphz.FetchOrderProofs
open Metrics MemoryStorage MemoryStorageProofs HostIndexProofs LastValuesProofs
open DerivationProofs RpcFormater RpcServer SampleCounts

/-! ## One list of metrics in several orders -/

section
variable (metricSrv : MetricStorage) (nGet : UInt32)

/-- What is asked for a metric behind so many derived ones. -/
def askBehind (extra : Nat) (m : Metric) : Metric × UInt32 :=
  (m, nextCount (nGet + UInt32.ofNat extra) m + 1)

/-- The map that the loop makes of a list of metrics. -/
def entered (metrics : List Metric) : MetricMap :=
  (asks nGet metrics).foldl (enter metricSrv) ∅

theorem nextCount_eq (m : Metric) :
    nextCount nGet m = nGet + UInt32.ofNat (if m.getType = METRIC_DERIVE then 1 else 0) := by
  unfold nextCount
  split
  · rfl
  · exact (UInt32.add_zero nGet).symm

/-- Behind the first metrics the loop goes on with a larger count. -/
theorem asks_append (first rest : List Metric) :
    asks nGet (first ++ rest) = asks nGet first ++ asks (nGet + UInt32.ofNat (derives first)) rest := by
  induction first generalizing nGet with
  | nil =>
    rw [show UInt32.ofNat (derives []) = 0 from rfl, UInt32.add_zero]
    rfl
  | cons m first ih =>
    have count : nextCount nGet m + UInt32.ofNat (derives first) =
        nGet + UInt32.ofNat (derives (m :: first)) := by
      rw [nextCount_eq, UInt32.add_assoc, ← UInt32.ofNat_add, derives_cons, Nat.add_comm]
    rw [List.cons_append, asks, asks, List.cons_append, ih, count]

/-- Every metric is asked for once, in the order of the list. -/
theorem names_asks (metrics : List Metric) :
    (asks nGet metrics).map (fun ask => getMetricString ask.1) = metrics.map getMetricString := by
  induction metrics generalizing nGet with
  | nil => rfl
  | cons m rest ih => rw [asks, List.map_cons, ih, List.map_cons]

variable {metricSrv nGet}

theorem lookup_enter (map : MetricMap) (ask : Metric × UInt32) (key : String) :
    (enter metricSrv map ask).lookup key =
      if getMetricString ask.1 = key then (valuesFor metricSrv ask).or (map.lookup key)
      else map.lookup key := by
  unfold enter
  cases valuesFor metricSrv ask with
  | none => simp
  | some values =>
    rw [GoMap.lookup_insert]
    by_cases own : getMetricString ask.1 = key
    · rw [if_pos own.symm, if_pos own, Option.some_or]
    · rw [if_neg (Ne.symm own), if_neg own]

/-- What is not asked for stays as it was. -/
theorem lookup_not_asked (asked : List (Metric × UInt32)) (map : MetricMap) {key : String}
    (absent : key ∉ asked.map fun ask => getMetricString ask.1) :
    (asked.foldl (enter metricSrv) map).lookup key = map.lookup key := by
  induction asked generalizing map with
  | nil => rfl
  | cons ask rest ih =>
    rw [List.map_cons, List.mem_cons, not_or] at absent
    rw [List.foldl_cons, ih _ absent.2, lookup_enter, if_neg (Ne.symm absent.1)]

/-- A metric has in the map what its own request brought. -/
theorem lookup_entered (metrics first rest : List Metric) (m : Metric)
    (split : metrics = first ++ m :: rest) (distinct : (metrics.map getMetricString).Nodup) :
    (entered metricSrv nGet metrics).lookup (getMetricString m) =
      valuesFor metricSrv (askBehind nGet (derives first) m) := by
  subst split
  rw [List.map_append, List.map_cons] at distinct
  obtain ⟨_, later, apart⟩ := List.nodup_append.mp distinct
  have notLater : getMetricString m ∉ rest.map getMetricString := (List.nodup_cons.mp later).1
  have notFirst : getMetricString m ∉ first.map getMetricString :=
    fun member => apart _ member _ List.mem_cons_self rfl
  rw [entered, asks_append, asks, List.foldl_append, List.foldl_cons,
    lookup_not_asked _ _ (by rwa [names_asks]), lookup_enter, if_pos rfl,
    lookup_not_asked _ _ (by rwa [names_asks]), Finmap.lookup_empty, Option.or_none]
  rfl

theorem lookup_entered_unknown (absent : key ∉ metrics.map getMetricString) :
    (entered metricSrv nGet metrics).lookup key = none := by
  rw [entered, lookup_not_asked, Finmap.lookup_empty]
  rwa [names_asks]

theorem derives_append (first rest : List Metric) :
    derives (first ++ rest) = derives first + derives rest :=
  List.countP_append ..

/-- Any number of the other derived metrics may come before a metric. -/
theorem exists_order_behind (listed : List Metric) (member : m ∈ listed)
    (within : extra ≤ derives (listed.erase m)) :
    ∃ first rest, (first ++ m :: rest).Perm listed ∧ derives first = extra := by
  let isDerived (m : Metric) : Bool := m.getType = METRIC_DERIVE
  let others := listed.erase m
  have count : derives others = (others.filter isDerived).length := List.countP_eq_length_filter
  refine ⟨(others.filter isDerived).take extra,
    (others.filter isDerived).drop extra ++ others.filter fun m => !isDerived m, ?_, ?_⟩
  · have sorted : ((others.filter isDerived).take extra ++
        ((others.filter isDerived).drop extra ++ others.filter fun m => !isDerived m)).Perm others := by
      rw [← List.append_assoc, List.take_append_drop]
      exact List.filter_append_perm isDerived others
    exact List.perm_middle.trans ((sorted.cons m).trans (List.perm_cons_erase member).symm)
  · have all : ∀ m ∈ (others.filter isDerived).take extra, isDerived m :=
      fun m member => (List.mem_filter.mp (List.mem_of_mem_take member)).2
    rw [derives, List.countP_eq_length.mpr all, List.length_take, Nat.min_eq_left (count ▸ within)]

/-- **Two orders may disagree on a metric only by its own count.** All orders
give maps that look the same, in a view of the values, exactly if the values of
every metric do so behind any number of the other derived metrics. -/
theorem views_agree_iff (view : Option (List MetricValue) → β) (listed : List Metric)
    (distinct : (listed.map getMetricString).Nodup) :
    (∀ first second, first.Perm listed → second.Perm listed → ∀ key,
      view ((entered metricSrv nGet first).lookup key) =
        view ((entered metricSrv nGet second).lookup key)) ↔
    ∀ m ∈ listed, ∀ extra ≤ derives (listed.erase m),
      view (valuesFor metricSrv (askBehind nGet 0 m)) =
        view (valuesFor metricSrv (askBehind nGet extra m)) := by
  have distinctIn {order : List Metric} (perm : order.Perm listed) :
      (order.map getMetricString).Nodup := (perm.map _).nodup_iff.mpr distinct
  constructor
  · intro agree m member extra within
    obtain ⟨first, rest, perm, count⟩ := exists_order_behind listed member within
    have foremost := List.perm_cons_erase member
    have same := agree _ _ foremost.symm perm (getMetricString m)
    rwa [lookup_entered (m :: listed.erase m) [] _ m rfl (distinctIn foremost.symm),
      lookup_entered _ first rest m rfl (distinctIn perm), count] at same
  · intro same first second perm perm' key
    have settled {order : List Metric} (perm : order.Perm listed) {m : Metric} (member : m ∈ listed) :
        view ((entered metricSrv nGet order).lookup (getMetricString m)) =
          view (valuesFor metricSrv (askBehind nGet 0 m)) := by
      obtain ⟨before, rest, split⟩ := List.append_of_mem (perm.mem_iff.mpr member)
      have others : (before ++ rest).Perm (listed.erase m) := by
        have whole : (m :: (before ++ rest)).Perm (m :: listed.erase m) :=
          List.perm_middle.symm.trans (split ▸ perm.trans (List.perm_cons_erase member))
        exact (List.perm_cons m).mp whole
      have within : derives before ≤ derives (listed.erase m) := by
        rw [derives, derives, ← others.countP_eq, ← derives, ← derives, derives_append]
        exact Nat.le_add_right ..
      rw [lookup_entered _ before rest m split (distinctIn perm), same m member _ within]
    by_cases known : key ∈ listed.map getMetricString
    · obtain ⟨m, member, rfl⟩ := List.mem_map.mp known
      rw [settled perm member, settled perm' member]
    · rw [lookup_entered_unknown (mt (perm.map _).mem_iff.mp known),
        lookup_entered_unknown (mt (perm'.map _).mem_iff.mp known)]

/-- All orders give one map exactly if every metric's values are the same behind
any number of the other derived metrics. -/
theorem orders_agree_iff (listed : List Metric) (distinct : (listed.map getMetricString).Nodup) :
    (∀ first second, first.Perm listed → second.Perm listed →
      entered metricSrv nGet first = entered metricSrv nGet second) ↔
    ∀ m ∈ listed, ∀ extra ≤ derives (listed.erase m),
      valuesFor metricSrv (askBehind nGet 0 m) = valuesFor metricSrv (askBehind nGet extra m) := by
  refine Iff.trans ?_ (views_agree_iff id listed distinct)
  refine forall₂_congr fun first second => forall₂_congr fun _ _ => ?_
  exact ⟨fun same key => by rw [same], Finmap.ext_lookup⟩

/-! ## What is sent of the values -/

/-- What is sent of a metric's values; nothing is where there are none. -/
def sentValues (values : Option (List MetricValue)) : List MetricVal :=
  (values.getD []).map metricValueToRpc

theorem lookup_lastMetricValuesToRpc (metrics : MetricMap) (key : String) :
    (lastMetricValuesToRpc metrics).lookup key =
      if sentValues (metrics.lookup key) = [] then none
      else some ⟨key, sentValues (metrics.lookup key)⟩ := by
  apply Option.ext
  intro collection
  rw [lastMetricValuesToRpc, GoMap.lookup_collect_iff]
  cases metrics.lookup key with
  | none => simp [sentValues]
  | some values =>
    by_cases none : values = []
    · simp [sentValues, collectionOf, none]
    · simp [sentValues, collectionOf, none]

/-- What is sent of two maps is the same if it is under every name. -/
theorem lastMetricValuesToRpc_eq_iff (metrics metrics' : MetricMap) :
    lastMetricValuesToRpc metrics = lastMetricValuesToRpc metrics' ↔
      ∀ key, sentValues (metrics.lookup key) = sentValues (metrics'.lookup key) := by
  constructor
  · intro same key
    have entries := congrArg (Finmap.lookup key) same
    rw [lookup_lastMetricValuesToRpc, lookup_lastMetricValuesToRpc] at entries
    by_cases none : sentValues (metrics.lookup key) = []
    · by_cases none' : sentValues (metrics'.lookup key) = []
      · rw [none, none']
      · simp [none, none'] at entries
    · by_cases none' : sentValues (metrics'.lookup key) = []
      · simp [none, none'] at entries
      · simpa [none, none'] using entries
  · intro same
    apply Finmap.ext_lookup
    intro key
    rw [lookup_lastMetricValuesToRpc, lookup_lastMetricValuesToRpc, same]

/-- It makes no difference to what is sent of the metrics how many of the other
derived ones come before each. -/
def SentInAnyOrder (metricSrv : MetricStorage) (nGet : UInt32) (metrics : List Metric) : Prop :=
  ∀ m ∈ metrics, ∀ extra ≤ derives (metrics.erase m),
    sentValues (valuesFor metricSrv (askBehind nGet 0 m)) =
      sentValues (valuesFor metricSrv (askBehind nGet extra m))

end

/-! ## The storage in memory -/

/-- The storage as the server reads it: the order in which its loop meets the
metrics of a host, and the reading of the clock. -/
def memorySource (order : RingOrder) (now : Time) (storage : MemoryMetricStorage) : MetricStorage :=
  ⟨fun hostName => .ok (MemoryStorage.getMetricsByHost order storage hostName),
    fun m nSkip nGet => MemoryStorage.getLastMetricValues now storage m nSkip.toNat nGet.toNat⟩

/-- The newest samples of a series, as many as are asked for. -/
def newest (storage : MemoryMetricStorage) (m : Metric) (nGet : Nat) : List MetricValue :=
  (ringOf storage m).elim [] fun mr => lastValuesLoop nGet mr.r (startTime 0 mr.r)

/-- The series has that many newest samples, none newer than the one before it. -/
def Readable (storage : MemoryMetricStorage) (m : Metric) (n : Nat) : Prop :=
  ∃ mr, ringOf storage m = some mr ∧ Descends mr.r (startTime 0 mr.r) n

variable (storage : MemoryMetricStorage) (m : Metric)

/-- A walk over no sample needs no time to start with. -/
theorem lastValuesLoop_startTime (nGet : Nat) (r : Ring MetricValue) (now now' : Time) :
    lastValuesLoop nGet r (startTime now r) = lastValuesLoop nGet r (startTime now' r) := by
  cases nGet with
  | zero => rfl
  | succ nGet => cases held : r.value <;> simp [lastValuesLoop, startTime, held]

theorem getLastMetricValues_eq_newest (now : Time) (nGet : Nat) :
    MemoryStorage.getLastMetricValues now storage m 0 nGet = .ok (newest storage m nGet) := by
  cases ring : ringOf storage m with
  | none => simp [MemoryStorage.getLastMetricValues, newest, ring]
  | some mr =>
    rw [getLastMetricValues_of_ring now ring, newest, ring, Option.elim_some,
      Function.iterate_zero_apply, lastValuesLoop_startTime nGet mr.r now 0]

theorem take_lastValuesLoop (less more : Nat) (r : Ring MetricValue) (lastTime : Time)
    (le : less ≤ more) :
    (lastValuesLoop more r lastTime).take less = lastValuesLoop less r lastTime := by
  induction less generalizing more r lastTime with
  | zero => rfl
  | succ less ih =>
    obtain ⟨more, rfl⟩ := Nat.exists_eq_add_of_le' le
    rw [← Nat.add_assoc]
    unfold lastValuesLoop
    cases held : r.value with
    | none => rfl
    | some value =>
      by_cases newer : lastTime < value.time
      · simp [newer]
      · simp only [if_neg newer, List.take_succ_cons]
        rw [ih _ _ _ (Nat.le_add_left less more)]

/-- A smaller request gets the first of what a larger one gets. -/
theorem take_newest (le : less ≤ more) :
    (newest storage m more).take less = newest storage m less := by
  unfold newest
  cases ringOf storage m with
  | none => exact List.take_nil
  | some mr => exact take_lastValuesLoop less more mr.r _ le

theorem le_length_newest (n nGet : Nat) :
    n + 1 ≤ (newest storage m nGet).length ↔ n + 1 ≤ nGet ∧ Readable storage m (n + 1) := by
  unfold newest Readable
  cases ringOf storage m with
  | none => simp
  | some mr =>
    simp only [Option.elim_some, Option.some.injEq, exists_eq_left', le_length_lastValuesLoop]

/-- A larger request gets more exactly if there is more to read. -/
theorem length_newest_eq_iff (less more : Nat) (lt : less < more) :
    (newest storage m less).length = (newest storage m more).length ↔
      ¬ Readable storage m (less + 1) := by
  have enough := le_length_newest storage m less more
  rw [← take_newest storage m (Nat.le_of_lt lt), List.length_take]
  constructor
  · intro same readable
    have := enough.mpr ⟨lt, readable⟩
    omega
  · intro short
    have : ¬ less + 1 ≤ (newest storage m more).length := fun le => short (enough.mp le).2
    omega

/-- It makes no difference to a metric which of two numbers of samples it is
asked for: they are the same, or the series has no more than the smaller one to
read, or no rate can be derived from either. -/
def Indifferent (one other : Nat) : Prop :=
  one = other ∨ ¬ Readable storage m (min one other + 1) ∨
    m.getType = METRIC_DERIVE ∧ ¬ Derivable (newest storage m one) ∧
      ¬ Derivable (newest storage m other)

/-- What is made of the newest samples. -/
theorem valuesFor_memorySource (order : RingOrder) (now : Time) (nGet : UInt32) :
    valuesFor (memorySource order now storage) (m, nGet) =
      let values := newest storage m nGet.toNat
      if m.getType = METRIC_DERIVE then
        if Derivable values then some (List.zipWith (derived true) values values.tail) else none
      else some values := by
  have answer : (memorySource order now storage).getLastMetricValues m 0 nGet.toNat =
      .ok (newest storage m nGet.toNat) := getLastMetricValues_eq_newest storage m now nGet.toNat
  rw [valuesFor, answer]
  simp only [deriveMetricValues_toOption]

/-- Samples that differ only in how far they go back are the same if they are
as many. -/
theorem newest_eq_iff_length (one other : Nat) :
    newest storage m one = newest storage m other ↔
      (newest storage m one).length = (newest storage m other).length := by
  refine ⟨congrArg List.length, fun same => ?_⟩
  rcases Nat.le_total one other with le | le
  · have begins := take_newest storage m le
    rw [← begins] at same ⊢
    exact List.take_of_length_le (by rw [List.length_take] at same; omega)
  · have begins := take_newest storage m le
    rw [← begins] at same ⊢
    exact (List.take_of_length_le (by rw [List.length_take] at same; omega)).symm

theorem newest_eq_iff (one other : Nat) :
    newest storage m one = newest storage m other ↔
      one = other ∨ ¬ Readable storage m (min one other + 1) := by
  rw [newest_eq_iff_length]
  rcases Nat.lt_trichotomy one other with lt | rfl | lt
  · rw [length_newest_eq_iff storage m one other lt, Nat.min_eq_left (Nat.le_of_lt lt)]
    simp [Nat.ne_of_lt lt]
  · simp
  · rw [eq_comm, length_newest_eq_iff storage m other one lt, Nat.min_eq_right (Nat.le_of_lt lt)]
    simp [Nat.ne_of_gt lt]

/-- Rates tell how many samples they are derived from. -/
theorem length_of_rates (derivable : Derivable values) :
    (List.zipWith (derived true) values values.tail).length + 1 = values.length := by
  have several := derivable.1
  rw [List.length_zipWith, List.length_tail]
  omega

/-- Rates over two stretches of one series are the same exactly if the stretches
are, or there are no rates over either. -/
theorem rates_eq_iff {values values' : List MetricValue}
    (oneSeries : values = values' ↔ values.length = values'.length) :
    (if Derivable values then some (List.zipWith (derived true) values values.tail) else none) =
        (if Derivable values' then some (List.zipWith (derived true) values' values'.tail)
          else none) ↔
      values = values' ∨ ¬ Derivable values ∧ ¬ Derivable values' := by
  by_cases same : values = values'
  · simp [same]
  · by_cases first : Derivable values
    · by_cases second : Derivable values'
      · have apart : List.zipWith (derived true) values values.tail ≠
            List.zipWith (derived true) values' values'.tail := by
          intro rates
          have lengths := congrArg List.length rates
          have := length_of_rates first
          have := length_of_rates second
          exact same (oneSeries.mpr (by omega))
        simp [first, second, same, apart]
      · simp [first, second, same]
    · by_cases second : Derivable values' <;> simp [first, second, same]

theorem valuesFor_eq_iff (order order' : RingOrder) (now now' : Time) (one other : UInt32) :
    valuesFor (memorySource order now storage) (m, one) =
        valuesFor (memorySource order' now' storage) (m, other) ↔
      Indifferent storage m one.toNat other.toNat := by
  rw [valuesFor_memorySource, valuesFor_memorySource, Indifferent, ← or_assoc, ← newest_eq_iff]
  dsimp only
  by_cases derives : m.getType = METRIC_DERIVE
  · simp only [derives, if_true, true_and]
    exact rates_eq_iff (newest_eq_iff_length storage m _ _)
  · simp [derives]

/-! ## The orders of the storage's loop -/

/-- The number of samples asked for a metric behind so many derived ones. -/
def countBehind (nGet : UInt32) (extra : Nat) (m : Metric) : Nat := (askBehind nGet extra m).2.toNat

variable {storage}

/-- Another loop lists the metrics in another order, and every order is some loop's. -/
theorem listings (listing : RingOrder) (hostName : String) (metrics : List Metric) :
    metrics.Perm (MemoryStorage.getMetricsByHost listing storage hostName) ↔
      ∃ order, MemoryStorage.getMetricsByHost order storage hostName = metrics := by
  unfold MemoryStorage.getMetricsByHost
  cases hostMap storage hostName with
  | none =>
    constructor
    · intro perm
      exact ⟨listing, (List.perm_nil.mp perm).symm⟩
    · rintro ⟨_, rfl⟩
      exact List.Perm.refl _
  | some map =>
    constructor
    · exact listing.exists_filterMap map
    · rintro ⟨order, rfl⟩
      exact (GoMap.Order.perm order listing map).filterMap _

/-- The metrics of a host have names of their own. -/
theorem nodup_names (paired : Paired storage) (order : RingOrder) (hostName : String) :
    ((MemoryStorage.getMetricsByHost order storage hostName).map getMetricString).Nodup := by
  have names := MetricPaging.names_selected paired order ⟨0, 0, true, hostName⟩
  have same : MetricsEndpoint.selected order storage ⟨0, 0, true, hostName⟩ =
      MemoryStorage.getMetricsByHost order storage hostName := rfl
  rw [same] at names
  rw [names]
  exact MetricPaging.nodup_keys order _

/-- Whatever order the loop takes, and whenever, the map is the same. -/
def OrderDoesNotMatter (storage : MemoryMetricStorage) (hostName : String) (nGet : UInt32) : Prop :=
  ∀ order order' now now', fetchLastMetrics (memorySource order now storage) hostName nGet =
    fetchLastMetrics (memorySource order' now' storage) hostName nGet

theorem fetchLastMetrics_memorySource (order : RingOrder) (now : Time) (positive : nGet > 0) :
    fetchLastMetrics (memorySource order now storage) hostName nGet =
      .ok (entered (memorySource order now storage) nGet
        (MemoryStorage.getMetricsByHost order storage hostName)) := by
  rw [fetchLastMetrics_eq _ nGet rfl, requested, if_pos positive, entered]

/-- A map made of a storage's answers depends on the list of metrics only. -/
theorem entered_memorySource (order order' : RingOrder) (now now' : Time) (nGet : UInt32)
    (metrics : List Metric) :
    entered (memorySource order now storage) nGet metrics =
      entered (memorySource order' now' storage) nGet metrics := by
  unfold entered
  apply List.foldl_ext _ _ _
  intro map ask _
  rw [enter, enter, valuesFor_memorySource storage ask.1 order now ask.2,
    valuesFor_memorySource storage ask.1 order' now' ask.2]

/-- The storage's own orders are all orders of a list. -/
theorem orderDoesNotMatter_iff_perms (listing : RingOrder) (positive : nGet > 0) :
    OrderDoesNotMatter storage hostName nGet ↔
      ∀ first second, first.Perm (MemoryStorage.getMetricsByHost listing storage hostName) →
        second.Perm (MemoryStorage.getMetricsByHost listing storage hostName) →
        entered (memorySource listing 0 storage) nGet first =
          entered (memorySource listing 0 storage) nGet second := by
  constructor
  · intro same first second perm perm'
    obtain ⟨order, rfl⟩ := (listings listing hostName first).mp perm
    obtain ⟨order', rfl⟩ := (listings listing hostName second).mp perm'
    have maps := same order order' 0 0
    rw [fetchLastMetrics_memorySource order 0 positive,
      fetchLastMetrics_memorySource order' 0 positive, Except.ok.injEq] at maps
    rw [entered_memorySource listing order 0 0, maps, entered_memorySource order' listing 0 0]
  · intro same order order' now now'
    rw [fetchLastMetrics_memorySource order now positive,
      fetchLastMetrics_memorySource order' now' positive,
      entered_memorySource order listing now 0, entered_memorySource order' listing now' 0,
      same _ _ ((listings listing hostName _).mpr ⟨order, rfl⟩)
        ((listings listing hostName _).mpr ⟨order', rfl⟩)]

/-- **Only metrics that no count matters to are safe from the order.** The order
in which a host's metrics are listed makes no difference exactly if nothing is
asked for, or it makes no difference to any metric how many of the host's other
derived metrics raise the count before its turn. -/
theorem order_does_not_matter_iff (capacity : Nat) (history : List Addition) (hostName : String)
    (nGet : UInt32) (listing : RingOrder) :
    OrderDoesNotMatter (storageAfter capacity history) hostName nGet ↔
      nGet = 0 ∨
      let listed := MemoryStorage.getMetricsByHost listing (storageAfter capacity history) hostName
      ∀ m ∈ listed, ∀ extra ≤ derives (listed.erase m),
        Indifferent (storageAfter capacity history) m (countBehind nGet 0 m)
          (countBehind nGet extra m) := by
  have paired := paired_storageAfter capacity history
  generalize storageAfter capacity history = storage at paired
  dsimp only
  by_cases zero : nGet = 0
  · subst zero
    refine iff_of_true ?_ (.inl rfl)
    intro order order' now now'
    rfl
  · have positive : nGet > 0 := UInt32.pos_iff_ne_zero.mpr zero
    have distinct := nodup_names paired listing hostName
    rw [orderDoesNotMatter_iff_perms listing positive, orders_agree_iff _ distinct,
      or_iff_right zero]
    exact forall₂_congr fun m _ => forall₂_congr fun extra _ =>
      valuesFor_eq_iff storage m listing listing 0 0 _ _

/-- Three samples of a gauge, and a derived series beside it. -/
def gaugeAndDerive : List Addition :=
  ([1, 2, 3].map fun t => (coreTraffic, sampleAt t)) ++
    [(⟨"Collectd", "core", [("host", "core")], "octets", METRIC_DERIVE, 0⟩, sampleAt 3)]

/-- Asked for one more than one sample of the gauge, the storage brings two; if
the derived series is listed first it brings three. -/
theorem derived_series_lengthens_gauge :
    ¬ ∀ (capacity : Nat) (history : List Addition) (hostName : String) (nGet : UInt32),
      history.length + nGet.toNat + 1 ≤ capacity →
        OrderDoesNotMatter (storageAfter capacity history) hostName nGet := by
  intro claimed
  obtain ⟨listing, _⟩ := GoMap.exists_order (∅ : RingMap) [] rfl
  let octets : Metric := ⟨"Collectd", "core", [("host", "core")], "octets", METRIC_DERIVE, 0⟩
  let storage := storageAfter 8 gaugeAndDerive
  let listed := MemoryStorage.getMetricsByHost listing storage "core"
  have gauge : coreTraffic ∈ listed :=
    mem_getMetricsByHost.mpr ⟨getMetricString coreTraffic, 0, by decide, by decide⟩
  have derive : octets ∈ listed :=
    mem_getMetricsByHost.mpr ⟨getMetricString octets, 1, by decide, by decide⟩
  have behind : 1 ≤ derives (listed.erase coreTraffic) :=
    List.countP_pos_iff.mpr ⟨octets, (List.mem_erase_of_ne (by decide)).mpr derive, by decide⟩
  have distinct := nodup_names (paired_storageAfter 8 gaugeAndDerive) listing "core"
  have agree := (orderDoesNotMatter_iff_perms listing (by decide)).mp
    (claimed 8 gaugeAndDerive "core" 1 (by decide))
  have same := (orders_agree_iff listed distinct).mp agree coreTraffic gauge 1 behind
  rcases (valuesFor_eq_iff storage coreTraffic listing listing 0 0 _ _).mp same with
    equal | short | underivable
  · revert equal
    decide
  · exact short ((le_length_newest storage coreTraffic 2 3).mp (by decide)).2
  · exact absurd underivable.1 (by decide)

end NetGraphz.FetchOrderProofs
