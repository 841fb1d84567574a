import NetGraphz.Collectd
import NetGraphz.MetricPaging
import NetGraphz.RpcFormater

/-! The kinds that the backend reports: of a metric, as it was first written, and
of each of its values. The two messages number their kinds alike, but only the
kind of a value is moved to that numbering. -/
namespace NetGraphz.MetricKinds
open Collectd Metrics MemoryStorage MemoryStorageProofs HostIndexProofs MetricsEndpoint
open MetricPaging RpcFormater

/-- The kinds of `ng_backend.proto`, for metrics and for values. -/
inductive Kind where
  | gauge
  | derive
  | counter
  | other
  deriving DecidableEq

/-- The kind that a number stands for on the wire. -/
def kindOf (number : Int32) : Option Kind :=
  if number = 1 then some .gauge
  else if number = 2 then some .derive
  else if number = 3 then some .counter
  else if number = 4 then some .other
  else none

/-- Both numbers stand for one kind. -/
def SameKind (number number' : Int32) : Prop :=
  ∃ kind, kindOf number = some kind ∧ kindOf number' = some kind

/-- The message has the value field of this kind and no other. -/
def OnlyFilled (val : MetricVal) : Kind → Prop
  | .gauge => val.gaugeValue.isSome ∧ val.deriveValue = none ∧ val.counterValue = none ∧
      val.otherValue = none
  | .derive => val.gaugeValue = none ∧ val.deriveValue.isSome ∧ val.counterValue = none ∧
      val.otherValue = none
  | .counter => val.gaugeValue = none ∧ val.deriveValue = none ∧ val.counterValue.isSome ∧
      val.otherValue = none
  | .other => val.gaugeValue = none ∧ val.deriveValue = none ∧ val.counterValue = none ∧
      val.otherValue.isSome

/-! ## What collectd writes -/

/-- One call of `Write`. -/
structure Writing (S : Type) where
  source : CollectdMetricSource S
  vl : ValueList

variable {S : Type} [DecidableEq S]

/-- What the calls add to one of the storages. -/
def additionsTo (dsName : ValueList → Nat → String) (s : S) (writes : List (Writing S)) :
    List Addition :=
  writes.flatMap fun writing =>
    ((write dsName writing.source writing.vl).filter fun call => call.1 = s).map
      fun call => (call.2.1.toMetric, call.2.2)

/-- Only derive, gauge and counter values are written. -/
def KnownTypes (writes : List (Writing S)) : Prop :=
  ∀ writing ∈ writes, ApiValue.other ∉ writing.vl.values

/-- The kind of a sample and the dynamic type of its value go together. -/
def WellTyped (sample : MetricValue) : Prop :=
  (sample.kind = METRIC_GAUGE ∧ ∃ bits, sample.value = .float64 bits) ∨
    (sample.kind = METRIC_DERIVE ∧ ∃ v, sample.value = .int64 v) ∨
    sample.kind = METRIC_COUNTER ∧ ∃ v, sample.value = .uint64 v

/-- A sample is typed as its metric is, by the value that was written. -/
theorem sampleOf_typed (dsName : ValueList → Nat → String) (vl : ValueList)
    (known : entry.1 ≠ .other) :
    (sampleOf dsName vl entry).1.dataType = (sampleOf dsName vl entry).2.kind ∧
      WellTyped (sampleOf dsName vl entry).2 := by
  obtain ⟨val, i⟩ := entry
  cases val with
  | gauge bits => exact ⟨rfl, .inl ⟨rfl, bits, rfl⟩⟩
  | derive v => exact ⟨rfl, .inr (.inl ⟨rfl, v, rfl⟩)⟩
  | counter v => exact ⟨rfl, .inr (.inr ⟨rfl, v, rfl⟩)⟩
  | other => exact absurd rfl known

variable {writes : List (Writing S)} {s : S}

omit [DecidableEq S] in
/-- What is added is a sample of the value list. -/
theorem mem_write {call : S × CollectdMetric × MetricValue} (member : call ∈ write dsName source vl) : call.2 ∈ samples dsName vl := by
  obtain ⟨s, _, member⟩ := List.mem_flatMap.mp member
  obtain ⟨sample, sampled, repeated⟩ := List.mem_flatMap.mp member
  obtain ⟨_, rfl⟩ := List.mem_replicate.mp repeated
  exact sampled

theorem additions_typed (known : KnownTypes writes)
    (member : entry ∈ additionsTo dsName s writes) :
    entry.1.getType = entry.2.kind ∧ WellTyped entry.2 := by
  obtain ⟨writing, written, member⟩ := List.mem_flatMap.mp member
  obtain ⟨call, called, rfl⟩ := List.mem_map.mp member
  obtain ⟨value, listed, same⟩ := List.mem_map.mp (mem_write (List.mem_filter.mp called).1)
  have type : value.1 ≠ .other := by
    intro unknown
    exact known writing written (unknown ▸ List.fst_mem_of_mem_zipIdx listed)
  rw [← same]
  exact sampleOf_typed dsName writing.vl type

/-! ## What is stored and reported -/

variable {history : List Addition}

/-- A stored metric is the first that was added under its string. -/
theorem stored_is_first {order : RingOrder}
    (stored : m ∈ MemoryStorage.getAllMetrics order (storageAfter capacity history)) :
    createdWith history (getMetricString m) = some m := by
  obtain ⟨key, mr, entered, created⟩ := mem_getAllMetrics.mp stored
  obtain ⟨m', created', name, _⟩ := (paired_storageAfter capacity history).listed entered
  rw [created, Option.some.injEq] at created'
  subst created'
  rw [name, ← ring_createdWith capacity history key, entered, Option.bind_some, created]

theorem mem_of_createdWith (first : createdWith history key = some m) :
    ∃ val, (m, val) ∈ history := by
  obtain ⟨entry, found, rfl⟩ := Option.map_eq_some_iff.mp first
  exact ⟨entry.2, List.mem_of_find?_eq_some found⟩

theorem mem_of_retained (member : value ∈ retained capacity history m) :
    ∃ m', (m', value) ∈ history := by
  have arrived : value ∈ received history m := List.mem_reverse.mp (List.mem_of_mem_take member)
  obtain ⟨entry, ofMetric, rfl⟩ := List.mem_map.mp arrived
  exact ⟨entry.1, (List.mem_filter.mp ofMetric).1⟩

/-- What is sent describes one of the metrics. -/
theorem mem_sendLoop {ms : List Metric}
    (sent : out ∈ sendLoop now store req nSkipCounter nTakeCounter ms) :
    ∃ m ∈ ms, describe now store m = .ok out := by
  induction ms generalizing nSkipCounter nTakeCounter with
  | nil => simp [sendLoop] at sent
  | cons m rest ih =>
    unfold sendLoop at sent
    split at sent
    · obtain ⟨m', member, described⟩ := ih sent
      exact ⟨m', List.mem_cons_of_mem _ member, described⟩
    · split at sent
      · simp at sent
      · cases answer : describe now store m with
        | error err =>
          rw [answer] at sent
          obtain ⟨m', member, described⟩ := ih sent
          exact ⟨m', List.mem_cons_of_mem _ member, described⟩
        | ok own =>
          rw [answer] at sent
          rcases List.mem_cons.mp sent with rfl | sent
          · exact ⟨m, List.mem_cons_self, answer⟩
          · obtain ⟨m', member, described⟩ := ih sent
            exact ⟨m', List.mem_cons_of_mem _ member, described⟩

/-- A request for everything is sent all that can be described. -/
theorem sendLoop_all {ms : List Metric} (member : m ∈ ms) (described : describe now store m = .ok out)
    (nTakeCounter : Int) :
    out ∈ sendLoop now store ⟨0, -1, false, ""⟩ 0 nTakeCounter ms := by
  induction ms generalizing nTakeCounter with
  | nil => simp at member
  | cons first rest ih =>
    have unlimited : ¬ ((-1 : Int) ≥ 0 ∧ nTakeCounter = -1) := by omega
    have reached : ¬ (0 : Int) < 0 := Int.lt_irrefl 0
    simp only [sendLoop, if_neg reached, if_neg unlimited]
    rcases List.mem_cons.mp member with rfl | member
    · rw [described]
      exact List.mem_cons_self
    · cases describe now store first with
      | error err => exact ih member nTakeCounter
      | ok own => exact List.mem_cons_of_mem _ (ih member (nTakeCounter + 1))

/-- The kind of a description is the bare data type. -/
theorem describe_kind (described : describe now store m = .ok out) :
    out.kind = m.getType.toInt32 ∧ out.name = getMetricString m := by
  unfold describe at described
  cases counted : countValues store m with
  | error err =>
    rw [counted] at described
    cases described
  | ok count =>
    cases read : getLastMetricValue now store m with
    | error err =>
      rw [counted, read] at described
      cases described
    | ok lastValue =>
      rw [counted, read] at described
      cases described
      exact ⟨rfl, rfl⟩

/-- The kind that is reported of a metric, whatever is asked for, is its type. -/
theorem reported_kind_iff {order : RingOrder}
    (stored : m ∈ MemoryStorage.getAllMetrics order (storageAfter capacity history))
    (holds : Int32 → Prop) :
    (∀ order now req, ∀ out ∈ MetricsEndpoint.getAllMetrics order now (storageAfter capacity history)
        req, out.name = getMetricString m → holds out.kind) ↔ holds m.getType.toInt32 := by
  constructor
  · intro reported
    obtain ⟨key, mr, entered, created⟩ := mem_getAllMetrics.mp stored
    obtain ⟨m', created', rfl, _⟩ := (paired_storageAfter capacity history).listed entered
    rw [created, Option.some.injEq] at created'
    subst created'
    obtain ⟨ring, read, _⟩ := Option.map_eq_some_iff.mp created
    have ofMetric : ringOf (storageAfter capacity history) m = some ring := by
      simp [ringOf, entered, read]
    obtain ⟨out, described, name⟩ := describe_of_known 0 ofMetric
    rw [← (describe_kind described).1]
    exact reported order 0 ⟨0, -1, false, ""⟩ out (sendLoop_all stored described 0) name
  · intro held order' now req out sent name
    obtain ⟨m', listed, described⟩ := mem_sendLoop sent
    obtain ⟨kind, own⟩ := describe_kind described
    have first : createdWith history (getMetricString m') = some m' := by
      rw [selected_eq] at listed
      obtain ⟨key, mr, entered, created⟩ := mem_metricsOf.mp listed
      have known := known_of_selected (paired_storageAfter capacity history) entered
      have stored' : m' ∈ MemoryStorage.getAllMetrics order' (storageAfter capacity history) :=
        mem_getAllMetrics.mpr ⟨key, mr, known, created⟩
      exact stored_is_first stored'
    rw [← own, name, stored_is_first stored] at first
    cases first
    rw [kind]
    exact held

/-! ## The two kinds -/

/-- The message of a value has the field of the value's kind and no other, so
that it was not recovered from a panic. -/
def FilledByKind (value : MetricValue) : Prop :=
  ∃ kind, kindOf (metricValueToRpc value).kind = some kind ∧
    OnlyFilled (metricValueToRpc value) kind

theorem filledByKind_of_typed (typed : WellTyped value) : FilledByKind value := by
  obtain ⟨name, time, kind, valueType, val⟩ := value
  rcases typed with ⟨rfl, bits, rfl⟩ | ⟨rfl, v, rfl⟩ | ⟨rfl, v, rfl⟩
  · exact ⟨.gauge, rfl, rfl, rfl, rfl, rfl⟩
  · exact ⟨.derive, rfl, rfl, rfl, rfl, rfl⟩
  · exact ⟨.counter, rfl, rfl, rfl, rfl, rfl⟩

/-- The kind of a value's message is one more than its data type. -/
theorem metricValueToRpc_kind (typed : WellTyped value) :
    (metricValueToRpc value).kind = (value.kind + 1).toInt32 := by
  obtain ⟨name, time, kind, valueType, val⟩ := value
  rcases typed with ⟨rfl, bits, rfl⟩ | ⟨rfl, v, rfl⟩ | ⟨rfl, v, rfl⟩ <;> rfl

/-- The two numbers stand for one kind only where they are the same. -/
theorem sameKind_iff (typed : WellTyped value) (typed' : WellTyped first) :
    SameKind first.kind.toInt32 (metricValueToRpc value).kind ↔ value.kind + 1 = first.kind := by
  rw [metricValueToRpc_kind typed, SameKind]
  rcases typed with ⟨kind, _⟩ | ⟨kind, _⟩ | ⟨kind, _⟩ <;>
    rcases typed' with ⟨kind', _⟩ | ⟨kind', _⟩ | ⟨kind', _⟩ <;>
    rw [kind, kind'] <;> simp +decide

/-- What the backend owes for a stored metric: the kind that any request is told
of it is the kind put on each of its retained values, and each value is sent in
the field of its kind. -/
structure KindsAgree (capacity : Nat) (history : List Addition) (m : Metric) : Prop where
  same : ∀ value ∈ retained capacity history m, ∀ order now req,
    ∀ out ∈ MetricsEndpoint.getAllMetrics order now (storageAfter capacity history) req,
      out.name = getMetricString m → SameKind out.kind (metricValueToRpc value).kind
  filled : ∀ value ∈ retained capacity history m, FilledByKind value

section
variable (known : KnownTypes writes)
include known

theorem retained_typed (member : value ∈ retained capacity (additionsTo dsName s writes) m) :
    WellTyped value := by
  obtain ⟨m', added⟩ := mem_of_retained member
  exact (additions_typed known added).2

/-- What is reported of a metric goes with a value of it only if their data types
are neighbours. -/
theorem reported_same_iff {order : RingOrder}
    (stored : m ∈ MemoryStorage.getAllMetrics order
      (storageAfter capacity (additionsTo dsName s writes)))
    (member : value ∈ retained capacity (additionsTo dsName s writes) m) :
    (∀ order now req, ∀ out ∈ MetricsEndpoint.getAllMetrics order now
        (storageAfter capacity (additionsTo dsName s writes)) req, out.name = getMetricString m →
          SameKind out.kind (metricValueToRpc value).kind) ↔ value.kind + 1 = m.getType := by
  obtain ⟨first, added⟩ := mem_of_createdWith (stored_is_first stored)
  obtain ⟨type, typedFirst⟩ := additions_typed known added
  rw [reported_kind_iff stored fun kind => SameKind kind (metricValueToRpc value).kind, type]
  exact sameKind_iff (retained_typed known member) typedFirst

/-- **The kinds agree only by accident.** Whatever collectd wrote, they agree for
a stored metric exactly if every retained value is of the data type whose number
is one less than that of the metric, which is that of its first value. -/
theorem kinds_agree_iff (order : RingOrder)
    (stored : m ∈ MemoryStorage.getAllMetrics order
      (storageAfter capacity (additionsTo dsName s writes))) :
    KindsAgree capacity (additionsTo dsName s writes) m ↔
      ∀ value ∈ retained capacity (additionsTo dsName s writes) m, value.kind + 1 = m.getType := by
  constructor
  · intro agree value member
    exact (reported_same_iff known stored member).mp (agree.same value member)
  · intro accident
    refine ⟨fun value member => ?_, fun value member => filledByKind_of_typed (retained_typed known member)⟩
    exact (reported_same_iff known stored member).mpr (accident value member)

/-- A series with a value of its own data type is reported with a wrong kind. -/
theorem steady_series_disagrees (order : RingOrder)
    (stored : m ∈ MemoryStorage.getAllMetrics order
      (storageAfter capacity (additionsTo dsName s writes)))
    (kept : value ∈ retained capacity (additionsTo dsName s writes) m)
    (steady : value.kind = m.getType) :
    ¬ KindsAgree capacity (additionsTo dsName s writes) m := by
  intro agree
  have next := (reported_same_iff known stored kept).mp (agree.same value kept)
  rw [← steady] at next
  revert next
  rcases retained_typed known kept with ⟨kind, _⟩ | ⟨kind, _⟩ | ⟨kind, _⟩ <;>
    rw [kind] <;> decide

end

/-- One value of the host's load. -/
def loadWrite (time : Time) (val : ApiValue) : Writing Unit :=
  ⟨⟨[()], false, []⟩, ⟨⟨"core", "load", "", "load", ""⟩, time, 10, [val], []⟩⟩

/-- The metric of the load, of some data type. -/
def load (type : MetricDataType) : Metric :=
  CollectdMetric.toMetric ⟨⟨"core", "load", "", "load", ""⟩, "value", type, 10⟩

theorem loadWrites_known (first second : Time) (v : Int64) (bits : UInt64) :
    KnownTypes [loadWrite first (.derive v), loadWrite second (.gauge bits)] := by
  intro writing member
  rcases List.mem_pair.mp member with rfl | rfl <;> simp [loadWrite]

/-- A series that began with a derived value and keeps a gauge. -/
theorem changed_series_agrees :
    KindsAgree 1 (additionsTo (fun _ _ => "value") ()
      [loadWrite 1 (.derive 7), loadWrite 2 (.gauge 0)]) (load METRIC_DERIVE) := by
  obtain ⟨order, _⟩ := GoMap.exists_order (∅ : RingMap) [] rfl
  have stored : load METRIC_DERIVE ∈ MemoryStorage.getAllMetrics order (storageAfter 1
      (additionsTo (fun _ _ => "value") () [loadWrite 1 (.derive 7), loadWrite 2 (.gauge 0)])) :=
    mem_getAllMetrics.mpr ⟨getMetricString (load METRIC_DERIVE), 0, by decide, by decide⟩
  exact (kinds_agree_iff (loadWrites_known 1 2 7 0) order stored).mpr (by decide)

/-- A gauge is reported with the number 0, which stands for no kind. -/
theorem gauge_is_reported_without_kind :
    ¬ ∀ (dsName : ValueList → Nat → String) (s : Unit) (writes : List (Writing Unit)) (capacity : Nat)
      (m : Metric) (order : RingOrder), KnownTypes writes →
      m ∈ MemoryStorage.getAllMetrics order (storageAfter capacity (additionsTo dsName s writes)) →
        KindsAgree capacity (additionsTo dsName s writes) m := by
  intro claimed
  obtain ⟨order, _⟩ := GoMap.exists_order (∅ : RingMap) [] rfl
  have known : KnownTypes [loadWrite 1 (.gauge 0)] := by
    intro writing member
    rw [List.mem_singleton.mp member]
    simp [loadWrite]
  have stored : load METRIC_GAUGE ∈ MemoryStorage.getAllMetrics order (storageAfter 1
      (additionsTo (fun _ _ => "value") () [loadWrite 1 (.gauge 0)])) :=
    mem_getAllMetrics.mpr ⟨getMetricString (load METRIC_GAUGE), 0, by decide, by decide⟩
  have kept : (⟨"value", 1, METRIC_GAUGE, "float64", .float64 0⟩ : MetricValue) ∈ retained 1
      (additionsTo (fun _ _ => "value") () [loadWrite 1 (.gauge 0)]) (load METRIC_GAUGE) := by decide
  exact steady_series_disagrees known order stored kept rfl
    (claimed (fun _ _ => "value") () [loadWrite 1 (.gauge 0)] 1 (load METRIC_GAUGE) order known stored)

end NetGraphz.MetricKinds
