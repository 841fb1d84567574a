import Mathlib
import NetGraphz.Base.Keyed
import NetGraphz.Base.Separators
import NetGraphz.Collectd
import NetGraphz.HostIndexProofs

/-! Metric strings as names of series. Their fields are joined as they come, so
that a field can pass for another one's separator. -/
namespace NetGraphz.MetricStringProofs
open Metrics MemoryStorage MemoryStorageProofs HostIndexProofs Collectd

/-- The order in which the criterias map is met does not matter. -/
theorem getMetricString_of_perm {m m' : Metric} (app : m.getAppName = m'.getAppName)
    (name : m.getMeasurementName = m'.getMeasurementName)
    (distinct : (m.getCriterias.map Prod.fst).Nodup)
    (perm : m.getCriterias.Perm m'.getCriterias) : getMetricString m = getMetricString m' := by
  have keys : (m.getCriterias.map Prod.fst).insertionSort (· ≤ ·) =
      (m'.getCriterias.map Prod.fst).insertionSort (· ≤ ·) := by
    apply List.Perm.eq_of_sortedLE
    · exact List.sortedLE_insertionSort
    · exact List.sortedLE_insertionSort
    · exact ((List.perm_insertionSort _ _).trans (perm.map _)).trans (List.perm_insertionSort _ _).symm
  have values (key : String) : criteria m.getCriterias key = criteria m'.getCriterias key := by
    rw [criteria, criteria, Keyed.lookup_perm perm distinct]
  simp only [getMetricString, app, name, keys, values]

/-- The criterias of a metric string, each behind its separator. -/
def criteriaFields (metric : CollectdMetric) : List (List Char × List Char) :=
  [(";host=".toList, metric.identifier.host.toList),
    (";plugin=".toList, metric.identifier.plugin.toList),
    (";plugin_instance=".toList, metric.identifier.pluginInstance.toList),
    (";type=".toList, metric.identifier.type.toList),
    (";type_instance=".toList, metric.identifier.typeInstance.toList)]

theorem toList_getMetricString (metric : CollectdMetric) :
    (getMetricString metric.toMetric).toList =
      "Collectd/".toList ++ Separators.join metric.dsName.toList (criteriaFields metric) := by
  have keys : (["host", "plugin", "plugin_instance", "type", "type_instance"] : List String).insertionSort
      (· ≤ ·) = ["host", "plugin", "plugin_instance", "type", "type_instance"] := by decide
  simp [getMetricString, CollectdMetric.toMetric, CollectdMetric.getCriterias, keys, criteria,
    criteriaFields, Separators.join, List.lookup]

theorem readable_separators (metric : CollectdMetric) :
    Separators.Readable ';' ((criteriaFields metric).map Prod.fst) where
  marked := by
    intro separator member
    simp only [criteriaFields, List.map_cons, List.map_nil, List.mem_cons, List.not_mem_nil,
      or_false] at member
    rcases member with rfl | rfl | rfl | rfl | rfl
    all_goals exact ⟨_, rfl, by decide⟩
  apart := by
    simp [criteriaFields]

/-- The same data source of the same identifier. -/
def SameSeries (metric other : CollectdMetric) : Prop :=
  metric.identifier = other.identifier ∧ metric.dsName = other.dsName

/-- No field of the metric contains a separator that stands next to it. -/
def Separable (metric : CollectdMetric) : Prop :=
  Separators.Clear metric.dsName.toList (criteriaFields metric)

theorem getMetricString_eq_iff (metric other : CollectdMetric) :
    getMetricString other.toMetric = getMetricString metric.toMetric ↔
      Separators.join other.dsName.toList (criteriaFields other) =
        Separators.join metric.dsName.toList (criteriaFields metric) := by
  rw [← String.toList_inj, toList_getMetricString, toList_getMetricString, List.append_right_inj]

theorem sameSeries_iff (metric other : CollectdMetric) :
    SameSeries other metric ↔
      other.dsName.toList = metric.dsName.toList ∧ criteriaFields other = criteriaFields metric := by
  obtain ⟨⟨host, plugin, pluginInstance, type, typeInstance⟩, dsName, _, _⟩ := metric
  obtain ⟨⟨host', plugin', pluginInstance', type', typeInstance'⟩, dsName', _, _⟩ := other
  simp only [SameSeries, Identifier.mk.injEq, criteriaFields, List.cons.injEq, Prod.mk.injEq,
    String.toList_inj, true_and, and_true]
  exact and_comm

/-- Any fields behind the same separators are those of some metric. -/
theorem exists_metric (metric : CollectdMetric) (first : List Char)
    (rest : List (List Char × List Char))
    (separators : rest.map Prod.fst = (criteriaFields metric).map Prod.fst) :
    ∃ other : CollectdMetric, other.dsName.toList = first ∧ criteriaFields other = rest := by
  obtain ⟨⟨s₁, host⟩, ⟨s₂, plugin⟩, ⟨s₃, pluginInstance⟩, ⟨s₄, type⟩, ⟨s₅, typeInstance⟩, rfl⟩ :
      ∃ a b c d e, rest = [a, b, c, d, e] := by
    have length := congrArg List.length separators
    simp only [List.length_map, criteriaFields, List.length_cons, List.length_nil] at length
    match rest, length with
    | [a, b, c, d, e], _ => exact ⟨a, b, c, d, e, rfl⟩
  simp only [List.map_cons, List.map_nil, criteriaFields, List.cons.injEq, and_true] at separators
  obtain ⟨rfl, rfl, rfl, rfl, rfl⟩ := separators
  exact ⟨⟨⟨.ofList host, .ofList plugin, .ofList pluginInstance, .ofList type,
    .ofList typeInstance⟩, .ofList first, 0, 0⟩, by simp [criteriaFields]⟩

/-- **A metric string names one series exactly if its fields are separable.** -/
theorem separable_iff_identified (metric : CollectdMetric) :
    Separable metric ↔ ∀ other : CollectdMetric,
      getMetricString other.toMetric = getMetricString metric.toMetric → SameSeries other metric := by
  rw [Separable, Separators.clear_iff_unique (readable_separators metric)]
  simp only [getMetricString_eq_iff, sameSeries_iff]
  constructor
  · intro unique other same
    exact unique _ _ rfl same
  · intro identified field rest separators same
    obtain ⟨other, rfl, rfl⟩ := exists_metric metric field rest separators
    exact identified other same

/-! ## Series in the storage -/

/-- The history of a storage that collectd metrics are added to. -/
def collected (history : List (CollectdMetric × MetricValue)) : List Addition :=
  history.map fun entry => (entry.1.toMetric, entry.2)

/-- What a metric string is good for: it tells the metric from every other one,
so that no other's values come into its ring, and the metric is listed for its
own host only. -/
structure OneSeries (metric : CollectdMetric) : Prop where
  identified : ∀ other : CollectdMetric,
    getMetricString other.toMetric = getMetricString metric.toMetric → SameSeries other metric
  filed : ∀ capacity history other mr, other ∈ history.map Prod.fst →
    let storage := storageAfter capacity (collected history)
    storage.rings.lookup (getMetricString other.toMetric) = some mr →
      storage.rings.lookup (getMetricString metric.toMetric) = some mr → SameSeries other metric
  listed : ∀ capacity history order host,
    metric.toMetric ∈ getMetricsByHost order (storageAfter capacity (collected history)) host →
      host = metric.identifier.host

/-- **One series, one ring.** A metric has a metric string, a ring and a host
listing for itself exactly if no field of it contains a separator next to it. -/
theorem one_series_iff (metric : CollectdMetric) : OneSeries metric ↔ Separable metric := by
  rw [separable_iff_identified]
  constructor
  · exact fun series => series.identified
  · intro identified
    refine ⟨identified, ?_, ?_⟩
    · intro capacity history other mr _ storage filed own
      have paired : Paired storage := paired_storageAfter capacity _
      obtain ⟨m, created, keyed, _⟩ := paired.listed filed
      obtain ⟨m', created', keyed', _⟩ := paired.listed own
      rw [created, Option.some.injEq] at created'
      exact identified other (keyed.symm.trans (created' ▸ keyed'))
    · intro capacity history order host member
      obtain ⟨key, mr, entered, created⟩ := mem_getMetricsByHost.mp member
      have paired := paired_storageAfter capacity (collected history)
      obtain ⟨m, created', keyed, _⟩ := paired.listed (paired.shared entered)
      rw [created, Option.some.injEq] at created'
      have added := (hostEntry_isSome_iff capacity (collected history) host key).mp (by rw [entered]; rfl)
      obtain ⟨entry, inHistory, isHost, sameKey⟩ := added
      obtain ⟨⟨other, val⟩, _, rfl⟩ := List.mem_map.mp inHistory
      have same : SameSeries other metric := identified other (sameKey.trans (created' ▸ keyed).symm)
      rw [← isHost, ← same.1]
      rfl

/-- Two hosts with one metric string. -/
def splitHost : CollectdMetric := ⟨⟨"a", "b;plugin=c", "", "if_octets", "rx"⟩, "value", 0, 0⟩

def mergedHost : CollectdMetric := ⟨⟨"a;plugin=b", "c", "", "if_octets", "rx"⟩, "value", 0, 0⟩

theorem hosts_share_a_metric_string :
    ¬ ∀ metric other : CollectdMetric,
      getMetricString other.toMetric = getMetricString metric.toMetric → SameSeries other metric := by
  intro claimed
  have same : getMetricString mergedHost.toMetric = getMetricString splitHost.toMetric := by
    rw [getMetricString_eq_iff]
    decide
  have hosts := congrArg Identifier.host (claimed splitHost mergedHost same).1
  exact absurd hosts (by decide)

end NetGraphz.MetricStringProofs
