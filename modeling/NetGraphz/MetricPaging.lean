import NetGraphz.Base.ShuffledPages
import NetGraphz.HostIndexProofs
import NetGraphz.MetricsEndpoint

/-! Paging through the metrics. Every page is cut from a map that Go enumerates
anew, in an order of its own. -/
namespace NetGraphz.MetricPaging
open Metrics MemoryStorage MemoryStorageProofs HostIndexProofs MetricsEndpoint ShuffledPages

variable {store : MemoryMetricStorage} {m : Metric} {ms : List Metric}

/-- All of the metrics can be described. -/
def Described (now : Time) (store : MemoryMetricStorage) (ms : List Metric) : Prop :=
  ∀ m ∈ ms, ∃ out, describe now store m = .ok out ∧ out.name = getMetricString m

/-- Past the skipped ones, the loop sends the metrics up to the count to take. -/
theorem names_sendLoop (req : AllMetricsRequest) (positive : 0 ≤ req.nTake)
    (nSkipCounter nTakeCounter : Int) (within : nTakeCounter ≤ req.nTake)
    (described : Described now store ms) :
    (sendLoop now store req nSkipCounter nTakeCounter ms).map RpcMetric.name =
      ((ms.map getMetricString).drop (req.nSkip - nSkipCounter).toNat).take
        (req.nTake - nTakeCounter).toNat := by
  induction ms generalizing nSkipCounter nTakeCounter with
  | nil => simp [sendLoop]
  | cons m rest ih =>
    have later : Described now store rest := fun m member => described m (List.mem_cons_of_mem _ member)
    obtain ⟨out, answer, name⟩ := described m List.mem_cons_self
    unfold sendLoop
    split
    · rename_i skipped
      obtain ⟨skips, next⟩ : ∃ skips, (req.nSkip - nSkipCounter).toNat = skips + 1 ∧
          (req.nSkip - (nSkipCounter + 1)).toNat = skips := ⟨_, by omega, rfl⟩
      rw [ih (nSkipCounter + 1) nTakeCounter within later, next.1, next.2]
      rfl
    · rename_i reached
      have start : (req.nSkip - nSkipCounter).toNat = 0 := by omega
      split
      · rename_i full
        have none : (req.nTake - nTakeCounter).toNat = 0 := by omega
        simp [none]
      · rename_i room
        obtain ⟨takes, next⟩ : ∃ takes, (req.nTake - nTakeCounter).toNat = takes + 1 ∧
            (req.nTake - (nTakeCounter + 1)).toNat = takes := ⟨_, by omega, rfl⟩
        simp only [answer, List.map_cons]
        rw [ih nSkipCounter (nTakeCounter + 1) (by omega) later, start, next.1, next.2, name]
        rfl

/-- Metrics that have a ring can be described. -/
theorem describe_of_known (now : Time) (known : ringOf store m = some mr) :
    ∃ out, describe now store m = .ok out ∧ out.name = getMetricString m := by
  obtain ⟨count, counted⟩ : ∃ count, countValues store m = .ok count :=
    ⟨mr.r.countBack store.capacity, by simp only [countValues, known]⟩
  obtain ⟨lastValue, read⟩ : ∃ lastValue, getLastMetricValue now store m = .ok lastValue := by
    simp only [getLastMetricValue, getLastMetricValues, known]
    exact ⟨_, rfl⟩
  refine ⟨⟨getMetricString m, m.getType.toInt32, count,
    (lastValue.elim zeroTime MetricValue.time).unix⟩, ?_, rfl⟩
  rw [describe, counted, read]
  rfl

/-! ## What is selected -/

/-- The map of rings that a request is answered from. -/
def selectedMap (store : MemoryMetricStorage) (filterHostName : Bool) (hostName : String) : RingMap :=
  if filterHostName then (hostMap store hostName).getD ∅ else store.rings

theorem selected_eq (order : RingOrder) (store : MemoryMetricStorage) (req : AllMetricsRequest) :
    selected order store req =
      metricsOf store.ringCells (order.entries (selectedMap store req.filterHostName req.hostName)) := by
  unfold selected selectedMap
  split
  · unfold getMetricsByHost
    cases hostMap store req.hostName with
    | some map => rfl
    | none =>
      have empty : order.entries ∅ = [] := by
        rw [← List.length_eq_zero_iff, GoMap.Order.length_entries]
        rfl
      simp [metricsOf, empty]
  · rfl

/-- Whatever is selected is a ring of the storage. -/
theorem known_of_selected (paired : Paired store)
    (entered : (selectedMap store filterHostName hostName).lookup key = some mr) :
    store.rings.lookup key = some mr := by
  unfold selectedMap at entered
  split at entered
  · apply paired.shared
    rw [hostEntry]
    cases map : hostMap store hostName with
    | none => simp [map] at entered
    | some map' =>
      rw [map] at entered
      exact entered
  · exact entered

theorem names_metricsOf {entries : List (Sigma fun _ : String => Ref)}
    (created : ∀ entry ∈ entries, ∃ m, metricAt store entry.2 = some m ∧ getMetricString m = entry.1) :
    (metricsOf store.ringCells entries).map getMetricString = entries.map Sigma.fst := by
  induction entries with
  | nil => rfl
  | cons entry rest ih =>
    obtain ⟨m, ofMetric, name⟩ := created entry List.mem_cons_self
    have read : (store.ringCells.read entry.2).map MemoryMetricRing.m = some m := ofMetric
    have others := ih fun entry member => created entry (List.mem_cons_of_mem _ member)
    rw [metricsOf] at others ⊢
    simp only [List.filterMap_cons, read, List.map_cons, others, name]

/-- The metric strings of what is selected are the keys of the map. -/
theorem names_selected (paired : Paired store) (order : RingOrder) (req : AllMetricsRequest) :
    (selected order store req).map getMetricString =
      (order.entries (selectedMap store req.filterHostName req.hostName)).map Sigma.fst := by
  rw [selected_eq]
  apply names_metricsOf
  intro entry member
  have entered := GoMap.Order.mem_entries.mp member
  obtain ⟨m, created, name, _⟩ := paired.listed (known_of_selected paired entered)
  exact ⟨m, created, name⟩

theorem described_selected (paired : Paired store) (order : RingOrder) (req : AllMetricsRequest)
    (now : Time) : Described now store (selected order store req) := by
  intro m member
  rw [selected_eq] at member
  obtain ⟨key, mr, entered, created⟩ := mem_metricsOf.mp member
  have known := known_of_selected paired entered
  obtain ⟨m', created', name, _⟩ := paired.listed known
  rw [created, Option.some.injEq] at created'
  obtain ⟨ring, holds, _⟩ := Option.map_eq_some_iff.mp created
  obtain rfl : getMetricString m = key := created' ▸ name
  have ofMetric : ringOf store m = some ring := by simp [ringOf, known, holds]
  exact describe_of_known now ofMetric

theorem nodup_keys (order : RingOrder) (map : RingMap) : ((order.entries map).map Sigma.fst).Nodup := by
  have keys := Multiset.nodup_keys.mpr map.nodupKeys
  rw [← order.every map] at keys
  exact keys

/-! ## Page after page -/

/-- What the call for a page is answered with, in the order the loop over the
map takes then. -/
def answer (orders : Nat → RingOrder) (clock : Nat → Time) (store : MemoryMetricStorage)
    (filterHostName : Bool) (hostName : String) (size index : Nat) : List RpcMetric :=
  MetricsEndpoint.getAllMetrics (orders index) (clock index) store
    ⟨(index * size : Nat), size, filterHostName, hostName⟩

/-- The calls come to an end, and what they sent is every selected metric once. -/
def SentOnce (orders : Nat → RingOrder) (clock : Nat → Time) (store : MemoryMetricStorage)
    (filterHostName : Bool) (hostName : String) (size : Nat) : Prop :=
  ∃ asked sent, scan (answer orders clock store filterHostName hostName size) size asked 0 = some sent ∧
    ∀ order, (sent.map RpcMetric.name).Perm
      ((selected order store ⟨0, size, filterHostName, hostName⟩).map getMetricString)

/-- A page is cut from the keys in the order of its own loop. -/
theorem names_answer (paired : Paired store) (orders : Nat → RingOrder) (clock : Nat → Time)
    (filterHostName : Bool) (hostName : String) (size index : Nat) :
    (answer orders clock store filterHostName hostName size index).map RpcMetric.name =
      page (((orders index).entries (selectedMap store filterHostName hostName)).map Sigma.fst)
        size index := by
  have described := described_selected paired (orders index)
    ⟨(index * size : Nat), size, filterHostName, hostName⟩ (clock index)
  rw [answer, MetricsEndpoint.getAllMetrics, names_sendLoop _ (Int.natCast_nonneg size) 0 0 (Int.natCast_nonneg size)
    described, names_selected paired, page, Int.sub_zero, Int.sub_zero, Int.toNat_natCast,
    Int.toNat_natCast]

/-- A second loop may begin its second page with what the first one began with. -/
theorem exists_turned_orders (map : RingMap) (size : Nat) :
    ∃ (orders : Nat → RingOrder) (keys : List String), keys.length = map.entries.card ∧
      ∀ index, ((orders index).entries map).map Sigma.fst =
        if index = 0 then keys else keys.rotate (keys.length - size) := by
  obtain ⟨order, _⟩ := GoMap.exists_order map map.entries.toList (Multiset.coe_toList _)
  let rotated := (order.entries map).rotate ((order.entries map).length - size)
  have lists : (rotated : Multiset (Sigma fun _ : String => Ref)) = map.entries :=
    (Multiset.coe_eq_coe.mpr (List.rotate_perm ..)).trans (order.every map)
  obtain ⟨turned, listing⟩ := GoMap.exists_order map rotated lists
  refine ⟨fun index => if index = 0 then order else turned, (order.entries map).map Sigma.fst, ?_, ?_⟩
  · rw [List.length_map, GoMap.Order.length_entries]
  · intro index
    dsimp only
    split
    · rfl
    · rw [listing, List.map_rotate, List.length_map]

/-- The names that the calls bring are pages of the keys, each in the order of
its own loop. -/
theorem names_scan (paired : Paired store) (orders : Nat → RingOrder) (clock : Nat → Time)
    (filterHostName : Bool) (hostName : String) (size asked : Nat) :
    (scan (answer orders clock store filterHostName hostName size) size asked 0).map
        (List.map RpcMetric.name) =
      scan (fun index => page (((orders index).entries
        (selectedMap store filterHostName hostName)).map Sigma.fst) size index) size asked 0 := by
  rw [← scan_map]
  simp only [names_answer paired]

theorem sentOnce_of_fits (paired : Paired store) (clock : Nat → Time) (positive : 0 < size)
    (fits : (selectedMap store filterHostName hostName).entries.card ≤ size)
    (orders : Nat → RingOrder) : SentOnce orders clock store filterHostName hostName size := by
  have scanned := names_scan paired orders clock filterHostName hostName size 2
  have names (order : RingOrder) :=
    names_selected paired order ⟨0, size, filterHostName, hostName⟩
  generalize selectedMap store filterHostName hostName = map at scanned names fits
  have keys (index : Nat) : (((orders index).entries map).map Sigma.fst).Perm
      (((orders 0).entries map).map Sigma.fst) := (GoMap.Order.perm _ _ map).map _
  have few : (((orders 0).entries map).map Sigma.fst).length ≤ size := by
    rw [List.length_map, GoMap.Order.length_entries]
    exact fits
  have brought := scanned.trans (scan_of_fits positive few _ keys)
  obtain ⟨sent, ended, same⟩ := Option.map_eq_some_iff.mp brought
  refine ⟨2, sent, ended, fun order => ?_⟩
  rw [same, names]
  exact (GoMap.Order.perm _ _ map).map _

theorem not_sentOnce_of_exceeding (paired : Paired store) (clock : Nat → Time) (positive : 0 < size)
    (exceeding : size < (selectedMap store filterHostName hostName).entries.card) :
    ∃ orders, ¬ SentOnce orders clock store filterHostName hostName size := by
  obtain ⟨orders, keys, length, listings⟩ :=
    exists_turned_orders (selectedMap store filterHostName hostName) size
  refine ⟨orders, ?_⟩
  rintro ⟨asked, sent, brought, once⟩
  have scanned := names_scan paired orders clock filterHostName hostName size asked
  rw [brought, Option.map_some] at scanned
  simp only [listings] at scanned
  have distinct := nodup_keys (orders 0) (selectedMap store filterHostName hostName)
  have repeated := scan_of_exceeding positive (by omega) scanned.symm
  apply repeated
  rw [(once (orders 0)).nodup_iff, names_selected paired]
  exact distinct

/-- **One page is what can be relied on.** Whatever orders the loops take, the
pages together are every selected metric once exactly if one page holds them all. -/
theorem sent_once_iff (capacity : Nat) (history : List Addition) (clock : Nat → Time)
    (filterHostName : Bool) (hostName : String) (positive : 0 < size) :
    (∀ orders, SentOnce orders clock (storageAfter capacity history) filterHostName hostName size) ↔
      (selectedMap (storageAfter capacity history) filterHostName hostName).entries.card ≤ size := by
  have paired := paired_storageAfter capacity history
  constructor
  · intro always
    by_contra exceeding
    obtain ⟨orders, missed⟩ :=
      not_sentOnce_of_exceeding paired clock positive (Nat.not_le.mp exceeding)
    exact missed (always orders)
  · exact sentOnce_of_fits paired clock positive

/-- Two series of one host. -/
def twoSeries : List Addition :=
  [(⟨"Collectd", "core", [("host", "core")], "rx", METRIC_GAUGE, 0⟩, { value := .int64 0 }),
    (⟨"Collectd", "core", [("host", "core")], "tx", METRIC_GAUGE, 0⟩, { value := .int64 0 })]

theorem two_series_in_one_page : 0 < 2 ∧
    ∀ orders, SentOnce orders (fun _ => 0) (storageAfter 2 twoSeries) true "core" 2 :=
  ⟨Nat.two_pos, (sent_once_iff 2 twoSeries (fun _ => 0) true "core" Nat.two_pos).mpr (by decide)⟩

/-- Paged one by one, a series may come twice and the other never. -/
theorem two_pages_repeat_a_series :
    ¬ ∀ capacity history orders clock filterHostName hostName size, history ≠ [] → 0 < size →
      SentOnce orders clock (storageAfter capacity history) filterHostName hostName size := by
  intro claimed
  have paired := paired_storageAfter 2 twoSeries
  have exceeding : 1 < (selectedMap (storageAfter 2 twoSeries) false "").entries.card := by decide
  obtain ⟨orders, missed⟩ :=
    not_sentOnce_of_exceeding paired (fun _ => 0) Nat.one_pos exceeding
  exact missed (claimed 2 twoSeries orders _ false "" 1 (List.cons_ne_nil _ _) Nat.one_pos)

end NetGraphz.MetricPaging
