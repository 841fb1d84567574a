import NetGraphz.MemoryStorage
import NetGraphz.Base.History

/-! The ring store refines a map from metric string to a bounded newest-first
log, over every sequential history of `AddMetricValue` calls. The simulation
speaks only of the storage-wide map; the host maps share its pointers. -/
namespace NetGraphz.MemoryStorageProofs
open Metrics MemoryStorage

/-- What the storage is for: the latest values of each series, newest first. -/
abbrev Logs := String → List MetricValue

/-- Adding a value to its series, of which at most `capacity` are kept. -/
def Logs.add (capacity : Nat) (logs : Logs) (m : Metric) (val : MetricValue) : Logs :=
  Function.update logs (getMetricString m) ((val :: logs (getMetricString m)).take capacity)

/-- The storage holds exactly these logs: an absent ring is an empty log, and
the ring under a key was created with that key and holds its log. -/
structure Refines (storage : MemoryMetricStorage) (logs : Logs) : Prop where
  absent : ∀ {key}, storage.rings.lookup key = none → logs key = []
  present : ∀ {key mr}, storage.rings.lookup key = some mr → ∃ ring,
    storage.ringCells.read mr = some ring ∧ getMetricString ring.m = key ∧ logs key ≠ [] ∧
      ring.r.Holds storage.capacity (logs key)

variable {storage : MemoryMetricStorage} {logs : Logs} {m : Metric} {val : MetricValue}

theorem refines_new (capacity : Nat) : Refines (newMemoryStorage capacity) fun _ => [] :=
  ⟨fun _ => rfl, by simp [newMemoryStorage]⟩

/-! ## The sections of an addition -/

@[simp] theorem enterHost_capacity (storage : MemoryMetricStorage) (m : Metric)
    (hostFound : Option Ref) (mr : Ref) :
    (enterHost storage m hostFound mr).capacity = storage.capacity := by
  cases hostFound <;> rfl

@[simp] theorem enterHost_rings (storage : MemoryMetricStorage) (m : Metric)
    (hostFound : Option Ref) (mr : Ref) : (enterHost storage m hostFound mr).rings = storage.rings := by
  cases hostFound <;> rfl

@[simp] theorem enterHost_ringCells (storage : MemoryMetricStorage) (m : Metric)
    (hostFound : Option Ref) (mr : Ref) :
    (enterHost storage m hostFound mr).ringCells = storage.ringCells := by
  cases hostFound <;> rfl

/-- The rings hold the logs. In the middle of an addition a ring may still be
empty, and so is its log. -/
structure RingsHold (storage : MemoryMetricStorage) (logs : Logs) : Prop where
  absent : ∀ {key}, storage.rings.lookup key = none → logs key = []
  present : ∀ {key mr}, storage.rings.lookup key = some mr → ∃ ring,
    storage.ringCells.read mr = some ring ∧ getMetricString ring.m = key ∧
      ring.r.Holds storage.capacity (logs key)

theorem Refines.ringsHold (refines : Refines storage logs) : RingsHold storage logs where
  absent := refines.absent
  present := by
    intro key mr known
    obtain ⟨ring, holds, keyed, _, log⟩ := refines.present known
    exact ⟨ring, holds, keyed, log⟩

/-- Two keys never share a ring. -/
theorem RingsHold.key_unique (rings : RingsHold storage logs)
    (first : storage.rings.lookup key = some mr) (second : storage.rings.lookup other = some mr) :
    key = other := by
  obtain ⟨ring, holds, keyed, _⟩ := rings.present first
  obtain ⟨ring', holds', keyed', _⟩ := rings.present second
  have same : ring = ring' := Option.some.inj (holds.symm.trans holds')
  subst same
  exact keyed.symm.trans keyed'

/-- A ring that was missing is entered empty. -/
theorem RingsHold.enterRing (rings : RingsHold storage logs)
    (fresh : storage.rings.lookup (getMetricString m) = none) :
    RingsHold (enterRing storage m none).1 logs := by
  have entered : ∀ key, (MemoryStorage.enterRing storage m none).1.rings.lookup key =
      if key = getMetricString m then some storage.ringCells.next else storage.rings.lookup key :=
    fun key => GoMap.lookup_insert ..
  constructor
  · intro key missing
    rw [entered] at missing
    split at missing
    · cases missing
    · exact rings.absent missing
  · intro key mr known
    rw [entered] at known
    simp only [MemoryStorage.enterRing, Heap.read_alloc]
    split at known
    · rename_i own
      cases known
      refine ⟨newMemoryMetricRing m storage.capacity, if_pos rfl, own.symm, ?_⟩
      rw [own, rings.absent fresh]
      exact Ring.holds_new storage.capacity
    · obtain ⟨ring, holds, keyed, log⟩ := rings.present known
      have older : mr ≠ storage.ringCells.next := Nat.ne_of_lt (Heap.ref_lt_of_read holds)
      exact ⟨ring, by rw [if_neg older, holds], keyed, log⟩

theorem RingsHold.enterHost (rings : RingsHold storage logs) (m : Metric) (hostFound : Option Ref)
    (mr : Ref) : RingsHold (enterHost storage m hostFound mr) logs := by
  constructor
  · rw [enterHost_rings]
    exact rings.absent
  · rw [enterHost_rings, enterHost_ringCells, enterHost_capacity]
    exact rings.present

/-- A value is stored in its ring: one that was found moves on, one that is new
holds nothing yet. -/
theorem RingsHold.storeValue (rings : RingsHold storage logs) (positive : 0 < storage.capacity)
    (ring : storage.rings.lookup (getMetricString m) = some mr)
    (first : found = false → logs (getMetricString m) = []) (val : MetricValue) :
    RingsHold (storeValue storage found mr val) (logs.add storage.capacity m val) := by
  constructor
  · intro key missing
    have other : key ≠ getMetricString m := by
      rintro rfl
      cases missing.symm.trans ring
    rw [Logs.add, Function.update_of_ne other]
    exact rings.absent missing
  · intro key mr' known
    obtain ⟨held, holds, keyed, log⟩ := rings.present known
    simp only [MemoryStorage.storeValue, Heap.read_modify, holds]
    by_cases same : key = getMetricString m
    · subst same
      cases ring.symm.trans known
      rw [if_pos rfl, Logs.add, Function.update_self]
      refine ⟨_, rfl, keyed, ?_⟩
      cases found with
      | true => exact log.push positive val
      | false =>
        rw [first rfl] at log ⊢
        rw [List.take_of_length_le positive]
        exact log.setFirst positive val
    · have other : mr' ≠ mr := by
        rintro rfl
        exact same (rings.key_unique known ring)
      rw [if_neg other, Logs.add, Function.update_of_ne same]
      exact ⟨held, rfl, keyed, log⟩

/-- The last two sections, where the ring of the metric is known. -/
theorem RingsHold.enterStore (rings : RingsHold storage logs) (positive : 0 < storage.capacity)
    (ring : storage.rings.lookup (getMetricString m) = some mr)
    (first : found = false → logs (getMetricString m) = []) (hostFound : Option Ref) (val : MetricValue) :
    RingsHold (MemoryStorage.storeValue (MemoryStorage.enterHost storage m hostFound mr) found mr val)
      (logs.add storage.capacity m val) := by
  have stored := (rings.enterHost m hostFound mr).storeValue (by rw [enterHost_capacity]; exact positive)
    (by rw [enterHost_rings]; exact ring) first val
  rwa [enterHost_capacity] at stored

/-- All three of them: one push. -/
theorem RingsHold.add (rings : RingsHold storage logs) (positive : 0 < storage.capacity) (m : Metric)
    (val : MetricValue) : RingsHold (addMetricValue storage m val) (logs.add storage.capacity m val) := by
  unfold addMetricValue
  cases known : storage.rings.lookup (getMetricString m) with
  | none =>
    have entered := rings.enterRing known
    have ring : (MemoryStorage.enterRing storage m none).1.rings.lookup (getMetricString m) =
        some (MemoryStorage.enterRing storage m none).2 := Finmap.lookup_insert _
    exact entered.enterStore positive ring (fun _ => rings.absent known) _ val
  | some mr =>
    have moves : true = false → logs (getMetricString m) = [] := nofun
    exact rings.enterStore positive known moves _ val

/-! ## One addition -/

/-- A known series: its ring moves on and takes the value. -/
theorem addMetricValue_known (val : MetricValue)
    (known : storage.rings.lookup (getMetricString m) = some mr) :
    (addMetricValue storage m val).capacity = storage.capacity ∧
      (addMetricValue storage m val).rings = storage.rings ∧
      (addMetricValue storage m val).ringCells =
        storage.ringCells.modify mr fun ring => { ring with r := ring.r.next.setValue val } := by
  simp [addMetricValue, known, enterRing, storeValue]

/-- A new series: a fresh ring is entered, and its first slot takes the value. -/
theorem addMetricValue_new (val : MetricValue)
    (fresh : storage.rings.lookup (getMetricString m) = none) :
    let cell := storage.ringCells.alloc (newMemoryMetricRing m storage.capacity)
    (addMetricValue storage m val).capacity = storage.capacity ∧
      (addMetricValue storage m val).rings = storage.rings.insert (getMetricString m) cell.2 ∧
      (addMetricValue storage m val).ringCells =
        cell.1.modify cell.2 fun ring => { ring with r := ring.r.setValue val } := by
  simp [addMetricValue, fresh, enterRing, storeValue]

@[simp] theorem addMetricValue_capacity (storage : MemoryMetricStorage) (m : Metric)
    (val : MetricValue) : (addMetricValue storage m val).capacity = storage.capacity := by
  cases known : storage.rings.lookup (getMetricString m) with
  | none => exact (addMetricValue_new val known).1
  | some mr => exact (addMetricValue_known val known).1

/-- The other keys keep their rings. -/
theorem rings_add_other (storage : MemoryMetricStorage) (val : MetricValue)
    (other : key ≠ getMetricString m) :
    (addMetricValue storage m val).rings.lookup key = storage.rings.lookup key := by
  cases known : storage.rings.lookup (getMetricString m) with
  | none =>
    rw [(addMetricValue_new val known).2.1, Finmap.lookup_insert_of_ne _ other]
  | some mr => rw [(addMetricValue_known val known).2.1]

/-- An addition leaves the ring of every other key as it is. -/
theorem Refines.ringOf_other (refines : Refines storage logs) (val : MetricValue) {other : Metric}
    (apart : getMetricString m ≠ getMetricString other) :
    ringOf (addMetricValue storage m val) other = ringOf storage other := by
  cases known : storage.rings.lookup (getMetricString m) with
  | none =>
    obtain ⟨_, rings, cells⟩ := addMetricValue_new val known
    have entry := rings_add_other storage val apart.symm
    cases held : storage.rings.lookup (getMetricString other) with
    | none => simp [ringOf, entry, held]
    | some mr =>
      obtain ⟨ring, holds, _⟩ := refines.present held
      have old : mr ≠ (storage.ringCells.alloc (newMemoryMetricRing m storage.capacity)).2 :=
        Heap.alloc_fresh holds _
      simp [ringOf, entry, held, cells, Heap.read_modify, old, holds,
        Heap.read_alloc_of_read holds]
  | some mr =>
    obtain ⟨_, rings, cells⟩ := addMetricValue_known val known
    cases held : storage.rings.lookup (getMetricString other) with
    | none => simp [ringOf, rings, held]
    | some mr' =>
      have old : mr' ≠ mr := by
        rintro rfl
        exact apart (refines.ringsHold.key_unique known held)
      simp [ringOf, rings, held, cells, Heap.read_modify, old]

/-- **One addition is one push.** The step of the simulation. -/
theorem refines_add (refines : Refines storage logs) (positive : 0 < storage.capacity) (m : Metric)
    (val : MetricValue) : Refines (addMetricValue storage m val) (logs.add storage.capacity m val) := by
  have rings := refines.ringsHold.add positive m val
  refine ⟨rings.absent, fun {key mr} entered => ?_⟩
  obtain ⟨ring, holds, keyed, log⟩ := rings.present entered
  refine ⟨ring, holds, keyed, ?_, log⟩
  by_cases own : key = getMetricString m
  · simp [Logs.add, own, Nat.ne_of_gt positive]
  · rw [rings_add_other storage val own] at entered
    obtain ⟨_, _, _, filled, _⟩ := refines.present entered
    rwa [Logs.add, Function.update_of_ne own]

/-! ## Histories -/

/-- One `AddMetricValue` call. -/
abbrev Addition := Metric × MetricValue

/-- The storage after a history of additions to a new one. -/
def storageAfter (capacity : Nat) (history : List Addition) : MemoryMetricStorage :=
  after (fun storage entry => addMetricValue storage entry.1 entry.2) (newMemoryStorage capacity) history

/-- The values that reached the key of a metric, in the order of addition. -/
def received (history : List Addition) (m : Metric) : List MetricValue :=
  (history.filter fun entry => getMetricString entry.1 = getMetricString m).map Prod.snd

/-- The logs after a history: of each key, the last values it received. -/
def logsAfter (capacity : Nat) (history : List Addition) : Logs :=
  after (fun logs entry => logs.add capacity entry.1 entry.2) (fun _ => []) history

/-- A bounded log is the newest part of everything its key received. -/
theorem logsAfter_eq (capacity : Nat) (history : List Addition) (m : Metric) :
    logsAfter capacity history (getMetricString m) = (received history m).reverse.take capacity := by
  induction history using List.reverseRecOn with
  | nil => simp [logsAfter, received]
  | append_singleton past entry ih =>
    rw [logsAfter, after_concat, ← logsAfter]
    by_cases same : getMetricString entry.1 = getMetricString m
    · have grown : received (past ++ [entry]) m = received past m ++ [entry.2] := by
        simp [received, same]
      rw [Logs.add, same, Function.update_self, ih, grown, List.reverse_append]
      cases capacity with
      | zero => simp
      | succ capacity => simp [List.take_take]
    · have kept : received (past ++ [entry]) m = received past m := by simp [received, same]
      rw [Logs.add, Function.update_of_ne (Ne.symm same), ih, kept]

@[simp] theorem storageAfter_capacity (capacity : Nat) (history : List Addition) :
    (storageAfter capacity history).capacity = capacity :=
  after_invariant _ (fun storage : MemoryMetricStorage => storage.capacity = capacity) rfl
    (fun _ _ same => (addMetricValue_capacity ..).trans same) history

/-- **The run of the simulation.** -/
theorem refines_storageAfter (positive : 0 < capacity) (history : List Addition) :
    Refines (storageAfter capacity history) (logsAfter capacity history) := by
  induction history using List.reverseRecOn with
  | nil => exact refines_new capacity
  | append_singleton past entry ih =>
    have width := storageAfter_capacity capacity past
    rw [storageAfter, after_concat, ← storageAfter, logsAfter, after_concat, ← logsAfter]
    have step := refines_add ih (by rw [width]; exact positive) entry.1 entry.2
    rwa [width] at step

/-! ## What the readers return -/

/-- The ring of a series that received something, and the log it holds. -/
theorem Refines.ring_of_filled (refines : Refines storage logs) (filled : logs (getMetricString m) ≠ []) :
    ∃ mr, ringOf storage m = some mr ∧ mr.r.Holds storage.capacity (logs (getMetricString m)) := by
  cases known : storage.rings.lookup (getMetricString m) with
  | none => exact absurd (refines.absent known) filled
  | some mr =>
    obtain ⟨ring, holds, _, _, log⟩ := refines.present known
    exact ⟨ring, by simp [ringOf, known, holds], log⟩

theorem countValues_of_holds (ring : ringOf storage m = some mr)
    (log : mr.r.Holds storage.capacity values) : countValues storage m = .ok values.length := by
  simp [countValues, ring, log.countBack]

theorem getLastMetricValue_of_holds (now : Time) (ring : ringOf storage m = some mr)
    (positive : 0 < storage.capacity) (log : mr.r.Holds storage.capacity values) :
    getLastMetricValue now storage m = .ok values.head? := by
  have newest := log.value positive
  cases values with
  | nil =>
    have empty : mr.r.value = none := newest
    simp [getLastMetricValue, getLastMetricValues, ring, lastValuesLoop, empty]
  | cons first rest =>
    -- the value the walk starts on is not newer than itself
    have first : mr.r.value = some first := newest
    simp [getLastMetricValue, getLastMetricValues, ring, lastValuesLoop, first]

/-- What is kept of a series, newest first. -/
def retained (capacity : Nat) (history : List Addition) (m : Metric) : List MetricValue :=
  (received history m).reverse.take capacity

/-- The ring of a metric after a history: there is none exactly where nothing
was received. -/
theorem ringOf_storageAfter (positive : 0 < capacity) (history : List Addition) (m : Metric) :
    (retained capacity history m = [] ∧ ringOf (storageAfter capacity history) m = none) ∨
      ∃ mr, ringOf (storageAfter capacity history) m = some mr ∧
        mr.r.Holds capacity (retained capacity history m) := by
  have refines := refines_storageAfter positive history
  have log : logsAfter capacity history (getMetricString m) = retained capacity history m :=
    logsAfter_eq capacity history m
  cases known : (storageAfter capacity history).rings.lookup (getMetricString m) with
  | none => exact Or.inl ⟨log ▸ refines.absent known, by simp [ringOf, known]⟩
  | some ref =>
    obtain ⟨ring, holds, _, _, filled⟩ := refines.present known
    rw [storageAfter_capacity, log] at filled
    exact Or.inr ⟨ring, by simp [ringOf, known, holds], filled⟩

/-- **The ring store is a bounded log.** For a series that received values,
the count is their number up to the capacity, the last value is the last one
added, the walk back from the pointer reads them in reverse order of addition
and then empty slots, and an addition under another key changes none of it. -/
theorem ring_store_is_bounded_log (positive : 0 < capacity) (history : List Addition)
    (m : Metric) (filled : received history m ≠ []) (now : Time) :
    countValues (storageAfter capacity history) m =
        .ok (min (received history m).length capacity) ∧
      getLastMetricValue now (storageAfter capacity history) m =
        .ok (received history m).getLast? ∧
      (∃ mr, ringOf (storageAfter capacity history) m = some mr ∧
        ∀ k, (Ring.prev^[k] mr.r).value = (received history m).reverse[k % capacity]?) ∧
      ∀ other val, getMetricString other ≠ getMetricString m →
        let added := addMetricValue (storageAfter capacity history) other val
        countValues added m = countValues (storageAfter capacity history) m ∧
          getLastMetricValue now added m =
            getLastMetricValue now (storageAfter capacity history) m ∧
          ringOf added m = ringOf (storageAfter capacity history) m := by
  have refines := refines_storageAfter positive history
  have width := storageAfter_capacity capacity history
  have log := logsAfter_eq capacity history m
  have kept : logsAfter capacity history (getMetricString m) ≠ [] := by
    rw [log]
    simpa [Nat.ne_of_gt positive] using filled
  obtain ⟨mr, ring, holds⟩ := refines.ring_of_filled kept
  have room : 0 < (storageAfter capacity history).capacity := by rw [width]; exact positive
  refine ⟨?_, ?_, ⟨mr, ring, ?_⟩, ?_⟩
  · rw [countValues_of_holds ring holds, log, List.length_take, List.length_reverse,
      Nat.min_comm]
  · have newest : ((received history m).reverse.take capacity).head? =
        (received history m).getLast? := by
      rw [List.head?_take, if_neg (Nat.ne_of_gt positive), List.head?_reverse]
    rw [getLastMetricValue_of_holds now ring room holds, log, newest]
  · intro k
    rw [width, log] at holds
    rw [holds.value_iterate_prev positive, List.getElem?_take_of_lt (Nat.mod_lt _ positive)]
  · intro other val apart
    have same := refines.ringOf_other val apart
    refine ⟨?_, ?_, same⟩
    · simp only [countValues, same, addMetricValue_capacity]
    · simp only [getLastMetricValue, getLastMetricValues, same]

/-- A two-slot ring after three values: the first one has fallen out. -/
theorem two_slots_keep_the_last_two :
    let m : Metric := ⟨"Collectd", "core", [("host", "core")], "rx", METRIC_GAUGE, 0⟩
    let sample (t : Time) : MetricValue := { time := t, value := .int64 0 }
    let history := [(m, sample 1), (m, sample 2), (m, sample 3)]
    received history m ≠ [] ∧
      countValues (storageAfter 2 history) m = .ok (min (received history m).length 2) := by
  intro m sample history
  have filled : received history m ≠ [] := by simp [received, history]
  exact ⟨filled, (ring_store_is_bounded_log (by decide) history m filled 0).1⟩

end NetGraphz.MemoryStorageProofs
