import NetGraphz.MemoryStorageProofs

/-! What `GetLastMetricValues` reads. Nothing but the times of the samples keeps
its walk from going around the ring again. -/
namespace NetGraphz.LastValuesProofs
open Metrics MemoryStorage MemoryStorageProofs

/-- The first `n` slots of a walk hold samples, none of them newer than the one
before it. -/
def Descends (r : Ring MetricValue) (lastTime : Time) : (n : Nat) → Prop
  | 0 => True
  | n + 1 => ∃ value, r.value = some value ∧ value.time ≤ lastTime ∧ Descends r.prev value.time n

/-- The walk gets as far as samples descend, and as it is asked to. -/
theorem le_length_lastValuesLoop (r : Ring MetricValue) (lastTime : Time) (nGet n : Nat) :
    n ≤ (lastValuesLoop nGet r lastTime).length ↔ n ≤ nGet ∧ Descends r lastTime n := by
  induction n generalizing nGet r lastTime with
  | zero => simp [Descends]
  | succ n ih =>
    cases nGet with
    | zero => simp [lastValuesLoop]
    | succ nGet =>
      unfold lastValuesLoop Descends
      cases held : r.value with
      | none => simp
      | some value =>
        by_cases newer : lastTime < value.time
        · simp [newer]
        · simp [newer, ih, Int.not_lt.mp newer]

/-- What the walk reads stands in the slots it passes. -/
theorem value_of_lastValuesLoop {r : Ring MetricValue} {lastTime : Time}
    (read : (lastValuesLoop nGet r lastTime)[k]? = some value) :
    (Ring.prev^[k] r).value = some value := by
  induction nGet generalizing r lastTime k with
  | zero => simp [lastValuesLoop] at read
  | succ nGet ih =>
    unfold lastValuesLoop at read
    cases held : r.value with
    | none => simp [held] at read
    | some first =>
      by_cases newer : lastTime < first.time
      · simp [held, newer] at read
      · simp only [held, if_neg newer] at read
        cases k with
        | zero => exact held.trans read
        | succ k =>
          rw [List.getElem?_cons_succ] at read
          rw [Function.iterate_succ_apply]
          exact ih read

/-- A walk over descending samples, up to a slot that is empty or newer, reads
them. -/
theorem lastValuesLoop_eq (samples : List MetricValue) (r : Ring MetricValue) (lastTime : Time)
    (nGet : Nat) (reads : ∀ k < samples.length, (Ring.prev^[k] r).value = samples[k]?)
    (descending : samples.Pairwise fun newer older => older.time < newer.time)
    (starts : ∀ value ∈ samples, value.time ≤ lastTime)
    (stops : ∀ value, (Ring.prev^[samples.length] r).value = some value →
      (samples.map MetricValue.time).getLastD lastTime < value.time) :
    lastValuesLoop nGet r lastTime = samples.take nGet := by
  induction samples generalizing r lastTime nGet with
  | nil =>
    cases nGet with
    | zero => rfl
    | succ nGet =>
      cases held : r.value with
      | none => simp [lastValuesLoop, held]
      | some value =>
        have newer : lastTime < value.time := stops value held
        simp [lastValuesLoop, held, newer]
  | cons first rest ih =>
    cases nGet with
    | zero => rfl
    | succ nGet =>
      obtain ⟨older, descending⟩ := List.pairwise_cons.mp descending
      have held : r.value = some first := reads 0 (Nat.succ_pos _)
      have notNewer : ¬ lastTime < first.time := Int.not_lt.mpr (starts first List.mem_cons_self)
      have next : lastValuesLoop nGet r.prev first.time = rest.take nGet := by
        apply ih
        · exact Ring.reads_later reads
        · exact descending
        · exact fun value member => Int.le_of_lt (older value member)
        · intro value held
          rw [← Function.iterate_succ_apply] at held
          have newer := stops value held
          rwa [List.map_cons, List.getLastD_cons] at newer
      simp [lastValuesLoop, held, notNewer, next]

/-- A walk that begins further back, slot by slot. -/
theorem value_skipped {r : Ring MetricValue} {log : List MetricValue}
    (holds : r.Holds capacity log) (positive : 0 < capacity) (nSkip k : Nat) :
    (Ring.prev^[k] (Ring.prev^[nSkip] r)).value = log[(nSkip + k) % capacity]? := by
  rw [← Function.iterate_add_apply, Nat.add_comm k nSkip, holds.value_iterate_prev positive]

/-- The time the walk starts with: that of its first sample, if it has one. -/
def startTime (now : Time) (r : Ring MetricValue) : Time :=
  match r.value with
  | some value => value.time
  | none => now

theorem getLastMetricValues_of_ring (now : Time) {storage : MemoryMetricStorage}
    (ring : ringOf storage m = some mr) (nSkip nGet : Nat) :
    getLastMetricValues now storage m nSkip nGet =
      .ok (lastValuesLoop nGet (Ring.prev^[nSkip] mr.r) (startTime now (Ring.prev^[nSkip] mr.r))) := by
  cases first : (Ring.prev^[nSkip] mr.r).value with
  | none => simp [getLastMetricValues, ring, startTime, first]
  | some value => simp [getLastMetricValues, ring, startTime, first]

/-! ## Samples in the order of their times -/

/-- The samples of a series came with strictly increasing times. -/
def TimesIncrease (history : List Addition) (m : Metric) : Prop :=
  (received history m).Pairwise fun earlier later => earlier.time < later.time

theorem retained_descending (capacity : Nat) (increase : TimesIncrease history m) :
    (retained capacity history m).Pairwise fun newer older => older.time < newer.time :=
  (List.pairwise_reverse.mpr increase).take

/-- In a full log the newest sample is newer than the one a walk ends with. -/
theorem newest_again {log : List MetricValue} {newest : MetricValue} (several : 2 ≤ capacity)
    (full : log.length = capacity)
    (descending : log.Pairwise fun newer older => older.time < newer.time)
    (taken : nSkip < log.length) (first : log[0]? = some newest) (lastTime : Time) :
    ((log.drop nSkip).map MetricValue.time).getLastD lastTime < newest.time := by
  rcases log with _ | ⟨head, _ | ⟨second, older⟩⟩
  · simp at first
  · simp only [List.length_singleton] at full
    omega
  · cases first
    have ends : ((newest :: second :: older).drop nSkip).getLast? =
        some ((second :: older).getLast (List.cons_ne_nil _ _)) := by
      rw [List.getLast?_drop, if_neg (Nat.not_le.mpr taken), List.getLast?_cons_cons,
        List.getLast?_eq_getLast_of_ne_nil]
    rw [List.getLastD_eq_getLast?, List.getLast?_map, ends]
    exact (List.pairwise_cons.mp descending).1 _ (List.getLast_mem _)

/-- **The last values of a series.** With two slots or more and increasing
times, the walk reads the retained samples from the skipped ones on. -/
theorem last_values_are_newest (several : 2 ≤ capacity) (history : List Addition) (m : Metric)
    (increase : TimesIncrease history m) (now : Time) (nSkip nGet : Nat)
    (inside : nSkip < capacity) :
    getLastMetricValues now (storageAfter capacity history) m nSkip nGet =
      .ok (((retained capacity history m).drop nSkip).take nGet) := by
  have positive : 0 < capacity := by omega
  have descending := retained_descending capacity increase
  rcases ringOf_storageAfter positive history m with ⟨empty, none⟩ | ⟨mr, ring, holds⟩
  · simp [getLastMetricValues, none, empty]
  generalize retained capacity history m = log at descending holds
  have slot := value_skipped holds positive nSkip
  have first : (Ring.prev^[nSkip] mr.r).value = log[nSkip]? := by
    simpa [Nat.mod_eq_of_lt inside] using slot 0
  rw [getLastMetricValues_of_ring now ring]
  congr 1
  apply lastValuesLoop_eq
  · intro k within
    rw [List.length_drop] at within
    have fits := holds.fits
    rw [slot, Nat.mod_eq_of_lt (by omega), List.getElem?_drop]
  · exact descending.drop
  · intro value member
    unfold startTime
    rw [first]
    cases rest : log.drop nSkip with
    | nil => simp [rest] at member
    | cons newest older =>
      have head : log[nSkip]? = some newest := by
        rw [← Nat.add_zero nSkip, ← List.getElem?_drop, rest]
        rfl
      rw [head]
      rw [rest] at member
      have below := (List.pairwise_cons.mp (rest ▸ descending.drop (i := nSkip))).1
      rcases List.mem_cons.mp member with rfl | member
      · exact Int.le_refl _
      · exact Int.le_of_lt (below value member)
  · intro value held
    -- after the retained samples comes an empty slot, or the newest one again
    rw [slot, List.length_drop] at held
    have fits := holds.fits
    rcases Nat.lt_or_ge nSkip log.length with taken | none
    · rw [Nat.add_sub_cancel' (Nat.le_of_lt taken)] at held
      rcases Nat.lt_or_eq_of_le fits with short | full
      · rw [Nat.mod_eq_of_lt short, List.getElem?_eq_none (Nat.le_refl _)] at held
        cases held
      · rw [full, Nat.mod_self] at held
        exact newest_again several full descending taken held _
    · rw [Nat.sub_eq_zero_of_le none, Nat.add_zero, Nat.mod_eq_of_lt inside,
        List.getElem?_eq_none none] at held
      cases held

def coreTraffic : Metric := ⟨"Collectd", "core", [("host", "core")], "rx", METRIC_GAUGE, 0⟩

def sampleAt (t : Time) : MetricValue := { time := t, value := .int64 0 }

/-- Two slots, three samples: behind the newest there is one. -/
theorem one_sample_behind_the_newest :
    let history := [1, 2, 3].map fun t => (coreTraffic, sampleAt t)
    TimesIncrease history coreTraffic ∧
      getLastMetricValues 0 (storageAfter 2 history) coreTraffic 1 5 = .ok [sampleAt 2] := by
  intro history
  have increase : TimesIncrease history coreTraffic := by
    simp [TimesIncrease, received, history, sampleAt]
  have behind : ((retained 2 history coreTraffic).drop 1).take 5 = [sampleAt 2] := by
    simp [retained, received, history]
  refine ⟨increase, ?_⟩
  rw [last_values_are_newest (by decide) history coreTraffic increase 0 1 5 (by decide), behind]

/-! ## Samples in any order -/

/-- The result is no longer than what is left of the series after the skipped
values, so that no retained sample is in it twice. -/
def NoneTwice (now : Time) (storage : MemoryMetricStorage) (m : Metric) (nSkip nGet : Nat) : Prop :=
  ∀ values count, getLastMetricValues now storage m nSkip nGet = .ok values →
    countValues storage m = .ok count → values.length ≤ count - nSkip

/-- What keeps the walk within the series: an empty slot, the count it was
asked for, or a sample newer than the one before it, at the latest the newest
of all when the walk comes around to it. -/
def StopsInTime (capacity : Nat) (log : List MetricValue) (nSkip nGet : Nat) : Prop :=
  if nSkip < capacity then
    log.length < capacity ∨ nGet ≤ capacity - nSkip ∨
      ¬ ((log.drop nSkip ++ log.take 1).map MetricValue.time).IsChain (· ≥ ·)
  else nGet = 0 ∨ log.length ≤ nSkip % capacity

theorem descends_iff_chain (samples : List MetricValue) (r : Ring MetricValue) (lastTime : Time)
    (reads : ∀ k < samples.length, (Ring.prev^[k] r).value = samples[k]?) :
    Descends r lastTime samples.length ↔
      (lastTime :: samples.map MetricValue.time).IsChain (· ≥ ·) := by
  induction samples generalizing r lastTime with
  | nil => simp [Descends]
  | cons first rest ih =>
    have held : r.value = some first := reads 0 (Nat.succ_pos _)
    simp [Descends, held, ih r.prev first.time (Ring.reads_later reads)]

/-- No walk descends past an empty slot. -/
theorem not_descends_of_empty {r : Ring MetricValue} (within : k < n)
    (empty : (Ring.prev^[k] r).value = none) (lastTime : Time) : ¬ Descends r lastTime n := by
  induction n generalizing r lastTime k with
  | zero => exact absurd within (Nat.not_lt_zero _)
  | succ n ih =>
    rintro ⟨value, held, _, rest⟩
    cases k with
    | zero => simp [held] at empty
    | succ k => exact ih (Nat.lt_of_succ_lt_succ within) empty value.time rest

variable {r : Ring MetricValue} {log : List MetricValue}

/-- In a ring that is not full, no walk gets past the series. -/
theorem not_descends_of_short (holds : r.Holds capacity log) (short : log.length < capacity)
    (inside : nSkip < capacity) (lastTime : Time) :
    ¬ Descends (Ring.prev^[nSkip] r) lastTime (log.length - nSkip + 1) := by
  apply not_descends_of_empty (Nat.lt_succ_self (log.length - nSkip))
  rw [value_skipped holds (by omega)]
  apply List.getElem?_eq_none
  rw [Nat.mod_eq_of_lt (by omega)]
  omega

/-- In a full ring, the walk passes the series exactly if all of it descends,
down to its newest sample. -/
theorem descends_around_iff (holds : r.Holds capacity log) (full : log.length = capacity)
    (inside : nSkip < capacity) (now : Time) :
    Descends (Ring.prev^[nSkip] r) (startTime now (Ring.prev^[nSkip] r)) (capacity - nSkip + 1) ↔
      ((log.drop nSkip ++ log.take 1).map MetricValue.time).IsChain (· ≥ ·) := by
  have positive : 0 < capacity := by omega
  have length : (log.drop nSkip ++ log.take 1).length = capacity - nSkip + 1 := by
    rw [List.length_append, List.length_drop, List.length_take]
    omega
  have reads : ∀ k < (log.drop nSkip ++ log.take 1).length,
      (Ring.prev^[k] (Ring.prev^[nSkip] r)).value = (log.drop nSkip ++ log.take 1)[k]? := by
    intro k within
    rw [value_skipped holds positive, List.getElem?_append, List.length_drop]
    split
    · rw [List.getElem?_drop, Nat.mod_eq_of_lt (by omega)]
    · have around : nSkip + k = capacity := by omega
      rw [around, Nat.mod_self, show k - (log.length - nSkip) = 0 by omega,
        List.getElem?_take_of_lt Nat.one_pos]
  rw [← length, descends_iff_chain _ _ _ reads]
  cases samples : log.drop nSkip ++ log.take 1 with
  | nil => simp [samples] at length
  | cons first rest =>
    have held : (Ring.prev^[nSkip] r).value = some first := by
      simpa [samples] using reads 0 (by rw [length]; exact Nat.succ_pos _)
    simp [startTime, held]

/-- A walk that begins after going around returns what stands there. -/
theorem descends_one_iff (holds : r.Holds capacity log) (positive : 0 < capacity) (nSkip : Nat)
    (now : Time) :
    Descends (Ring.prev^[nSkip] r) (startTime now (Ring.prev^[nSkip] r)) 1 ↔
      nSkip % capacity < log.length := by
  have slot : (Ring.prev^[nSkip] r).value = log[nSkip % capacity]? := value_skipped holds positive nSkip 0
  have filled : nSkip % capacity < log.length ↔ (log[nSkip % capacity]?).isSome = true := by simp
  rw [filled, ← slot]
  cases held : (Ring.prev^[nSkip] r).value with
  | none => simp [Descends, held]
  | some value => simp [Descends, startTime, held]

/-- A result within the series is a part of it, each sample in its place. -/
theorem prefix_of_within (holds : r.Holds capacity log) (positive : 0 < capacity) (lastTime : Time)
    (within : (lastValuesLoop nGet (Ring.prev^[nSkip] r) lastTime).length ≤ log.length - nSkip) :
    lastValuesLoop nGet (Ring.prev^[nSkip] r) lastTime <+: log.drop nSkip := by
  rw [List.prefix_iff_getElem?]
  intro k inside
  have fits := holds.fits
  have read := value_of_lastValuesLoop (List.getElem?_eq_getElem inside)
  rwa [value_skipped holds positive, Nat.mod_eq_of_lt (by omega), ← List.getElem?_drop] at read

/-- **No sample twice.** Whatever times the samples have, the result stays
within the series exactly if something stops the walk in time. -/
theorem none_twice_iff (positive : 0 < capacity) (history : List Addition) (m : Metric) (now : Time)
    (nSkip nGet : Nat) :
    NoneTwice now (storageAfter capacity history) m nSkip nGet ↔
      StopsInTime capacity (retained capacity history m) nSkip nGet := by
  have width := storageAfter_capacity capacity history
  rcases ringOf_storageAfter positive history m with ⟨empty, none⟩ | ⟨mr, ring, holds⟩
  · have unknown : countValues (storageAfter capacity history) m = .error "Cannot find metric" := by
      simp [countValues, none]
    simp only [NoneTwice, StopsInTime, unknown, empty]
    simp [positive]
  have counted : countValues (storageAfter capacity history) m =
      .ok (retained capacity history m).length :=
    countValues_of_holds ring (by rw [width]; exact holds)
  generalize retained capacity history m = log at holds counted
  have fits := holds.fits
  have within : NoneTwice now (storageAfter capacity history) m nSkip nGet ↔
      ¬ (log.length - nSkip + 1 ≤ nGet ∧ Descends (Ring.prev^[nSkip] mr.r)
        (startTime now (Ring.prev^[nSkip] mr.r)) (log.length - nSkip + 1)) := by
    rw [← le_length_lastValuesLoop, Nat.not_le, Nat.lt_succ_iff]
    simp [NoneTwice, getLastMetricValues_of_ring now ring, counted]
  rw [within, StopsInTime]
  split
  · rename_i inside
    rcases Nat.lt_or_eq_of_le fits with short | full
    · exact iff_of_true (fun both => not_descends_of_short holds short inside _ both.2) (Or.inl short)
    · rw [full, descends_around_iff holds full inside]
      simp only [Nat.lt_irrefl, false_or]
      rw [not_and_or, Nat.not_le, Nat.lt_succ_iff]
  · rename_i outside
    rw [show log.length - nSkip = 0 by omega, Nat.zero_add, descends_one_iff holds positive]
    rw [not_and_or, Nat.not_le, Nat.not_lt, Nat.lt_one_iff]

/-- Two samples in two slots: the newer one stops the walk. -/
theorem newer_sample_stops_the_walk :
    let history := [1, 2].map fun t => (coreTraffic, sampleAt t)
    NoneTwice 0 (storageAfter 2 history) coreTraffic 0 3 := by
  intro history
  have stops : StopsInTime 2 (retained 2 history coreTraffic) 0 3 := by
    simp [StopsInTime, retained, received, history, sampleAt]
  exact (none_twice_iff (by decide) history coreTraffic 0 0 3).mpr stops

/-- Two samples of one second, in two slots: the walk goes around. -/
theorem equal_times_go_around :
    ¬ ∀ capacity history m now nSkip nGet, 0 < capacity →
      NoneTwice now (storageAfter capacity history) m nSkip nGet := by
  intro claimed
  have within := claimed 2 [(coreTraffic, sampleAt 1), (coreTraffic, sampleAt 1)] coreTraffic 0 0 3
    (by decide) [sampleAt 1, sampleAt 1, sampleAt 1] 2 (by decide) (by decide)
  exact absurd within (by decide)

end NetGraphz.LastValuesProofs
