import NetGraphz.LastValuesProofs

/-! What `GetMetricValueByTimeRange` returns: its guard, and the cut it makes
when the walk meets an empty slot. -/
namespace NetGraphz.TimeRangeProofs
open Metrics MemoryStorage MemoryStorageProofs LastValuesProofs

/-- The time of a sample lies strictly within the range. -/
def Within (since stop : Time) (value : MetricValue) : Prop :=
  since < value.time ∧ value.time < stop

instance (since stop : Time) : DecidablePred (Within since stop) :=
  fun value => inferInstanceAs (Decidable (since < value.time ∧ value.time < stop))

/-- The samples of a log that lie within the range. -/
def inRange (since stop : Time) (log : List MetricValue) : List MetricValue :=
  log.filter fun value => Within since stop value

variable {grow : Nat → Nat} {since stop : Time} {r : Ring MetricValue} {log : List MetricValue}
  {res : GoSlice MetricValue}

/-- The slice after one sample. -/
def keep (grow : Nat → Nat) (since stop : Time) (res : GoSlice MetricValue) (value : MetricValue) :
    GoSlice MetricValue :=
  if since < value.time ∧ value.time < stop then res.append grow value else res

theorem toList_keep (value : MetricValue) :
    (keep grow since stop res value).toList = res.toList ++ (inRange since stop [value]).map some := by
  unfold keep
  split
  · rename_i within
    have kept : Within since stop value := within
    simp [inRange, kept]
  · rename_i without
    have dropped : ¬ Within since stop value := without
    simp [inRange, dropped]

theorem unwritten_keep (grow : Nat → Nat) (unwritten : res.Unwritten) (value : MetricValue) :
    (keep grow since stop res value).Unwritten := by
  unfold keep
  split
  · exact GoSlice.unwritten_append grow unwritten value
  · exact unwritten

theorem inRange_cons (value : MetricValue) (rest : List MetricValue) :
    inRange since stop (value :: rest) = inRange since stop [value] ++ inRange since stop rest := by
  rw [inRange, ← List.singleton_append, List.filter_append]
  rfl

/-- One turn of the walk that neither ends at an empty slot nor at an old sample. -/
theorem timeRangeLoop_succ (turns i : Nat) (held : r.value = some value)
    (notBefore : ¬ value.time < since) :
    timeRangeLoop grow since stop (turns + 1) i r res =
      timeRangeLoop grow since stop turns (i + 1) r.prev (keep grow since stop res value) := by
  simp only [timeRangeLoop, held, if_neg notBefore, keep]

/-- A walk that an old sample ends, or that goes all around, returns samples
within the range. -/
theorem timeRangeLoop_ends (turns i : Nat)
    (reads : ∀ k < turns, (Ring.prev^[k] r).value = log[k]?)
    (ends : turns ≤ log.length ∨ ∃ value ∈ log, value.time < since) :
    ∃ cut, timeRangeLoop grow since stop turns i r res = some cut ∧
      cut.toList = res.toList ++ (inRange since stop
        ((log.take turns).takeWhile fun value => ¬ value.time < since)).map some := by
  induction turns generalizing i r res log with
  | zero => exact ⟨res, rfl, by simp [inRange]⟩
  | succ turns ih =>
    cases log with
    | nil =>
      rcases ends with around | ⟨value, member, _⟩
      · simp at around
      · cases member
    | cons first rest =>
      have held : r.value = some first := reads 0 (Nat.succ_pos _)
      by_cases old : first.time < since
      · exact ⟨res, by simp [timeRangeLoop, held, old], by simp [old, inRange]⟩
      · have later : turns ≤ rest.length ∨ ∃ value ∈ rest, value.time < since := by
          rcases ends with around | ⟨value, member, before⟩
          · exact Or.inl (Nat.le_of_succ_le_succ around)
          · rcases List.mem_cons.mp member with rfl | member
            · exact absurd before old
            · exact Or.inr ⟨value, member, before⟩
        obtain ⟨cut, returned, shown⟩ := ih (i + 1) (Ring.reads_later reads) later
        refine ⟨cut, (timeRangeLoop_succ turns i held old).trans returned, ?_⟩
        rw [shown, toList_keep, List.append_assoc, ← List.map_append, ← inRange_cons,
          List.take_succ_cons, List.takeWhile_cons_of_pos (by simpa using old)]

/-- A walk that meets no old sample before an empty slot ends with a cut there. -/
theorem timeRangeLoop_cuts (turns i : Nat)
    (reads : ∀ k < turns, (Ring.prev^[k] r).value = log[k]?) (short : log.length < turns)
    (noneOld : ∀ value ∈ log, ¬ value.time < since) (unwritten : res.Unwritten) :
    ∃ kept : GoSlice MetricValue, kept.Unwritten ∧
      kept.toList = res.toList ++ (inRange since stop log).map some ∧
      timeRangeLoop grow since stop turns i r res = kept.reslice (i + log.length) := by
  induction turns generalizing i r res log with
  | zero => exact absurd short (Nat.not_lt_zero _)
  | succ turns ih =>
    cases log with
    | nil =>
      have empty : r.value = none := reads 0 (Nat.succ_pos _)
      exact ⟨res, unwritten, by simp [inRange], by simp [timeRangeLoop, empty]⟩
    | cons first rest =>
      have held : r.value = some first := reads 0 (Nat.succ_pos _)
      have young := noneOld first List.mem_cons_self
      obtain ⟨kept, clean, shown, cut⟩ := ih (i + 1) (Ring.reads_later reads)
        (Nat.lt_of_succ_lt_succ short) (fun value member => noneOld value (List.mem_cons_of_mem _ member))
        (unwritten_keep grow unwritten first)
      refine ⟨kept, clean, ?_, ?_⟩
      · rw [shown, toList_keep, List.append_assoc, ← List.map_append, ← inRange_cons]
      · rw [timeRangeLoop_succ turns i held young, cut, List.length_cons, Nat.add_right_comm,
          Nat.add_assoc]

/-! ## The range of a series -/

/-- No slice is out of range, and what is returned are retained samples within
the range. -/
def SafeRange (log : List MetricValue) (since stop : Time) : RangeOutcome → Prop
  | .values res => ∀ element ∈ res, ∃ value ∈ log, element = some value ∧ Within since stop value
  | .error _ => True
  | .outOfRange => False

/-- What makes the walk safe: a full ring, a sample from before the range, or
no sample outside of it. -/
def CutSafely (capacity : Nat) (log : List MetricValue) (since stop : Time) : Prop :=
  log.length = capacity ∨ (∃ value ∈ log, value.time < since) ∨ ∀ value ∈ log, Within since stop value

/-- The outcome for a metric that has a ring, once the guard lets pass. -/
theorem getMetricValueByTimeRange_of_ring {storage : MemoryMetricStorage}
    (ring : ringOf storage m = some mr) (passes : ¬ since < now) (duration : Duration) :
    getMetricValueByTimeRange grow now storage m since duration =
      ((timeRangeLoop grow since (since + duration) storage.capacity 0 mr.r .empty).elim
        .outOfRange fun res => .values res.toList) := by
  simp only [getMetricValueByTimeRange, if_neg passes, ring]
  cases timeRangeLoop grow since (since + duration) storage.capacity 0 mr.r .empty <;> rfl

theorem mem_inRange : value ∈ inRange since stop log ↔ value ∈ log ∧ Within since stop value := by
  simp [inRange]

theorem length_inRange_eq_iff :
    (inRange since stop log).length = log.length ↔ ∀ value ∈ log, Within since stop value := by
  simp [inRange, List.length_filter_eq_length_iff]

/-- Of a walk that meets an empty slot, the cut shows the samples it kept
exactly if it kept them all. -/
theorem safe_cut_iff {kept : GoSlice MetricValue} (unwritten : kept.Unwritten)
    (shown : kept.toList = (inRange since stop log).map some) :
    SafeRange log since stop
        ((kept.reslice log.length).elim .outOfRange fun res => .values res.toList) ↔
      ∀ value ∈ log, Within since stop value := by
  have length : kept.len = (inRange since stop log).length := by
    rw [← GoSlice.length_toList, shown, List.length_map]
  rw [← length_inRange_eq_iff, ← length]
  constructor
  · intro safe
    by_contra fewer
    have beyond : kept.len < log.length := by
      have most := List.length_filter_le (fun value => decide (Within since stop value)) log
      have few : kept.len ≤ log.length := length ▸ most
      omega
    cases sliced : kept.reslice log.length with
    | none =>
      rw [sliced] at safe
      exact safe
    | some cut =>
      rw [sliced] at safe
      obtain ⟨value, _, same, _⟩ := safe none (GoSlice.none_mem_of_reslice unwritten beyond sliced)
      cases same
  · intro whole
    rw [← whole, GoSlice.reslice_len]
    intro element member
    rw [shown] at member
    obtain ⟨value, within, rfl⟩ := List.mem_map.mp member
    exact ⟨value, (mem_inRange.mp within).1, rfl, (mem_inRange.mp within).2⟩

/-- **A safe range.** Past the guard, the result is in range and made of
retained samples within the asked time exactly if the cut at an empty slot
takes nothing that was not kept. Where times increase, it has all of these
(`range_of_increasing`). -/
theorem range_safe_iff (grow : Nat → Nat) (positive : 0 < capacity) (history : List Addition)
    (m : Metric) (now since : Time) (duration : Duration) (passes : ¬ since < now) :
    SafeRange (retained capacity history m) since (since + duration)
        (getMetricValueByTimeRange grow now (storageAfter capacity history) m since duration) ↔
      CutSafely capacity (retained capacity history m) since (since + duration) := by
  rcases ringOf_storageAfter positive history m with ⟨empty, none⟩ | ⟨mr, ring, holds⟩
  · simp [getMetricValueByTimeRange, passes, none, empty, SafeRange, CutSafely]
  rw [getMetricValueByTimeRange_of_ring ring passes, storageAfter_capacity]
  generalize retained capacity history m = log at holds
  by_cases ends : log.length = capacity ∨ ∃ value ∈ log, value.time < since
  · have stopped : capacity ≤ log.length ∨ ∃ value ∈ log, value.time < since :=
      ends.imp_left fun full => Nat.le_of_eq full.symm
    obtain ⟨cut, returned, shown⟩ := timeRangeLoop_ends capacity 0 holds.reads stopped
    rw [returned]
    refine iff_of_true ?_ (ends.imp_right Or.inl)
    intro element member
    rw [shown, GoSlice.toList_empty, List.nil_append] at member
    obtain ⟨value, within, rfl⟩ := List.mem_map.mp member
    obtain ⟨member, inside⟩ := mem_inRange.mp within
    exact ⟨value, List.mem_of_mem_take ((List.takeWhile_sublist _).subset member), rfl, inside⟩
  · obtain ⟨notFull, noneOld⟩ := not_or.mp ends
    have short : log.length < capacity := Nat.lt_of_le_of_ne holds.fits notFull
    have young : ∀ value ∈ log, ¬ value.time < since :=
      fun value member old => noneOld ⟨value, member, old⟩
    obtain ⟨kept, unwritten, shown, cut⟩ :=
      timeRangeLoop_cuts capacity 0 holds.reads short young GoSlice.unwritten_empty
    rw [cut, Nat.zero_add, safe_cut_iff unwritten shown, CutSafely]
    simp only [notFull, noneOld, false_or]

/-- A sample at the very start of the range, in a ring that is not full: the cut
to one element is out of range. -/
theorem sample_at_the_start_is_cut :
    ¬ ∀ grow capacity history m now since duration, 0 < capacity → ¬ since < now →
      SafeRange (retained capacity history m) since (since + duration)
        (getMetricValueByTimeRange grow now (storageAfter capacity history) m since duration) := by
  intro claimed
  have safe := claimed (fun capacity => capacity + 1) 2 [(coreTraffic, sampleAt 5)] coreTraffic 5 5 10
    (by decide) (by decide)
  have stopped : getMetricValueByTimeRange (fun capacity => capacity + 1) 5
      (storageAfter 2 [(coreTraffic, sampleAt 5)]) coreTraffic 5 10 = .outOfRange := by decide
  rw [stopped] at safe
  exact safe

/-- A sample within the range: the cut takes what was kept. -/
theorem sample_within_is_safe :
    SafeRange (retained 2 [(coreTraffic, sampleAt 7)] coreTraffic) 5 15
      (getMetricValueByTimeRange (fun capacity => capacity + 1) 5
        (storageAfter 2 [(coreTraffic, sampleAt 7)]) coreTraffic 5 10) := by
  have safe : CutSafely 2 (retained 2 [(coreTraffic, sampleAt 7)] coreTraffic) 5 (5 + 10) := by
    refine Or.inr (Or.inr ?_)
    simp [retained, received, Within, sampleAt]
  exact (range_safe_iff _ (by decide) _ coreTraffic 5 5 10 (by decide)).mpr safe

/-- In a log of descending times, the samples before the first old one hold all
that lie within the range. -/
theorem inRange_takeWhile
    (descending : log.Pairwise fun newer older => older.time < newer.time) :
    inRange since stop (log.takeWhile fun value => ¬ value.time < since) = inRange since stop log := by
  induction log with
  | nil => rfl
  | cons first rest ih =>
    obtain ⟨older, descending⟩ := List.pairwise_cons.mp descending
    by_cases old : first.time < since
    · have outside : ∀ value ∈ first :: rest, ¬ Within since stop value := by
        intro value member within
        rcases List.mem_cons.mp member with rfl | member
        · exact absurd within.1 (Int.lt_asymm old)
        · exact absurd within.1 (Int.lt_asymm (Int.lt_trans (older value member) old))
      rw [List.takeWhile_cons_of_neg (by simpa using old)]
      exact (List.filter_eq_nil_iff.mpr (by simpa using outside)).symm
    · rw [List.takeWhile_cons_of_pos (by simpa using old), inRange_cons, ih descending,
        ← inRange_cons]

/-- Of samples with increasing times, a safe range returns exactly those within. -/
theorem range_of_increasing (grow : Nat → Nat) (positive : 0 < capacity)
    (increase : TimesIncrease history m) (passes : ¬ since < now) (duration : Duration)
    (safe : CutSafely capacity (retained capacity history m) since (since + duration)) :
    getMetricValueByTimeRange grow now (storageAfter capacity history) m since duration =
      .values ((inRange since (since + duration) (retained capacity history m)).map some) := by
  have descending := retained_descending capacity increase
  rcases ringOf_storageAfter positive history m with ⟨empty, none⟩ | ⟨mr, ring, holds⟩
  · simp [getMetricValueByTimeRange, passes, none, empty, inRange]
  rw [getMetricValueByTimeRange_of_ring ring passes, storageAfter_capacity]
  generalize retained capacity history m = log at descending holds safe
  by_cases ends : capacity ≤ log.length ∨ ∃ value ∈ log, value.time < since
  · obtain ⟨cut, returned, shown⟩ := timeRangeLoop_ends capacity 0 holds.reads ends
    rw [GoSlice.toList_empty, List.nil_append, List.take_of_length_le holds.fits,
      inRange_takeWhile descending] at shown
    rw [returned, Option.elim_some, shown]
  · obtain ⟨notFull, noneOld⟩ := not_or.mp ends
    have young : ∀ value ∈ log, ¬ value.time < since :=
      fun value member old => noneOld ⟨value, member, old⟩
    obtain ⟨kept, _, shown, cut⟩ :=
      timeRangeLoop_cuts capacity 0 holds.reads (Nat.not_le.mp notFull) young GoSlice.unwritten_empty
    have whole : ∀ value ∈ log, Within since (since + duration) value := by
      rcases safe with full | ⟨value, member, old⟩ | whole
      · exact absurd (Nat.le_of_eq full.symm) notFull
      · exact absurd old (young value member)
      · exact whole
    have length : kept.len = log.length := by
      rw [← GoSlice.length_toList, shown, GoSlice.toList_empty, List.nil_append, List.length_map,
        length_inRange_eq_iff.mpr whole]
    rw [cut, Nat.zero_add, ← length, GoSlice.reslice_len, Option.elim_some, shown]
    rfl

/-! ## The guard -/

/-- The samples asked for: those strictly within the range, newest first. -/
def ReturnsRange (capacity : Nat) (history : List Addition) (m : Metric) (since : Time)
    (duration : Duration) (outcome : RangeOutcome) : Prop :=
  outcome = .values ((inRange since (since + duration) (retained capacity history m)).map some)

/-- **The guard turns the wrong way.** From a start before the current time
nothing is ever returned. -/
theorem past_range_never_returned (grow : Nat → Nat) (capacity : Nat) (history : List Addition)
    (m : Metric) (now since : Time) (duration : Duration) (past : since < now) :
    ¬ ReturnsRange capacity history m since duration
      (getMetricValueByTimeRange grow now (storageAfter capacity history) m since duration) := by
  simp [ReturnsRange, getMetricValueByTimeRange, past]

/-- The last ten seconds, asked for ten seconds later. -/
theorem last_ten_seconds_not_returned :
    (10 : Time) < 20 ∧
      ¬ ReturnsRange 2 [(coreTraffic, sampleAt 15)] coreTraffic 10 10
        (getMetricValueByTimeRange (fun capacity => capacity + 1) 20
          (storageAfter 2 [(coreTraffic, sampleAt 15)]) coreTraffic 10 10) :=
  ⟨by decide, past_range_never_returned _ 2 _ coreTraffic 20 10 10 (by decide)⟩

/-- Instead there is an error, although a sample lies in the range. -/
theorem past_start_is_refused :
    ¬ ∀ grow capacity history m now since duration, 0 < capacity → TimesIncrease history m →
      since < now → ReturnsRange capacity history m since duration
        (getMetricValueByTimeRange grow now (storageAfter capacity history) m since duration) := by
  intro claimed
  have returned := claimed (fun capacity => capacity + 1) 2 [(coreTraffic, sampleAt 15)] coreTraffic
    20 10 10 (by decide) (by simp [TimesIncrease, received]) (by decide)
  have refused : getMetricValueByTimeRange (fun capacity => capacity + 1) 20
      (storageAfter 2 [(coreTraffic, sampleAt 15)]) coreTraffic 10 10 =
        .error "Time start should be before current time" := by decide
  rw [ReturnsRange, refused] at returned
  cases returned

end NetGraphz.TimeRangeProofs
