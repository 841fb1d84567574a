import NetGraphz.RpcServer

/-! How many samples are requested of the metrics of a host. The count comes
from the client as a signed number, is taken over as an unsigned one, and grows
as the loop over the metrics goes on. -/
namespace NetGraphz.SampleCounts
open Metrics RpcFormater RpcServer

/-- The count to get that a metric leaves behind. -/
def nextCount (nGet : UInt32) (m : Metric) : UInt32 :=
  if m.getType = METRIC_DERIVE then nGet + 1 else nGet

/-- What the loop asks the storage for: every metric, and how many samples. -/
def asks (nGet : UInt32) : List Metric → List (Metric × UInt32)
  | [] => []
  | m :: rest => (m, nextCount nGet m + 1) :: asks (nextCount nGet m) rest

/-- What is asked for altogether. -/
def requested (nGet : UInt32) (metrics : List Metric) : List (Metric × UInt32) :=
  if nGet > 0 then asks nGet metrics else []

/-- The metrics among them that rates are derived for. -/
def derives (metrics : List Metric) : Nat := metrics.countP fun m => m.getType = METRIC_DERIVE

variable (metricSrv : MetricStorage)

/-- What the answer to a request is entered as, if at all. -/
def valuesFor (ask : Metric × UInt32) : Option (List MetricValue) :=
  match metricSrv.getLastMetricValues ask.1 0 ask.2.toNat with
  | .error _ => none
  | .ok values =>
    if ask.1.getType = METRIC_DERIVE then (deriveMetricValues values true).toOption else some values

def enter (lastMetricValues : MetricMap) (ask : Metric × UInt32) : MetricMap :=
  match valuesFor metricSrv ask with
  | none => lastMetricValues
  | some values => lastMetricValues.insert (getMetricString ask.1) values

/-- One turn of the loop is one request. -/
theorem fetchMetric_eq (nGet : UInt32) (lastMetricValues : MetricMap) (m : Metric) :
    fetchMetric metricSrv (nGet, lastMetricValues) m =
      (nextCount nGet m, enter metricSrv lastMetricValues (m, nextCount nGet m + 1)) := by
  by_cases derived : m.getType = METRIC_DERIVE
  · simp only [fetchMetric, nextCount, enter, valuesFor, if_pos derived]
    cases metricSrv.getLastMetricValues m 0 (nGet + 1 + 1).toNat with
    | error err => rfl
    | ok values =>
      dsimp only
      cases deriveMetricValues values true <;> rfl
  · simp only [fetchMetric, nextCount, enter, valuesFor, if_neg derived]
    cases metricSrv.getLastMetricValues m 0 (nGet + 1).toNat <;> rfl

theorem foldl_fetchMetric (metrics : List Metric) (nGet : UInt32) (lastMetricValues : MetricMap) :
    (metrics.foldl (fetchMetric metricSrv) (nGet, lastMetricValues)).2 =
      (asks nGet metrics).foldl (enter metricSrv) lastMetricValues := by
  induction metrics generalizing nGet lastMetricValues with
  | nil => rfl
  | cons m rest ih => rw [List.foldl_cons, fetchMetric_eq, ih, asks, List.foldl_cons]

/-- The storage is asked for what is requested and for nothing else: the answers
to that make the whole result. -/
theorem fetchLastMetrics_eq (nGet : UInt32)
    (listed : metricSrv.getMetricsByHost hostName = .ok metrics) :
    fetchLastMetrics metricSrv hostName nGet =
      .ok ((requested nGet metrics).foldl (enter metricSrv) ∅) := by
  unfold fetchLastMetrics requested
  split
  · rw [listed, ← foldl_fetchMetric]
    rfl
  · rfl

/-- Neither the increment for a derived metric nor the one for the request goes
beyond 32 bits. -/
def NoneWraps (nGet : UInt32) : List Metric → Prop
  | [] => True
  | m :: rest =>
    (m.getType = METRIC_DERIVE → nGet.toNat + 1 < 2 ^ 32) ∧
      (nextCount nGet m).toNat + 1 < 2 ^ 32 ∧ NoneWraps (nextCount nGet m) rest

theorem toNat_succ (within : nGet.toNat + 1 < 2 ^ 32) : (nGet + 1 : UInt32).toNat = nGet.toNat + 1 := by
  rw [UInt32.toNat_add]
  exact Nat.mod_eq_of_lt within

theorem derives_cons (m : Metric) (rest : List Metric) :
    derives (m :: rest) = derives rest + if m.getType = METRIC_DERIVE then 1 else 0 := by
  simp [derives, List.countP_cons]

theorem toNat_nextCount (within : m.getType = METRIC_DERIVE → nGet.toNat + 1 < 2 ^ 32) :
    (nextCount nGet m).toNat = nGet.toNat + if m.getType = METRIC_DERIVE then 1 else 0 := by
  unfold nextCount
  by_cases derived : m.getType = METRIC_DERIVE
  · rw [if_pos derived, if_pos derived, toNat_succ (within derived)]
  · rw [if_neg derived, if_neg derived, Nat.add_zero]

/-- The loop gets by in 32 bits exactly when the last of its requests does. -/
theorem noneWraps_iff (nGet : UInt32) (metrics : List Metric) :
    NoneWraps nGet metrics ↔ (metrics ≠ [] → nGet.toNat + derives metrics + 1 < 2 ^ 32) := by
  induction metrics generalizing nGet with
  | nil => simp [NoneWraps]
  | cons m rest ih =>
    rw [NoneWraps, ih, derives_cons]
    constructor
    · rintro ⟨own, asked, later⟩ _
      rw [toNat_nextCount own] at asked later
      by_cases last : rest = []
      · subst last
        simp only [derives, List.countP_nil]
        omega
      · have := later last
        omega
    · intro within
      have bound := within (List.cons_ne_nil m rest)
      have own : m.getType = METRIC_DERIVE → nGet.toNat + 1 < 2 ^ 32 := by
        intro derived
        rw [if_pos derived] at bound
        omega
      rw [toNat_nextCount own]
      exact ⟨own, by omega, fun _ => by omega⟩

/-- Without wrapping, no request is for more than the last one's count. -/
theorem asks_bounded (none : NoneWraps nGet metrics) (member : ask ∈ asks nGet metrics) :
    ask.2.toNat ≤ nGet.toNat + derives metrics + 1 := by
  induction metrics generalizing nGet with
  | nil => simp [asks] at member
  | cons m rest ih =>
    obtain ⟨own, asked, later⟩ := none
    have count := toNat_nextCount own
    rw [derives_cons]
    rcases List.mem_cons.mp member with rfl | member
    · rw [toNat_succ asked, count]
      omega
    · have bound := ih later member
      omega

/-- What a client's number may lead to once it is taken over: requests between 0
and the number plus one for every metric and one more, exact conversions and
additions, and no request at all for a number that is not positive. -/
structure CountsInBounds (includeMetrics : Int32) (metrics : List Metric) : Prop where
  bounded : ∀ ask ∈ requested includeMetrics.toUInt32 metrics, 0 ≤ (ask.2.toNat : Int) ∧
    (ask.2.toNat : Int) ≤ max includeMetrics.toInt 0 + metrics.length + 1
  converted : (includeMetrics.toUInt32.toNat : Int) = includeMetrics.toInt
  noneWraps : includeMetrics.toUInt32 > 0 → NoneWraps includeMetrics.toUInt32 metrics
  noneAsked : includeMetrics ≤ 0 → requested includeMetrics.toUInt32 metrics = []

/-- A signed number is taken over unchanged exactly when it is not negative. -/
theorem toUInt32_exact_iff (v : Int32) : (v.toUInt32.toNat : Int) = v.toInt ↔ 0 ≤ v.toInt := by
  have low := Int32.le_toInt v
  have high := Int32.toInt_lt v
  have bits := v.toUInt32.toNat_lt
  have whole : v.toInt = (v.toUInt32.toNat : Int).bmod (2 ^ 32) := by
    rw [← Int32.toInt_toBitVec, BitVec.toInt_eq_toNat_bmod]
    rfl
  rw [Int.bmod_def] at whole
  omega

/-- **Negative numbers are what breaks the bound.** The counts are in bounds
exactly if the client asks for nothing, or for a positive number that the
derived metrics do not carry beyond 32 bits. -/
theorem counts_in_bounds_iff (includeMetrics : Int32) (metrics : List Metric) :
    CountsInBounds includeMetrics metrics ↔
      includeMetrics.toInt = 0 ∨
        0 < includeMetrics.toInt ∧ includeMetrics.toInt + derives metrics + 1 < 2 ^ 32 := by
  have exact := toUInt32_exact_iff includeMetrics
  have asking : includeMetrics.toUInt32 > 0 ↔ 0 < includeMetrics.toUInt32.toNat := by
    rw [gt_iff_lt, UInt32.lt_iff_toNat_lt]
    rfl
  have signed : includeMetrics ≤ 0 ↔ includeMetrics.toInt ≤ 0 := Int32.le_iff_toInt_le
  have short : derives metrics ≤ metrics.length := List.countP_le_length
  have high := Int32.toInt_lt includeMetrics
  constructor
  · rintro ⟨_, converted, noneWraps, _⟩
    have notNegative := exact.mp converted
    rcases Int.lt_or_eq_of_le notNegative with positive | zero
    · right
      have asked : includeMetrics.toUInt32 > 0 := asking.mpr (by omega)
      have bound := (noneWraps_iff _ metrics).mp (noneWraps asked)
      refine ⟨positive, ?_⟩
      by_cases empty : metrics = []
      · subst empty
        simp only [derives, List.countP_nil]
        omega
      · have := bound empty
        omega
    · exact .inl zero.symm
  · rintro (zero | ⟨positive, within⟩)
    · have converted := exact.mpr (by omega)
      have silent : ¬ includeMetrics.toUInt32 > 0 := by
        rw [asking]
        omega
      have nothing : requested includeMetrics.toUInt32 metrics = [] := if_neg silent
      refine ⟨?_, converted, fun asked => absurd asked silent, fun _ => nothing⟩
      rw [nothing]
      simp
    · have converted := exact.mpr (by omega)
      have fits : NoneWraps includeMetrics.toUInt32 metrics := by
        rw [noneWraps_iff]
        intro _
        omega
      have asked : includeMetrics.toUInt32 > 0 := asking.mpr (by omega)
      refine ⟨?_, converted, fun _ => fits, fun negative => ?_⟩
      · rw [requested, if_pos asked]
        intro ask member
        have bound := asks_bounded fits member
        omega
      · have := signed.mp negative
        omega

/-- Minus two asks for as many samples as 32 bits can count. -/
theorem minus_two_asks_for_everything :
    ¬ ∀ includeMetrics metrics, CountsInBounds includeMetrics metrics := by
  intro claimed
  let load : Metric := ⟨"Collectd", "core", [], "load", METRIC_GAUGE, 0⟩
  have bound := (claimed (-2) [load]).bounded (load, 4294967295) (by decide)
  revert bound
  decide

end NetGraphz.SampleCounts
