import NetGraphz.Base.GoConversions
import NetGraphz.DerivationProofs

/-! The rates of integer counters. They are distances over whole seconds, so a
fall looks like a rise; and a difference of unsigned numbers has wrapped around
before it is converted where the counter went up. -/
namespace NetGraphz.CounterRates
open Metrics GoFloat DerivationProofs

/-! ## Neighbouring samples -/

/-- Neighbours are compared as they are, or by what is known of them. -/
theorem isChain_iff_of_neighbours {values : List α} (related : values.IsChain R)
    (same : ∀ a ∈ values, ∀ b ∈ values, R a b → (S a b ↔ T a b)) :
    values.IsChain S ↔ values.IsChain T := by
  simp only [List.isChain_iff_getElem]
  exact forall₂_congr fun i within =>
    same _ (List.getElem_mem _) _ (List.getElem_mem _) (related.getElem i within)

theorem zipWith_tail_eq_iff {values : List α} {f g : α → α → β} :
    List.zipWith f values values.tail = List.zipWith g values values.tail ↔
      values.IsChain fun a b => f a b = g a b := by
  induction values with
  | nil => simp
  | cons a rest ih =>
    cases rest with
    | nil => simp
    | cons b rest => simpa using fun _ => ih

/-! ## Counters and how they are stored -/

/-- The integer types that rates are derived for. -/
inductive Storage where
  | int
  | int32
  | int64
  | uint
  | uint32
  | uint64
  deriving DecidableEq

def Storage.value : Storage → Int → Value
  | .int, count => .int (Int64.ofInt count)
  | .int32, count => .int32 (Int32.ofInt count)
  | .int64, count => .int64 (Int64.ofInt count)
  | .uint, count => .uint (UInt64.ofInt count)
  | .uint32, count => .uint32 (UInt32.ofInt count)
  | .uint64, count => .uint64 (UInt64.ofInt count)

/-- A counter read at a time. -/
structure Reading where
  name : String
  time : Time
  kind : MetricDataType
  count : Int

/-- The reading as it is stored. -/
def Reading.sample (storage : Storage) (reading : Reading) : MetricValue :=
  { name := reading.name, time := reading.time, kind := reading.kind,
    value := storage.value reading.count, valueType := (storage.value reading.count).typeOf }

/-- Neighbours in one series, five seconds apart, the newer one first. -/
structure Spaced (newer older : Reading) : Prop where
  series : newer.name = older.name
  apart : 5 * 1000000000 ≤ newer.time - older.time

/-- The readings of one series, newest first. -/
structure Series (readings : List Reading) : Prop where
  several : 2 ≤ readings.length
  neighbours : readings.IsChain Spaced

/-- The seconds between two readings, as `Sub` and `Seconds` have them. -/
def elapsed (newer older : Reading) : Nat := secondsOf (newer.time.sub older.time)

/-- `Sub` saturates, far beyond five seconds. -/
theorem sub_bounds {t u : Int} (apart : 5 * 1000000000 ≤ t - u) :
    ∃ span : Int, Time.sub t u = span ∧ 5 * 1000000000 ≤ span ∧ span < 2 ^ 63 := by
  refine ⟨max (-2 ^ 63) (min (2 ^ 63 - 1) (t - u)), rfl, ?_, ?_⟩ <;> omega

theorem sub_of_short {t u : Int} (apart : 5 * 1000000000 ≤ t - u)
    (short : t - u < 2 ^ 24 * 1000000000) : Time.sub t u = t - u := by
  have within : max (-2 ^ 63) (min (2 ^ 63 - 1) (t - u)) = t - u := by omega
  exact within

theorem elapsed_bounds (spaced : Spaced newer older) :
    5 ≤ elapsed newer older ∧ elapsed newer older ≤ 9223372037 := by
  obtain ⟨span, eq, late, fits⟩ := sub_bounds spaced.apart
  have bounds := secondsOf_bounds span
  simp only [elapsed, eq]
  omega

theorem supported (storage : Storage) (older newer : Int) :
    (deltaVal (storage.value older) (storage.value newer)).isSome := by
  cases storage <;> rfl

theorem derives_sample (storage : Storage) (spaced : Spaced newer older) :
    Derives (newer.sample storage) (older.sample storage) where
  series := spaced.series
  alike := by cases storage <;> rfl
  supported := supported storage older.count newer.count
  spaced := by
    obtain ⟨span, eq, late, -⟩ := sub_bounds spaced.apart
    exact eq ▸ late

/-- The rate of a counter between two readings. -/
def rateBetween (storage : Storage) (nonNegative : Bool) (newer older : Reading) : Int64 :=
  rate nonNegative (newer.sample storage) (older.sample storage)

/-- One rate for each two neighbouring readings. -/
theorem derive_readings (storage : Storage) (nonNegative : Bool) (series : Series readings) :
    deriveMetricValues (readings.map (Reading.sample storage)) nonNegative =
      .ok (List.zipWith (fun newer older => derived nonNegative (newer.sample storage)
        (older.sample storage)) readings readings.tail) := by
  have derivable : Derivable (readings.map (Reading.sample storage)) := by
    refine ⟨by simpa using series.several, ?_⟩
    rw [List.isChain_map]
    exact series.neighbours.imp fun _ _ spaced => derives_sample storage spaced
  rw [deriveMetricValues_of_derivable nonNegative derivable, ← List.map_tail, List.zipWith_map]

/-! ## The distance of two counters -/

/-- What an integer becomes in the type. -/
def Storage.held : Storage → Int → Int
  | .int, n => n.bmod (2 ^ 64)
  | .int32, n => n.bmod (2 ^ 32)
  | .int64, n => n.bmod (2 ^ 64)
  | .uint, n => n % 2 ^ 64
  | .uint32, n => n % 2 ^ 32
  | .uint64, n => n % 2 ^ 64

theorem toNat_sub_uint64 (a b : Int) :
    ((UInt64.ofInt a - UInt64.ofInt b).toNat : Int) = (a - b) % 2 ^ 64 := by
  rw [UInt64.toNat_sub, UInt64.ofInt, UInt64.ofInt, UInt64.toNat_ofNat', UInt64.toNat_ofNat']
  omega

theorem toNat_sub_uint32 (a b : Int) :
    ((UInt32.ofInt a - UInt32.ofInt b).toNat : Int) = (a - b) % 2 ^ 32 := by
  rw [UInt32.toNat_sub, UInt32.ofInt, UInt32.ofInt, UInt32.toNat_ofNat', UInt32.toNat_ofNat']
  omega

/-- The difference wraps around in the type of the samples. -/
theorem deltaVal_value (storage : Storage) (older newer : Int) :
    deltaVal (storage.value older) (storage.value newer) =
      some (Float.Model.ofInt (storage.held (older - newer))).abs := by
  have int64 : (Int64.ofInt older - Int64.ofInt newer).toInt = (older - newer).bmod (2 ^ 64) := by
    rw [← Int64.ofInt_sub]
    exact Int64.toInt_ofInt ..
  have int32 : (Int32.ofInt older - Int32.ofInt newer).toInt = (older - newer).bmod (2 ^ 32) := by
    rw [← Int32.ofInt_sub]
    exact Int32.toInt_ofInt ..
  cases storage with
  | int => exact congrArg (fun n => some (Float.Model.ofInt n).abs) int64
  | int32 => exact congrArg (fun n => some (Float.Model.ofInt n).abs) int32
  | int64 => exact congrArg (fun n => some (Float.Model.ofInt n).abs) int64
  | uint => exact congrArg (fun n => some (Float.Model.ofInt n).abs) (toNat_sub_uint64 older newer)
  | uint32 => exact congrArg (fun n => some (Float.Model.ofInt n).abs) (toNat_sub_uint32 older newer)
  | uint64 => exact congrArg (fun n => some (Float.Model.ofInt n).abs) (toNat_sub_uint64 older newer)

theorem int64_div {a b : Nat} (fitsA : a < 2 ^ 63) (fitsB : b < 2 ^ 63) :
    Int64.ofInt a / Int64.ofInt b = Int64.ofInt (a / b : Nat) := by
  have least : Int64.minValue.toInt = -2 ^ 63 := rfl
  have most : Int64.maxValue.toInt = 2 ^ 63 - 1 := rfl
  have quotient := Int64.ofInt_tdiv (a := a) (b := b) (by omega) (by omega) (by omega) (by omega)
  rw [← quotient, Int.ofNat_tdiv]

/-- The seconds that a distance is divided by. -/
theorem int64_elapsed (spaced : Spaced newer older) :
    int64OfFloat64 (seconds (newer.time.sub older.time)) = Int64.ofInt (elapsed newer older) := by
  obtain ⟨span, eq, late, fits⟩ := sub_bounds spaced.apart
  simp only [elapsed, eq]
  exact int64_seconds_eq (by omega) fits

variable {newer older : Reading} {storage : Storage} {nonNegative : Bool}

theorem int64_not_negative {k : Nat} (fits : k < 2 ^ 63) : ¬ Int64.ofInt k < 0 := by
  have zero : Int64.toInt 0 = 0 := rfl
  rw [Int64.lt_iff_toInt_lt, Int64.toInt_ofInt_of_le (by omega) (by omega), zero]
  omega

/-- A distance of 54 bits at most: the rate is not negative. -/
theorem rateBetween_of_short (spaced : Spaced newer older)
    (short : (storage.held (older.count - newer.count)).natAbs < 2 ^ 54) :
    rateBetween storage nonNegative newer older = Int64.ofInt
      (roundedTo53 (storage.held (older.count - newer.count)).natAbs / elapsed newer older : Nat) := by
  have bounds := elapsed_bounds spaced
  have rounded := roundedTo53_le short
  simp only [rateBetween, rate, Reading.sample, deltaVal_value, Option.elim_some, rateOf,
    int64_abs_ofInt short, int64_elapsed spaced]
  generalize roundedTo53 (storage.held (older.count - newer.count)).natAbs = distance at rounded ⊢
  have small := Nat.div_le_self distance (elapsed newer older)
  simp only [int64_div (by omega : distance < 2 ^ 63) (by omega : elapsed newer older < 2 ^ 63)]
  exact if_neg fun negative => int64_not_negative (by omega) negative.2

/-- A distance that an int64 does not hold: the smallest one is taken for it. -/
theorem rateBetween_of_wrapped (spaced : Spaced newer older)
    (large : 2 ^ 63 ≤ (storage.held (older.count - newer.count)).natAbs)
    (fits : (storage.held (older.count - newer.count)).natAbs < 2 ^ 64) :
    rateBetween storage false newer older < 0 ∧ rateBetween storage true newer older = 0 := by
  have bounds := elapsed_bounds spaced
  simp only [rateBetween, rate, Reading.sample, deltaVal_value, Option.elim_some, rateOf,
    int64_abs_ofInt_large large fits, int64_elapsed spaced]
  generalize elapsed newer older = span at bounds
  have divisor : (Int64.ofInt span).toInt = span := Int64.toInt_ofInt_of_le (by omega) (by omega)
  have negative : Int64.minValue / Int64.ofInt span < 0 := by
    have zero : Int64.toInt 0 = 0 := rfl
    have least : Int64.minValue.toInt = -((2 ^ 63 : Nat) : Int) := rfl
    have apart : Int64.ofInt span ≠ -1 := by
      intro same
      have minusOne : (-1 : Int64).toInt = -1 := rfl
      rw [same, minusOne] at divisor
      omega
    have whole : 1 ≤ 2 ^ 63 / span := (Nat.one_le_div_iff (by omega)).mpr (by omega)
    rw [Int64.lt_iff_toInt_lt, Int64.toInt_div_of_ne_right _ _ apart, least, divisor, zero,
      Int.neg_tdiv, ← Int.ofNat_tdiv]
    omega
  exact ⟨by simpa using negative, if_pos ⟨trivial, negative⟩⟩

/-! ## Signed counters -/

/-- The whole seconds between two readings. -/
def secondsApart (newer older : Reading) : Nat := ((newer.time - older.time) / 1000000000).toNat

/-- The rate that is asked for: the difference over the whole seconds, without
its fraction, and not below zero where that is asked for. -/
def wantedRate (nonNegative : Bool) (newer older : Reading) : Int :=
  let rate := (newer.count - older.count).tdiv (secondsApart newer older)
  if nonNegative then max 0 rate else rate

/-- The counter rose, and its rate is the same with the difference and the
seconds as float64 has them; or it fell by less than the seconds. -/
def Fits (nonNegative : Bool) (newer older : Reading) : Prop :=
  if older.count ≤ newer.count then
    roundedTo53 (newer.count - older.count).toNat / elapsed newer older =
      (newer.count - older.count).toNat / secondsApart newer older
  else
    (older.count - newer.count).toNat < elapsed newer older ∧
      (nonNegative = false → (older.count - newer.count).toNat < secondsApart newer older)

theorem secondsApart_pos (spaced : Spaced newer older) : 0 < secondsApart newer older := by
  have apart : (5 * 1000000000 : Int) ≤ newer.time - older.time := spaced.apart
  unfold secondsApart
  generalize (newer.time - older.time : Int) = span at apart ⊢
  omega

theorem wantedRate_of_rise (rise : newer.count - older.count = (k : Nat)) :
    wantedRate nonNegative newer older = (k / secondsApart newer older : Nat) := by
  simp only [wantedRate, rise, ← Int.ofNat_tdiv]
  split
  · exact max_eq_right (Int.natCast_nonneg _)
  · rfl

theorem wantedRate_of_fall (fall : newer.count - older.count = -((k : Nat) : Int)) :
    wantedRate nonNegative newer older =
      if nonNegative then 0 else -((k / secondsApart newer older : Nat) : Int) := by
  simp only [wantedRate, fall, Int.neg_tdiv, ← Int.ofNat_tdiv]
  split
  · exact max_eq_left (Int.neg_nonpos_of_nonneg (Int.natCast_nonneg _))
  · rfl

theorem int64_eq_iff {a b : Int} (lowA : -2 ^ 63 ≤ a) (highA : a < 2 ^ 63) (lowB : -2 ^ 63 ≤ b)
    (highB : b < 2 ^ 63) : Int64.ofInt a = Int64.ofInt b ↔ a = b := by
  constructor
  · intro same
    have values := congrArg Int64.toInt same
    rwa [Int64.toInt_ofInt_of_le lowA highA, Int64.toInt_ofInt_of_le lowB highB] at values
  · exact congrArg Int64.ofInt

/-- Two neighbours have the rate that is asked for exactly if it fits them. -/
theorem rateBetween_eq_wanted_iff (spaced : Spaced newer older)
    (exactNewer : newer.count.natAbs < 2 ^ 53) (exactOlder : older.count.natAbs < 2 ^ 53) :
    rateBetween .int64 nonNegative newer older =
        Int64.ofInt (wantedRate nonNegative newer older) ↔
      Fits nonNegative newer older := by
  have held : Storage.held .int64 (older.count - newer.count) = older.count - newer.count :=
    Int.bmod_eq_of_le (by omega) (by omega)
  have short : (Storage.held .int64 (older.count - newer.count)).natAbs < 2 ^ 54 := by
    rw [held]
    omega
  have made : rateBetween .int64 nonNegative newer older = _ := rateBetween_of_short spaced short
  have rounded := roundedTo53_le short
  have bounds := elapsed_bounds spaced
  rw [held] at made rounded short
  rw [made]
  unfold Fits
  split
  · rename_i rise
    obtain ⟨k, distance⟩ := Int.eq_ofNat_of_zero_le (Int.sub_nonneg_of_le rise)
    have magnitude : (older.count - newer.count).natAbs = k := by omega
    have madeSmall := Nat.div_le_self (roundedTo53 k) (elapsed newer older)
    have wantedSmall := Nat.div_le_self k (secondsApart newer older)
    rw [magnitude] at rounded ⊢
    rw [wantedRate_of_rise distance, distance, Int.toNat_natCast]
    generalize roundedTo53 k / elapsed newer older = made at madeSmall ⊢
    generalize k / secondsApart newer older = wanted at wantedSmall ⊢
    rw [int64_eq_iff (by omega) (by omega) (by omega) (by omega), Int.natCast_inj]
  · rename_i fall
    obtain ⟨k, distance⟩ := Int.eq_ofNat_of_zero_le (Int.sub_nonneg_of_le (Int.not_le.mp fall).le)
    have magnitude : (older.count - newer.count).natAbs = k := by omega
    have down : newer.count - older.count = -((k : Nat) : Int) := by omega
    have madeSmall := Nat.div_le_self (roundedTo53 k) (elapsed newer older)
    have wantedSmall := Nat.div_le_self k (secondsApart newer older)
    have madeNone : roundedTo53 k / elapsed newer older = 0 ↔ k < elapsed newer older := by
      rw [Nat.div_eq_zero_iff_lt (by omega), roundedTo53_lt_iff (by omega)]
    have wantedNone : k / secondsApart newer older = 0 ↔ k < secondsApart newer older :=
      Nat.div_eq_zero_iff_lt (secondsApart_pos spaced)
    rw [magnitude] at rounded ⊢
    rw [wantedRate_of_fall down, distance, Int.toNat_natCast, ← madeNone, ← wantedNone]
    clear madeNone wantedNone
    generalize roundedTo53 k / elapsed newer older = made at madeSmall ⊢
    generalize k / secondsApart newer older = wanted at wantedSmall ⊢
    cases nonNegative with
    | true =>
      rw [if_pos rfl, int64_eq_iff (by omega) (by omega) (by omega) (by omega)]
      simp
    | false =>
      rw [if_neg Bool.false_ne_true, int64_eq_iff (by omega) (by omega) (by omega) (by omega)]
      simp only [forall_const]
      omega

/-- Half a year and 53 bits are far from where float64 rounds: a rise fits then,
and a fall of less than one a second. -/
theorem fits_iff_of_short (spaced : Spaced newer older)
    (short : newer.time - older.time < 2 ^ 24 * 1000000000)
    (exact : (newer.count - older.count).natAbs < 2 ^ 53) :
    Fits nonNegative newer older ↔ older.count ≤ newer.count ∨
      (older.count - newer.count).toNat < secondsApart newer older := by
  have seconds : elapsed newer older = secondsApart newer older := by
    have apart : (5 * 1000000000 : Int) ≤ newer.time - older.time := spaced.apart
    rw [elapsed, sub_of_short apart short, secondsOf_of_short short, secondsApart]
    generalize (newer.time - older.time : Int) = span at apart ⊢
    omega
  unfold Fits
  rw [seconds]
  split
  · rename_i rise
    rw [roundedTo53, if_pos (by omega)]
    simp [rise]
  · rename_i fall
    simp only [fall, false_or]
    exact ⟨And.left, fun less => ⟨less, fun _ => less⟩⟩

/-- **The rates of a signed counter.** The values that are derived are the
differences over the whole seconds, truncated and clamped, exactly if each
neighbouring pair fits, which for usual series `fits_iff_of_short` decides. -/
theorem rates_are_signed_iff_fit (nonNegative : Bool) (series : Series readings)
    (exact : ∀ reading ∈ readings, reading.count.natAbs < 2 ^ 53) :
    (∃ derives, deriveMetricValues (readings.map (Reading.sample .int64)) nonNegative = .ok derives ∧
      derives.map MetricValue.value = List.zipWith (fun newer older =>
        .int64 (Int64.ofInt (wantedRate nonNegative newer older))) readings readings.tail) ↔
      readings.IsChain (Fits nonNegative) := by
  have made := derive_readings .int64 nonNegative series
  have values : (∃ derives,
      deriveMetricValues (readings.map (Reading.sample .int64)) nonNegative = .ok derives ∧
        derives.map MetricValue.value = List.zipWith (fun newer older =>
          .int64 (Int64.ofInt (wantedRate nonNegative newer older))) readings readings.tail) ↔
      List.zipWith (fun newer older => Value.int64 (rateBetween .int64 nonNegative newer older))
          readings readings.tail =
        List.zipWith (fun newer older =>
          Value.int64 (Int64.ofInt (wantedRate nonNegative newer older))) readings readings.tail := by
    simp only [made, Except.ok.injEq, exists_eq_left', List.map_zipWith]
    rfl
  rw [values, zipWith_tail_eq_iff]
  apply isChain_iff_of_neighbours series.neighbours
  intro newer memNewer older memOlder spaced
  rw [Value.int64.injEq]
  exact rateBetween_eq_wanted_iff spaced (exact newer memNewer) (exact older memOlder)

/-- A counter that rises by a hundred a second. -/
theorem rise_is_exact :
    let readings : List Reading :=
      [⟨"if_octets", 10 * 1000000000, METRIC_DERIVE, 1000⟩, ⟨"if_octets", 0, METRIC_DERIVE, 0⟩]
    ∃ derives, deriveMetricValues (readings.map (Reading.sample .int64)) true = .ok derives ∧
      derives.map MetricValue.value = List.zipWith (fun newer older =>
        .int64 (Int64.ofInt (wantedRate true newer older))) readings readings.tail := by
  intro readings
  have series : Series readings :=
    ⟨by simp [readings], List.isChain_cons_cons.mpr ⟨⟨rfl, by simp⟩, List.isChain_singleton _⟩⟩
  refine (rates_are_signed_iff_fit true series ?_).mpr ?_
  · simp [readings]
  · exact List.isChain_cons_cons.mpr ⟨by rfl, List.isChain_singleton _⟩

/-- A counter that starts again from zero: the fall counts as a rise. -/
theorem reset_counts_as_rise :
    let readings : List Reading :=
      [⟨"if_octets", 10 * 1000000000, METRIC_DERIVE, 0⟩, ⟨"if_octets", 0, METRIC_DERIVE, 1000⟩]
    ¬ ∃ derives, deriveMetricValues (readings.map (Reading.sample .int64)) true = .ok derives ∧
      derives.map MetricValue.value = List.zipWith (fun newer older =>
        .int64 (Int64.ofInt (wantedRate true newer older))) readings readings.tail := by
  intro readings
  have made : deriveMetricValues (readings.map (Reading.sample .int64)) true =
      .ok [{ kind := METRIC_DERIVE, time := 0, value := .int64 100, valueType := "int64" }] := by
    rfl
  rintro ⟨derives, same, values⟩
  rw [made] at same
  cases same
  cases values

/-! ## Every integer type -/

/-- The counter did not rise; or it did, and the wrapped difference of 32 bits
is still below the seconds, as the one of 64 bits is clamped. -/
def Agrees (nonNegative : Bool) (newer older : Reading) : Prop :=
  newer.count ≤ older.count ∨
    (nonNegative = true ∧ 2 ^ 32 - (newer.count - older.count) < elapsed newer older)

/-- The magnitude that is converted for a counter that did not rise. -/
theorem natAbs_held_of_fall {k : Nat} (storage : Storage) (small : k < 2 ^ 31) :
    (storage.held k).natAbs = k := by
  have held32 : (k : Int).bmod (2 ^ 32) = k := Int.bmod_eq_of_le (by omega) (by omega)
  have held64 : (k : Int).bmod (2 ^ 64) = k := Int.bmod_eq_of_le (by omega) (by omega)
  cases storage <;> simp only [Storage.held, held32, held64] <;> omega

/-- The one for a counter that rose by `k`. -/
def Storage.risen (k : Nat) : Storage → Nat
  | .int => k
  | .int32 => k
  | .int64 => k
  | .uint => 2 ^ 64 - k
  | .uint32 => 2 ^ 32 - k
  | .uint64 => 2 ^ 64 - k

theorem natAbs_held_of_rise {k : Nat} (storage : Storage) (positive : 0 < k) (small : k < 2 ^ 31) :
    (storage.held (-k)).natAbs = storage.risen k := by
  have held32 : (-(k : Int)).bmod (2 ^ 32) = -k := Int.bmod_eq_of_le (by omega) (by omega)
  have held64 : (-(k : Int)).bmod (2 ^ 64) = -k := Int.bmod_eq_of_le (by omega) (by omega)
  cases storage <;> simp only [Storage.held, Storage.risen, held32, held64] <;> omega

theorem int64_eq_zero_iff {k : Nat} (fits : k < 2 ^ 63) : Int64.ofInt k = 0 ↔ k = 0 := by
  have zero : (0 : Int64) = Int64.ofInt 0 := rfl
  rw [zero, int64_eq_iff (by omega) (by omega) (by omega) (by omega)]
  omega

/-- A counter that rose has one rate in all types only where all are zero. -/
theorem rise_agrees_iff {k : Nat} (spaced : Spaced newer older) (positive : 0 < k)
    (small : k < 2 ^ 31) (rise : older.count - newer.count = -k) :
    (∀ storage storage', rateBetween storage nonNegative newer older =
        rateBetween storage' nonNegative newer older) ↔
      nonNegative = true ∧ 2 ^ 32 - k < elapsed newer older := by
  have bounds := elapsed_bounds spaced
  have magnitude : ∀ storage : Storage,
      (storage.held (older.count - newer.count)).natAbs = storage.risen k := by
    intro storage
    rw [rise]
    exact natAbs_held_of_rise storage positive small
  have short : ∀ (storage : Storage) (j : Nat), storage.risen k = j → j < 2 ^ 53 →
      rateBetween storage nonNegative newer older = Int64.ofInt (j / elapsed newer older : Nat) := by
    intro storage j risen short
    rw [rateBetween_of_short spaced (by rw [magnitude]; omega), magnitude, risen, roundedTo53,
      if_pos short]
  have wrapped : ∀ storage : Storage, storage.risen k = 2 ^ 64 - k →
      rateBetween storage false newer older < 0 ∧ rateBetween storage true newer older = 0 := by
    intro storage risen
    exact rateBetween_of_wrapped spaced (by rw [magnitude, risen]; omega)
      (by rw [magnitude, risen]; omega)
  have signed := short .int k rfl (by omega)
  have half := short .uint32 (2 ^ 32 - k) rfl (by omega)
  have distanceSmall := Nat.div_le_self k (elapsed newer older)
  have complementSmall := Nat.div_le_self (2 ^ 32 - k) (elapsed newer older)
  constructor
  · intro same
    cases nonNegative with
    | false =>
      have negative := (wrapped .uint64 rfl).1
      rw [← same .int .uint64, signed] at negative
      exact absurd negative (int64_not_negative (by omega))
    | true =>
      have zero := (wrapped .uint64 rfl).2
      rw [← same .uint32 .uint64, half, int64_eq_zero_iff (by omega)] at zero
      exact ⟨rfl, (Nat.div_eq_zero_iff_lt (by omega)).mp zero⟩
  · rintro ⟨rfl, slow⟩
    have zero : ∀ j, j < elapsed newer older → Int64.ofInt (j / elapsed newer older : Nat) = 0 := by
      intro j less
      rw [Nat.div_eq_of_lt less]
      rfl
    have none : ∀ storage : Storage, rateBetween storage true newer older = 0 := by
      intro storage
      cases storage with
      | int => exact signed.trans (zero k (by omega))
      | int32 => exact (short .int32 k rfl (by omega)).trans (zero k (by omega))
      | int64 => exact (short .int64 k rfl (by omega)).trans (zero k (by omega))
      | uint => exact (wrapped .uint rfl).2
      | uint32 => exact half.trans (zero (2 ^ 32 - k) slow)
      | uint64 => exact (wrapped .uint64 rfl).2
    intro storage storage'
    rw [none, none]

theorem rateBetween_agree_iff (spaced : Spaced newer older)
    (smallNewer : 0 ≤ newer.count ∧ newer.count < 2 ^ 31)
    (smallOlder : 0 ≤ older.count ∧ older.count < 2 ^ 31) :
    (∀ storage storage', rateBetween storage nonNegative newer older =
        rateBetween storage' nonNegative newer older) ↔
      Agrees nonNegative newer older := by
  by_cases fall : newer.count ≤ older.count
  · obtain ⟨k, distance⟩ := Int.eq_ofNat_of_zero_le (Int.sub_nonneg_of_le fall)
    have rates : ∀ storage, rateBetween storage nonNegative newer older =
        Int64.ofInt (roundedTo53 k / elapsed newer older : Nat) := by
      intro storage
      have magnitude := natAbs_held_of_fall storage (by omega : k < 2 ^ 31)
      rw [← distance] at magnitude
      rw [rateBetween_of_short spaced (by omega), magnitude]
    simp only [Agrees, fall, true_or, rates, implies_true]
  · obtain ⟨k, distance⟩ := Int.eq_ofNat_of_zero_le (Int.sub_nonneg_of_le (Int.not_le.mp fall).le)
    have rise : older.count - newer.count = -(k : Int) := by omega
    rw [rise_agrees_iff spaced (by omega) (by omega) rise, Agrees, distance]
    simp only [fall, false_or]
    exact and_congr_right fun _ => by omega

/-- **The types agree** on the rates of a counter exactly if they agree on those
of each neighbouring pair. -/
theorem storages_agree_iff (nonNegative : Bool) (series : Series readings)
    (small : ∀ reading ∈ readings, 0 ≤ reading.count ∧ reading.count < 2 ^ 31) :
    (∀ storage storage', deriveMetricValues (readings.map (Reading.sample storage)) nonNegative =
        deriveMetricValues (readings.map (Reading.sample storage')) nonNegative) ↔
      readings.IsChain (Agrees nonNegative) := by
  have each : ∀ storage storage',
      deriveMetricValues (readings.map (Reading.sample storage)) nonNegative =
          deriveMetricValues (readings.map (Reading.sample storage')) nonNegative ↔
        readings.IsChain fun newer older => rateBetween storage nonNegative newer older =
          rateBetween storage' nonNegative newer older := by
    intro storage storage'
    rw [derive_readings storage nonNegative series, derive_readings storage' nonNegative series,
      Except.ok.injEq, zipWith_tail_eq_iff]
    apply List.IsChain.iff
    intro newer older
    simp [derived, rateBetween, Reading.sample]
  have pairs : (∀ storage storage', readings.IsChain fun newer older =>
      rateBetween storage nonNegative newer older = rateBetween storage' nonNegative newer older) ↔
      readings.IsChain fun newer older => ∀ storage storage',
        rateBetween storage nonNegative newer older =
          rateBetween storage' nonNegative newer older := by
    simp only [List.isChain_iff_getElem]
    exact ⟨fun all i within storage storage' => all storage storage' i within,
      fun all storage storage' i within => all i within storage storage'⟩
  simp only [each, pairs]
  exact isChain_iff_of_neighbours series.neighbours fun newer memNewer older memOlder spaced =>
    rateBetween_agree_iff spaced (small newer memNewer) (small older memOlder)

/-- A counter that falls has one rate in all types. -/
theorem fall_agrees :
    let readings : List Reading :=
      [⟨"if_octets", 10 * 1000000000, METRIC_DERIVE, 0⟩, ⟨"if_octets", 0, METRIC_DERIVE, 1000⟩]
    ∀ storage storage', deriveMetricValues (readings.map (Reading.sample storage)) true =
      deriveMetricValues (readings.map (Reading.sample storage')) true := by
  intro readings
  have series : Series readings :=
    ⟨by simp [readings], List.isChain_cons_cons.mpr ⟨⟨rfl, by simp⟩, List.isChain_singleton _⟩⟩
  refine (storages_agree_iff true series ?_).mpr ?_
  · simp [readings]
  · exact List.isChain_cons_cons.mpr ⟨.inl (by simp), List.isChain_singleton _⟩

/-- One that rises by a hundred a second: the unsigned types have wrapped. -/
theorem rise_disagrees :
    let readings : List Reading :=
      [⟨"if_octets", 10 * 1000000000, METRIC_DERIVE, 1000⟩, ⟨"if_octets", 0, METRIC_DERIVE, 0⟩]
    ¬ ∀ storage storage', deriveMetricValues (readings.map (Reading.sample storage)) true =
      deriveMetricValues (readings.map (Reading.sample storage')) true := by
  intro readings same
  have signed : deriveMetricValues (readings.map (Reading.sample .int)) true =
      .ok [{ kind := METRIC_DERIVE, time := 0, value := .int64 100, valueType := "int64" }] := by
    rfl
  have unsigned : deriveMetricValues (readings.map (Reading.sample .uint64)) true =
      .ok [{ kind := METRIC_DERIVE, time := 0, value := .int64 0, valueType := "int64" }] := by
    rfl
  have equal := (signed.symm.trans (same .int .uint64)).trans unsigned
  cases equal

end NetGraphz.CounterRates
