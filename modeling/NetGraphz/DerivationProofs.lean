import Mathlib.Data.List.Chain
import NetGraphz.Metrics

/-! When rates can be derived from the samples of a series, and what they are:
one for each two neighbouring samples, in the samples' order. -/
namespace NetGraphz.DerivationProofs
open Metrics GoFloat

/-- A rate can be derived from two neighbouring samples, the newer one first. -/
structure Derives (prev curr : MetricValue) : Prop where
  series : prev.name = curr.name
  alike : prev.value.typeOf = curr.value.typeOf
  supported : (deltaVal curr.value prev.value).isSome
  spaced : 5 * 1000000000 ≤ prev.time.sub curr.time

instance : Decidable (Derives prev curr) :=
  decidable_of_iff (prev.name = curr.name ∧ prev.value.typeOf = curr.value.typeOf ∧
      (deltaVal curr.value prev.value).isSome ∧ 5 * 1000000000 ≤ prev.time.sub curr.time)
    ⟨fun ⟨series, alike, supported, spaced⟩ => ⟨series, alike, supported, spaced⟩,
      fun ⟨series, alike, supported, spaced⟩ => ⟨series, alike, supported, spaced⟩⟩

/-- A distance over a span of time, as the loop computes it. -/
def rateOf (nonNegative : Bool) (deltaVal : Float.Model) (deltaT : Duration) : Int64 :=
  let value := int64OfFloat64 deltaVal / int64OfFloat64 (seconds deltaT)
  if nonNegative ∧ value < 0 then 0 else value

/-- The rate between two neighbouring samples. -/
def rate (nonNegative : Bool) (prev curr : MetricValue) : Int64 :=
  (deltaVal curr.value prev.value).elim 0 fun deltaVal =>
    rateOf nonNegative deltaVal (prev.time.sub curr.time)

/-- The derived sample stands at the time of the older one. -/
def derived (nonNegative : Bool) (prev curr : MetricValue) : MetricValue :=
  { kind := METRIC_DERIVE, time := curr.time, value := .int64 (rate nonNegative prev curr),
    valueType := "int64" }

/-- One turn of the loop, where it does not fail. -/
theorem deriveStep_of_derives (nonNegative : Bool) (derives : Derives prev curr) :
    deriveStep nonNegative prev curr = .ok (derived nonNegative prev curr) := by
  obtain ⟨series, alike, supported, spaced⟩ := derives
  obtain ⟨delta, distance⟩ := Option.isSome_iff_exists.mp supported
  have late : ¬ prev.time.sub curr.time < 5 * 1000000000 := Int.not_lt.mpr spaced
  simp only [deriveStep, series, alike, distance, late, ne_eq, not_true_eq_false, if_false,
    derived, rate, Option.elim_some, rateOf]

/-- Every check of the loop guards one of the conditions. -/
theorem derives_of_deriveStep (made : deriveStep nonNegative prev curr = .ok sample) :
    Derives prev curr := by
  unfold deriveStep at made
  dsimp only at made
  split at made
  · cases made
  · rename_i series
    split at made
    · cases made
    · rename_i alike
      split at made
      · cases made
      · rename_i delta distance
        split at made
        · cases made
        · rename_i late
          exact ⟨Decidable.not_not.mp series, Decidable.not_not.mp alike, by rw [distance]; rfl,
            Int.not_lt.mp late⟩

/-- Neighbouring samples that rates can be derived from. -/
theorem deriveLoop_of_chain (nonNegative : Bool) (chain : (prev :: rest).IsChain Derives) :
    deriveLoop nonNegative prev rest =
      .ok (List.zipWith (derived nonNegative) (prev :: rest) rest) := by
  induction rest generalizing prev with
  | nil => rfl
  | cons curr rest ih =>
    obtain ⟨first, later⟩ := List.isChain_cons_cons.mp chain
    rw [deriveLoop, deriveStep_of_derives nonNegative first, ih later]
    rfl

theorem chain_of_deriveLoop (made : deriveLoop nonNegative prev rest = .ok derives) :
    (prev :: rest).IsChain Derives := by
  induction rest generalizing prev derives with
  | nil => exact List.isChain_singleton prev
  | cons curr rest ih =>
    rw [deriveLoop] at made
    cases step : deriveStep nonNegative prev curr with
    | error err =>
      rw [step] at made
      cases made
    | ok sample =>
      rw [step] at made
      cases later : deriveLoop nonNegative curr rest with
      | error err =>
        simp only [later] at made
        cases made
      | ok samples => exact List.isChain_cons_cons.mpr ⟨derives_of_deriveStep step, ih later⟩

/-- There are two samples or more, and a rate for each two neighbours. -/
def Derivable (values : List MetricValue) : Prop :=
  2 ≤ values.length ∧ values.IsChain Derives

instance : Decidable (Derivable values) := inferInstanceAs (Decidable (_ ∧ _))

/-- The rates of a series. -/
theorem deriveMetricValues_of_derivable (nonNegative : Bool) (derivable : Derivable values) :
    deriveMetricValues values nonNegative =
      .ok (List.zipWith (derived nonNegative) values values.tail) := by
  obtain ⟨several, chain⟩ := derivable
  rcases values with _ | ⟨prev, _ | ⟨curr, rest⟩⟩
  · simp at several
  · simp at several
  · exact deriveLoop_of_chain nonNegative chain

theorem derivable_of_deriveMetricValues (made : deriveMetricValues values nonNegative = .ok derives) :
    Derivable values := by
  rcases values with _ | ⟨prev, _ | ⟨curr, rest⟩⟩
  · cases made
  · cases made
  · exact ⟨by simp, chain_of_deriveLoop made⟩

/-- What a caller that drops the errors gets. -/
theorem deriveMetricValues_toOption (values : List MetricValue) (nonNegative : Bool) :
    (deriveMetricValues values nonNegative).toOption =
      if Derivable values then some (List.zipWith (derived nonNegative) values values.tail)
      else none := by
  split
  · rename_i derivable
    rw [deriveMetricValues_of_derivable nonNegative derivable]
    rfl
  · rename_i underivable
    cases made : deriveMetricValues values nonNegative with
    | error err => rfl
    | ok derives => exact absurd (derivable_of_deriveMetricValues made) underivable

end NetGraphz.DerivationProofs
