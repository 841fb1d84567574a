import NetGraphz.Collectd

/-! Which values of a value list reach the storages. -/
namespace NetGraphz.CollectdSourceProofs
open Collectd Metrics

variable {S : Type}

/-- Every sample of the value list, once for every storage. -/
def everySample (dsName : ValueList → Nat → String) (source : CollectdMetricSource S)
    (vl : ValueList) : List (S × CollectdMetric × MetricValue) :=
  source.storages.flatMap fun s => (samples dsName vl).map fun sample => (s, sample)

/-- The value list is of a type that the source wants. -/
def Wanted (source : CollectdMetricSource S) (vl : ValueList) : Prop :=
  source.filterEnable = true → vl.identifier.type ∈ source.filterTypes

instance (source : CollectdMetricSource S) (vl : ValueList) : Decidable (Wanted source vl) :=
  inferInstanceAs (Decidable (source.filterEnable = true → vl.identifier.type ∈ source.filterTypes))

/-- A wanted value list is added once, sample by sample and storage by storage;
an unwanted one is not. -/
def AddsWanted (dsName : ValueList → Nat → String) (source : CollectdMetricSource S)
    (vl : ValueList) : Prop :=
  (write dsName source vl).Perm (if Wanted source vl then everySample dsName source vl else [])

/-- How often `write` adds each sample to each storage. -/
def timesAdded (source : CollectdMetricSource S) (vl : ValueList) : Nat :=
  if source.filterEnable then filterLoop vl.identifier.type source.filterTypes else 1

theorem write_eq (dsName : ValueList → Nat → String) (source : CollectdMetricSource S)
    (vl : ValueList) :
    write dsName source vl =
      (everySample dsName source vl).flatMap fun call => List.replicate (timesAdded source vl) call := by
  have ofType : ∀ sample ∈ samples dsName vl, sample.1.identifier.type = vl.identifier.type := by
    intro sample member
    obtain ⟨entry, _, rfl⟩ := List.mem_map.mp member
    rfl
  unfold write everySample
  rw [List.flatMap_assoc]
  congr 1
  funext s
  rw [List.flatMap_map]
  apply List.flatMap_congr
  intro sample member
  simp only [ofType sample member, timesAdded]

theorem write_of_once (once : timesAdded source vl = 1) :
    write dsName source vl = everySample dsName source vl := by
  simp [write_eq, once]

theorem write_of_never (never : timesAdded source vl = 0) : write dsName source vl = [] := by
  simp [write_eq, never]

/-- The loop over filter types adds once, if the first of them is the type. -/
theorem filterLoop_eq (type : String) (filterTypes : List String) :
    filterLoop type filterTypes = if filterTypes.head? = some type then 1 else 0 := by
  cases filterTypes <;> simp [filterLoop]

theorem everySample_eq_nil_iff :
    everySample dsName source vl = [] ↔ source.storages = [] ∨ vl.values = [] := by
  cases storages : source.storages with
  | nil => simp [everySample, storages]
  | cons first rest =>
    have others : vl.values = [] → ∀ s ∈ rest, vl.values = [] := fun empty _ _ => empty
    simpa [everySample, storages, samples] using others

/-- **The first filter type decides.** What should be added is added exactly if
filtering is off, or there is nothing to add or nowhere to add it, or the type
stands first among the filter types or not among them at all. -/
theorem adds_wanted_iff (dsName : ValueList → Nat → String) (source : CollectdMetricSource S)
    (vl : ValueList) :
    AddsWanted dsName source vl ↔
      source.filterEnable = false ∨ source.storages = [] ∨ vl.values = [] ∨
        vl.identifier.type ∉ source.filterTypes ∨
          source.filterTypes.head? = some vl.identifier.type := by
  unfold AddsWanted
  cases enabled : source.filterEnable with
  | false =>
    have wanted : Wanted source vl := by simp [Wanted, enabled]
    rw [if_pos wanted, write_of_once (by simp [timesAdded, enabled])]
    exact iff_of_true (List.Perm.refl _) (Or.inl rfl)
  | true =>
    have times : timesAdded source vl =
        if source.filterTypes.head? = some vl.identifier.type then 1 else 0 := by
      simp [timesAdded, enabled, filterLoop_eq]
    by_cases first : source.filterTypes.head? = some vl.identifier.type
    · have wanted : Wanted source vl := fun _ => List.mem_of_mem_head? first
      rw [if_pos wanted, write_of_once (by rw [times, if_pos first])]
      exact iff_of_true (List.Perm.refl _) (by simp [first])
    · rw [write_of_never (by rw [times, if_neg first])]
      by_cases member : vl.identifier.type ∈ source.filterTypes
      · have wanted : Wanted source vl := fun _ => member
        rw [if_pos wanted, List.nil_perm, everySample_eq_nil_iff]
        simp [first, member]
      · have unwanted : ¬ Wanted source vl := fun wanted => member (wanted enabled)
        rw [if_neg unwanted]
        exact iff_of_true (List.Perm.refl _) (by simp [member])

/-- The type stands second among the filter types. -/
theorem second_filter_type_is_not_seen :
    ¬ ∀ (dsName : ValueList → Nat → String) (source : CollectdMetricSource Unit) (vl : ValueList),
      AddsWanted dsName source vl := by
  intro claimed
  let vl : ValueList := ⟨⟨"core", "interface", "eth0", "if_octets", ""⟩, 0, 0, [.derive 1], []⟩
  have added := claimed (fun _ _ => "value") ⟨[()], true, ["cpu", "if_octets"]⟩ vl
  have length := added.length_eq
  simp [Wanted, everySample, samples, write, sampleOf, readValue, filterLoop, vl] at length

end NetGraphz.CollectdSourceProofs
