import Mathlib.Data.List.Forall2
import Mathlib.Data.List.Nodup
import Mathlib.Data.List.Induction

/-! Lists that serve as tables: searched by a key that no two elements share, and
changed element by element. -/
namespace NetGraphz.Keyed

/-- Where no key is repeated, a search for the key of an element finds it. -/
theorem find_of_mem [DecidableEq κ] {key : α → κ} {items : List α} {item : α}
    (distinct : (items.map key).Nodup) (member : item ∈ items) :
    items.find? (fun other => key other = key item) = some item := by
  cases found : items.find? fun other => key other = key item with
  | none =>
    have absent := List.find?_eq_none.mp found item member
    simp at absent
  | some other =>
    have same : key other = key item := by simpa using List.find?_some found
    rw [List.inj_on_of_nodup_map distinct (List.mem_of_find?_eq_some found) member same]

/-- Where no key is repeated, numbered elements have different keys. -/
theorem apart_zipIdx {key : α → κ} {items : List α} (distinct : (items.map key).Nodup) :
    items.zipIdx.Pairwise fun first second => key first.1 ≠ key second.1 := by
  have numbered : items.zipIdx.map (fun item => key item.1) = items.map key := by
    rw [← congrArg (List.map key) (List.zipIdx_map_fst 0 items), List.map_map]
    rfl
  rw [← numbered] at distinct
  exact List.pairwise_map.mp distinct

/-- The elements before one of them have other keys. -/
theorem earlier_apart {key : α → κ} {items : List α} {past : List (α × Nat)} {item : α × Nat}
    (distinct : (items.map key).Nodup) (within : past ++ [item] <+: items.zipIdx) :
    ∀ earlier ∈ past, key earlier.1 ≠ key item.1 := by
  have apart := List.pairwise_append.mp ((apart_zipIdx distinct).sublist within.sublist)
  intro earlier member
  exact apart.2.2 earlier member item (List.mem_singleton_self item)

/-- Where no key is repeated, the order of the entries does not matter to a search. -/
theorem lookup_perm [DecidableEq κ] {entries entries' : List (κ × β)} (perm : entries.Perm entries')
    (distinct : (entries.map Prod.fst).Nodup) (key : κ) :
    entries.lookup key = entries'.lookup key := by
  induction perm with
  | nil => rfl
  | cons entry _ ih =>
    obtain ⟨own, value⟩ := entry
    rw [List.lookup_cons, List.lookup_cons, ih (List.nodup_cons.mp distinct).2]
  | swap first second rest =>
    obtain ⟨own, value⟩ := first
    obtain ⟨own', value'⟩ := second
    have apart : own' ≠ own := by
      rintro rfl
      simp at distinct
    simp only [List.lookup_cons]
    by_cases isFirst : key = own
    · simp [isFirst, beq_eq_false_iff_ne.mpr apart.symm]
    · simp [beq_eq_false_iff_ne.mpr isFirst]
  | trans firstPerm _ ihFirst ihSecond =>
    have distinct' := (firstPerm.map Prod.fst).nodup_iff.mp distinct
    exact (ihFirst distinct).trans (ihSecond distinct')

variable {related : α → α → Prop}

/-- Two changes of a list, element by element, are one. -/
theorem pointwise_trans
    (joined : ∀ old between new, related old between → related between new → related old new)
    {olds betweens news : List α} (first : List.Forall₂ related olds betweens)
    (second : List.Forall₂ related betweens news) : List.Forall₂ related olds news := by
  induction first generalizing news with
  | nil => exact second
  | cons head _ ih =>
    rcases List.forall₂_cons_left_iff.mp second with ⟨new, rest, head', tail', rfl⟩
    exact List.Forall₂.cons (joined _ _ _ head head') (ih tail')

/-- Every element of the changed list was made from one of the old. -/
theorem pointwise_mem {olds news : List α} {new : α} (changed : List.Forall₂ related olds news)
    (member : new ∈ news) : ∃ old ∈ olds, related old new := by
  induction changed with
  | nil => cases member
  | @cons old' new' olds news head tail ih =>
    rcases List.mem_cons.mp member with rfl | later
    · exact ⟨old', List.mem_cons_self, head⟩
    · obtain ⟨old, held, made⟩ := ih later
      exact ⟨old, List.mem_cons_of_mem old' held, made⟩

/-- A search that cannot tell related elements apart finds related ones. -/
theorem pointwise_find {conditions : α → Bool} {olds news : List α} {old : α}
    (changed : List.Forall₂ related olds news)
    (alike : ∀ old new, related old new → conditions old = conditions new)
    (found : olds.find? conditions = some old) :
    ∃ new, news.find? conditions = some new ∧ related old new := by
  induction changed with
  | nil => simp at found
  | @cons old' new' olds news head tail ih =>
    have heads := alike _ _ head
    rw [List.find?_cons] at found ⊢
    cases met : conditions old' with
    | true =>
      rw [met] at found heads
      rw [← heads]
      cases found
      exact ⟨new', rfl, head⟩
    | false =>
      rw [met] at found heads
      rw [← heads]
      exact ih found

/-- The elements whose key no element before them has. -/
def firstOfEach [DecidableEq κ] (key : α → κ) (items : List α) : List α :=
  items.foldl (fun chosen item =>
    if key item ∈ chosen.map key then chosen else chosen ++ [item]) []

section firstOfEach

variable [DecidableEq κ] (key : α → κ)

/-- Every key is kept. -/
theorem mem_keys_firstOfEach (items : List α) (own : κ) :
    own ∈ (firstOfEach key items).map key ↔ own ∈ items.map key := by
  unfold firstOfEach
  induction items using List.reverseRecOn with
  | nil => rfl
  | append_singleton items last ih =>
    rw [List.foldl_concat]
    split
    · rename_i kept
      simp only [List.map_append, List.mem_append, List.map_cons, List.map_nil,
        List.mem_singleton]
      constructor
      · intro held
        exact .inl (ih.mp held)
      · rintro (held | rfl)
        · exact ih.mpr held
        · exact kept
    · simp only [List.map_append, List.mem_append, ih]

theorem firstOfEach_concat (items : List α) (last : α) :
    firstOfEach key (items ++ [last]) =
      if key last ∈ items.map key then firstOfEach key items
      else firstOfEach key items ++ [last] := by
  have step : firstOfEach key (items ++ [last]) =
      if key last ∈ (firstOfEach key items).map key then firstOfEach key items
      else firstOfEach key items ++ [last] := by
    rw [firstOfEach, List.foldl_concat]
    rfl
  simp only [step, mem_keys_firstOfEach]

/-- No key is kept twice. -/
theorem firstOfEach_distinct (items : List α) : ((firstOfEach key items).map key).Nodup := by
  induction items using List.reverseRecOn with
  | nil => exact List.nodup_nil
  | append_singleton items last ih =>
    rw [firstOfEach_concat]
    split
    · exact ih
    · rename_i fresh
      rw [← mem_keys_firstOfEach key items] at fresh
      rw [List.map_append]
      exact List.concat_eq_append ▸ ih.concat fresh

/-- What is kept is what a search for its key finds. -/
theorem mem_firstOfEach (items : List α) (item : α) :
    item ∈ firstOfEach key items ↔ items.find? (fun other => key other = key item) = some item := by
  induction items using List.reverseRecOn with
  | nil => simp [firstOfEach]
  | append_singleton items last ih =>
    have known : key last ∈ items.map key ↔
        (items.find? fun other => key other = key last).isSome := by
      simp [List.find?_isSome]
    rw [firstOfEach_concat, List.find?_append]
    split
    · rename_i held
      rw [ih]
      cases found : items.find? fun other => key other = key item with
      | some other => simp
      | none =>
        have other : key last ≠ key item := by
          intro same
          rw [known, same, found] at held
          cases held
        simp [other]
    · rename_i fresh
      rw [known, Bool.not_eq_true, Option.isSome_eq_false_iff, Option.isNone_iff_eq_none] at fresh
      rw [List.mem_append, ih, List.mem_singleton]
      by_cases same : key last = key item
      · rw [same] at fresh
        simp only [fresh, reduceCtorEq, false_or, Option.none_or]
        simp [same, eq_comm]
      · have other : item ≠ last := fun equal => same (congrArg key equal.symm)
        simp [same, other]

end firstOfEach

end NetGraphz.Keyed
