import Mathlib.Data.Finmap

/-! Loops over Go maps: a loop meets every key once, in no order that counts. -/
namespace NetGraphz.GoMap

variable {α : Type} {β γ : α → Type}

/-- The entry made of an entry of a map, under the same key. -/
def entryOf (make : (key : α) → β key → Option (γ key)) (entry : Sigma β) : Option (Sigma γ) :=
  (make entry.1 entry.2).map (Sigma.mk entry.1)

theorem keys_filterMap_sublist (make : (key : α) → β key → Option (γ key))
    (entries : List (Sigma β)) :
    (entries.filterMap (entryOf make)).keys.Sublist entries.keys := by
  induction entries with
  | nil => exact List.Sublist.refl _
  | cons entry rest ih =>
    rw [List.filterMap_cons]
    unfold entryOf at ih ⊢
    cases made : make entry.1 entry.2 with
    | none => simpa [made] using ih.cons entry.1
    | some value => simpa [made] using ih.cons_cons entry.1

theorem nodupKeys_filterMap (make : (key : α) → β key → Option (γ key))
    (entries : Multiset (Sigma β)) (distinct : entries.NodupKeys) :
    (entries.filterMap (entryOf make)).NodupKeys := by
  obtain ⟨entries, rfl⟩ := Quot.exists_rep entries
  have keys := Multiset.nodup_keys.mpr distinct
  have fewer := keys_filterMap_sublist make entries
  exact Multiset.nodup_keys.mp (fewer.nodup keys)

/-- The map a loop fills from another, leaving out what `make` has nothing for. -/
def collect (make : (key : α) → β key → Option (γ key)) (m : Finmap β) : Finmap γ where
  entries := m.entries.filterMap (entryOf make)
  nodupKeys := nodupKeys_filterMap make m.entries m.nodupKeys

/-- It has under a key what is made of the other map's value. -/
theorem lookup_collect_iff [DecidableEq α] {make : (key : α) → β key → Option (γ key)}
    {m : Finmap β} {key : α} {value : γ key} :
    (collect make m).lookup key = some value ↔
      ∃ source, m.lookup key = some source ∧ make key source = some value := by
  rw [← Option.mem_def, Finmap.mem_lookup_iff, collect, Multiset.mem_filterMap]
  constructor
  · rintro ⟨⟨_, source⟩, held, entered⟩
    obtain ⟨_, made, same⟩ := Option.map_eq_some_iff.mp entered
    cases same
    exact ⟨source, Finmap.mem_lookup_iff.mpr held, made⟩
  · rintro ⟨source, held, made⟩
    exact ⟨⟨key, source⟩, Finmap.mem_lookup_iff.mp held, by simp [entryOf, made]⟩

/-- An insertion changes what is found under its own key. -/
theorem lookup_insert [DecidableEq α] {γ : Type} (m : Finmap fun _ : α => γ) (key : α) (value : γ)
    (other : α) : (m.insert key value).lookup other = if other = key then some value else m.lookup other := by
  by_cases same : other = key
  · rw [if_pos same, same, Finmap.lookup_insert]
  · rw [if_neg same, Finmap.lookup_insert_of_ne m same]

/-! ## Orders that count

Where a loop is broken off, or fills a slice, its order does count. The runtime
chooses one anew for every loop. -/

/-- The order in which one loop meets the entries of whatever map it is over. -/
structure Order (β : α → Type) where
  entries : Finmap β → List (Sigma β)
  every : ∀ m, (entries m : Multiset (Sigma β)) = m.entries

variable {m : Finmap β} {order : Order β}

/-- Every listing of a map's entries is the order of some loop. -/
theorem exists_order (m : Finmap β) (listing : List (Sigma β))
    (lists : (listing : Multiset (Sigma β)) = m.entries) :
    ∃ order : Order β, order.entries m = listing := by
  classical
  refine ⟨⟨fun other => if other = m then listing else other.entries.toList, ?_⟩, if_pos rfl⟩
  intro other
  split
  · rename_i same
    rw [same, lists]
  · exact Multiset.coe_toList other.entries

/-- A rearrangement of what is picked from a list is picked from a rearrangement. -/
theorem exists_perm_filterMap {picked : List γ'} {entries : List α'} {pick : α' → Option γ'}
    (perm : picked.Perm (entries.filterMap pick)) :
    ∃ rearranged : List α', rearranged.Perm entries ∧ rearranged.filterMap pick = picked := by
  induction entries generalizing picked with
  | nil => exact ⟨[], List.Perm.refl _, (List.perm_nil.mp perm).symm⟩
  | cons entry rest ih =>
    cases own : pick entry with
    | none =>
      rw [List.filterMap_cons_none own] at perm
      obtain ⟨rearranged, same, picks⟩ := ih perm
      exact ⟨entry :: rearranged, same.cons entry, by rw [List.filterMap_cons_none own, picks]⟩
    | some value =>
      rw [List.filterMap_cons_some own] at perm
      obtain ⟨before, behind, rfl⟩ := List.append_of_mem (perm.mem_iff.mpr List.mem_cons_self)
      have others := (List.perm_cons value).mp (List.perm_middle.symm.trans perm)
      obtain ⟨rearranged, same, picks⟩ := ih others
      obtain ⟨first, second, rfl, picksFirst, picksSecond⟩ := List.filterMap_eq_append_iff.mp picks
      refine ⟨first ++ entry :: second, List.perm_middle.trans (same.cons entry), ?_⟩
      rw [List.filterMap_append, List.filterMap_cons_some own, picksFirst, picksSecond]

/-- What one loop picks from a map, another one picks in any other order. -/
theorem Order.exists_filterMap {picked : List γ'} {pick : Sigma β → Option γ'} (order : Order β)
    (m : Finmap β) (perm : picked.Perm ((order.entries m).filterMap pick)) :
    ∃ order' : Order β, (order'.entries m).filterMap pick = picked := by
  obtain ⟨rearranged, same, picks⟩ := exists_perm_filterMap perm
  obtain ⟨order', listing⟩ := exists_order m rearranged
    ((Multiset.coe_eq_coe.mpr same).trans (order.every m))
  exact ⟨order', by rw [listing, picks]⟩

@[simp] theorem Order.length_entries (order : Order β) (m : Finmap β) :
    (order.entries m).length = m.entries.card := by
  rw [← order.every m, Multiset.coe_card]

theorem Order.entries_eq_nil : order.entries m = [] ↔ m = ∅ := by
  rw [← Multiset.coe_eq_zero, order.every]
  exact ⟨fun none => Finmap.ext none, fun empty => by rw [empty]; rfl⟩

theorem Order.mem_entries [DecidableEq α] {entry : Sigma β} :
    entry ∈ order.entries m ↔ m.lookup entry.1 = some entry.2 := by
  rw [← Multiset.mem_coe, order.every, ← Finmap.mem_lookup_iff]
  rfl

/-- Two loops over one map differ in their order only. -/
theorem Order.perm (first second : Order β) (m : Finmap β) :
    (first.entries m).Perm (second.entries m) :=
  Multiset.coe_eq_coe.mp ((first.every m).trans (second.every m).symm)

theorem Order.nodup (order : Order β) (m : Finmap β) : (order.entries m).Nodup := by
  rw [← Multiset.coe_nodup, order.every]
  exact Multiset.Nodup.of_map _ (Multiset.nodup_keys.mpr m.nodupKeys)

/-- No loop meets a key twice. -/
theorem Order.nodup_keys (order : Order β) (m : Finmap β) :
    ((order.entries m).map Sigma.fst).Nodup := by
  have keys := Multiset.nodup_keys.mpr m.nodupKeys
  rw [← order.every m] at keys
  exact keys

end NetGraphz.GoMap
