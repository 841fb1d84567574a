import Mathlib.Data.List.Nodup
import NetGraphz.Base.Keyed

/-! A collection of documents. Each is stored under a key of its own, and belongs
to an owner, whose documents are not touched by what is done to the others'. -/
namespace NetGraphz.Documents

variable [DecidableEq κ] {key : α → κ}

/-- A document takes the place of the one with its key, or comes last when there
is none. -/
def put (key : α → κ) (documents : List α) (document : α) : List α :=
  if key document ∈ documents.map key then
    documents.map fun stored => if key stored = key document then document else stored
  else documents ++ [document]

def drop (key : α → κ) (documents : List α) (own : κ) : List α :=
  documents.filter fun stored => key stored ≠ own

theorem mem_put {documents : List α} {document other : α} :
    other ∈ put key documents document ↔
      other = document ∨ other ∈ documents ∧ key other ≠ key document := by
  unfold put
  split
  · rename_i known
    obtain ⟨stored, held, same⟩ := List.mem_map.mp known
    rw [List.mem_map]
    constructor
    · rintro ⟨old, oldHeld, rfl⟩
      by_cases replaced : key old = key document
      · simp [replaced]
      · simp [replaced, oldHeld]
    · rintro (rfl | ⟨otherHeld, apart⟩)
      · exact ⟨stored, held, if_pos same⟩
      · exact ⟨other, otherHeld, if_neg apart⟩
  · rename_i new
    have apart : other ∈ documents → key other ≠ key document := by
      rintro held same
      exact new (same ▸ List.mem_map_of_mem held)
    rw [List.mem_append, List.mem_singleton]
    constructor
    · rintro (held | rfl)
      · exact Or.inr ⟨held, apart held⟩
      · exact Or.inl rfl
    · rintro (rfl | ⟨held, _⟩)
      · exact Or.inr rfl
      · exact Or.inl held

theorem mem_drop {documents : List α} {own : κ} {other : α} :
    other ∈ drop key documents own ↔ other ∈ documents ∧ key other ≠ own := by
  simp [drop]

/-- Storing a document under a known key adds no key. -/
theorem keys_put (documents : List α) (document : α) :
    (put key documents document).map key =
      if key document ∈ documents.map key then documents.map key
      else documents.map key ++ [key document] := by
  unfold put
  split
  · rw [List.map_map]
    apply List.map_congr_left
    intro stored _
    by_cases same : key stored = key document <;> simp [same]
  · simp

theorem keys_put_nodup {documents : List α} (distinct : (documents.map key).Nodup)
    (document : α) : ((put key documents document).map key).Nodup := by
  rw [keys_put]
  split
  · exact distinct
  · rename_i new
    exact List.nodup_append'.mpr ⟨distinct, List.nodup_singleton _,
      List.disjoint_singleton.mpr new⟩

theorem drop_nodup {documents : List α} {view : α → ρ} (distinct : (documents.map view).Nodup)
    (own : κ) : ((drop key documents own).map view).Nodup :=
  distinct.sublist (List.filter_sublist.map view)

/-! ## The documents of one owner -/

variable [DecidableEq ω] {owner : α → ω}

def ownedBy (owner : α → ω) (own : ω) (documents : List α) : List α :=
  documents.filter fun stored => owner stored = own

theorem mem_ownedBy {documents : List α} {own : ω} {stored : α} :
    stored ∈ ownedBy owner own documents ↔ stored ∈ documents ∧ owner stored = own := by
  simp [ownedBy]

/-- A document that is stored replaces one of its own owner's, or is new to that owner. -/
theorem ownedBy_put {documents : List α} {document : α}
    (same : ∀ stored ∈ documents, key stored = key document → owner stored = owner document)
    (own : ω) :
    ownedBy owner own (put key documents document) =
      if owner document = own then put key (ownedBy owner own documents) document
      else ownedBy owner own documents := by
  have replaced : ownedBy owner own
        (documents.map fun stored => if key stored = key document then document else stored) =
      if owner document = own then
        (ownedBy owner own documents).map fun stored =>
          if key stored = key document then document else stored
      else ownedBy owner own documents := by
    induction documents with
    | nil => simp [ownedBy]
    | cons stored rest ih =>
      have rest := ih fun other held => same other (List.mem_cons_of_mem stored held)
      simp only [ownedBy, List.map_cons, List.filter_cons] at rest ⊢
      rw [rest]
      by_cases replaces : key stored = key document
      · have its := same stored List.mem_cons_self replaces
        by_cases mine : owner document = own <;> simp [replaces, its, mine]
      · by_cases mine : owner document = own <;> by_cases its : owner stored = own <;>
          simp [replaces, its, mine]
  have known (mine : owner document = own) :
      key document ∈ (ownedBy owner own documents).map key ↔ key document ∈ documents.map key := by
    simp only [List.mem_map, mem_ownedBy]
    constructor
    · rintro ⟨stored, ⟨held, _⟩, isKey⟩
      exact ⟨stored, held, isKey⟩
    · rintro ⟨stored, held, isKey⟩
      exact ⟨stored, ⟨held, (same stored held isKey).trans mine⟩, isKey⟩
  unfold put
  by_cases held : key document ∈ documents.map key
  · rw [if_pos held, replaced]
    split
    · rename_i mine
      rw [if_pos ((known mine).mpr held)]
    · rfl
  · rw [if_neg held]
    split
    · rename_i mine
      rw [if_neg (mt (known mine).mp held)]
      simp [ownedBy, mine]
    · rename_i notMine
      simp [ownedBy, notMine]

theorem ownedBy_drop (documents : List α) (own : ω) (removed : κ) :
    ownedBy owner own (drop key documents removed) = drop key (ownedBy owner own documents) removed := by
  simp [ownedBy, drop, List.filter_filter, Bool.and_comm]

/-- A removal is not noticed where nothing has the key. -/
theorem drop_absent {documents : List α} {removed : κ}
    (absent : ∀ stored ∈ documents, key stored ≠ removed) :
    drop key documents removed = documents := by
  simpa [drop, List.filter_eq_self] using absent

@[simp] theorem put_nil (document : α) : put key [] document = [document] := rfl

@[simp] theorem put_self (stored document : α) (same : key stored = key document) :
    put key [stored] document = [document] := by
  simp [put, same]

@[simp] theorem drop_self (stored : α) : drop key [stored] (key stored) = [] := by
  simp [drop]

/-! ## Arrays with keys -/

theorem lookup_replaced (entries : List (κ × β)) (own asked : κ) (value : β) :
    (entries.map fun stored => if stored.1 = own then (own, value) else stored).lookup asked =
      if asked = own ∧ own ∈ entries.map Prod.fst then some value else entries.lookup asked := by
  induction entries with
  | nil => simp
  | cons entry rest ih =>
    obtain ⟨first, old⟩ := entry
    by_cases isOwn : first = own
    · subst isOwn
      by_cases isAsked : asked = first
      · simp [isAsked]
      · simp [List.lookup_cons, beq_false_of_ne isAsked, isAsked, ih]
    · by_cases isFirst : asked = first
      · subst isFirst
        simp [isOwn]
      · have notFirst : asked = own ∧ own = first ∨ asked = own ∧ own ∈ rest.map Prod.fst ↔
            asked = own ∧ own ∈ rest.map Prod.fst := by
          simp [Ne.symm isOwn]
        simp only [List.map_cons, isOwn, if_false, List.lookup_cons, beq_false_of_ne isFirst, ih,
          List.mem_cons, and_or_left, notFirst]

theorem lookup_put (entries : List (κ × β)) (own asked : κ) (value : β) :
    (put Prod.fst entries (own, value)).lookup asked =
      if asked = own then some value else entries.lookup asked := by
  unfold put
  split
  · rename_i known
    rw [lookup_replaced]
    simp [known]
  · rename_i new
    by_cases isOwn : asked = own
    · have absent : entries.lookup own = none := by
        rw [List.lookup_eq_none_iff]
        intro entry held
        have other : entry.1 ≠ own := fun same => new (List.mem_map.mpr ⟨entry, held, same⟩)
        simpa using other.symm
      simp [List.lookup_append, isOwn, absent]
    · simp [List.lookup_append, List.lookup_cons, beq_false_of_ne isOwn, isOwn]

end NetGraphz.Documents
