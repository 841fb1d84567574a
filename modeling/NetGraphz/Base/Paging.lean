import Mathlib.Data.List.Sort

/-! Pages of keyed items: those after a cursor, in the order of their keys, up
to a limit. A scan asks for one page after another, each from where the last one
ended; nothing assumes that the items stay the same from page to page. -/
namespace NetGraphz.Paging

variable [LinearOrder κ] (key : α → κ)

/-- The items after a cursor, in the order of their keys. -/
def ascending (items : List α) (cursor : κ) : List α :=
  (items.filter fun item => cursor < key item).insertionSort fun item other => key item ≤ key other

/-- The first of them. -/
def page (items : List α) (cursor : κ) (limit : Nat) : List α :=
  (ascending key items cursor).take limit

variable {key} {items : List α} {cursor : κ} {limit : Nat}

theorem mem_ascending {item : α} :
    item ∈ ascending key items cursor ↔ item ∈ items ∧ cursor < key item := by
  simp [ascending]

theorem ascending_strictly (distinct : (items.map key).Nodup) :
    (ascending key items cursor).Pairwise fun item other => key item < key other := by
  have sorted : (ascending key items cursor).Pairwise fun item other => key item ≤ key other := by
    have : Std.Total fun item other : α => key item ≤ key other :=
      ⟨fun item other => le_total (key item) (key other)⟩
    have : IsTrans α fun item other => key item ≤ key other :=
      ⟨fun _ _ _ below above => le_trans below above⟩
    exact List.pairwise_insertionSort _ _
  have different : (ascending key items cursor).Pairwise fun item other => key item ≠ key other := by
    have kept := List.pairwise_map.mp distinct
    exact ((kept.filter _).perm (List.perm_insertionSort _ _).symm fun apart => apart.symm)
  exact sorted.imp₂ (fun _ _ below apart => lt_of_le_of_ne below apart) different

/-- Two lists in strict order with the same members are the same. -/
theorem eq_of_strictly {xs ys : List α}
    (ordered : xs.Pairwise fun item other => key item < key other)
    (ordered' : ys.Pairwise fun item other => key item < key other)
    (same : ∀ item, item ∈ xs ↔ item ∈ ys) : xs = ys := by
  have apart {zs : List α} (sorted : zs.Pairwise fun item other => key item < key other) :
      zs.Nodup := sorted.imp fun below same => absurd (congrArg key same) (ne_of_lt below)
  have perm : xs.Perm ys := (List.perm_ext_iff_of_nodup (apart ordered) (apart ordered')).mpr same
  exact perm.eq_of_pairwise (fun _ _ _ _ below above => absurd above (lt_asymm below))
    ordered ordered'

/-- What comes after the key of an item are the items that stand behind it. -/
theorem ascending_after (distinct : (items.map key).Nodup) {front rest : List α} {last : α}
    (split : ascending key items cursor = front ++ last :: rest) :
    ascending key items (key last) = rest := by
  have ordered : (ascending key items cursor).Pairwise fun item other => key item < key other :=
    ascending_strictly distinct
  rw [split, List.pairwise_append, List.pairwise_cons] at ordered
  obtain ⟨_, ⟨behind, restOrdered⟩, before⟩ := ordered
  apply eq_of_strictly (ascending_strictly distinct) restOrdered
  intro item
  rw [mem_ascending]
  have listed : item ∈ ascending key items cursor ↔ item ∈ front ∨ item = last ∨ item ∈ rest := by
    simp [split]
  rw [mem_ascending] at listed
  have lastListed : last ∈ ascending key items cursor := by simp [split]
  have lastLater : cursor < key last := (mem_ascending.mp lastListed).2
  constructor
  · rintro ⟨member, later⟩
    rcases listed.mp ⟨member, lastLater.trans later⟩ with inFront | rfl | inRest
    · exact absurd (before item inFront last (by simp)) (lt_asymm later)
    · exact absurd later (lt_irrefl _)
    · exact inRest
  · intro inRest
    exact ⟨(listed.mpr (Or.inr (Or.inr inRest))).1, behind item inRest⟩

/-- From a later position on, the same items come without those passed over. -/
theorem ascending_later (distinct : (items.map key).Nodup) {later : κ} (onward : cursor ≤ later) :
    ascending key items later =
      (ascending key items cursor).filter fun item => later < key item := by
  have before : (ascending key items cursor).Pairwise fun item other => key item < key other :=
    ascending_strictly distinct
  have ordered := before.filter fun item => later < key item
  apply eq_of_strictly (ascending_strictly distinct) ordered
  intro item
  rw [List.mem_filter, mem_ascending, mem_ascending, decide_eq_true_iff]
  constructor
  · rintro ⟨member, beyond⟩
    exact ⟨⟨member, lt_of_le_of_lt onward beyond⟩, beyond⟩
  · rintro ⟨⟨member, _⟩, beyond⟩
    exact ⟨member, beyond⟩

/-- An item that is on a page is on the page of a later position, too, as long
as that position does not pass over it. -/
theorem mem_page_later (distinct : (items.map key).Nodup) {later : κ} {item : α}
    (onward : cursor ≤ later) (before : later < key item)
    (listed : item ∈ page key items cursor limit) : item ∈ page key items later limit := by
  unfold page at listed ⊢
  rw [ascending_later distinct onward]
  have split := List.take_append_drop limit (ascending key items cursor)
  rw [← split, List.filter_append]
  have kept : item ∈ ((ascending key items cursor).take limit).filter fun item => later < key item :=
    List.mem_filter.mpr ⟨listed, by simpa using before⟩
  have few : (((ascending key items cursor).take limit).filter fun item => later < key item).length ≤
      limit := le_trans (List.length_filter_le _ _) (List.length_take_le _ _)
  rw [List.take_append, List.take_of_length_le few]
  exact List.mem_append_left _ kept

theorem mem_of_mem_page {item : α} (listed : item ∈ page key items cursor limit) :
    item ∈ items ∧ cursor < key item :=
  mem_ascending.mp (List.mem_of_mem_take listed)

theorem page_strictly (distinct : (items.map key).Nodup) :
    (page key items cursor limit).Pairwise fun item other => key item < key other :=
  (ascending_strictly distinct).sublist (List.take_sublist _ _)

/-- A page shorter than its limit has everything after the cursor. -/
theorem page_eq_of_short (short : (page key items cursor limit).length < limit) :
    page key items cursor limit = ascending key items cursor := by
  unfold page at short ⊢
  rw [List.length_take] at short
  exact List.take_of_length_le (by omega)

/-- A page has everything between the cursor and its last item. -/
theorem mem_page_of_le (distinct : (items.map key).Nodup) {item last : α}
    (end_ : (page key items cursor limit).getLast? = some last)
    (member : item ∈ items) (later : cursor < key item) (within : key item ≤ key last) :
    item ∈ page key items cursor limit := by
  have ordered : (ascending key items cursor).Pairwise fun item other => key item < key other :=
    ascending_strictly distinct
  have listed : item ∈ ascending key items cursor := mem_ascending.mpr ⟨member, later⟩
  rw [← List.take_append_drop limit (ascending key items cursor)] at ordered listed
  rcases List.mem_append.mp listed with inPage | inRest
  · exact inPage
  · have below := (List.pairwise_append.mp ordered).2.2 last (List.mem_of_getLast? end_) item inRest
    exact absurd below (not_lt.mpr within)

/-- What a scan has delivered: items in strict order, none beyond its cursor. -/
structure Scanned (key : α → κ) (cursor : κ) (delivered : List α) : Prop where
  ordered : delivered.Pairwise fun item other => key item < key other
  behind : ∀ item ∈ delivered, key item ≤ cursor

/-- Nothing is delivered twice. -/
theorem Scanned.distinct {delivered : List α} (scanned : Scanned key cursor delivered) :
    (delivered.map key).Nodup :=
  List.pairwise_map.mpr (scanned.ordered.imp fun below => ne_of_lt below)

/-- The next page, whatever the items have become, keeps the order. -/
theorem Scanned.ordered_page {delivered : List α} (scanned : Scanned key cursor delivered)
    (distinct : (items.map key).Nodup) (limit : Nat) :
    (delivered ++ page key items cursor limit).Pairwise fun item other => key item < key other := by
  refine List.pairwise_append.mpr ⟨scanned.ordered, page_strictly distinct, ?_⟩
  intro item before other listed
  exact lt_of_le_of_lt (scanned.behind item before) (mem_of_mem_page listed).2

/-- The scan goes on from the last item of the page. -/
theorem Scanned.deliver {delivered : List α} (scanned : Scanned key cursor delivered)
    (distinct : (items.map key).Nodup) {last : α}
    (isLast : (page key items cursor limit).getLast? = some last) :
    Scanned key (key last) (delivered ++ page key items cursor limit) := by
  refine ⟨scanned.ordered_page distinct limit, ?_⟩
  obtain ⟨front, whole⟩ := List.getLast?_eq_some_iff.mp isLast
  have ordered := scanned.ordered_page distinct limit
  rw [whole, ← List.append_assoc] at ordered ⊢
  intro item listed
  rcases List.mem_append.mp listed with before | same
  · exact le_of_lt ((List.pairwise_append.mp ordered).2.2 item before last (by simp))
  · rw [List.mem_singleton.mp same]

end NetGraphz.Paging
