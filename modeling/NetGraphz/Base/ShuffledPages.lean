import Mathlib.Data.List.Rotate

/-! Pages cut by position from listings of the same items, each page from a
listing of its own. Asking goes on until a page is short. -/
namespace NetGraphz.ShuffledPages

variable {α β : Type u}

/-- The page with an index. -/
def page (listing : List α) (size index : Nat) : List α := (listing.drop (index * size)).take size

/-- What the pages from an index on bring together, the first short one being the
last; `none` if it is not among the pages asked for. -/
def scan (pages : Nat → List α) (size : Nat) : (asked index : Nat) → Option (List α)
  | 0, _ => none
  | asked + 1, index =>
    if (pages index).length < size then some (pages index)
    else (scan pages size asked (index + 1)).map (pages index ++ ·)

variable {pages : Nat → List α} {items sent : List α} {size : Nat}

/-- What is made of the items of every page is made of the items of the scan. -/
theorem scan_map (f : α → β) (pages : Nat → List α) (size asked index : Nat) :
    scan (fun index => (pages index).map f) size asked index =
      (scan pages size asked index).map (List.map f) := by
  induction asked generalizing index with
  | zero => rfl
  | succ asked ih =>
    simp only [scan, List.length_map, ih]
    split
    · rfl
    · cases scan pages size asked (index + 1) <;> simp

theorem scan_succ_of_whole (pages : Nat → List α) (whole : (pages index).length = size)
    (scanned : scan pages size (asked + 1) index = some sent) :
    ∃ rest, scan pages size asked (index + 1) = some rest ∧ sent = pages index ++ rest := by
  rw [scan, if_neg (Nat.not_lt.mpr (Nat.le_of_eq whole.symm))] at scanned
  obtain ⟨rest, later, rfl⟩ := Option.map_eq_some_iff.mp scanned
  exact ⟨rest, later, rfl⟩

/-- A scan begins with its first page. -/
theorem prefix_of_scan (scanned : scan pages size asked index = some sent) : pages index <+: sent := by
  cases asked with
  | zero => cases scanned
  | succ asked =>
    unfold scan at scanned
    split at scanned
    · cases scanned
      exact List.prefix_refl _
    · obtain ⟨rest, _, rfl⟩ := Option.map_eq_some_iff.mp scanned
      exact List.prefix_append ..

/-- No more items than a page has: the first page brings them all. -/
theorem scan_of_fits (positive : 0 < size) (fits : items.length ≤ size)
    (listings : Nat → List α) (every : ∀ index, (listings index).Perm items) :
    scan (fun index => page (listings index) size index) size 2 0 = some (listings 0) := by
  have first : page (listings 0) size 0 = listings 0 := by
    rw [page, Nat.zero_mul, List.drop_zero]
    exact List.take_of_length_le ((every 0).length_eq.symm ▸ fits)
  have second : page (listings 1) size 1 = [] := by
    rw [page, Nat.one_mul, List.drop_eq_nil_of_le ((every 1).length_eq.symm ▸ fits), List.take_nil]
  simp only [scan, first, second]
  split
  · rfl
  · simp [positive]

/-- More items than that: a second listing that puts the first item where the
second page begins has it sent twice. -/
theorem scan_of_exceeding (positive : 0 < size) (exceeding : size < items.length)
    (scanned : scan (fun index => page
      (if index = 0 then items else items.rotate (items.length - size)) size index) size asked 0 =
        some sent) : ¬ sent.Nodup := by
  obtain ⟨first, rest, rfl⟩ : ∃ first rest, items = first :: rest := by
    cases items with
    | nil => simp at exceeding
    | cons first rest => exact ⟨first, rest, rfl⟩
  let pages := fun index => page
    (if index = 0 then first :: rest else (first :: rest).rotate ((first :: rest).length - size)) size index
  have onFirst : first ∈ pages 0 := by
    obtain ⟨size, rfl⟩ := Nat.exists_eq_succ_of_ne_zero (Nat.ne_of_gt positive)
    simp [pages, page]
  have onSecond : first ∈ pages 1 := by
    obtain ⟨size', rfl⟩ := Nat.exists_eq_succ_of_ne_zero (Nat.ne_of_gt positive)
    obtain ⟨excess, same⟩ := Nat.exists_eq_add_of_lt exceeding
    have start : (first :: rest).length - (size' + 1) = excess + 1 := by omega
    have behind : ((first :: rest).drop (excess + 1)).length = size' + 1 := by
      rw [List.length_drop]
      omega
    simp only [pages, page, if_neg Nat.one_ne_zero, Nat.one_mul, start]
    rw [List.rotate_eq_drop_append_take (by omega), List.drop_append_of_le_length (by omega),
      List.drop_eq_nil_of_le (by omega), List.nil_append, List.take_succ_cons, List.take_succ_cons]
    exact List.mem_cons_self
  have whole : (pages 0).length = size := by
    simp only [pages, page, if_pos, Nat.zero_mul, List.drop_zero, List.length_take]
    omega
  cases asked with
  | zero => cases scanned
  | succ asked =>
    obtain ⟨later, rescanned, rfl⟩ := scan_succ_of_whole pages whole scanned
    intro distinct
    have again := (prefix_of_scan rescanned).subset onSecond
    exact List.disjoint_of_nodup_append distinct onFirst again

end NetGraphz.ShuffledPages
