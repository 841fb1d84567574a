import Mathlib.Data.List.Infix

/-! Texts made of fields with a separator of its own before each but the first.
Where every separator starts with a mark that it has nowhere else, and none is
the beginning of another, the fields can be read back exactly if no field
contains a separator next to it. -/
namespace NetGraphz.Separators

variable {α : Type u}

/-- A first field, and the others behind their separators. -/
def join : (first : List α) → (rest : List (List α × List α)) → List α
  | first, [] => first
  | first, (separator, field) :: rest => first ++ (separator ++ join field rest)

/-- No field contains the separator behind it or the one before it. -/
def Clear : (first : List α) → (rest : List (List α × List α)) → Prop
  | _, [] => True
  | first, (separator, field) :: rest =>
    ¬ separator <:+: first ∧ ¬ separator <:+: field ∧ Clear field rest

/-- A separator that starts with a mark and has it nowhere else. -/
def Marked (mark : α) (separator : List α) : Prop := ∃ body, separator = mark :: body ∧ mark ∉ body

/-- Separators that cannot be taken for one another. -/
structure Readable (mark : α) (separators : List (List α)) : Prop where
  marked : ∀ separator ∈ separators, Marked mark separator
  apart : separators.Pairwise fun s t => ¬ s <+: t ∧ ¬ t <+: s

variable {mark : α} {s t before after before' after' : List α}

theorem Readable.tail (readable : Readable mark (s :: separators)) : Readable mark separators :=
  ⟨fun separator member => readable.marked separator (List.mem_cons_of_mem _ member),
    (List.pairwise_cons.mp readable.apart).2⟩

/-- A separator that starts before a mark ends before it. -/
theorem ends_before_mark (marked : Marked mark s) (nonempty : before ≠ [])
    (same : s ++ after = before ++ mark :: after') :
    ∃ between, before = s ++ between ∧ after = between ++ mark :: after' := by
  obtain ⟨body, rfl, once⟩ := marked
  rcases List.append_eq_append_iff.mp same with ⟨between, split, rest⟩ | ⟨excess, split, rest⟩
  · exact ⟨between, split, rest⟩
  · cases excess with
    | nil => exact ⟨[], by simpa using split.symm, by simpa using rest.symm⟩
    | cons head excess =>
      obtain ⟨first, before', rfl⟩ := List.exists_cons_of_ne_nil nonempty
      obtain ⟨rfl, -⟩ := List.cons.inj rest
      obtain ⟨-, inBody⟩ := List.cons.inj split
      exact absurd (inBody ▸ by simp) once

/-- Two separators in one text: one ends before the other starts, or they start
together. -/
theorem two_separators (markedS : Marked mark s) (markedT : Marked mark t)
    (same : before ++ (s ++ after) = before' ++ (t ++ after')) :
    (∃ between, before' = before ++ (s ++ between) ∧ after = between ++ (t ++ after')) ∨
      (before = before' ∧ s ++ after = t ++ after') ∨
      ∃ between, before = before' ++ (t ++ between) ∧ after' = between ++ (s ++ after) := by
  have ofMarked : ∀ {r}, Marked mark r → ∀ rest, ∃ tail, r ++ rest = mark :: tail := by
    rintro r ⟨body, rfl, -⟩ rest
    exact ⟨body ++ rest, rfl⟩
  obtain ⟨tailS, headS⟩ := ofMarked markedS after
  obtain ⟨tailT, headT⟩ := ofMarked markedT after'
  rcases List.append_eq_append_iff.mp same with ⟨gap, split, rest⟩ | ⟨gap, split, rest⟩
  · cases gap with
    | nil => exact Or.inr (Or.inl ⟨by simpa using split.symm, rest⟩)
    | cons head gap =>
      rw [headT] at rest
      obtain ⟨between, shape, behind⟩ := ends_before_mark markedS (List.cons_ne_nil _ _) rest
      rw [← headT] at behind
      exact Or.inl ⟨between, by rw [split, shape], behind⟩
  · cases gap with
    | nil => exact Or.inr (Or.inl ⟨by simpa using split, rest.symm⟩)
    | cons head gap =>
      rw [headS] at rest
      obtain ⟨between, shape, behind⟩ := ends_before_mark markedT (List.cons_ne_nil _ _) rest
      rw [← headS] at behind
      exact Or.inr (Or.inr ⟨between, by rw [split, shape], behind⟩)

theorem infix_of_append (before s after : List α) : s <:+: before ++ (s ++ after) :=
  ⟨before, after, List.append_assoc ..⟩

variable {first field : List α} {rest rest' : List (List α × List α)}

/-- Clear fields do not have a separator in them and all that is joined behind
it once more. -/
theorem not_joined_later (readable : Readable mark (s :: rest.map Prod.fst))
    (outside : ¬ s <:+: first) (clear : Clear first rest)
    (fields : rest'.map Prod.fst = rest.map Prod.fst)
    (same : before ++ (s ++ join field rest') = join first rest) : False := by
  induction rest generalizing s first field rest' before with
  | nil =>
    apply outside
    rw [show first = before ++ (s ++ join field rest') from same.symm]
    exact infix_of_append ..
  | cons head rest ih =>
    obtain ⟨t, second⟩ := head
    obtain ⟨⟨t', second'⟩, rest', rfl⟩ : ∃ head' tail', rest' = head' :: tail' := by
      cases rest' with
      | nil => cases fields
      | cons head' tail' => exact ⟨head', tail', rfl⟩
    obtain ⟨separator, others⟩ := List.cons.inj fields
    have separator' : t' = t := separator
    subst separator'
    obtain ⟨_, outside', clear⟩ := clear
    have markedS := readable.marked s List.mem_cons_self
    have markedT := readable.marked t' (List.mem_cons_of_mem _ List.mem_cons_self)
    obtain ⟨notPrefix, notPrefix'⟩ :=
      (List.pairwise_cons.mp readable.apart).1 t' List.mem_cons_self
    rcases two_separators markedS markedT same with ⟨between, split, _⟩ | ⟨_, together⟩ |
      ⟨between, _, behind⟩
    · exact outside (split ▸ infix_of_append ..)
    · have prefixS : s <+: t' ++ join second rest := ⟨_, together⟩
      have prefixT : t' <+: t' ++ join second rest := List.prefix_append ..
      rcases List.prefix_or_prefix_of_prefix prefixS prefixT with isPrefix | isPrefix
      · exact notPrefix isPrefix
      · exact notPrefix' isPrefix
    · -- the next separator stands behind the repeated one as well
      have repeated : (between ++ (s ++ field)) ++ (t' ++ join second' rest') = join second rest := by
        rw [behind]
        simp [join]
      exact ih readable.tail outside' clear others repeated

/-- **Reading back.** Clear fields are the only ones that a text is joined of. -/
theorem fields_unique (readable : Readable mark (rest.map Prod.fst)) (clear : Clear first rest)
    (fields : rest'.map Prod.fst = rest.map Prod.fst)
    (same : join field rest' = join first rest) : field = first ∧ rest' = rest := by
  induction rest generalizing first field rest' with
  | nil =>
    cases rest' with
    | nil => exact ⟨same, rfl⟩
    | cons head' tail' => cases fields
  | cons head rest ih =>
    obtain ⟨s, second⟩ := head
    obtain ⟨⟨s', second'⟩, rest', rfl⟩ : ∃ head' tail', rest' = head' :: tail' := by
      cases rest' with
      | nil => cases fields
      | cons head' tail' => exact ⟨head', tail', rfl⟩
    obtain ⟨separator, others⟩ := List.cons.inj fields
    have separator' : s' = s := separator
    subst separator'
    obtain ⟨outside, outside', clear⟩ := clear
    have marked := readable.marked s' List.mem_cons_self
    rcases two_separators marked marked same with ⟨between, split, _⟩ | ⟨together, behind⟩ |
      ⟨between, _, behind⟩
    · exact absurd (split ▸ infix_of_append ..) outside
    · obtain ⟨rfl, rfl⟩ := ih readable.tail clear others (List.append_cancel_left behind)
      exact ⟨together, rfl⟩
    · exact (not_joined_later readable outside' clear others behind.symm).elim

/-- Fields that are not clear can be moved across a separator. -/
theorem exists_other_fields (marked : ∀ separator ∈ rest.map Prod.fst, separator ≠ [])
    (unclear : ¬ Clear first rest) :
    ∃ field rest', rest'.map Prod.fst = rest.map Prod.fst ∧ join field rest' = join first rest ∧
      ¬ (field = first ∧ rest' = rest) := by
  induction rest generalizing first with
  | nil => exact absurd trivial unclear
  | cons head rest ih =>
    obtain ⟨s, second⟩ := head
    have nonempty : s ≠ [] := marked s List.mem_cons_self
    by_cases behind : s <:+: first
    · obtain ⟨before, after, rfl⟩ := behind
      refine ⟨before, (s, after ++ (s ++ second)) :: rest, rfl, ?_, ?_⟩
      · cases rest <;> simp [join]
      · rintro ⟨same, -⟩
        simp [nonempty] at same
    by_cases inside : s <:+: second
    · obtain ⟨before, after, rfl⟩ := inside
      refine ⟨first ++ (s ++ before), (s, after) :: rest, rfl, ?_, ?_⟩
      · cases rest <;> simp [join]
      · rintro ⟨same, -⟩
        simp [nonempty] at same
    · have later : ¬ Clear second rest := fun clear => unclear ⟨behind, inside, clear⟩
      obtain ⟨field, rest', fields, same, other⟩ :=
        ih (fun separator member => marked separator (List.mem_cons_of_mem _ member)) later
      refine ⟨first, (s, field) :: rest', by simp [fields], by simp [join, same], ?_⟩
      rintro ⟨-, equal⟩
      obtain ⟨headSame, tailSame⟩ := List.cons.inj equal
      exact other ⟨congrArg Prod.snd headSame, tailSame⟩

/-- **The fields can be read back exactly if they are clear.** -/
theorem clear_iff_unique (readable : Readable mark (rest.map Prod.fst)) :
    Clear first rest ↔ ∀ field rest', rest'.map Prod.fst = rest.map Prod.fst →
      join field rest' = join first rest → field = first ∧ rest' = rest := by
  constructor
  · intro clear field rest' fields same
    exact fields_unique readable clear fields same
  · intro unique
    by_contra unclear
    have marked : ∀ separator ∈ rest.map Prod.fst, separator ≠ [] := by
      intro separator member
      obtain ⟨body, rfl, -⟩ := readable.marked separator member
      exact List.cons_ne_nil _ _
    obtain ⟨field, rest', fields, same, other⟩ := exists_other_fields marked unclear
    exact other (unique field rest' fields same)

end NetGraphz.Separators
