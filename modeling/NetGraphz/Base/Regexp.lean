/-! Regular expressions as Go's `regexp` matches them: of all matches that start
at one place the one a backtracking search finds first, with what its groups
took. -/
namespace NetGraphz

/-- A regular expression whose repetitions are all of a single character. -/
inductive Regexp where
  | empty
  | one (accepts : Char → Bool)
  /-- `?`: one character of the class if there is one -/
  | optional (accepts : Char → Bool)
  /-- `*`: as many characters of the class as go -/
  | many (accepts : Char → Bool)
  | seq (first second : Regexp)
  /-- `( )`: what is taken inside is reported -/
  | group (inner : Regexp)

namespace Regexp

/-- What a match took, what its groups took in the order they open, and what
was left. -/
structure Match where
  text : List Char
  groups : List (List Char)
  rest : List Char

/-- A match that takes one more character in front. -/
def Match.cons (c : Char) (m : Match) : Match := { m with text := c :: m.text }

/-- A match, and then another one where it ended. -/
def Match.andThen (m n : Match) : Match := ⟨m.text ++ n.text, m.groups ++ n.groups, n.rest⟩

/-- Nothing taken. -/
def nowhere (text : List Char) : Match := ⟨[], [], text⟩

/-- One character of a class. -/
def oneMatches (accepts : Char → Bool) : List Char → List Match
  | [] => []
  | c :: rest => if accepts c then [⟨[c], [], rest⟩] else []

/-- The longest run of a class, and all shorter ones after it. -/
def manyMatches (accepts : Char → Bool) : List Char → List Match
  | [] => [nowhere []]
  | c :: rest =>
    if accepts c then (manyMatches accepts rest).map (Match.cons c) ++ [nowhere (c :: rest)]
    else [nowhere (c :: rest)]

/-- All matches at the front of a text, in the order they are tried. -/
def attempts : Regexp → List Char → List Match
  | empty, text => [nowhere text]
  | one accepts, text => oneMatches accepts text
  | optional accepts, text => oneMatches accepts text ++ [nowhere text]
  | many accepts, text => manyMatches accepts text
  | seq first second, text =>
    (first.attempts text).flatMap fun m => (second.attempts m.rest).map m.andThen
  | group inner, text => (inner.attempts text).map fun m => { m with groups := m.text :: m.groups }

/-- A fixed text. -/
def literal : List Char → Regexp
  | [] => empty
  | c :: text => seq (one (· = c)) (literal text)

/-- One after the other. -/
def chain (parts : List Regexp) : Regexp := parts.foldr seq empty

/-- `FindStringSubmatch` of an expression between `^` and `$`: the whole match
and its groups. -/
def findWhole (r : Regexp) (text : List Char) : Option (List (List Char)) :=
  ((r.attempts text).find? fun m => m.rest = []).map fun m => m.text :: m.groups

/-! ## What a match takes -/

variable {r first second : Regexp} {accepts : Char → Bool} {text word : List Char} {m : Match}

theorem mem_oneMatches :
    m ∈ oneMatches accepts text ↔ ∃ c rest, text = c :: rest ∧ accepts c ∧ m = ⟨[c], [], rest⟩ := by
  cases text with
  | nil => simp [oneMatches]
  | cons c rest =>
    by_cases own : accepts c
    · simp only [oneMatches, if_pos own, List.mem_singleton]
      constructor
      · rintro rfl
        exact ⟨c, rest, rfl, own, rfl⟩
      · rintro ⟨_, _, same, _, rfl⟩
        cases same
        rfl
    · simp only [oneMatches, if_neg own, List.not_mem_nil, false_iff]
      rintro ⟨_, _, same, own', _⟩
      cases same
      exact own own'

theorem mem_seq : m ∈ (seq first second).attempts text ↔
    ∃ k ∈ first.attempts text, ∃ n ∈ second.attempts k.rest, m = k.andThen n := by
  simp only [attempts, List.mem_flatMap, List.mem_map, eq_comm]

/-- A match of a fixed text takes that text. -/
theorem mem_literal : m ∈ (literal word).attempts text ↔
    ∃ rest, text = word ++ rest ∧ m = ⟨word, [], rest⟩ := by
  induction word generalizing text m with
  | nil =>
    simp only [literal, attempts, List.mem_singleton, nowhere, List.nil_append]
    exact ⟨fun same => ⟨text, rfl, same⟩, fun ⟨rest, same, taken⟩ => same ▸ taken⟩
  | cons c word ih =>
    rw [literal, mem_seq]
    simp only [attempts, mem_oneMatches, ih]
    constructor
    · rintro ⟨_, ⟨_, _, rfl, own, rfl⟩, _, ⟨rest, rfl, rfl⟩, rfl⟩
      rw [decide_eq_true_eq] at own
      subst own
      exact ⟨rest, rfl, rfl⟩
    · rintro ⟨rest, rfl, rfl⟩
      exact ⟨⟨[c], [], word ++ rest⟩, ⟨c, word ++ rest, rfl, by simp, rfl⟩, ⟨word, [], rest⟩,
        ⟨rest, rfl, rfl⟩, rfl⟩

/-- A run of a class up to the end of the text. -/
theorem exists_many_iff :
    (∃ m ∈ (many accepts).attempts text, m.rest = []) ↔ ∀ c ∈ text, accepts c := by
  simp only [attempts]
  induction text with
  | nil => simp [manyMatches, nowhere]
  | cons c rest ih =>
    by_cases own : accepts c
    · rw [manyMatches, if_pos own, List.forall_mem_cons, ← ih, and_iff_right own]
      constructor
      · rintro ⟨m, member, ends⟩
        rcases List.mem_append.mp member with longer | stops
        · obtain ⟨n, inner, rfl⟩ := List.mem_map.mp longer
          exact ⟨n, inner, ends⟩
        · cases List.mem_singleton.mp stops
          cases ends
      · rintro ⟨n, member, ends⟩
        exact ⟨n.cons c, List.mem_append_left _ (List.mem_map_of_mem member), ends⟩
    · simp [manyMatches, own, nowhere]

/-- A search succeeds exactly if some match takes the whole text. -/
theorem findWhole_isSome_iff : (r.findWhole text).isSome ↔ ∃ m ∈ r.attempts text, m.rest = [] := by
  simp [findWhole]

/-- An expression that starts with a fixed text matches only what starts so. -/
theorem literal_prefix (found : ((seq (literal word) second).findWhole text).isSome) :
    word <+: text := by
  obtain ⟨m, member, _⟩ := findWhole_isSome_iff.mp found
  obtain ⟨_, taken, _⟩ := mem_seq.mp member
  obtain ⟨rest, same, _⟩ := mem_literal.mp taken
  exact ⟨rest, same.symm⟩

/-- A fixed text and a run of a class up to the end. -/
theorem literal_many_iff : ((seq (literal word) (many accepts)).findWhole text).isSome ↔
    ∃ rest, text = word ++ rest ∧ ∀ c ∈ rest, accepts c := by
  simp only [findWhole_isSome_iff, mem_seq, mem_literal, ← exists_many_iff]
  constructor
  · rintro ⟨_, ⟨_, ⟨rest, rfl, rfl⟩, m, member, rfl⟩, ends⟩
    exact ⟨rest, rfl, m, member, ends⟩
  · rintro ⟨rest, rfl, m, member, ends⟩
    exact ⟨_, ⟨_, ⟨rest, rfl, rfl⟩, m, member, rfl⟩, ends⟩

end Regexp

end NetGraphz
