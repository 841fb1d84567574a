import Mathlib.Data.List.Basic

/-! Regular expressions with choices and repetitions over any characters, as
backtracking engines match them: of all matches at the front of a text in the
order in which they are tried the first one counts. A search takes the first place
that has a match. -/
namespace NetGraphz

inductive Pattern (α : Type u) where
  | empty
  | one (accepts : α → Bool)
  /-- `|`: the second is tried after the first -/
  | alt (first second : Pattern α)
  | seq (first second : Pattern α)
  /-- `*` or `*?`: as many repetitions as go are tried first, or as few -/
  | star (greedy : Bool) (inner : Pattern α)
  /-- `( )`: what is taken inside is reported under the number -/
  | group (number : Nat) (inner : Pattern α)

namespace Pattern

/-- What a match took, what its groups took, the later after the earlier, and what
was left. -/
structure Match (α : Type u) where
  text : List α
  groups : List (Nat × List α)
  rest : List α

namespace Match

/-- A match, and then another one where it ended. -/
def andThen (m n : Match α) : Match α := ⟨m.text ++ n.text, m.groups ++ n.groups, n.rest⟩

/-- What a group took the last time. -/
def group (m : Match α) (number : Nat) : Option (List α) := m.groups.reverse.lookup number

@[simp] theorem andThen_text (m n : Match α) : (m.andThen n).text = m.text ++ n.text := rfl

@[simp] theorem andThen_rest (m n : Match α) : (m.andThen n).rest = n.rest := rfl

end Match

/-- Nothing taken. -/
def nowhere (text : List α) : Match α := ⟨[], [], text⟩

/-- `?`. -/
def optional (inner : Pattern α) : Pattern α := alt inner empty

/-- `+`. -/
def plus (inner : Pattern α) : Pattern α := seq inner (star true inner)

/-- A character itself. -/
def char [DecidableEq α] (c : α) : Pattern α := one (· = c)

/-- One character of a class. -/
def oneMatches (accepts : α → Bool) : List α → List (Match α)
  | [] => []
  | c :: rest => if accepts c then [⟨[c], [], rest⟩] else []

/-- Up to so many repetitions, each of which takes something. -/
def repeated (greedy : Bool) (once : List α → List (Match α)) : Nat → List α → List (Match α)
  | 0, text => [nowhere text]
  | fuel + 1, text =>
    let more := ((once text).filter fun m => !m.text.isEmpty).flatMap fun m =>
      (repeated greedy once fuel m.rest).map m.andThen
    if greedy then more ++ [nowhere text] else nowhere text :: more

/-- All matches at the front of a text, in the order they are tried. -/
def attempts : Pattern α → List α → List (Match α)
  | empty, text => [nowhere text]
  | one accepts, text => oneMatches accepts text
  | alt first second, text => first.attempts text ++ second.attempts text
  | seq first second, text =>
    (first.attempts text).flatMap fun m => (second.attempts m.rest).map m.andThen
  | star greedy inner, text => repeated greedy inner.attempts text.length text
  | group number inner, text =>
    (inner.attempts text).map fun m => { m with groups := m.groups ++ [(number, m.text)] }

/-- The match at the front of a text. -/
def first (r : Pattern α) (text : List α) : Option (Match α) := (r.attempts text).head?

/-- What is skipped before the first match of a text, and the match. -/
def search (r : Pattern α) : List α → Option (List α × Match α)
  | [] => (r.first []).map ([], ·)
  | c :: rest =>
    match r.first (c :: rest) with
    | some m => some ([], m)
    | none => (r.search rest).map fun found => (c :: found.1, found.2)

/-- Up to so many matches, each searched for where the one before it ended. -/
def findUpTo (r : Pattern α) : Nat → List α → List (Match α)
  | 0, _ => []
  | fuel + 1, text =>
    match r.search text with
    | none => []
    | some (_, m) => m :: findUpTo r fuel m.rest

/-- All matches of an expression that takes something wherever it matches. -/
def findAll (r : Pattern α) (text : List α) : List (Match α) := r.findUpTo text.length text

/-! ## What a match takes -/

variable {r s : Pattern α} {accepts : α → Bool} {text : List α} {m n : Match α}

theorem mem_one : m ∈ (one accepts).attempts text ↔
    ∃ c, accepts c ∧ text = c :: m.rest ∧ m = ⟨[c], [], m.rest⟩ := by
  cases text with
  | nil => simp [attempts, oneMatches]
  | cons c rest =>
    by_cases own : accepts c
    · simp only [attempts, oneMatches, if_pos own, List.mem_singleton]
      constructor
      · rintro rfl
        exact ⟨c, own, rfl, rfl⟩
      · rintro ⟨_, _, same, taken⟩
        cases same
        exact taken
    · simp only [attempts, oneMatches, if_neg own, List.not_mem_nil, false_iff]
      rintro ⟨_, own', same, _⟩
      cases same
      exact own own'

theorem mem_seq : m ∈ (seq r s).attempts text ↔
    ∃ k ∈ r.attempts text, ∃ n ∈ s.attempts k.rest, m = k.andThen n := by
  simp only [attempts, List.mem_flatMap, List.mem_map, eq_comm]

theorem mem_alt : m ∈ (alt r s).attempts text ↔ m ∈ r.attempts text ∨ m ∈ s.attempts text :=
  List.mem_append

theorem mem_empty : m ∈ empty.attempts text ↔ m = nowhere text := List.mem_singleton

theorem mem_group {number : Nat} : m ∈ (group number r).attempts text ↔
    ∃ k ∈ r.attempts text, m = { k with groups := k.groups ++ [(number, k.text)] } := by
  simp only [attempts, List.mem_map, eq_comm]

theorem mem_repeated_succ {greedy : Bool} {once : List α → List (Match α)} {fuel : Nat} :
    m ∈ repeated greedy once (fuel + 1) text ↔ m = nowhere text ∨
      ∃ k ∈ once text, k.text ≠ [] ∧ ∃ n ∈ repeated greedy once fuel k.rest, m = k.andThen n := by
  have more : m ∈ ((once text).filter fun k => !k.text.isEmpty).flatMap (fun k =>
      (repeated greedy once fuel k.rest).map k.andThen) ↔
      ∃ k ∈ once text, k.text ≠ [] ∧ ∃ n ∈ repeated greedy once fuel k.rest, m = k.andThen n := by
    simp only [List.mem_flatMap, List.mem_filter, List.mem_map, Bool.not_eq_true',
      List.isEmpty_eq_false_iff, and_assoc]
    constructor
    · rintro ⟨k, member, some, n, inner, rfl⟩
      exact ⟨k, member, some, n, inner, rfl⟩
    · rintro ⟨k, member, some, n, inner, rfl⟩
      exact ⟨k, member, some, n, inner, rfl⟩
  rw [← more]
  cases greedy
  · exact List.mem_cons
  · exact List.mem_append.trans (or_comm.trans (or_congr_left List.mem_singleton))

/-- A match takes the front of the text and leaves the rest. -/
theorem split_of_mem (member : m ∈ r.attempts text) : text = m.text ++ m.rest := by
  induction r generalizing text m with
  | empty =>
    rw [mem_empty.mp member]
    rfl
  | one accepts =>
    obtain ⟨c, _, same, taken⟩ := mem_one.mp member
    rw [same, taken]
    rfl
  | alt r s ihr ihs =>
    rcases mem_alt.mp member with left | right
    · exact ihr left
    · exact ihs right
  | seq r s ihr ihs =>
    obtain ⟨k, first, n, second, rfl⟩ := mem_seq.mp member
    rw [ihr first, Match.andThen_text, Match.andThen_rest, List.append_assoc, ← ihs second]
  | star greedy r ih =>
    rw [attempts] at member
    generalize text.length = fuel at member
    induction fuel generalizing text m with
    | zero =>
      rw [List.mem_singleton.mp member]
      rfl
    | succ fuel ihFuel =>
      rcases mem_repeated_succ.mp member with rfl | ⟨k, once, _, n, again, rfl⟩
      · rfl
      · rw [ih once, Match.andThen_text, Match.andThen_rest, List.append_assoc, ← ihFuel again]
  | group number r ih =>
    obtain ⟨k, inner, rfl⟩ := mem_group.mp member
    exact ih (m := k) inner

/-! ## Repetitions -/

theorem repeated_nil (greedy : Bool) (r : Pattern α) (fuel : Nat) :
    repeated greedy r.attempts fuel [] = [nowhere []] := by
  cases fuel with
  | zero => rfl
  | succ fuel =>
    have nothing : (r.attempts []).filter (fun m => !m.text.isEmpty) = [] := by
      apply List.filter_eq_nil_iff.mpr
      intro m member
      have split := split_of_mem member
      simp [(List.append_eq_nil_iff.mp split.symm).1]
    cases greedy <;> simp [repeated, nothing]

/-- What a match leaves is shorter by what it takes. -/
theorem rest_length (member : m ∈ r.attempts text) :
    text.length = m.text.length + m.rest.length := by
  rw [split_of_mem member, List.length_append]

/-- More repetitions than there are characters make no difference. -/
theorem repeated_enough (greedy : Bool) {fuel fuel' : Nat} (enough : text.length ≤ fuel)
    (enough' : text.length ≤ fuel') :
    repeated greedy r.attempts fuel text = repeated greedy r.attempts fuel' text := by
  induction fuel generalizing fuel' text with
  | zero =>
    obtain rfl := List.length_eq_zero_iff.mp (Nat.le_zero.mp enough)
    rw [repeated_nil, repeated_nil]
  | succ fuel ih =>
    cases fuel' with
    | zero =>
      obtain rfl := List.length_eq_zero_iff.mp (Nat.le_zero.mp enough')
      rw [repeated_nil, repeated_nil]
    | succ fuel' =>
      have more : ((r.attempts text).filter fun m => !m.text.isEmpty).flatMap (fun m =>
            (repeated greedy r.attempts fuel m.rest).map m.andThen) =
          ((r.attempts text).filter fun m => !m.text.isEmpty).flatMap fun m =>
            (repeated greedy r.attempts fuel' m.rest).map m.andThen := by
        apply List.flatMap_congr
        intro m kept
        obtain ⟨member, some⟩ := List.mem_filter.mp kept
        have shorter := rest_length member
        have positive : 0 < m.text.length := List.length_pos_iff.mpr (by simpa using some)
        have same := @ih m.rest fuel' (by omega) (by omega)
        rw [same]
      simp only [repeated, more]

theorem repeated_eq_star (greedy : Bool) (r : Pattern α) {fuel : Nat}
    (enough : text.length ≤ fuel) :
    repeated greedy r.attempts fuel text = (star greedy r).attempts text :=
  repeated_enough greedy enough (Nat.le_refl _)

/-- What a repetition tries: another match of what is repeated, or none. -/
theorem star_attempts (greedy : Bool) (r : Pattern α) (text : List α) :
    (star greedy r).attempts text =
      let more := ((r.attempts text).filter fun m => !m.text.isEmpty).flatMap fun m =>
        ((star greedy r).attempts m.rest).map m.andThen
      if greedy then more ++ [nowhere text] else nowhere text :: more := by
  have more : ((r.attempts text).filter fun m => !m.text.isEmpty).flatMap (fun m =>
        (repeated greedy r.attempts text.length m.rest).map m.andThen) =
      ((r.attempts text).filter fun m => !m.text.isEmpty).flatMap fun m =>
        ((star greedy r).attempts m.rest).map m.andThen := by
    apply List.flatMap_congr
    intro m kept
    have shorter := rest_length (List.mem_filter.mp kept).1
    have same := @repeated_eq_star _ m.rest greedy r text.length (by omega)
    rw [same]
  rw [← repeated_eq_star greedy r (Nat.le_succ _)]
  simp only [repeated, more]

theorem mem_star {greedy : Bool} : m ∈ (star greedy r).attempts text ↔ m = nowhere text ∨
    ∃ k ∈ r.attempts text, k.text ≠ [] ∧
      ∃ n ∈ (star greedy r).attempts k.rest, m = k.andThen n := by
  rw [← repeated_eq_star greedy r (Nat.le_succ _), mem_repeated_succ]
  apply or_congr_right
  apply exists_congr
  intro k
  apply and_congr_right
  intro once
  have shorter := rest_length once
  have same := @repeated_eq_star _ k.rest greedy r text.length (by omega)
  rw [same]

/-- What is shown of one match of what is repeated holds of all of them together. -/
theorem forall_star {greedy : Bool} {P : List α → Prop} (none : P [])
    (step : ∀ text, ∀ k ∈ r.attempts text, ∀ taken, P taken → P (k.text ++ taken))
    (member : m ∈ (star greedy r).attempts text) : P m.text := by
  induction shape : text.length using Nat.strongRecOn generalizing text m with
  | ind length ih =>
    rcases mem_star.mp member with rfl | ⟨k, once, some, n, again, rfl⟩
    · exact none
    · have shorter := rest_length once
      have positive := List.length_pos_iff.mpr some
      exact step text k once n.text (ih _ (by omega) again rfl)

/-- The expression takes something wherever it matches. -/
def Consumes (r : Pattern α) : Prop := ∀ text, ∀ m ∈ r.attempts text, m.text ≠ []

theorem consumes_one (accepts : α → Bool) : Consumes (one accepts) := by
  intro text m member
  obtain ⟨c, _, _, taken⟩ := mem_one.mp member
  rw [taken]
  exact List.cons_ne_nil c []

theorem consumes_seq_left (consumes : Consumes r) (s : Pattern α) : Consumes (seq r s) := by
  intro text m member
  obtain ⟨k, before, n, _, rfl⟩ := mem_seq.mp member
  exact List.append_ne_nil_of_left_ne_nil (consumes _ k before) n.text

theorem consumes_group (number : Nat) (consumes : Consumes r) : Consumes (group number r) := by
  intro text m member
  obtain ⟨k, inner, rfl⟩ := mem_group.mp member
  exact consumes _ k inner

/-- A repetition of a class takes characters of it, -/
theorem forall_of_mem_star {greedy : Bool} (member : m ∈ (star greedy (one accepts)).attempts text) :
    ∀ c ∈ m.text, accepts c := by
  refine forall_star (P := fun taken => ∀ c ∈ taken, accepts c) (by simp) ?_ member
  intro text k once taken others
  obtain ⟨c, own, _, same⟩ := mem_one.mp once
  rw [same]
  exact List.forall_mem_cons.mpr ⟨own, others⟩

/-- and `+` at least one. -/
theorem forall_of_mem_plus (member : m ∈ (plus (one accepts)).attempts text) :
    m.text ≠ [] ∧ ∀ c ∈ m.text, accepts c := by
  refine ⟨consumes_seq_left (consumes_one accepts) _ _ _ member, ?_⟩
  obtain ⟨k, once, n, others, rfl⟩ := mem_seq.mp member
  obtain ⟨c, own, _, same⟩ := mem_one.mp once
  rw [same]
  exact List.forall_mem_cons.mpr ⟨own, forall_of_mem_star others⟩

/-! ## Groups -/

theorem group_andThen (m n : Match α) (number : Nat) :
    (m.andThen n).group number = (n.group number).or (m.group number) := by
  simp only [Match.group, Match.andThen, List.reverse_append, List.lookup_append]

/-- The numbers of an expression's groups. -/
def numbers : Pattern α → List Nat
  | empty => []
  | one _ => []
  | alt first second => first.numbers ++ second.numbers
  | seq first second => first.numbers ++ second.numbers
  | star _ inner => inner.numbers
  | group number inner => number :: inner.numbers

/-- What has no group of a number reports nothing under it. -/
theorem group_eq_none {number : Nat} (other : number ∉ r.numbers)
    (member : m ∈ r.attempts text) : m.group number = none := by
  induction r generalizing text m with
  | empty =>
    rw [mem_empty.mp member]
    rfl
  | one accepts =>
    obtain ⟨_, _, _, taken⟩ := mem_one.mp member
    rw [taken]
    rfl
  | alt r s ihr ihs =>
    simp only [numbers, List.mem_append, not_or] at other
    rcases mem_alt.mp member with left | right
    · exact ihr other.1 left
    · exact ihs other.2 right
  | seq r s ihr ihs =>
    simp only [numbers, List.mem_append, not_or] at other
    obtain ⟨k, before, n, after, rfl⟩ := mem_seq.mp member
    rw [group_andThen, ihr other.1 before, ihs other.2 after]
    rfl
  | star greedy r ih =>
    induction shape : text.length using Nat.strongRecOn generalizing text m with
    | ind length ihLength =>
      rcases mem_star.mp member with rfl | ⟨k, once, some, n, again, rfl⟩
      · rfl
      · have shorter := rest_length once
        have positive := List.length_pos_iff.mpr some
        rw [group_andThen, ih other once, ihLength _ (by omega) again rfl]
        rfl
  | group own r ih =>
    simp only [numbers, List.mem_cons, not_or] at other
    obtain ⟨k, inner, rfl⟩ := mem_group.mp member
    have before : List.lookup number k.groups.reverse = none := ih other.2 inner
    simp [Match.group, List.lookup_cons, beq_eq_false_iff_ne.mpr other.1, before]

/-- A group reports what is taken inside it. -/
theorem group_self {number : Nat} (member : m ∈ (group number r).attempts text) :
    m.group number = some m.text := by
  obtain ⟨k, _, rfl⟩ := mem_group.mp member
  simp [Match.group]

/-! ## The first match -/

theorem first_eq_none : r.first text = none ↔ r.attempts text = [] := List.head?_eq_none_iff

theorem mem_of_first (found : r.first text = some m) : m ∈ r.attempts text :=
  List.mem_of_mem_head? found

theorem first_one_cons {c : α} {rest : List α} (own : accepts c) :
    (one accepts).first (c :: rest) = some ⟨[c], [], rest⟩ := by
  simp [first, attempts, oneMatches, own]

theorem one_attempts_nil {c : α} {rest : List α} (other : ¬accepts c) :
    (one accepts).attempts (c :: rest) = [] := by
  simp [attempts, oneMatches, other]

/-- Where what follows the first try matches, that is the match. -/
theorem first_seq (before : r.first text = some m) (after : s.first m.rest = some n) :
    (seq r s).first text = some (m.andThen n) := by
  obtain ⟨others, tries⟩ := List.head?_eq_some_iff.mp before
  obtain ⟨others', tries'⟩ := List.head?_eq_some_iff.mp after
  rw [first, attempts, tries, List.flatMap_cons, tries']
  rfl

/-- Without a match of the first part there is none. -/
theorem seq_attempts_nil (before : r.attempts text = []) : (seq r s).attempts text = [] := by
  rw [attempts, before]
  rfl

theorem group_attempts_nil (number : Nat) (failed : r.attempts text = []) :
    (group number r).attempts text = [] := by
  rw [attempts, failed]
  rfl

theorem first_alt_left (found : r.first text = some m) : (alt r s).first text = some m := by
  obtain ⟨others, tries⟩ := List.head?_eq_some_iff.mp found
  rw [first, attempts, tries]
  rfl

theorem first_alt_right (failed : r.attempts text = []) :
    (alt r s).first text = s.first text := by
  rw [first, attempts, failed]
  rfl

theorem first_group (number : Nat) (found : r.first text = some m) :
    (group number r).first text = some { m with groups := m.groups ++ [(number, m.text)] } := by
  obtain ⟨others, tries⟩ := List.head?_eq_some_iff.mp found
  rw [first, attempts, tries]
  rfl

/-- A repetition of a class goes on with each character of it, -/
theorem star_one_cons (greedy : Bool) {c : α} (own : accepts c) (rest : List α) :
    (star greedy (one accepts)).attempts (c :: rest) =
      let more := ((star greedy (one accepts)).attempts rest).map
        (Match.andThen ⟨[c], [], rest⟩)
      if greedy then more ++ [nowhere (c :: rest)] else nowhere (c :: rest) :: more := by
  have once : (one accepts).attempts (c :: rest) = [⟨[c], [], rest⟩] := by
    simp [attempts, oneMatches, own]
  rw [star_attempts, once]
  simp

/-- A repetition ends where what is repeated does not match, -/
theorem star_stops (greedy : Bool) (failed : r.attempts text = []) :
    (star greedy r).attempts text = [nowhere text] := by
  rw [star_attempts, failed]
  cases greedy <;> rfl

/-- a class at any other character. -/
theorem star_one_stops (greedy : Bool) (stops : ∀ c ∈ text.head?, ¬accepts c) :
    (star greedy (one accepts)).attempts text = [nowhere text] := by
  apply star_stops
  cases text with
  | nil => rfl
  | cons c rest => exact one_attempts_nil (stops c rfl)

theorem first_stops (stops : ∀ c ∈ text.head?, ¬accepts c) :
    (star true (one accepts)).first text = some (nowhere text) := by
  rw [first, star_one_stops true stops]
  rfl

/-- A run of a class is taken whole. -/
theorem first_run {run rest : List α} (inside : ∀ c ∈ run, accepts c)
    (stops : ∀ c ∈ rest.head?, ¬accepts c) :
    (star true (one accepts)).first (run ++ rest) = some ⟨run, [], rest⟩ := by
  induction run with
  | nil => exact first_stops stops
  | cons c run ih =>
    obtain ⟨own, others⟩ := List.forall_mem_cons.mp inside
    obtain ⟨shorter, tries⟩ := List.head?_eq_some_iff.mp (ih others)
    rw [first, List.cons_append, star_one_cons true own, tries]
    rfl

/-- `+` of a class takes a run of it. -/
theorem first_plus {run rest : List α} (some : run ≠ []) (inside : ∀ c ∈ run, accepts c)
    (stops : ∀ c ∈ rest.head?, ¬accepts c) :
    (plus (one accepts)).first (run ++ rest) = Option.some ⟨run, [], rest⟩ := by
  cases run with
  | nil => contradiction
  | cons c run =>
    obtain ⟨own, others⟩ := List.forall_mem_cons.mp inside
    have tail : (star true (one accepts)).first (run ++ rest) = Option.some ⟨run, [], rest⟩ :=
      first_run others stops
    exact first_seq (first_one_cons own) tail

/-- A lazy repetition starts with none. -/
theorem first_lazy (r : Pattern α) (text : List α) :
    (star false r).first text = some (nowhere text) := by
  rw [first, star_attempts]
  rfl

theorem first_seq_alt (r s t : Pattern α) (text : List α) :
    (seq (alt r s) t).first text = ((seq r t).first text).or ((seq s t).first text) := by
  rw [first, attempts, attempts, List.flatMap_append, List.head?_append]
  rfl

theorem first_seq_empty (t : Pattern α) (text : List α) :
    (seq empty t).first text = t.first text := by
  have same : (nowhere text).andThen = id := rfl
  rw [first, attempts, attempts, List.flatMap_singleton, same, List.map_id]
  rfl

theorem first_seq_one (accepts : α → Bool) (t : Pattern α) (c : α) (rest : List α) :
    (seq (one accepts) t).first (c :: rest) =
      if accepts c then (t.first rest).map (Match.andThen ⟨[c], [], rest⟩) else none := by
  by_cases own : accepts c <;> simp [first, attempts, oneMatches, own]

/-- What follows a lazy repetition of a class is tried before each character of it. -/
theorem first_seq_lazy (accepts : α → Bool) (t : Pattern α) (c : α) (rest : List α) :
    (seq (star false (one accepts)) t).first (c :: rest) =
      (t.first (c :: rest)).or (if accepts c then
        ((seq (star false (one accepts)) t).first rest).map (Match.andThen ⟨[c], [], rest⟩)
      else none) := by
  have same : (nowhere (c :: rest)).andThen = id := rfl
  have later : ((star false (one accepts)).attempts rest).flatMap (fun m =>
      (t.attempts (Match.andThen ⟨[c], [], rest⟩ m).rest).map
        (Match.andThen ⟨[c], [], rest⟩ m).andThen) =
      ((seq (star false (one accepts)) t).attempts rest).map (Match.andThen ⟨[c], [], rest⟩) := by
    rw [attempts, List.map_flatMap]
    apply List.flatMap_congr
    intro m _
    rw [List.map_map]
    rfl
  by_cases own : accepts c
  · rw [first, attempts, star_one_cons false own, if_pos own]
    simp only [Bool.false_eq_true, if_false, List.flatMap_cons, List.flatMap_map, List.head?_append]
    rw [later, same, List.map_id, List.head?_map]
    rfl
  · have stops : (star false (one accepts)).attempts (c :: rest) = [nowhere (c :: rest)] := by
      apply star_one_stops
      simpa using own
    rw [first, attempts, stops, List.flatMap_singleton, same, List.map_id, if_neg own, Option.or_none]
    rfl

/-! ## Searches -/

/-- A match at the front is found there. -/
theorem search_of_first (found : r.first text = some m) : r.search text = some ([], m) := by
  cases text with
  | nil => rw [search, found]; rfl
  | cons c rest => rw [search, found]

/-- Where there is none, the search goes on behind it. -/
theorem search_of_none {c : α} {rest : List α} (failed : r.first (c :: rest) = none) :
    r.search (c :: rest) = (r.search rest).map fun found => (c :: found.1, found.2) := by
  rw [search, failed]

/-- What a search finds is a match behind what it skipped. -/
theorem search_sound {skipped : List α} (found : r.search text = some (skipped, m)) :
    text = skipped ++ (m.text ++ m.rest) ∧ m ∈ r.attempts (m.text ++ m.rest) := by
  induction text generalizing skipped with
  | nil =>
    rw [search, Option.map_eq_some_iff] at found
    obtain ⟨k, front, same⟩ := found
    cases same
    have member := mem_of_first front
    rw [← split_of_mem member]
    exact ⟨rfl, member⟩
  | cons c rest ih =>
    cases front : r.first (c :: rest) with
    | some k =>
      rw [search_of_first front] at found
      cases found
      have member := mem_of_first front
      rw [← split_of_mem member]
      exact ⟨rfl, member⟩
    | none =>
      rw [search_of_none front, Option.map_eq_some_iff] at found
      obtain ⟨⟨later, k⟩, behind, same⟩ := found
      cases same
      obtain ⟨split, member⟩ := ih behind
      exact ⟨by rw [split]; rfl, member⟩

theorem findUpTo_enough (consumes : Consumes r) {fuel fuel' : Nat} (enough : text.length ≤ fuel)
    (enough' : text.length ≤ fuel') : r.findUpTo fuel text = r.findUpTo fuel' text := by
  have nothing (fuel : Nat) : r.findUpTo fuel [] = [] := by
    cases fuel with
    | zero => rfl
    | succ fuel =>
      have failed : r.search [] = none := by
        cases front : r.search [] with
        | none => rfl
        | some found =>
          obtain ⟨split, member⟩ := search_sound front
          have taken := (List.append_eq_nil_iff.mp (List.append_eq_nil_iff.mp split.symm).2).1
          exact absurd taken (consumes _ _ member)
      rw [findUpTo, failed]
  induction fuel generalizing fuel' text with
  | zero =>
    obtain rfl := List.length_eq_zero_iff.mp (Nat.le_zero.mp enough)
    rw [nothing, nothing]
  | succ fuel ih =>
    cases fuel' with
    | zero =>
      obtain rfl := List.length_eq_zero_iff.mp (Nat.le_zero.mp enough')
      rw [nothing, nothing]
    | succ fuel' =>
      rw [findUpTo, findUpTo]
      cases front : r.search text with
      | none => rfl
      | some found =>
        obtain ⟨split, member⟩ := search_sound front
        have parts := congrArg List.length split
        have positive := List.length_pos_iff.mpr (consumes _ _ member)
        rw [List.length_append, List.length_append] at parts
        have same := @ih found.2.rest fuel' (by omega) (by omega)
        exact congrArg (found.2 :: ·) same

/-- All matches, from the first on. -/
theorem findAll_of_search (consumes : Consumes r) {skipped : List α}
    (found : r.search text = some (skipped, m)) : r.findAll text = m :: r.findAll m.rest := by
  obtain ⟨split, member⟩ := search_sound found
  have parts := congrArg List.length split
  have positive := List.length_pos_iff.mpr (consumes _ _ member)
  rw [List.length_append, List.length_append] at parts
  rw [findAll, findUpTo_enough consumes (Nat.le_refl _) (Nat.le_succ _), findUpTo, found]
  exact congrArg (m :: ·) (findUpTo_enough consumes (by omega) (Nat.le_refl _))

theorem findAll_of_none (failed : r.search text = none) : r.findAll text = [] := by
  unfold findAll
  cases text with
  | nil => rfl
  | cons c rest => rw [List.length_cons, findUpTo, failed]

theorem mem_findAll (member : m ∈ r.findAll text) : ∃ text', m ∈ r.attempts text' := by
  unfold findAll at member
  generalize text.length = fuel at member
  induction fuel generalizing text with
  | zero => cases member
  | succ fuel ih =>
    rw [findUpTo] at member
    cases found : r.search text with
    | none =>
      rw [found] at member
      cases member
    | some pair =>
      rw [found] at member
      rcases List.mem_cons.mp member with rfl | later
      · exact ⟨_, (search_sound found).2⟩
      · exact ih later

/-- Where there is no match at the front, all are behind it. -/
theorem findAll_skip (consumes : Consumes r) {c : α} {rest : List α}
    (failed : r.attempts (c :: rest) = []) : r.findAll (c :: rest) = r.findAll rest := by
  have behind := search_of_none (first_eq_none.mpr failed)
  cases found : r.search rest with
  | none =>
    rw [found] at behind
    rw [findAll_of_none behind, findAll_of_none found]
  | some pair =>
    rw [found] at behind
    rw [findAll_of_search consumes behind, findAll_of_search consumes found]

end Pattern

end NetGraphz
