import NetGraphz.Base.JsText
import NetGraphz.Base.Loops
import NetGraphz.Base.Pattern

/-! `format_prop_str` of the graph's utilities: tags in a text give way to the
properties of an object, in a loop that edits the text it searches. -/
namespace NetGraphz.PropertyTags
open Pattern JsText

/-- What the function asks of the values it meets. -/
structure Objects (V : Type u) where
  /-- `typeof value === "object"`, null included -/
  isObject : V → Bool
  /-- `value[name]`; `none` is a `TypeError` -/
  property : V → JsText → Option V
  /-- `value.toString()`; `none` is an exception -/
  toText : V → Option JsText

def openBrace : UInt16 := 0x7B

def closeBrace : UInt16 := 0x7D

def backslash : UInt16 := 0x5C

def dot : UInt16 := 0x2E

/-- `\w`. -/
def isWord (c : UInt16) : Bool :=
  (0x30 ≤ c && c ≤ 0x39) || (0x41 ≤ c && c ≤ 0x5A) || (0x61 ≤ c && c ≤ 0x7A) || c == 0x5F

/-- What the dot of a regular expression does not match. -/
def isLineEnd (c : UInt16) : Bool := c == 0x0A || c == 0x0D || c == 0x2028 || c == 0x2029

def word : Pattern UInt16 := plus (one isWord)

/-- `[^\\]?`. -/
def maybeAny : Pattern UInt16 := optional (one (· ≠ backslash))

/-- `\w+[^\\]?(?:\.\w+)*`. -/
def content : Pattern UInt16 := seq word (seq maybeAny (star true (seq (char dot) word)))

/-- `(\{(\w+[^\\]?(?:\.\w+)*)\})`. -/
def braced : Pattern UInt16 :=
  group 1 (seq (char openBrace) (seq (group 2 content) (char closeBrace)))

/-- `/.*?[^\\]?(\{(\w+[^\\]?(?:\.\w+)*)\})/g`. -/
def oRegexp : Pattern UInt16 := seq (star false (one fun c => !isLineEnd c)) (seq maybeAny braced)

/-- `/(\w+)[^\\]?(?:\.(\w+))*/g`. -/
def iRegexp : Pattern UInt16 :=
  seq (group 1 word) (seq maybeAny (star true (seq (char dot) (group 2 word))))

/-- A search from an index on, and the index behind what it finds. -/
def exec (r : Pattern UInt16) (str : JsText) (lastIndex : Nat) : Option (Match UInt16 × Nat) :=
  if lastIndex ≤ str.length then
    (r.search (str.drop lastIndex)).map fun found =>
      (found.2, lastIndex + found.1.length + found.2.text.length)
  else none

def inBraces (tag : JsText) : JsText := openBrace :: (tag ++ [closeBrace])

variable {V : Type u}

/-- The inner loop: it goes from property to property, and no further than to a
value that is no object. -/
def follow (o : Objects V) : List (Match UInt16) → V → Option V
  | [], value => some value
  | found :: rest, value =>
    if !o.isObject value then some value
    else match found.group 1 with
      | none => follow o rest value
      | some name => (o.property value name).bind (follow o rest)

/-- The text that a tag gives way to. -/
def tagText (o : Objects V) (obj : V) (tag : JsText) : Option JsText :=
  (follow o (iRegexp.findAll tag) obj).bind o.toText

/-- The text as edited so far, and where the next search starts. -/
structure Scan where
  str : JsText
  lastIndex : Nat

inductive Outcome where
  | returned (str : JsText)
  | threw
  deriving DecidableEq

/-- One turn of the outer loop. -/
def turn (o : Objects V) (obj : V) (s : Scan) : Turn Scan Outcome :=
  match exec oRegexp s.str s.lastIndex with
  | none => .stop (.returned s.str)
  | some (found, lastIndex) =>
    match found.group 2 with
    | none => .again ⟨s.str, lastIndex⟩
    | some tag =>
      match tagText o obj tag with
      | none => .stop .threw
      | some text => .again ⟨replace s.str (inBraces tag) text, lastIndex⟩

/-- The function, for so many turns of its loop; `none` while it is still running. -/
def formatPropStr (o : Objects V) (fuel : Nat) (str : JsText) (obj : V) : Option Outcome :=
  if !o.isObject obj then some (.returned str) else loop (turn o obj) fuel ⟨str, 0⟩

/-- The loop ends, and the text is returned. -/
def Returns (o : Objects V) (str : JsText) (obj : V) (result : JsText) : Prop :=
  ∃ fuel, formatPropStr o fuel str obj = some (.returned result)

/-- The function returns a text or throws. -/
def Terminates (o : Objects V) (str : JsText) (obj : V) : Prop :=
  ∃ fuel outcome, formatPropStr o fuel str obj = some outcome

/-- Texts, and records of them that inherit nothing. -/
inductive Plain where
  | undefined
  | null
  | text (units : JsText)
  | record (fields : List (JsText × Plain))

/-- Nothing is read from a text, as it is no object. -/
def plain : Objects Plain where
  isObject
    | .null => true
    | .record _ => true
    | _ => false
  property
    | .record fields, name => some ((fields.lookup name).getD .undefined)
    | _, _ => none
  toText
    | .text units => some units
    | _ => none

/-- A turn whose search finds a tag. -/
theorem turn_found {o : Objects V} {obj : V} {str tag text : JsText} {lastIndex next : Nat}
    {m : Match UInt16} (found : exec oRegexp str lastIndex = some (m, next))
    (reported : m.group 2 = some tag) (read : tagText o obj tag = some text) :
    turn o obj ⟨str, lastIndex⟩ = .again ⟨replace str (inBraces tag) text, next⟩ := by
  simp only [turn, found, reported, read]

/-! ## What a search finds -/

theorem openBrace_not_word : isWord openBrace = false := rfl

theorem closeBrace_not_word : isWord closeBrace = false := rfl

/-- The shape of what stands between the braces. -/
def Content (tag : JsText) : Prop :=
  ∃ name other rest, tag = name ++ (other ++ rest) ∧ name ≠ [] ∧ (∀ c ∈ name, isWord c) ∧
    other.length ≤ 1 ∧ ∀ c ∈ rest, isWord c ∨ c = dot

variable {text : JsText} {m : Match UInt16}

theorem content_of_mem (member : m ∈ content.attempts text) : Content m.text := by
  obtain ⟨k, first, n, others, rfl⟩ := mem_seq.mp member
  obtain ⟨l, maybe, rest, repeats, rfl⟩ := mem_seq.mp others
  obtain ⟨some, inside⟩ := forall_of_mem_plus first
  refine ⟨k.text, l.text, rest.text, rfl, some, inside, ?_, ?_⟩
  · rcases mem_alt.mp maybe with one | none
    · obtain ⟨c, -, -, taken⟩ := mem_one.mp one
      rw [taken]
      exact Nat.le_refl 1
    · rw [mem_empty.mp none]
      exact Nat.zero_le 1
  · refine forall_star (P := fun taken => ∀ c ∈ taken, isWord c ∨ c = dot) (by simp) ?_ repeats
    intro text k once taken inside c member
    obtain ⟨point, at_point, name, in_name, rfl⟩ := mem_seq.mp once
    obtain ⟨d, own, -, taken_point⟩ := mem_one.mp at_point
    rw [Match.andThen_text, taken_point, List.mem_append, List.mem_append] at member
    rcases member with (first | later) | behind
    · exact Or.inr ((List.mem_singleton.mp first).trans (of_decide_eq_true own))
    · exact Or.inl ((forall_of_mem_plus in_name).2 c later)
    · exact inside c behind

theorem char_of_mem {c : UInt16} (member : m ∈ (char c).attempts text) :
    m.text = [c] ∧ m.groups = [] := by
  obtain ⟨d, own, -, taken⟩ := mem_one.mp member
  rw [taken, of_decide_eq_true own]
  exact ⟨rfl, rfl⟩

theorem braced_of_mem (member : m ∈ braced.attempts text) :
    ∃ tag, Content tag ∧ m.text = inBraces tag ∧ m.group 2 = some tag := by
  obtain ⟨k, whole, rfl⟩ := mem_group.mp member
  obtain ⟨opened, opens, n, others, rfl⟩ := mem_seq.mp whole
  obtain ⟨between, inside, closed, closes, rfl⟩ := mem_seq.mp others
  obtain ⟨left, no_groups⟩ := char_of_mem opens
  obtain ⟨right, no_groups'⟩ := char_of_mem closes
  obtain ⟨tag, taken, same⟩ := mem_group.mp inside
  refine ⟨between.text, ?_, ?_, ?_⟩
  · rw [same]
    exact content_of_mem (m := tag) taken
  · simp only [Match.andThen_text, left, right]
    rfl
  · have reported := group_self inside
    unfold Match.group at reported ⊢
    simpa [Match.andThen, no_groups, no_groups', List.lookup_cons] using reported

/-- A match ends in a tag, whatever it takes before. -/
theorem oRegexp_of_mem (member : m ∈ oRegexp.attempts text) :
    ∃ before tag, Content tag ∧ m.text = before ++ inBraces tag ∧ m.group 2 = some tag := by
  obtain ⟨k, _, n, others, rfl⟩ := mem_seq.mp member
  obtain ⟨l, _, tagged, last, rfl⟩ := mem_seq.mp others
  obtain ⟨tag, shape, taken, reported⟩ := braced_of_mem last
  refine ⟨k.text ++ l.text, tag, shape, ?_, ?_⟩
  · rw [Match.andThen_text, Match.andThen_text, taken, List.append_assoc]
  · rw [group_andThen, group_andThen, reported]
    rfl

/-- A tag that is found lies behind where the search started, and the next search
starts behind it. -/
theorem exec_found {str : JsText} {lastIndex next : Nat}
    (found : exec oRegexp str lastIndex = some (m, next)) :
    ∃ before tag after, Content tag ∧ m.group 2 = some tag ∧
      str = before ++ (inBraces tag ++ after) ∧ lastIndex ≤ before.length ∧
      next = before.length + (inBraces tag).length := by
  unfold exec at found
  split at found
  · rename_i within
    obtain ⟨⟨skipped, m'⟩, searched, same⟩ := Option.map_eq_some_iff.mp found
    cases same
    obtain ⟨split, member⟩ := search_sound searched
    obtain ⟨before, tag, shape, taken, reported⟩ := oRegexp_of_mem member
    have front : (str.take lastIndex).length = lastIndex := List.length_take_of_le within
    refine ⟨str.take lastIndex ++ (skipped ++ before), tag, m'.rest, shape, reported, ?_, ?_, ?_⟩
    · conv_lhs => rw [← List.take_append_drop lastIndex str, split, taken]
      simp only [List.append_assoc]
    · rw [List.length_append, front]
      omega
    · simp only [taken, List.length_append, front]
      omega
  · cases found

/-- Without an opening brace there is no tag. -/
theorem exec_none {str : JsText} {lastIndex : Nat} (plain : openBrace ∉ str.drop lastIndex) :
    exec oRegexp str lastIndex = none := by
  cases found : exec oRegexp str lastIndex with
  | none => rfl
  | some pair =>
    obtain ⟨m, next⟩ := pair
    obtain ⟨before, tag, after, -, -, split, behind, -⟩ := exec_found found
    refine absurd ?_ plain
    rw [split, List.drop_append_of_le_length behind, List.mem_append]
    exact Or.inr List.mem_cons_self

/-! ## The first tag behind an index -/

/-- Only an opening brace opens a tag. -/
theorem braced_closed (closed : openBrace ∉ text.head?) : braced.attempts text = [] := by
  apply group_attempts_nil
  apply seq_attempts_nil
  cases text with
  | nil => rfl
  | cons c rest =>
    apply one_attempts_nil
    simpa [eq_comm] using closed

theorem first_braced_closed (closed : openBrace ∉ text.head?) : braced.first text = none :=
  first_eq_none.mpr (braced_closed closed)

/-- A tag may follow one more character, if it is no backslash. -/
theorem first_maybeAny (c : UInt16) (rest : JsText) :
    (seq maybeAny braced).first (c :: rest) =
      (if c ≠ backslash then (braced.first rest).map (Match.andThen ⟨[c], [], rest⟩) else none).or
        (braced.first (c :: rest)) := by
  rw [maybeAny, Pattern.optional, first_seq_alt, first_seq_one, first_seq_empty]
  simp only [decide_eq_true_eq]

theorem first_oRegexp (c : UInt16) (rest : JsText) : oRegexp.first (c :: rest) =
    ((seq maybeAny braced).first (c :: rest)).or
      (if isLineEnd c then none else (oRegexp.first rest).map (Match.andThen ⟨[c], [], rest⟩)) := by
  have lazy := first_seq_lazy (fun c => !isLineEnd c) (seq maybeAny braced) c rest
  cases ends : isLineEnd c with
  | true => simpa [oRegexp, ends] using lazy
  | false => simpa [oRegexp, ends] using lazy

/-- What is found behind a character that starts no tag is found from it as well: the
match takes the character in, unless it is a line end. -/
theorem search_behind {c : UInt16} {rest skipped : JsText}
    (failed : (seq maybeAny braced).first (c :: rest) = none)
    (searched : oRegexp.search rest = some (skipped, m)) :
    ∃ skipped' m', oRegexp.search (c :: rest) = some (skipped', m') ∧
      skipped' ++ m'.text = c :: (skipped ++ m.text) ∧ m'.group 2 = m.group 2 := by
  have front := first_oRegexp c rest
  rw [failed, Option.none_or] at front
  have skips (none : oRegexp.first (c :: rest) = none) :
      oRegexp.search (c :: rest) = some (c :: skipped, m) := by
    rw [search_of_none none, searched]
    rfl
  cases later : oRegexp.first rest with
  | none =>
    refine ⟨c :: skipped, m, skips ?_, rfl, rfl⟩
    rw [front, later]
    split <;> rfl
  | some m' =>
    rw [search_of_first later] at searched
    cases searched
    split at front
    · exact ⟨[c], m, skips front, rfl, rfl⟩
    · rw [later, Option.map_some] at front
      refine ⟨[], _, search_of_first front, rfl, ?_⟩
      rw [group_andThen]
      exact Option.or_none

/-- The first tag behind a text without opening braces is what a search finds, also
where it has to start behind a line end. -/
theorem search_tag {pre inside : JsText} {k : Match UInt16} (clean : openBrace ∉ pre)
    (closed : openBrace ∉ inside.head?) (tagged : braced.first (openBrace :: inside) = some k) :
    ∃ skipped m, oRegexp.search (pre ++ openBrace :: inside) = some (skipped, m) ∧
      skipped ++ m.text = pre ++ k.text ∧ m.group 2 = k.group 2 := by
  induction pre with
  | nil =>
    have front : oRegexp.first (openBrace :: inside) = some k := by
      rw [first_oRegexp, first_maybeAny, first_braced_closed closed, tagged]
      rfl
    exact ⟨[], k, search_of_first front, rfl, rfl⟩
  | cons c pre ih =>
    simp only [List.mem_cons, not_or] at clean
    obtain ⟨skipped, m, searched, taken, reported⟩ := ih clean.2
    have own : braced.first (c :: (pre ++ openBrace :: inside)) = none :=
      first_braced_closed (by simpa [eq_comm] using clean.1)
    cases one : (seq maybeAny braced).first (c :: (pre ++ openBrace :: inside)) with
    | some k' =>
      have front : oRegexp.first (c :: (pre ++ openBrace :: inside)) = some k' := by
        rw [first_oRegexp, one]
        rfl
      rw [first_maybeAny, own, Option.or_none] at one
      split at one
      · cases pre with
        | nil =>
          rw [List.nil_append, tagged, Option.map_some, Option.some.injEq] at one
          refine ⟨[], k', search_of_first front, ?_, ?_⟩
          · rw [← one]
            rfl
          · rw [← one, group_andThen]
            exact Option.or_none
        | cons d pre =>
          simp only [List.mem_cons, not_or] at clean
          rw [List.cons_append, first_braced_closed (by simpa [eq_comm] using clean.2.1)] at one
          cases one
      · cases one
    | none =>
      obtain ⟨skipped', m', found, taken', reported'⟩ := search_behind one searched
      refine ⟨skipped', m', found, ?_, reported'.trans reported⟩
      rw [taken', taken]
      rfl

end NetGraphz.PropertyTags
