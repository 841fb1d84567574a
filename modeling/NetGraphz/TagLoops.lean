import Mathlib
import NetGraphz.TagFilling

/-! When the loop of `format_prop_str` ends although values may bring in tags again:
whenever no text, with its tags, comes back as a part of a later one. -/
namespace NetGraphz.TagLoops
open Pattern JsText PropertyTags Relation TagFilling

/-- The word that a tag starts with. -/
def nameOf (tag : JsText) : JsText := tag.takeWhile isWord

variable {V : Type u} {o : Objects V} {obj : V} {template name : JsText} {s t : Scan}

/-! ## Texts that come back -/

/-- A turn for a tag with the name, whichever of the tags at or behind the search it is. -/
inductive Replaces (o : Objects V) (obj : V) : JsText → Scan → Scan → Prop where
  | found {str front tag behind value : JsText} {lastIndex : Nat} (shape : Content tag)
      (read : tagText o obj tag = some value) (split : str = front ++ (inBraces tag ++ behind))
      (ahead : lastIndex ≤ front.length) :
      Replaces o obj (nameOf tag) ⟨str, lastIndex⟩
        ⟨replace str (inBraces tag) value, front.length + (inBraces tag).length⟩

def Passes (o : Objects V) (obj : V) (s t : Scan) : Prop := ∃ name, Replaces o obj name s t

/-- The text from the search on. -/
def unsearched (s : Scan) : JsText := s.str.drop s.lastIndex

/-- A tag with the name stands at the front of the text. -/
def opensTag (name text : JsText) : Bool :=
  (braced.first text).any fun m => (m.group 2).map nameOf = some name

/-- How many tags with the name stand in the text. -/
def tagsNamed (name text : JsText) : Nat := text.tails.countP (opensTag name)

/-- Some tag with the name gives way to a text. -/
def Property (o : Objects V) (obj : V) (name : JsText) : Prop :=
  ∃ tag, Content tag ∧ nameOf tag = name ∧ (tagText o obj tag).isSome

/-- One text is a part of the other, letter by letter and with no fewer tags of any
property, and so is what is left to search of it. -/
structure Within (o : Objects V) (obj : V) (s t : Scan) : Prop where
  text : s.str.Sublist t.str
  tags : ∀ name, Property o obj name → tagsNamed name s.str ≤ tagsNamed name t.str
  search : (unsearched s).Sublist (unsearched t)
  ahead : ∀ name, Property o obj name → tagsNamed name (unsearched s) ≤ tagsNamed name (unsearched t)

/-- A text that the template leads to comes back within a later one. -/
def ComesBack (o : Objects V) (obj : V) (template : JsText) : Prop :=
  ∃ s t, ReflTransGen (Passes o obj) ⟨template, 0⟩ s ∧ TransGen (Passes o obj) s t ∧
    Within o obj s t

instance finite_uint16 : Finite UInt16 := Finite.of_injective UInt16.toFin fun _ _ => UInt16.toFin_inj.mp

/-- On the ways that the template leads to, a turn for a tag with the first name brings
in one with the second. -/
def LeadsTo (o : Objects V) (obj : V) (template : JsText)
    (name name' : {name // Property o obj name}) : Prop :=
  ∃ s t, ReflTransGen (Passes o obj) ⟨template, 0⟩ s ∧ Replaces o obj name s t ∧
    (tagsNamed name' s.str < tagsNamed name' t.str ∨
      name' = name ∧ tagsNamed name s.str ≤ tagsNamed name t.str)

/-- From one text to the other there come to be more tags only of names that a replaced
one leads to, and fewer of each replaced one that none of them leads to. -/
structure Accounts (o : Objects V) (obj : V) (template : JsText) (s t : Scan)
    (replaced : Set {name // Property o obj name}) : Prop where
  brought : ∀ name' : {name // Property o obj name}, tagsNamed name' s.str < tagsNamed name' t.str →
    ∃ name ∈ replaced, LeadsTo o obj template name name'
  spent : ∀ name' ∈ replaced, (∀ name ∈ replaced, ¬LeadsTo o obj template name name') →
    tagsNamed name' t.str < tagsNamed name' s.str

theorem Accounts.insert {replaced : Set {name // Property o obj name}} {own : {name // Property o obj name}}
    {u : Scan} (accounts : Accounts o obj template s u replaced)
    (reached : ReflTransGen (Passes o obj) ⟨template, 0⟩ u) (replaces : Replaces o obj own u t) :
    Accounts o obj template s t (insert own replaced) := by
  have brought (name' : {name // Property o obj name})
      (more : tagsNamed name' u.str < tagsNamed name' t.str) : LeadsTo o obj template own name' :=
    ⟨u, t, reached, replaces, Or.inl more⟩
  constructor
  · intro name' more
    by_cases last : tagsNamed name' u.str < tagsNamed name' t.str
    · exact ⟨own, Set.mem_insert own replaced, brought name' last⟩
    · obtain ⟨name, member, leads⟩ := accounts.brought name' (by omega)
      exact ⟨name, Set.mem_insert_of_mem own member, leads⟩
  · intro name' member alone
    obtain ⟨not_own, others⟩ := Set.forall_mem_insert.mp alone
    have before : tagsNamed name' u.str ≤ tagsNamed name' s.str := by
      by_contra more
      obtain ⟨name, among, leads⟩ := accounts.brought name' (Nat.lt_of_not_le more)
      exact others name among leads
    rcases member with rfl | member
    · refine lt_of_lt_of_le ?_ before
      by_contra kept
      exact not_own ⟨u, t, reached, replaces, Or.inr ⟨rfl, Nat.le_of_not_lt kept⟩⟩
    · have last : tagsNamed name' t.str ≤ tagsNamed name' u.str :=
        Nat.le_of_not_lt fun more => not_own (brought name' more)
      exact last.trans_lt (accounts.spent name' member others)

/-- No text comes back where each turn makes something smaller that a part has no more
of than the whole. -/
theorem not_comesBack {P : Scan → Prop} (measure : Scan → Nat) (start : P ⟨template, 0⟩)
    (step : ∀ s t, P s → Passes o obj s t → P t ∧ measure t < measure s)
    (parts : ∀ s t, Within o obj s t → measure s ≤ measure t) : ¬ComesBack o obj template := by
  have kept (s : Scan) (reached : ReflTransGen (Passes o obj) ⟨template, 0⟩ s) : P s := by
    induction reached with
    | refl => exact start
    | tail _ passes ih => exact (step _ _ ih passes).1
  have smaller (s t : Scan) (holds : P s) (further : TransGen (Passes o obj) s t) :
      P t ∧ measure t < measure s := by
    induction further with
    | single passes => exact step _ _ holds passes
    | tail _ passes ih =>
      obtain ⟨holds', less⟩ := step _ _ ih.1 passes
      exact ⟨holds', less.trans ih.2⟩
  rintro ⟨s, t, reached, further, within⟩
  exact absurd (parts s t within) (Nat.not_le_of_lt (smaller s t (kept s reached) further).2)

/-! ## Texts with tags -/

/-- The text has no braces but those of tags with the paths. -/
def TagsOf (paths : Set (List JsText)) (text : JsText) : Prop :=
  ∃ front pieces, NoBraces front ∧ (∀ piece ∈ pieces, Shaped piece ∧ piece.path ∈ paths) ∧
    text = front ++ render pieces

variable {before after tag value : JsText} {done : JsText} {pieces : List Piece}
  {path : List JsText} {paths : Set (List JsText)} {values : List JsText → JsText}

/-- Every tag that occurs in a template is that of a piece. -/
theorem exists_piece (clean : openBrace ∉ done) (shaped : ∀ piece ∈ pieces, Shaped piece)
    (shape : Content tag) (split : done ++ render pieces = before ++ (inBraces tag ++ after)) :
    ∃ first piece rest, pieces = first ++ piece :: rest ∧ before = done ++ render first ∧
      tag = pathText piece.path ∧ after = piece.literal ++ render rest := by
  have opened : inBraces tag ++ after = openBrace :: (tag ++ closeBrace :: after) := by simp [inBraces]
  rw [opened] at split
  induction pieces generalizing done before with
  | nil =>
    rw [render, List.flatMap_nil, List.append_nil] at split
    exact absurd (by simp [split]) clean
  | cons piece pieces ih =>
    obtain ⟨own, others⟩ := List.forall_mem_cons.mp shaped
    have starts : done ++ openBrace :: ((pathText piece.path ++ closeBrace :: piece.literal) ++
        render pieces) = before ++ openBrace :: (tag ++ closeBrace :: after) := by
      rw [← split]
      simp [tagOf, inBraces]
    by_cases here : openBrace ∈ before
    · obtain ⟨front, inside, rfl, first⟩ := List.eq_append_cons_of_mem here
      have behind_first : (front ++ openBrace :: inside) ++ openBrace :: (tag ++ closeBrace :: after) =
          front ++ openBrace :: (inside ++ openBrace :: (tag ++ closeBrace :: after)) := by simp
      obtain ⟨rfl, behind⟩ := split_first (starts.trans behind_first) clean first
      obtain ⟨first, piece', rest, rfl, rfl, rfl, rfl⟩ := ih own.one_brace others behind
      exact ⟨piece :: first, piece', rest, rfl, by simp [tagOf, inBraces], rfl, rfl⟩
    · obtain ⟨rfl, inside⟩ := split_first starts clean here
      rw [List.append_assoc, List.cons_append] at inside
      obtain rfl := content_eq own.is_path (render_apart pieces own.literal) shape inside
      refine ⟨[], piece, pieces, rfl, by simp [render], rfl, ?_⟩
      simpa using inside.symm

theorem TagsOf.append (left : TagsOf paths before) (right : TagsOf paths after) :
    TagsOf paths (before ++ after) := by
  obtain ⟨front, pieces, clean, shaped, rfl⟩ := left
  obtain ⟨front', pieces', clean', shaped', rfl⟩ := right
  rcases List.eq_nil_or_concat pieces with rfl | ⟨pieces, last, rfl⟩
  · exact ⟨front ++ front', pieces', clean.append clean', shaped', by simp [render]⟩
  · refine ⟨front, pieces ++ ⟨last.path, last.literal ++ front'⟩ :: pieces', clean, ?_, ?_⟩
    · intro piece member
      obtain ⟨own, path⟩ := shaped last (by simp)
      simp only [List.mem_append, List.mem_cons] at member
      rcases member with earlier | rfl | later
      · exact shaped piece (by simp [earlier])
      · exact ⟨⟨own.is_path, own.literal.append clean'⟩, path⟩
      · exact shaped' piece later
    · simp [render]

/-- Such a text has no other tags, and on both sides of one are such texts. -/
theorem TagsOf.split (tags : TagsOf paths text) (shape : Content tag)
    (split : text = before ++ (inBraces tag ++ after)) :
    ∃ path ∈ paths, tag = pathText path ∧ TagsOf paths before ∧ TagsOf paths after := by
  obtain ⟨front, pieces, clean, shaped, rfl⟩ := tags
  obtain ⟨first, piece, rest, rfl, rfl, rfl, rfl⟩ :=
    exists_piece clean.1 (fun piece member => (shaped piece member).1) shape split
  obtain ⟨own, among⟩ := shaped piece (by simp)
  refine ⟨piece.path, among, rfl, ⟨front, first, clean, ?_, rfl⟩,
    piece.literal, rest, own.literal, ?_, rfl⟩
  · exact fun piece member => shaped piece (List.mem_append_left _ member)
  · exact fun piece member => shaped piece (List.mem_append_right _ (List.mem_cons_of_mem _ member))

/-- No turn finds anything without a brace ahead. -/
theorem brace_ahead (goes : Passes o obj s t) : openBrace ∈ unsearched s := by
  obtain ⟨_, -, -, found, ahead⟩ := goes
  rw [unsearched, found, List.drop_append_of_le_length ahead]
  simp [inBraces]

theorem not_comesBack_none (none : openBrace ∉ template) : ¬ComesBack o obj template := by
  apply not_comesBack (P := fun s => openBrace ∉ unsearched s) (fun _ => 0) none
  · exact fun s t none goes => absurd (brace_ahead goes) none
  · exact fun _ _ _ => Nat.le_refl 0

theorem exists_replaced {pattern front behind : JsText} (split : text = front ++ (pattern ++ behind))
    (no_dollar : dollar ∉ value) : ∃ before after, text = before ++ (pattern ++ after) ∧
      replace text pattern value = before ++ (value ++ after) := by
  obtain ⟨before, after, split', first⟩ := exists_first split
  refine ⟨before, after, split', ?_⟩
  rw [replace_first value split' first, substitute_plain _ _ _ no_dollar]

/-- The paths lead to texts that have no braces but those of tags with these paths. -/
structure TagTexts (o : Objects V) (obj : V) (paths : Set (List JsText))
    (values : List JsText → JsText) : Prop where
  is_path : ∀ path ∈ paths, IsPath path
  resolves : ∀ path ∈ paths, (resolve o path obj).bind o.toText = some (values path)
  tags : ∀ path ∈ paths, TagsOf paths (values path)
  no_dollar : ∀ path ∈ paths, dollar ∉ values path

theorem TagTexts.tagText (texts : TagTexts o obj paths values) (member : path ∈ paths) :
    PropertyTags.tagText o obj (pathText path) = some (values path) :=
  tagText_path (texts.is_path path member) (texts.resolves path member)

/-- A turn puts the value in the place of a tag that equals the one that was found, and
goes on behind this one. -/
theorem TagTexts.passes (texts : TagTexts o obj paths values) (tags : TagsOf paths s.str)
    (goes : Passes o obj s t) :
    ∃ path ∈ paths, ∃ front behind before after, s.str = front ++ (tagOf path ++ behind) ∧
      s.lastIndex ≤ front.length ∧ t.lastIndex = front.length + (tagOf path).length ∧
      s.str = before ++ (tagOf path ++ after) ∧ t.str = before ++ (values path ++ after) ∧
      TagsOf paths t.str := by
  obtain ⟨_, @⟨str, front, tag, behind, given, lastIndex, shape, read, split, ahead⟩⟩ := goes
  obtain ⟨path, member, rfl, -, -⟩ := tags.split shape split
  obtain rfl : given = values path := Option.some.inj (read.symm.trans (texts.tagText member))
  obtain ⟨before, after, split', replaced⟩ := exists_replaced split (texts.no_dollar path member)
  obtain ⟨-, -, -, left, right⟩ := tags.split shape split'
  refine ⟨path, member, front, behind, before, after, split, ahead, rfl, split', replaced, ?_⟩
  dsimp only
  rw [replaced]
  exact left.append ((texts.tags path member).append right)

/-- Texts shorter than two tags leave less to search. -/
theorem TagTexts.not_comesBack_short (texts : TagTexts o obj paths values)
    (tags : TagsOf paths template)
    (short : ∀ path ∈ paths, (values path).length < 2 * (tagOf path).length) :
    ¬ComesBack o obj template := by
  apply not_comesBack (P := fun s => TagsOf paths s.str) (fun s => (unsearched s).length) tags
  · intro s t tags goes
    obtain ⟨path, member, front, behind, before, after, found, ahead, next, split, split', tags'⟩ :=
      texts.passes tags goes
    have shorter := short path member
    have found_length := congrArg List.length found
    have split_length := congrArg List.length split
    have split_length' := congrArg List.length split'
    refine ⟨tags', ?_⟩
    simp only [unsearched, List.length_drop, List.length_append] at *
    omega
  · exact fun s t within => within.search.length_le

/-- Texts without tags leave fewer of them. -/
theorem TagTexts.not_comesBack_plain (texts : TagTexts o obj paths values)
    (tags : TagsOf paths template) (plain : ∀ path ∈ paths, openBrace ∉ values path) :
    ¬ComesBack o obj template := by
  apply not_comesBack (P := fun s => TagsOf paths s.str) (fun s => s.str.count openBrace) tags
  · intro s t tags goes
    obtain ⟨path, member, -, -, before, after, -, -, -, split, split', tags'⟩ := texts.passes tags goes
    refine ⟨tags', ?_⟩
    rw [split, split']
    simp only [List.count_append, List.count_eq_zero.mpr (plain path member), tagOf, inBraces,
      List.count_cons_self]
    omega
  · exact fun s t within => within.text.count_le _

theorem no_other_brace {path : List JsText} (single : text.count openBrace ≤ 1)
    (split : text = before ++ (tagOf path ++ after)) : openBrace ∉ before ∧ openBrace ∉ after := by
  rw [split] at single
  simp only [tagOf, inBraces, List.count_append, List.cons_append, List.count_cons_self] at single
  exact ⟨List.count_eq_zero.mp (by omega), List.count_eq_zero.mp (by omega)⟩

theorem only_tag {path : List JsText} {before' after' : JsText} (single : text.count openBrace ≤ 1)
    (split : text = before ++ (tagOf path ++ after))
    (split' : text = before' ++ (tagOf path ++ after')) : before = before' := by
  have same := split.symm.trans split'
  rw [tagOf, inBraces, List.cons_append, List.cons_append] at same
  exact (split_first same (no_other_brace single split).1 (no_other_brace single split').1).1

/-- Behind the place of a single tag there may be no other. -/
theorem TagTexts.not_comesBack_single (texts : TagTexts o obj paths values)
    (tags : TagsOf paths template) (single : template.count openBrace ≤ 1)
    (left : ∀ path ∈ paths, openBrace ∉ (values path).drop (tagOf path).length) :
    ¬ComesBack o obj template := by
  apply not_comesBack (P := fun s => s = ⟨template, 0⟩ ∨ openBrace ∉ unsearched s)
    (fun s => (unsearched s).count openBrace) (Or.inl rfl)
  · intro s t reached goes
    rcases reached with rfl | none
    · obtain ⟨path, member, front, behind, before, after, found, -, next, split, split', -⟩ :=
        texts.passes tags goes
      obtain ⟨-, clean⟩ := no_other_brace single split
      obtain rfl := only_tag single split found
      have none : openBrace ∉ unsearched t := by
        rw [unsearched, split', next, ← List.drop_drop, List.drop_left, List.drop_append]
        simp only [List.mem_append, not_or]
        exact ⟨left path member, fun member => clean (List.mem_of_mem_drop member)⟩
      refine ⟨Or.inr none, ?_⟩
      rw [List.count_eq_zero.mpr none]
      exact List.count_pos_iff.mpr (brace_ahead goes)
    · exact absurd (brace_ahead goes) none
  · exact fun s t within => within.search.count_le _

/-! ## Runs that never end -/

theorem TagsOf.exists_last (tags : TagsOf paths text) (tagged : openBrace ∈ text) :
    ∃ path ∈ paths, ∃ before last, TagsOf paths before ∧ NoBraces last ∧
      text = before ++ (tagOf path ++ last) := by
  obtain ⟨front, pieces, clean, shaped, rfl⟩ := tags
  rcases List.eq_nil_or_concat' pieces with rfl | ⟨pieces, last, rfl⟩
  · rw [render, List.flatMap_nil, List.append_nil] at tagged
    exact absurd tagged clean.1
  · obtain ⟨others, own⟩ := List.forall_mem_append.mp shaped
    obtain ⟨last_shaped, among⟩ := own last (List.mem_singleton_self last)
    exact ⟨last.path, among, front ++ render pieces, last.literal, ⟨front, pieces, clean, others, rfl⟩,
      last_shaped.literal, by simp [render]⟩

/-- While the last tag is not behind it, a search finds one. -/
theorem exec_ahead {last : Piece} {lastIndex : Nat} (shaped : ∀ piece ∈ pieces ++ [last], Shaped piece)
    (clean : openBrace ∉ done.drop lastIndex) (ahead : lastIndex ≤ (done ++ render pieces).length) :
    ∃ piece ∈ pieces ++ [last], ∃ m next,
      exec oRegexp (done ++ render (pieces ++ [last])) lastIndex = some (m, next) ∧
      m.group 2 = some (pathText piece.path) ∧
      next ≤ (done ++ render pieces).length + (tagOf piece.path).length := by
  induction pieces generalizing done with
  | nil =>
    have none : render [] = [] := rfl
    rw [none, List.append_nil] at ahead
    obtain ⟨m, found, reported⟩ := exec_next [] (shaped last (by simp)) ahead clean
    exact ⟨last, by simp, m, _, by simpa [none] using found, reported, by simp⟩
  | cons piece pieces ih =>
    obtain ⟨own, others⟩ := List.forall_mem_cons.mp shaped
    by_cases front : lastIndex ≤ done.length
    · obtain ⟨m, found, reported⟩ := exec_next (pieces ++ [last]) own front clean
      refine ⟨piece, by simp, m, _, by simpa [render] using found, reported, ?_⟩
      simp only [List.length_append]
      omega
    · have split (rest : List Piece) : done ++ render (piece :: rest) =
          (done ++ (tagOf piece.path ++ piece.literal)) ++ render rest := by simp
      rw [split] at ahead
      rw [List.cons_append, split, split]
      obtain ⟨piece', member, found⟩ := ih others (own.clear_behind (Nat.lt_of_not_le front)) ahead
      exact ⟨piece', List.mem_cons_of_mem piece member, found⟩

/-- Every text has tags and the length of two; and all are of one path, or all texts have
a tag that a search behind the place of a single one meets. -/
structure Endless (o : Objects V) (obj : V) (paths : Set (List JsText))
    (values : List JsText → JsText) : Prop extends TagTexts o obj paths values where
  tagged : ∀ path ∈ paths, openBrace ∈ values path
  long : ∀ path ∈ paths, 2 * (tagOf path).length ≤ (values path).length
  uniform : paths.Subsingleton ∨ ∀ path ∈ paths, openBrace ∈ (values path).drop (tagOf path).length

/-- The last tag is not behind the search, and neither will the one be that a turn makes
the last. -/
def Chased (paths : Set (List JsText)) (values : List JsText → JsText) (s : Scan) : Prop :=
  ∃ path ∈ paths, ∃ before last, TagsOf paths before ∧ NoBraces last ∧
    s.str = before ++ (tagOf path ++ last) ∧ s.lastIndex ≤ before.length ∧
    (openBrace ∈ before ∨ openBrace ∈ (values path).drop (tagOf path).length)

/-- Where the last tag itself gives way, its text has the next last tag. -/
theorem chased_inside {next : Nat} {last : JsText} (texts : Endless o obj paths values)
    (member : path ∈ paths) (tags : TagsOf paths before) (clean_last : NoBraces last)
    (late : openBrace ∈ (values path).drop (tagOf path).length)
    (near : next ≤ before.length + (tagOf path).length) :
    Chased paths values ⟨before ++ (values path ++ last), next⟩ := by
  obtain ⟨path', member', front, last', tags', clean_last', split⟩ :=
    (texts.tags path member).exists_last (List.mem_of_mem_drop late)
  have behind : (tagOf path).length ≤ front.length := by
    by_contra short
    have last_shaped : Shaped ⟨path', last'⟩ := ⟨texts.is_path path' member', clean_last'⟩
    exact last_shaped.clear_behind (Nat.lt_of_not_le short) (split ▸ late)
  have late' : openBrace ∈ (values path').drop (tagOf path').length := by
    rcases texts.uniform with single | all
    · exact single member member' ▸ late
    · exact all path' member'
  refine ⟨path', member', before ++ front, last' ++ last, tags.append tags', clean_last'.append clean_last,
    ?_, ?_, Or.inr late'⟩
  · rw [split]
    simp only [List.append_assoc]
  · simp only [List.length_append]
    omega

/-- Where a tag before the last gives way, its text pushes the last on at least as far as
the search goes. -/
theorem chased_behind {path' : List JsText} {next : Nat} {last : JsText}
    (texts : Endless o obj paths values) (member : path ∈ paths) (member' : path' ∈ paths)
    (tags : TagsOf paths before) (tags' : TagsOf paths after) (clean_last : NoBraces last)
    (near : next ≤ (before ++ (tagOf path ++ after)).length + (tagOf path).length) :
    Chased paths values ⟨before ++ (values path ++ (after ++ (tagOf path' ++ last))), next⟩ := by
  have room := texts.long path member
  refine ⟨path', member', before ++ (values path ++ after), last,
    tags.append ((texts.tags path member).append tags'), clean_last, ?_, ?_,
    Or.inl (by simp [texts.tagged path member])⟩
  · simp only [List.append_assoc]
  · simp only [List.length_append] at near ⊢
    omega

/-- What gives way is the first tag of some path. -/
theorem Chased.turn (chased : Chased paths values s) (texts : Endless o obj paths values) :
    ∃ t, PropertyTags.turn o obj s = .again t ∧ Chased paths values t := by
  obtain ⟨str, lastIndex⟩ := s
  obtain ⟨path, member, _, last, ⟨done, pieces, clean, shaped, rfl⟩, clean_last, rfl, ahead, further⟩ :=
    chased
  have all_shaped : ∀ piece ∈ pieces ++ [⟨path, last⟩], Shaped piece ∧ piece.path ∈ paths :=
    List.forall_mem_append.mpr ⟨shaped,
      List.forall_mem_singleton.mpr ⟨⟨texts.is_path path member, clean_last⟩, member⟩⟩
  have whole : (done ++ render pieces) ++ (tagOf path ++ last) =
      done ++ render (pieces ++ [⟨path, last⟩]) := by simp [render]
  obtain ⟨piece, piece_member, m, next, found, reported, near⟩ := exec_ahead
    (fun piece member => (all_shaped piece member).1)
    (fun member => clean.1 (List.mem_of_mem_drop member)) ahead
  obtain ⟨first, same, others, split, path_eq, absent⟩ := exists_first_piece piece_member
  have own := all_shaped piece piece_member
  have same_own := all_shaped same (by rw [split]; simp)
  have first_own : ∀ piece ∈ first, Shaped piece ∧ piece.path ∈ paths :=
    fun piece among => all_shaped piece (by rw [split]; simp [among])
  have replaced := replace_tag others (fun piece among => (first_own piece among).1) same_own.1
    (path_eq ▸ absent) clean.1 (texts.no_dollar same.path same_own.2)
  rw [← split] at replaced
  rw [whole]
  refine ⟨_, turn_tag found reported (texts.tagText own.2), ?_⟩
  rw [← path_eq] at near ⊢
  rw [replaced]
  have front_tags : TagsOf paths (done ++ render first) := ⟨done, first, clean, first_own, rfl⟩
  rcases List.eq_nil_or_concat' others with rfl | ⟨others, same', rfl⟩
  · -- the last tag gives way; if another stands before it, it has another path
    obtain ⟨rfl, rfl⟩ : pieces = first ∧ ⟨path, last⟩ = same := by
      simpa using List.append_inj' split rfl
    have late : openBrace ∈ (values path).drop (tagOf path).length := by
      rcases texts.uniform with single | all
      · refine further.resolve_left fun some => ?_
        cases pieces with
        | nil => exact clean.1 (by simpa [render] using some)
        | cons other pieces =>
          have other_own := shaped other List.mem_cons_self
          exact absent other List.mem_cons_self (single other_own.2 own.2)
      · exact all path member
    have inside := chased_inside texts member front_tags clean_last late near
    simpa [render] using inside
  · obtain ⟨rfl, rfl⟩ : pieces = first ++ same :: others ∧ ⟨path, last⟩ = same' := by
      have regrouped : pieces ++ [⟨path, last⟩] = (first ++ same :: others) ++ [same'] := by
        rw [split]
        simp
      simpa using List.append_inj' regrouped rfl
    have back_tags : TagsOf paths (same.literal ++ render others) :=
      ⟨_, others, same_own.1.literal, fun piece among => shaped piece (by simp [among]), rfl⟩
    have behind := chased_behind texts same_own.2 member front_tags back_tags clean_last
      (by simpa [render] using near)
    simpa [render] using behind

/-- Where another tag stands before the last, or all texts have tags far enough behind,
the loop goes on for ever. -/
theorem Endless.runs (texts : Endless o obj paths values) (tags : TagsOf paths template)
    (some : openBrace ∈ template)
    (further : template.count openBrace = 1 →
      ∀ path ∈ paths, openBrace ∈ (values path).drop (tagOf path).length) :
    ¬Terminates o template obj := by
  rintro ⟨fuel, outcome, ended⟩
  obtain ⟨path, member, before, last, tags', clean, split⟩ := tags.exists_last some
  have start : Chased paths values ⟨template, 0⟩ := by
    refine ⟨path, member, before, last, tags', clean, split, Nat.zero_le _, ?_⟩
    by_cases earlier : openBrace ∈ before
    · exact Or.inl earlier
    · refine Or.inr (further ?_ path member)
      have once : (tagOf path).count openBrace = 1 := by
        simp [tagOf, inBraces, List.count_eq_zero.mpr (openBrace_not_mem_path (texts.is_path path member)),
          (by decide : closeBrace ≠ openBrace)]
      rw [split, List.count_append, List.count_append, once, List.count_eq_zero.mpr earlier,
        List.count_eq_zero.mpr clean.1]
  have object : o.isObject obj := by
    obtain ⟨value, found, -⟩ := Option.bind_eq_some_iff.mp (texts.resolves path member)
    exact isObject_of_resolve (texts.is_path path member).1 found
  refine not_ends (fun s chased => Chased.turn chased texts) start ⟨outcome, fuel, ?_⟩
  simpa [formatPropStr, object] using ended

/-- The template has no tag or the text none; or the text is shorter than two tags; or
the template has one tag and the text none that a search behind that one's place meets. -/
def Dwindles (path : List JsText) (value template : JsText) : Prop :=
  openBrace ∉ template ∨ openBrace ∉ value ∨ value.length < 2 * (tagOf path).length ∨
    template.count openBrace = 1 ∧ openBrace ∉ value.drop (tagOf path).length

instance (path : List JsText) (value template : JsText) : Decidable (Dwindles path value template) :=
  inferInstanceAs (Decidable (_ ∨ _ ∨ _ ∨ _))

theorem TagTexts.dwindles (texts : TagTexts o obj {path} values) (tags : TagsOf {path} template)
    (terminates : Terminates o template obj) : Dwindles path (values path) template := by
  by_contra endless
  simp only [Dwindles, not_or, not_not, not_and] at endless
  obtain ⟨some, tagged, long, further⟩ := endless
  have endless : Endless o obj {path} values := by
    refine { texts with tagged := ?_, long := ?_, uniform := Or.inl Set.subsingleton_singleton }
    · rintro _ rfl
      exact tagged
    · rintro _ rfl
      exact Nat.le_of_not_lt long
  refine endless.runs tags some ?_ terminates
  rintro single _ rfl
  exact further single

theorem TagTexts.not_comesBack (texts : TagTexts o obj {path} values) (tags : TagsOf {path} template)
    (dwindles : Dwindles path (values path) template) : ¬ComesBack o obj template := by
  rcases dwindles with none | plain | short | ⟨single, left⟩
  · exact not_comesBack_none none
  · exact texts.not_comesBack_plain tags (by rintro _ rfl; exact plain)
  · exact texts.not_comesBack_short tags (by rintro _ rfl; exact short)
  · exact texts.not_comesBack_single tags single.le (by rintro _ rfl; exact left)

/-- The text is at least as long as two tags, and has a tag that a search behind the
place of a single one meets. -/
def Grows (path : List JsText) (value : JsText) : Prop :=
  2 * (tagOf path).length ≤ value.length ∧ openBrace ∈ value.drop (tagOf path).length

end NetGraphz.TagLoops
