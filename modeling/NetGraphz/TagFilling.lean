import NetGraphz.PropertyTags

/-! Templates of text and tags, and what `format_prop_str` fills them with. -/
namespace NetGraphz.TagFilling
open Pattern JsText PropertyTags

/-- A path with points between its names. -/
def pathText : List JsText → JsText
  | [] => []
  | name :: names => name ++ names.flatMap (dot :: ·)

/-- The names of a path are words. -/
def IsPath (path : List JsText) : Prop := path ≠ [] ∧ ∀ name ∈ path, name ≠ [] ∧ ∀ c ∈ name, isWord c

def tagOf (path : List JsText) : JsText := inBraces (pathText path)

instance (path : List JsText) : Decidable (IsPath path) :=
  decidable_of_iff (path ≠ [] ∧ path.all fun name => name ≠ [] ∧ name.all isWord) (by simp [IsPath])

variable {path : List JsText} {name rest post : JsText} {names : List JsText}

theorem dot_not_word : isWord dot = false := rfl

theorem word_of_mem_names {c : UInt16}
    (words : ∀ name ∈ names, name ≠ [] ∧ ∀ c ∈ name, isWord c)
    (member : c ∈ names.flatMap (dot :: ·)) : isWord c ∨ c = dot := by
  obtain ⟨name, among, within⟩ := List.mem_flatMap.mp member
  rcases List.mem_cons.mp within with point | letter
  · exact Or.inr point
  · exact Or.inl ((words name among).2 c letter)

theorem word_of_mem_path {c : UInt16} (is_path : IsPath path) (member : c ∈ pathText path) :
    isWord c ∨ c = dot := by
  cases path with
  | nil => cases member
  | cons name names =>
    obtain ⟨own, others⟩ := List.forall_mem_cons.mp is_path.2
    rcases List.mem_append.mp member with first | later
    · exact Or.inl (own.2 c first)
    · exact word_of_mem_names others later

theorem not_mem_path {c : UInt16} (is_path : IsPath path) (other : isWord c = false)
    (no_point : c ≠ dot) : c ∉ pathText path := by
  intro member
  rcases word_of_mem_path is_path member with letter | point
  · rw [other] at letter
    cases letter
  · exact no_point point

theorem closeBrace_not_mem_path (is_path : IsPath path) : closeBrace ∉ pathText path :=
  not_mem_path is_path closeBrace_not_word (by decide)

theorem openBrace_not_mem_path (is_path : IsPath path) : openBrace ∉ pathText path :=
  not_mem_path is_path openBrace_not_word (by decide)

/-! ## A tag as the outer expression sees it -/

/-- No closing brace stands before the first opening one. -/
def Apart (text : JsText) : Prop := ∀ before after, text = before ++ closeBrace :: after → openBrace ∈ before

/-- What follows a name does not go on with it. -/
theorem stops_behind_name (names : List JsText) (post : JsText) :
    ∀ c ∈ (names.flatMap (dot :: ·) ++ closeBrace :: post).head?, ¬isWord c := by
  cases names with
  | nil =>
    rintro c ⟨⟩
    simp [closeBrace_not_word]
  | cons name names =>
    rintro c ⟨⟩
    simp [dot_not_word]

theorem first_word (some : name ≠ []) (letters : ∀ c ∈ name, isWord c)
    (stops : ∀ c ∈ rest.head?, ¬isWord c) : word.first (name ++ rest) = .some ⟨name, [], rest⟩ :=
  first_plus some letters stops

/-- The names behind the first are one way for the repetition to go. -/
theorem mem_star_names (words : ∀ name ∈ names, name ≠ [] ∧ ∀ c ∈ name, isWord c) (post : JsText) :
    ∃ k ∈ (star true (seq (char dot) word)).attempts (names.flatMap (dot :: ·) ++ closeBrace :: post),
      k.rest = closeBrace :: post := by
  induction names with
  | nil => exact ⟨nowhere _, mem_star.mpr (Or.inl rfl), rfl⟩
  | cons name names ih =>
    obtain ⟨own, others⟩ := List.forall_mem_cons.mp words
    obtain ⟨k, member, behind⟩ := ih others
    have first : word.first (name ++ (names.flatMap (dot :: ·) ++ closeBrace :: post)) =
        some ⟨name, [], names.flatMap (dot :: ·) ++ closeBrace :: post⟩ :=
      first_word own.1 own.2 (stops_behind_name names post)
    refine ⟨Match.andThen ⟨dot :: name, [], names.flatMap (dot :: ·) ++ closeBrace :: post⟩ k, ?_, behind⟩
    refine mem_star.mpr (Or.inr ⟨_, ?_, List.cons_ne_nil dot name, k, member, rfl⟩)
    refine mem_seq.mpr ⟨⟨[dot], [], name ++ (names.flatMap (dot :: ·) ++ closeBrace :: post)⟩, ?_, _,
      mem_of_first first, rfl⟩
    refine mem_one.mpr ⟨dot, rfl, ?_, rfl⟩
    simp

theorem mem_content (is_path : IsPath path) (post : JsText) :
    ∃ k ∈ content.attempts (pathText path ++ closeBrace :: post), k.rest = closeBrace :: post := by
  cases path with
  | nil => exact absurd rfl is_path.1
  | cons name names =>
    obtain ⟨own, others⟩ := List.forall_mem_cons.mp is_path.2
    obtain ⟨k, member, behind⟩ := mem_star_names others post
    have first : word.first (pathText (name :: names) ++ closeBrace :: post) =
        some ⟨name, [], names.flatMap (dot :: ·) ++ closeBrace :: post⟩ := by
      rw [pathText, List.append_assoc]
      exact first_word own.1 own.2 (stops_behind_name names post)
    have none : nowhere (names.flatMap (dot :: ·) ++ closeBrace :: post) ∈
        maybeAny.attempts (names.flatMap (dot :: ·) ++ closeBrace :: post) :=
      mem_alt.mpr (Or.inr (mem_empty.mpr rfl))
    exact ⟨_, mem_seq.mpr ⟨_, mem_of_first first, _, mem_seq.mpr ⟨_, none, k, member, rfl⟩, rfl⟩, behind⟩

theorem mem_braced (is_path : IsPath path) (post : JsText) :
    ∃ k, k ∈ braced.attempts (openBrace :: (pathText path ++ closeBrace :: post)) := by
  obtain ⟨k, member, behind⟩ := mem_content is_path post
  have opens : (⟨[openBrace], [], pathText path ++ closeBrace :: post⟩ : Match UInt16) ∈
      (char openBrace).attempts (openBrace :: (pathText path ++ closeBrace :: post)) :=
    mem_one.mpr ⟨openBrace, rfl, rfl, rfl⟩
  have closes : (⟨[closeBrace], [], post⟩ : Match UInt16) ∈ (char closeBrace).attempts k.rest :=
    mem_one.mpr ⟨closeBrace, rfl, behind, rfl⟩
  exact ⟨_, mem_group.mpr ⟨_, mem_seq.mpr ⟨_, opens, _,
    mem_seq.mpr ⟨_, mem_group.mpr ⟨k, member, rfl⟩, _, closes, rfl⟩, rfl⟩, rfl⟩⟩

/-- What stands between the braces that are read is the path, as nothing behind it
could close the tag instead. -/
theorem content_eq {found rest : JsText} (is_path : IsPath path) (apart : Apart post)
    (shape : Content found) (same : pathText path ++ closeBrace :: post = found ++ closeBrace :: rest) :
    found = pathText path := by
  have no_brace := closeBrace_not_mem_path is_path
  by_cases within : closeBrace ∈ found
  · obtain ⟨name, other, rest', rfl, some, letters, short, behind⟩ := shape
    have not_letter : closeBrace ∉ name := fun member =>
      absurd (letters _ member) (by rw [closeBrace_not_word]; exact Bool.false_ne_true)
    have not_behind : closeBrace ∉ rest' := fun member =>
      absurd (behind _ member) (by rw [closeBrace_not_word]; decide)
    have own : other = [closeBrace] := by
      have among : closeBrace ∈ other := by
        simpa [not_letter, not_behind] using within
      obtain ⟨c, rfl⟩ := List.length_eq_one_iff.mp (Nat.le_antisymm short (List.length_pos_of_mem among))
      rw [List.mem_singleton.mp among]
    rw [own, List.append_assoc, List.append_assoc, List.singleton_append] at same
    obtain ⟨-, follows⟩ := split_first same no_brace not_letter
    have opened := apart rest' rest follows
    exact absurd (behind _ opened) (by rw [openBrace_not_word]; decide)
  · exact (split_first same no_brace within).1.symm

/-- A tag is read as far as its closing brace. -/
theorem first_braced (is_path : IsPath path) (apart : Apart post) :
    ∃ k, braced.first (openBrace :: (pathText path ++ closeBrace :: post)) = some k ∧
      k.text = tagOf path ∧ k.group 2 = some (pathText path) := by
  obtain ⟨k', member'⟩ := mem_braced is_path post
  obtain ⟨k, found⟩ : ∃ k, braced.first (openBrace :: (pathText path ++ closeBrace :: post)) = some k := by
    rw [← Option.ne_none_iff_exists', ne_eq, first_eq_none]
    exact List.ne_nil_of_mem member'
  have member := mem_of_first found
  obtain ⟨inner, shape, taken, reported⟩ := braced_of_mem member
  have split := split_of_mem member
  rw [taken] at split
  have same : pathText path ++ closeBrace :: post = inner ++ closeBrace :: k.rest := by
    simpa [inBraces] using split
  obtain rfl := content_eq is_path apart shape same
  exact ⟨k, found, taken, reported⟩

/-! ## A path as the inner expression sees it -/

theorem iRegexp_consumes : Consumes iRegexp :=
  consumes_seq_left (consumes_group 1 (consumes_seq_left (consumes_one _) _)) _

/-- The first name is one match, with the point behind it, which is followed by no
other. -/
theorem first_name (some : name ≠ []) (letters : ∀ c ∈ name, isWord c)
    (others : ∀ name ∈ names, name ≠ [] ∧ ∀ c ∈ name, isWord c) :
    ∃ m, iRegexp.first (name ++ names.flatMap (dot :: ·)) = .some m ∧ m.group 1 = .some name ∧
      m.rest = pathText names := by
  have own {rest : JsText} (stops : ∀ c ∈ rest.head?, ¬isWord c) :
      (group 1 word).first (name ++ rest) = .some ⟨name, [(1, name)], rest⟩ :=
    first_group 1 (first_word some letters stops)
  cases names with
  | nil =>
    have ends : (seq maybeAny (star true (seq (char dot) (group 2 word)))).first [] =
        .some ⟨[], [], []⟩ := rfl
    exact ⟨_, first_seq (own (by simp)) ends, rfl, rfl⟩
  | cons next names =>
    obtain ⟨some', letters'⟩ := others next List.mem_cons_self
    have point : maybeAny.first (dot :: pathText (next :: names)) =
        .some ⟨[dot], [], pathText (next :: names)⟩ :=
      first_alt_left (first_one_cons rfl)
    have stops : (star true (seq (char dot) (group 2 word))).first (pathText (next :: names)) =
        .some (nowhere (pathText (next :: names))) := by
      rw [first, star_stops]
      · rfl
      · obtain ⟨c, letters'', rfl⟩ := List.exists_cons_of_ne_nil some'
        apply seq_attempts_nil
        apply one_attempts_nil
        intro same
        have letter := letters' c List.mem_cons_self
        rw [of_decide_eq_true same, dot_not_word] at letter
        cases letter
    have front : (group 1 word).first (name ++ dot :: pathText (next :: names)) =
        .some ⟨name, [(1, name)], dot :: pathText (next :: names)⟩ := by
      apply own
      rintro c ⟨⟩
      simp [dot_not_word]
    exact ⟨_, first_seq front (first_seq point stops), rfl, rfl⟩

/-- The inner loop meets the names of a path one after the other. -/
theorem names_found (words : ∀ name ∈ path, name ≠ [] ∧ ∀ c ∈ name, isWord c) :
    (iRegexp.findAll (pathText path)).map (fun m => m.group 1) = path.map some := by
  induction path with
  | nil => rfl
  | cons name names ih =>
    obtain ⟨own, others⟩ := List.forall_mem_cons.mp words
    obtain ⟨m, front, reported, behind⟩ := first_name own.1 own.2 others
    rw [pathText, findAll_of_search iRegexp_consumes (search_of_first front), List.map_cons, reported,
      behind, ih others]
    rfl

theorem pathText_injective {path' : List JsText} (is_path : IsPath path) (is_path' : IsPath path')
    (same : pathText path = pathText path') : path = path' := by
  have found := names_found is_path.2
  rw [same, names_found is_path'.2] at found
  exact (List.map_injective_iff.mpr (fun _ _ => Option.some.inj) found).symm

variable {V : Type u} {o : Objects V} {obj value : V}

/-- What is under a path, from object to object. -/
def resolve (o : Objects V) : List JsText → V → Option V
  | [], value => some value
  | name :: names, value =>
    if o.isObject value then (o.property value name).bind (resolve o names) else none

theorem follow_resolve {found : List (Match UInt16)}
    (names : found.map (fun m => m.group 1) = path.map some)
    (resolves : resolve o path obj = some value) : follow o found obj = some value := by
  induction path generalizing found obj with
  | nil =>
    rw [List.map_eq_nil_iff.mp names]
    exact resolves
  | cons name path ih =>
    obtain ⟨m, found, rfl, reported, others⟩ := List.map_eq_cons_iff.mp names
    rw [resolve] at resolves
    split at resolves
    · rename_i object
      obtain ⟨next, read, resolves⟩ := Option.bind_eq_some_iff.mp resolves
      simp [follow, object, reported, read, ih others resolves]
    · cases resolves

/-- A tag gives way to the text that its path leads to. -/
theorem tagText_path {text : JsText} (is_path : IsPath path)
    (resolves : (resolve o path obj).bind o.toText = some text) :
    tagText o obj (pathText path) = some text := by
  obtain ⟨value, found, read⟩ := Option.bind_eq_some_iff.mp resolves
  rw [tagText, follow_resolve (names_found is_path.2) found]
  exact read

/-! ## Templates -/

/-- A tag, and the text between it and the next. -/
structure Piece where
  path : List JsText
  literal : JsText

def render (pieces : List Piece) : JsText :=
  pieces.flatMap fun piece => tagOf piece.path ++ piece.literal

/-- The pieces with a value in the place of each tag. -/
def fill (value : List JsText → JsText) (pieces : List Piece) : JsText :=
  pieces.flatMap fun piece => value piece.path ++ piece.literal

/-- Text without braces. -/
def NoBraces (text : JsText) : Prop := openBrace ∉ text ∧ closeBrace ∉ text

instance (text : JsText) : Decidable (NoBraces text) :=
  inferInstanceAs (Decidable (openBrace ∉ text ∧ closeBrace ∉ text))

structure Shaped (piece : Piece) : Prop where
  is_path : IsPath piece.path
  literal : NoBraces piece.literal

/-- The tag's path leads to a text that can stand in for it. -/
structure Ready (o : Objects V) (obj : V) (value : List JsText → JsText) (piece : Piece) : Prop
    extends Shaped piece where
  resolves : (resolve o piece.path obj).bind o.toText = some (value piece.path)
  no_braces : NoBraces (value piece.path)
  no_dollar : dollar ∉ value piece.path

variable {values : List JsText → JsText} {piece : Piece} {pieces before after : List Piece}
  {done : JsText} {lastIndex : Nat}

theorem noBraces_nil : NoBraces [] := ⟨List.not_mem_nil, List.not_mem_nil⟩

theorem NoBraces.append {text text' : JsText} (left : NoBraces text) (right : NoBraces text') :
    NoBraces (text ++ text') :=
  ⟨by simp [left.1, right.1], by simp [left.2, right.2]⟩

@[simp] theorem render_cons (piece : Piece) (pieces : List Piece) :
    render (piece :: pieces) = tagOf piece.path ++ (piece.literal ++ render pieces) := by
  simp [render]

@[simp] theorem render_append (before after : List Piece) :
    render (before ++ after) = render before ++ render after := List.flatMap_append

@[simp] theorem fill_cons (piece : Piece) (pieces : List Piece) :
    fill values (piece :: pieces) = values piece.path ++ (piece.literal ++ fill values pieces) := by
  simp [fill]

theorem head_render (pieces : List Piece) : ∀ c ∈ (render pieces).head?, c = openBrace := by
  cases pieces with
  | nil => simp [render]
  | cons piece pieces =>
    rintro c ⟨⟩
    rfl

/-- Behind a text without braces the first brace is an opening one. -/
theorem render_apart (pieces : List Piece) {text : JsText} (literal : NoBraces text) : Apart (text ++ render pieces) := by
  intro before after same
  rcases List.append_eq_append_iff.mp same with ⟨between, rfl, rest⟩ | ⟨between, split, rest⟩
  · cases between with
    | nil =>
      have opens := head_render pieces closeBrace (by rw [rest]; rfl)
      exact absurd opens (by decide)
    | cons c between =>
      obtain rfl := head_render pieces c (by rw [rest]; rfl)
      simp
  · cases between with
    | nil =>
      rw [List.nil_append] at rest
      have opens := head_render pieces closeBrace (by rw [← rest]; rfl)
      exact absurd opens (by decide)
    | cons c between =>
      obtain ⟨rfl, -⟩ := List.cons.inj rest
      exact absurd (by simp [split]) literal.2

/-- The tag behind a text without opening braces is the next that is found. -/
theorem exec_next (pieces : List Piece) (shaped : Shaped piece) (within : lastIndex ≤ done.length)
    (clean : openBrace ∉ done.drop lastIndex) :
    ∃ m, exec oRegexp (done ++ render (piece :: pieces)) lastIndex =
        some (m, done.length + (tagOf piece.path).length) ∧
      m.group 2 = some (pathText piece.path) := by
  obtain ⟨k, front, taken, reported⟩ :=
    first_braced shaped.is_path (render_apart pieces shaped.literal)
  have closed : openBrace ∉
      (pathText piece.path ++ closeBrace :: (piece.literal ++ render pieces)).head? := by
    have letters := openBrace_not_mem_path shaped.is_path
    cases shape : pathText piece.path with
    | nil =>
      rintro ⟨⟩
    | cons c rest =>
      rintro ⟨⟩
      exact letters (shape ▸ List.mem_cons_self)
  obtain ⟨skipped, m, searched, all, reported'⟩ := search_tag clean closed front
  have split : (done ++ render (piece :: pieces)).drop lastIndex = done.drop lastIndex ++
      openBrace :: (pathText piece.path ++ closeBrace :: (piece.literal ++ render pieces)) := by
    rw [List.drop_append_of_le_length within]
    simp [tagOf, inBraces]
  have lengths := congrArg List.length all
  rw [taken, List.length_append, List.length_append, List.length_drop] at lengths
  refine ⟨m, ?_, reported'.trans reported⟩
  have next : lastIndex + skipped.length + m.text.length = done.length + (tagOf piece.path).length := by
    omega
  rw [exec, if_pos (by rw [List.length_append]; omega), split, searched, ← next]
  rfl

theorem tag_literal (piece : Piece) : tagOf piece.path ++ piece.literal =
    openBrace :: (pathText piece.path ++ closeBrace :: piece.literal) := by
  simp [tagOf, inBraces]

/-- A piece opens one tag. -/
theorem Shaped.one_brace (shaped : Shaped piece) :
    openBrace ∉ pathText piece.path ++ closeBrace :: piece.literal := by
  simp only [List.mem_append, List.mem_cons, not_or]
  exact ⟨openBrace_not_mem_path shaped.is_path, by decide, shaped.literal.1⟩

/-- Behind the brace that opens a piece there is none up to the next. -/
theorem Shaped.clear_behind (shaped : Shaped piece) (behind : done.length < lastIndex) :
    openBrace ∉ (done ++ (tagOf piece.path ++ piece.literal)).drop lastIndex := by
  intro member
  obtain ⟨further, within⟩ : ∃ further, lastIndex - done.length = further + 1 :=
    ⟨lastIndex - done.length - 1, by omega⟩
  rw [List.drop_append, List.drop_eq_nil_of_le (by omega), List.nil_append, tag_literal, within,
    List.drop_succ_cons] at member
  exact shaped.one_brace (List.mem_of_mem_drop member)

/-- What a search finds from anywhere: nothing, or a tag, which is the first one
exactly if the search starts no later than where that begins. -/
theorem exec_render (shaped : ∀ piece ∈ pieces, Shaped piece)
    (clean : openBrace ∉ done.drop lastIndex) :
    exec oRegexp (done ++ render pieces) lastIndex = none ∨
      ∃ before piece after m, pieces = before ++ piece :: after ∧
        exec oRegexp (done ++ render pieces) lastIndex =
          some (m, (done ++ render before).length + (tagOf piece.path).length) ∧
        m.group 2 = some (pathText piece.path) ∧ (done.length < lastIndex → before ≠ []) := by
  induction pieces generalizing done with
  | nil =>
    refine Or.inl (exec_none ?_)
    simpa [render] using clean
  | cons piece pieces ih =>
    obtain ⟨own, others⟩ := List.forall_mem_cons.mp shaped
    by_cases within : lastIndex ≤ done.length
    · obtain ⟨m, found, reported⟩ := exec_next pieces own within clean
      refine Or.inr ⟨[], piece, pieces, m, rfl, ?_, reported, fun behind => by omega⟩
      simpa [render] using found
    · have split : done ++ render (piece :: pieces) =
          (done ++ (tagOf piece.path ++ piece.literal)) ++ render pieces := by simp
      have clean' := own.clear_behind (Nat.lt_of_not_le within)
      rw [split]
      rcases ih others clean' with none | ⟨before, next, after, m, rfl, found, reported, -⟩
      · exact Or.inl none
      · refine Or.inr ⟨piece :: before, next, after, m, rfl, ?_, reported, fun _ => List.cons_ne_nil _ _⟩
        rw [found]
        simp

/-! ## What a turn replaces -/

theorem not_tag_within (path : List JsText) (clean : openBrace ∉ done) {i : Nat}
    (within : i < done.length) (rest : JsText) : ¬tagOf path <+: (done ++ rest).drop i := by
  rintro ⟨behind, same⟩
  have here : (done ++ rest)[i]? = some openBrace := by
    rw [← Nat.add_zero i, ← List.getElem?_drop, ← same]
    rfl
  rw [List.getElem?_append_left within] at here
  exact clean (List.mem_of_getElem? here)

theorem path_eq_of_start {path' : List JsText} {rest : JsText} (is_path : IsPath path)
    (is_path' : IsPath path') (starts : tagOf path <+: tagOf path' ++ rest) : path = path' := by
  obtain ⟨behind, same⟩ := starts
  have inside : pathText path ++ closeBrace :: behind = pathText path' ++ closeBrace :: rest := by
    simpa [tagOf, inBraces] using same
  exact pathText_injective is_path is_path'
    (split_first inside (closeBrace_not_mem_path is_path) (closeBrace_not_mem_path is_path')).1

/-- No tag occurs before the first piece that it is in. -/
theorem not_tag_before (is_path : IsPath path) (shaped : ∀ piece ∈ before, Shaped piece)
    (absent : ∀ piece ∈ before, piece.path ≠ path) (clean : openBrace ∉ done) (rest : JsText) {i : Nat}
    (within : i < (done ++ render before).length) :
    ¬tagOf path <+: (done ++ (render before ++ rest)).drop i := by
  induction before generalizing done i with
  | nil =>
    refine not_tag_within path clean ?_ _
    simpa [render] using within
  | cons piece before ih =>
    obtain ⟨own, others⟩ := List.forall_mem_cons.mp shaped
    obtain ⟨other, absent⟩ := List.forall_mem_cons.mp absent
    rcases Nat.lt_trichotomy i done.length with inside | rfl | behind
    · exact not_tag_within path clean inside _
    · rw [List.drop_left, render_cons, List.append_assoc]
      exact fun starts => other (path_eq_of_start is_path own.is_path starts).symm
    · obtain ⟨j, rfl⟩ : ∃ j, i = done.length + (j + 1) := ⟨i - done.length - 1, by omega⟩
      have split : (done ++ (render (piece :: before) ++ rest)).drop (done.length + (j + 1)) =
          ((pathText piece.path ++ closeBrace :: piece.literal) ++ (render before ++ rest)).drop j := by
        rw [← List.drop_drop, List.drop_left]
        simp [tagOf, inBraces]
      rw [split]
      refine ih others absent own.one_brace ?_
      have length := congrArg List.length (tag_literal piece)
      simp only [List.length_append, List.length_cons, render_cons] at within length ⊢
      omega

theorem replace_tag (after : List Piece) {text : JsText} (shaped : ∀ piece ∈ before, Shaped piece) (own : Shaped piece)
    (absent : ∀ other ∈ before, other.path ≠ piece.path) (clean : openBrace ∉ done)
    (no_dollar : dollar ∉ text) :
    replace (done ++ render (before ++ piece :: after)) (tagOf piece.path) text =
      done ++ (render before ++ (text ++ (piece.literal ++ render after))) := by
  have split : done ++ render (before ++ piece :: after) =
      (done ++ render before) ++ (tagOf piece.path ++ (piece.literal ++ render after)) := by simp
  rw [replace_first _ split, substitute_plain _ _ _ no_dollar, List.append_assoc]
  intro i within
  rw [render_append]
  exact not_tag_before own.is_path shaped absent clean _ within

/-- The first tag is the first to give way. -/
theorem replace_head (pieces : List Piece) {text : JsText} (own : Shaped piece)
    (clean : openBrace ∉ done) (no_dollar : dollar ∉ text) :
    replace (done ++ render (piece :: pieces)) (tagOf piece.path) text =
      done ++ (text ++ (piece.literal ++ render pieces)) := by
  have replaced : replace (done ++ render ([] ++ piece :: pieces)) (tagOf piece.path) text =
      done ++ (render [] ++ (text ++ (piece.literal ++ render pieces))) :=
    replace_tag pieces (fun _ => nofun) own (fun _ => nofun) clean no_dollar
  simpa [render] using replaced

theorem turn_tag {str text : JsText} {m : Match UInt16} {next : Nat}
    (found : exec oRegexp str lastIndex = some (m, next)) (reported : m.group 2 = some (pathText path))
    (read : tagText o obj (pathText path) = some text) :
    turn o obj ⟨str, lastIndex⟩ = .again ⟨replace str (tagOf path) text, next⟩ :=
  turn_found found reported read

theorem Ready.tagText (ready : Ready o obj values piece) :
    PropertyTags.tagText o obj (pathText piece.path) = some (values piece.path) :=
  tagText_path ready.is_path ready.resolves

/-! ## Runs that fill every tag -/

/-- Between the ends of every two tags that follow one another in the result there
is as much room as the first of them took up. -/
def Roomy (values : List JsText → JsText) : List Piece → Prop
  | [] => True
  | [_] => True
  | piece :: next :: rest =>
    (tagOf piece.path).length ≤ (values piece.path).length + piece.literal.length ∧
      Roomy values (next :: rest)

/-- Behind a tag that lacks this room, no tag stands twice that has a value twice as
long as itself. -/
def Untangled (values : List JsText → JsText) : List Piece → Prop
  | [] => True
  | piece :: rest =>
    ((values piece.path).length + piece.literal.length < (tagOf piece.path).length →
        ∀ path, 2 ≤ (rest.map Piece.path).count path → (values path).length < 2 * (tagOf path).length) ∧
      Untangled values rest

/-- While it is not ahead of its tag, a turn fills it and goes on behind where the tag
was. -/
theorem turn_next (pieces : List Piece) (own : Ready o obj values piece)
    (within : lastIndex ≤ done.length) (clean : openBrace ∉ done) :
    turn o obj ⟨done ++ render (piece :: pieces), lastIndex⟩ =
      .again ⟨(done ++ (values piece.path ++ piece.literal)) ++ render pieces,
        done.length + (tagOf piece.path).length⟩ := by
  obtain ⟨m, found, reported⟩ := exec_next pieces own.toShaped within
    fun member => clean (List.mem_of_mem_drop member)
  rw [turn_tag found reported own.tagText, replace_head pieces own.toShaped clean own.no_dollar]
  simp

theorem Ready.clean_append (ready : Ready o obj values piece) (clean : openBrace ∉ done) :
    openBrace ∉ done ++ (values piece.path ++ piece.literal) := by
  simp only [List.mem_append, not_or]
  exact ⟨clean, ready.no_braces.1, ready.literal.1⟩

theorem turn_stops (lastIndex : Nat) (clean : openBrace ∉ done) : turn o obj ⟨done, lastIndex⟩ = .stop (.returned done) := by
  have none := @exec_none _ lastIndex fun member => clean (List.mem_of_mem_drop member)
  simp only [turn, none]

theorem fills (ready : ∀ piece ∈ pieces, Ready o obj values piece) (clean : openBrace ∉ done)
    (within : pieces ≠ [] → lastIndex ≤ done.length) (roomy : Roomy values pieces) :
    EndsWith (turn o obj) ⟨done ++ render pieces, lastIndex⟩ (.returned (done ++ fill values pieces)) := by
  induction pieces generalizing done lastIndex with
  | nil =>
    simpa [render, fill] using endsWith_of_stop (turn_stops lastIndex clean)
  | cons piece pieces ih =>
    obtain ⟨own, others⟩ := List.forall_mem_cons.mp ready
    have goes := turn_next pieces own (within (List.cons_ne_nil piece pieces)) clean
    rw [endsWith_again_iff goes]
    have room : pieces ≠ [] → done.length + (tagOf piece.path).length ≤
        (done ++ (values piece.path ++ piece.literal)).length ∧ Roomy values pieces := by
      intro some
      obtain ⟨next, rest, rfl⟩ := List.exists_cons_of_ne_nil some
      simp only [List.length_append]
      exact ⟨by have := roomy.1; omega, roomy.2⟩
    have filled := ih others (own.clean_append clean) (fun some => (room some).1) (by
      cases pieces with
      | nil => trivial
      | cons next rest => exact (room (List.cons_ne_nil _ _)).2)
    simpa using filled

/-! ## Runs that leave a tag behind -/

/-- No tag stands twice that has a value twice as long as itself. -/
def Shortening (values : List JsText → JsText) (pieces : List Piece) : Prop :=
  ∀ path, 2 ≤ (pieces.map Piece.path).count path → (values path).length < 2 * (tagOf path).length

/-- The search is ahead of the first tag of the text. -/
structure Overrun (o : Objects V) (obj : V) (values : List JsText → JsText) (done : JsText)
    (pieces : List Piece) (s : Scan) : Prop where
  str : s.str = done ++ render pieces
  some : pieces ≠ []
  clean : openBrace ∉ done
  ahead : done.length < s.lastIndex
  ready : ∀ piece ∈ pieces, Ready o obj values piece
  shortening : Shortening values pieces

theorem Shortening.sublist {fewer : List Piece} (shortening : Shortening values pieces)
    (sublist : (fewer.map Piece.path).Sublist (pieces.map Piece.path)) : Shortening values fewer :=
  fun path twice => shortening path (twice.trans (sublist.count_le path))

/-- A tag that is found has a first piece of its own path. -/
theorem exists_first_piece (member : piece ∈ pieces) :
    ∃ before same after, pieces = before ++ same :: after ∧ same.path = piece.path ∧
      ∀ other ∈ before, other.path ≠ piece.path := by
  have found : (pieces.find? fun other => other.path = piece.path).isSome := by
    rw [List.find?_isSome]
    exact ⟨piece, member, by simp⟩
  obtain ⟨same, found⟩ := Option.isSome_iff_exists.mp found
  obtain ⟨equal, before, after, split, others⟩ := List.find?_eq_some_iff_append.mp found
  exact ⟨before, same, after, split, by simpa using equal, by simpa using others⟩

/-- The first tag gives way where a later one of its path was found: what it leaves
behind is shorter than the text up to there. -/
theorem overrun_first {lastIndex : Nat} {str : JsText} {same : Piece}
    (ready : ∀ other ∈ same :: after, Ready o obj values other) (clean : openBrace ∉ done)
    (shortening : Shortening values (same :: after)) (later : same.path ∈ after.map Piece.path)
    (text : str = done ++ (values same.path ++ (same.literal ++ render after)))
    (behind : done.length + 2 * (tagOf same.path).length + same.literal.length ≤ lastIndex) :
    Overrun o obj values (done ++ (values same.path ++ same.literal)) after ⟨str, lastIndex⟩ := by
  obtain ⟨own, others⟩ := List.forall_mem_cons.mp ready
  have twice : 2 ≤ ((same :: after).map Piece.path).count same.path := by
    have once := List.one_le_count_iff.mpr later
    rw [List.map_cons, List.count_cons_self]
    omega
  have short := shortening same.path twice
  refine ⟨?_, ?_, own.clean_append clean, ?_, others, ?_⟩
  · simp [text]
  · rintro rfl
    cases later
  · simp only [List.length_append]
    omega
  · refine shortening.sublist ?_
    rw [List.map_cons]
    exact List.sublist_cons_self _ _

/-- A later tag becomes text of the piece before it. -/
theorem overrun_later {lastIndex : Nat} {str : JsText} {first : List Piece} {last same : Piece}
    (ready : ∀ other ∈ first ++ last :: same :: after, Ready o obj values other)
    (clean : openBrace ∉ done) (shortening : Shortening values (first ++ last :: same :: after))
    (text : str = done ++ (render (first ++ [last]) ++
      (values same.path ++ (same.literal ++ render after))))
    (ahead : done.length < lastIndex) :
    Overrun o obj values done
      (first ++ ⟨last.path, last.literal ++ (values same.path ++ same.literal)⟩ :: after)
      ⟨str, lastIndex⟩ := by
  refine ⟨?_, by simp, clean, ahead, ?_, ?_⟩
  · simp [text, render]
  · have own := ready same (by simp)
    have before := ready last (by simp)
    intro other member
    simp only [List.mem_append, List.mem_cons] at member
    rcases member with among | rfl | among
    · exact ready other (by simp [among])
    · exact { before with literal := before.literal.append (own.no_braces.append own.literal) }
    · exact ready other (by simp [among])
  · refine shortening.sublist ?_
    rw [List.map_append, List.map_append]
    refine (List.Sublist.refl _).append ?_
    exact (List.sublist_cons_self same.path _).cons_cons last.path

/-- A tag behind the first is replaced, or the first, which comes twice then: the
search stays ahead of the first that is left. -/
theorem Overrun.turn {s : Scan} (overrun : Overrun o obj values done pieces s) :
    (∃ r, PropertyTags.turn o obj s = .stop r ∧ ∀ str, r = .returned str → openBrace ∈ str) ∨
      ∃ t, PropertyTags.turn o obj s = .again t ∧ ∃ done pieces, Overrun o obj values done pieces t := by
  obtain ⟨str, lastIndex⟩ := s
  obtain ⟨rfl, some, clean, ahead, ready, shortening⟩ := overrun
  have clean' : openBrace ∉ done.drop lastIndex := fun member => clean (List.mem_of_mem_drop member)
  rcases exec_render (fun piece member => (ready piece member).toShaped) clean' with none | ⟨before, piece, after, m, split, found, reported, behind⟩
  · left
    refine ⟨.returned (done ++ render pieces), ?_, ?_⟩
    · simp only [PropertyTags.turn, none]
    · rintro _ ⟨⟩
      obtain ⟨piece, rest, rfl⟩ := List.exists_cons_of_ne_nil some
      simp [tagOf, inBraces]
  · right
    have member : piece ∈ pieces := by rw [split]; simp
    obtain ⟨first, same, others, split', path, absent⟩ := exists_first_piece member
    have own : Ready o obj values same := ready same (by rw [split']; simp)
    have earlier : ∀ other ∈ first, Shaped other := fun other among =>
      (ready other (by rw [split']; exact List.mem_append_left _ among)).toShaped
    have replaced := replace_tag others earlier own.toShaped (path ▸ absent) clean own.no_dollar
    rw [← split', path] at replaced
    refine ⟨_, turn_tag found reported (ready piece member).tagText, ?_⟩
    rw [replaced]
    rcases List.eq_nil_or_concat first with rfl | ⟨first, last, rfl⟩
    · -- the tag that was found stands behind the first, which has its path
      obtain ⟨head, before, rfl⟩ := List.exists_cons_of_ne_nil (behind ahead)
      obtain ⟨rfl, rest⟩ := List.cons.inj (split.symm.trans split')
      rw [split', List.nil_append] at ready shortening
      refine ⟨_, _, overrun_first ready clean shortening ?_ ?_ ?_⟩
      · rw [path, ← rest]
        simp
      · simp [path, render]
      · simp only [List.length_append, render_cons, path]
        omega
    · rw [split', List.concat_eq_append, List.append_assoc] at ready shortening
      refine ⟨_, _, overrun_later ready clean shortening ?_ ?_⟩
      · simp [path]
      · simp only [List.length_append, tagOf, inBraces, List.length_cons]
        omega

/-- A search that is ahead of the first tag never fills them all. -/
theorem Overrun.leaves {s : Scan} {result : JsText} (overrun : Overrun o obj values done pieces s)
    (ended : EndsWith (PropertyTags.turn o obj) s (.returned result)) : openBrace ∈ result := by
  have kept := @of_endsWith _ _ _ _ _ (fun s => ∃ done pieces, Overrun o obj values done pieces s)
    (fun r => ∀ str, r = .returned str → openBrace ∈ str) (fun s ⟨_, _, overrun⟩ => overrun.turn)
    ⟨done, pieces, overrun⟩ ended
  exact kept result rfl

theorem fill_clean (ready : ∀ piece ∈ pieces, Ready o obj values piece) (clean : openBrace ∉ done) :
    openBrace ∉ done ++ fill values pieces := by
  induction pieces generalizing done with
  | nil => simpa [fill] using clean
  | cons piece pieces ih =>
    obtain ⟨own, others⟩ := List.forall_mem_cons.mp ready
    simpa using ih others (own.clean_append clean)

/-- Where some tag lacks room, it comes to that. -/
theorem leaves (ready : ∀ piece ∈ pieces, Ready o obj values piece) (clean : openBrace ∉ done)
    (within : lastIndex ≤ done.length) (untangled : Untangled values pieces)
    (not_roomy : ¬Roomy values pieces) {result : JsText}
    (ended : EndsWith (turn o obj) ⟨done ++ render pieces, lastIndex⟩ (.returned result)) :
    openBrace ∈ result := by
  induction pieces generalizing done lastIndex with
  | nil => exact absurd trivial not_roomy
  | cons piece pieces ih =>
    obtain ⟨own, others⟩ := List.forall_mem_cons.mp ready
    cases pieces with
    | nil => exact absurd trivial not_roomy
    | cons next rest =>
      have goes := turn_next (next :: rest) own within clean
      rw [endsWith_again_iff goes] at ended
      by_cases room : (tagOf piece.path).length ≤ (values piece.path).length + piece.literal.length
      · refine ih others (own.clean_append clean) ?_ untangled.2 (fun later => not_roomy ⟨room, later⟩)
          ended
        simp only [List.length_append]
        omega
      · refine Overrun.leaves ⟨rfl, List.cons_ne_nil _ _, own.clean_append clean, ?_, others, ?_⟩ ended
        · simp only [List.length_append]
          omega
        · exact untangled.1 (by omega)

/-! ## The function -/

theorem untangled_of_nodup (distinct : (pieces.map Piece.path).Nodup) : Untangled values pieces := by
  induction pieces with
  | nil => trivial
  | cons piece pieces ih =>
    have others := (List.nodup_cons.mp distinct).2
    refine ⟨fun _ path twice => ?_, ih others⟩
    have once := List.nodup_iff_count.mp others path
    omega

theorem isObject_of_resolve {path : List JsText} {value : V} (some : path ≠ [])
    (resolves : resolve o path obj = .some value) : o.isObject obj := by
  obtain ⟨name, names, rfl⟩ := List.exists_cons_of_ne_nil some
  rw [resolve] at resolves
  split at resolves
  · assumption
  · cases resolves

theorem returns_iff {str result : JsText} (object : o.isObject obj) :
    Returns o str obj result ↔ EndsWith (turn o obj) ⟨str, 0⟩ (.returned result) := by
  simp only [Returns, formatPropStr, object, EndsWith]
  rfl

/-- Every tag gives way to its value if there is room; without room this needs a tag
that stands twice and has a long value. -/
theorem filled_iff {front : JsText} (literal : NoBraces front)
    (ready : ∀ piece ∈ pieces, Ready o obj values piece) :
    (Roomy values pieces → Returns o (front ++ render pieces) obj (front ++ fill values pieces)) ∧
      (Untangled values pieces →
        (Returns o (front ++ render pieces) obj (front ++ fill values pieces) ↔ Roomy values pieces)) ∧
      ((pieces.map Piece.path).Nodup →
        (Returns o (front ++ render pieces) obj (front ++ fill values pieces) ↔ Roomy values pieces)) := by
  have filled : Roomy values pieces →
      Returns o (front ++ render pieces) obj (front ++ fill values pieces) := by
    intro roomy
    cases object : o.isObject obj with
    | true => exact (returns_iff object).mpr (fills ready literal.1 (fun _ => Nat.zero_le _) roomy)
    | false =>
      cases pieces with
      | nil => exact ⟨0, by simp [formatPropStr, object, render, fill]⟩
      | cons piece pieces =>
        have own := ready piece List.mem_cons_self
        obtain ⟨value, resolves, -⟩ := Option.bind_eq_some_iff.mp own.resolves
        rw [isObject_of_resolve own.is_path.1 resolves] at object
        cases object
  have exactly : Untangled values pieces →
      (Returns o (front ++ render pieces) obj (front ++ fill values pieces) ↔ Roomy values pieces) := by
    refine fun untangled => ⟨fun returns => ?_, filled⟩
    by_contra not_roomy
    cases pieces with
    | nil => exact not_roomy trivial
    | cons piece pieces =>
      have own := ready piece List.mem_cons_self
      obtain ⟨value, resolves, -⟩ := Option.bind_eq_some_iff.mp own.resolves
      have ended := (returns_iff (isObject_of_resolve own.is_path.1 resolves)).mp returns
      exact fill_clean ready literal.1
        (leaves ready literal.1 (Nat.zero_le _) untangled not_roomy ended)
  exact ⟨filled, exactly, fun distinct => exactly (untangled_of_nodup distinct)⟩

def device : Plain := .record [(ofString "name", .text (ofString "core 1")),
  (ofString "os", .record [(ofString "type", .text (ofString "Linux"))])]

theorem device_described :
    Returns plain (ofString "{name}: {os.type}") device (ofString "core 1: Linux") := by
  let described : List Piece :=
    [⟨[ofString "name"], ofString ": "⟩, ⟨[ofString "os", ofString "type"], []⟩]
  let valueOf (path : List JsText) : JsText :=
    if path = [ofString "name"] then ofString "core 1" else ofString "Linux"
  have ready : ∀ piece ∈ described, Ready plain device valueOf piece := by
    intro piece member
    rcases List.mem_cons.mp member with rfl | member
    · exact ⟨⟨by decide, by decide⟩, rfl, by decide, by decide⟩
    · rw [List.mem_singleton.mp member]
      exact ⟨⟨by decide, by decide⟩, rfl, by decide, by decide⟩
  have filled := (@filled_iff _ plain device valueOf described [] noBraces_nil ready).1 ⟨by decide, trivial⟩
  have template : ofString "{name}: {os.type}" = [] ++ render described := rfl
  have result : ofString "core 1: Linux" = [] ++ fill valueOf described := rfl
  rw [template, result]
  exact filled

/-- An empty value is shorter than its tag, and the tag behind it is passed over. -/
theorem next_tag_passed_over :
    let obj : Plain := .record [(ofString "a", .text []), (ofString "b", .text (ofString "x"))]
    let valueOf (path : List JsText) : JsText := if path = [ofString "a"] then [] else ofString "x"
    let pieces : List Piece := [⟨[ofString "a"], []⟩, ⟨[ofString "b"], []⟩]
    (∀ piece ∈ pieces, Ready plain obj valueOf piece) ∧ render pieces = ofString "{a}{b}" ∧
      fill valueOf pieces = ofString "x" ∧
      Returns plain (ofString "{a}{b}") obj (ofString "{b}") ∧
      ¬Returns plain (ofString "{a}{b}") obj (ofString "x") := by
  intro obj valueOf pieces
  have returned : Returns plain (ofString "{a}{b}") obj (ofString "{b}") := ⟨2, rfl⟩
  refine ⟨?_, rfl, rfl, returned, ?_⟩
  · intro piece member
    rcases List.mem_cons.mp member with rfl | member
    · exact ⟨⟨by decide, by decide⟩, rfl, by decide, by decide⟩
    · rw [List.mem_singleton.mp member]
      exact ⟨⟨by decide, by decide⟩, rfl, by decide, by decide⟩
  · intro filled
    have same := endsWith_unique ((returns_iff rfl).mp returned) ((returns_iff rfl).mp filled)
    exact absurd same (by decide)

end NetGraphz.TagFilling
