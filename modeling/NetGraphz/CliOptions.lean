import Mathlib
import NetGraphz.Base.GoMap
import NetGraphz.Base.Pattern

/-! The options of the shell's commands: words of the form `key=value`, which one
regular expression finds in what was typed, with values that may be quoted. Quoted
values keep their quotes. -/
namespace NetGraphz.CliOptions
open GoMap Pattern

/-- `[A-z0-9\.]`. The range from `A` to `z` has a few other characters between the
letters. -/
def keyChar (c : Char) : Bool := ('A' ≤ c ∧ c ≤ 'z') ∨ ('0' ≤ c ∧ c ≤ '9') ∨ c = '.'

/-- `[\w&.\-]`. -/
def valueChar (c : Char) : Bool := c.isAlphanum ∨ c = '_' ∨ c = '&' ∨ c = '.' ∨ c = '-'

/-- `.`. -/
def anyChar (c : Char) : Bool := c ≠ '\n'

/-- ` *`. -/
def spaces : Pattern Char := star true (char ' ')

/-- `[\w&.\-]+|\".*?\"`. -/
def valuePattern : Pattern Char :=
  alt (plus (one valueChar)) (seq (char '"') (seq (star false (one anyChar)) (char '"')))

/-- `short_option_regexp`. -/
def shortOptionRegexp : Pattern Char :=
  seq (group 1 (plus (one keyChar)))
    (alt (seq spaces (seq (char '=') (seq spaces (optional (group 2 valuePattern))))) empty)

/-- `map[string]string`. -/
abbrev OptionMap := Finmap (fun _ : List Char => List Char)

/-- A match as `FindAllStringSubmatch` gives it: the whole and the two groups. -/
def submatchOf (m : Match Char) : List (List Char) :=
  [m.text, (m.group 1).getD [], (m.group 2).getD []]

/-- One turn of the loop over the submatches. -/
def readSubmatch (options : OptionMap) : List (List Char) → Except String OptionMap
  | [whole, key, value] =>
    if whole.getLast? = some '=' ∧ value = [] then .ok (options.insert key "true".toList)
    else .ok (options.insert key value)
  | _ => .error "Failed to parse options"

/-- `ParseEqOptions`. -/
def parseEqOptions (option_str : List Char) : Except String OptionMap :=
  ((shortOptionRegexp.findAll option_str).map submatchOf).foldlM readSubmatch ∅

/-! ## Writing options -/

/-- The words that need no quotes. -/
def Bare (value : List Char) : Prop := value ≠ [] ∧ ∀ c ∈ value, valueChar c

instance (value : List Char) : Decidable (Bare value) :=
  decidable_of_iff (value ≠ [] ∧ value.all valueChar) (by simp [Bare])

/-- A value as it is written. -/
def shown (value : List Char) : List Char := if Bare value then value else '"' :: value ++ ['"']

/-- An option as it is written. -/
def shownOption (option : Sigma fun _ : List Char => List Char) : List Char :=
  option.1 ++ '=' :: shown option.2

/-- The options, in the order of a loop over the map, with spaces between them. -/
def written (order : Order fun _ : List Char => List Char) (options : OptionMap) : List Char :=
  [' '].intercalate ((order.entries options).map shownOption)

/-- The keys of options. -/
def Key (key : List Char) : Prop := key ≠ [] ∧ ∀ c ∈ key, c.isAlphanum ∨ c = '.'

instance (key : List Char) : Decidable (Key key) :=
  decidable_of_iff (key ≠ [] ∧ key.all fun c => c.isAlphanum ∨ c = '.') (by simp [Key])

/-! ## What a match reads -/

/-- The value that a submatch is read as. -/
def readValue (m : Match Char) : List Char :=
  if m.text.getLast? = some '=' ∧ (m.group 2).getD [] = [] then "true".toList
  else (m.group 2).getD []

theorem parseEqOptions_eq (option_str : List Char) :
    parseEqOptions option_str = .ok ((shortOptionRegexp.findAll option_str).foldl
      (fun options m => options.insert ((m.group 1).getD []) (readValue m)) ∅) := by
  unfold parseEqOptions
  generalize (∅ : OptionMap) = options
  induction shortOptionRegexp.findAll option_str generalizing options with
  | nil => rfl
  | cons m rest ih =>
    have once : readSubmatch options (submatchOf m) =
        .ok (options.insert ((m.group 1).getD []) (readValue m)) := by
      unfold readValue
      change (if m.text.getLast? = some '=' ∧ (m.group 2).getD [] = [] then _ else _) = _
      split <;> rfl
    rw [List.map_cons, List.foldlM_cons, once, List.foldl_cons]
    exact ih _

/-- What the second group takes is a word that needs no quotes, or has quotes. -/
theorem group2_shape (member : m ∈ shortOptionRegexp.attempts text) :
    m.group 2 = none ∨ ∃ value, m.group 2 = some value ∧ (Bare value ∨ '"' ∈ value) := by
  obtain ⟨k, before, n, after, rfl⟩ := mem_seq.mp member
  have notKey : k.group 2 = none := group_eq_none (by simp [numbers, plus]) before
  rw [group_andThen, notKey, Option.or_none]
  rcases mem_alt.mp after with equals | nothing
  · obtain ⟨blanks, skipped, _, behind, rfl⟩ := mem_seq.mp equals
    obtain ⟨sign, signed, _, behind', rfl⟩ := mem_seq.mp behind
    obtain ⟨blanks', skipped', v, valued, rfl⟩ := mem_seq.mp behind'
    have none1 : blanks.group 2 = none := group_eq_none (by simp [numbers, spaces, char]) skipped
    have none2 : sign.group 2 = none := group_eq_none (by simp [numbers, char]) signed
    have none3 : blanks'.group 2 = none := group_eq_none (by simp [numbers, spaces, char]) skipped'
    simp only [group_andThen, none1, none2, none3, Option.or_none]
    rcases mem_alt.mp valued with valued | nothing
    · right
      refine ⟨v.text, group_self valued, ?_⟩
      obtain ⟨v, inner, rfl⟩ := mem_group.mp valued
      rcases mem_alt.mp inner with word | quoted
      · exact Or.inl (forall_of_mem_plus (m := v) word)
      · obtain ⟨_, quote, w, _, rfl⟩ := mem_seq.mp quoted
        obtain ⟨c, own, _, taken⟩ := mem_one.mp quote
        obtain rfl := of_decide_eq_true own
        right
        rw [taken]
        exact List.mem_cons_self
    · left
      rw [mem_empty.mp nothing]
      rfl
  · left
    rw [mem_empty.mp nothing]
    rfl

/-! ## What is read of a written option -/

variable {key value rest : List Char}

theorem keyChar_of_key {c : Char} (own : c.isAlphanum ∨ c = '.') : keyChar c := by
  have order (d e : Char) : d ≤ e ↔ d.val ≤ e.val := Iff.rfl
  have above : 'A'.val ≤ 'a'.val := by decide
  have below : 'Z'.val ≤ 'z'.val := by decide
  simp only [keyChar, decide_eq_true_eq, order]
  rcases own with own | rfl
  · simp only [Char.isAlphanum, Char.isAlpha, Char.isUpper, Char.isLower, Char.isDigit,
      Bool.or_eq_true, Bool.and_eq_true, decide_eq_true_eq] at own
    rcases own with (⟨low, high⟩ | ⟨low, high⟩) | digit
    · exact Or.inl ⟨low, UInt32.le_trans high below⟩
    · exact Or.inl ⟨UInt32.le_trans above low, high⟩
    · exact Or.inr (Or.inl digit)
  · exact Or.inr (Or.inr rfl)

theorem not_blank_of_bare (bare : Bare value) (rest : List Char) :
    ∀ c ∈ (value ++ rest).head?, ¬decide (c = ' ') := by
  obtain ⟨first, others, rfl⟩ := List.exists_cons_of_ne_nil bare.1
  intro c own
  obtain rfl := Option.some.inj own
  have inside := bare.2 first List.mem_cons_self
  intro blank
  rw [of_decide_eq_true blank] at inside
  contradiction

/-- A value as it is written is taken whole, if it is a bare word or empty. -/
theorem first_value (written : Bare value ∨ value = ['"', '"'])
    (stops : ∀ c ∈ rest.head?, c = ' ') :
    valuePattern.first (value ++ rest) = some ⟨value, [], rest⟩ := by
  rcases written with bare | rfl
  · apply first_alt_left
    apply first_plus bare.1 bare.2
    intro c first
    rw [stops c first]
    decide
  · have failed : (plus (one valueChar)).attempts ('"' :: '"' :: rest) = [] :=
      seq_attempts_nil (one_attempts_nil (by decide))
    change valuePattern.first ('"' :: '"' :: rest) = _
    rw [valuePattern, first_alt_right failed]
    have opening : (char '"').first ('"' :: '"' :: rest) = some ⟨['"'], [], '"' :: rest⟩ :=
      first_one_cons rfl
    have closing : (char '"').first ('"' :: rest) = some ⟨['"'], [], rest⟩ :=
      first_one_cons rfl
    exact first_seq opening (first_seq (first_lazy _ _) closing)

/-- A written option is matched whole. -/
theorem first_option (isKey : Key key) (written : Bare value ∨ value = ['"', '"'])
    (stops : ∀ c ∈ rest.head?, c = ' ') :
    shortOptionRegexp.first (key ++ '=' :: (value ++ rest)) =
      some ⟨key ++ '=' :: value, [(1, key), (2, value)], rest⟩ := by
  have keyPart : (group 1 (plus (one keyChar))).first (key ++ '=' :: (value ++ rest)) =
      some ⟨key, [(1, key)], '=' :: (value ++ rest)⟩ := by
    have word : (plus (one keyChar)).first (key ++ '=' :: (value ++ rest)) =
        some ⟨key, [], '=' :: (value ++ rest)⟩ :=
      first_plus isKey.1 (fun c member => keyChar_of_key (isKey.2 c member)) (by simp [keyChar])
    exact first_group 1 word
  have blanks : spaces.first ('=' :: (value ++ rest)) = some (nowhere ('=' :: (value ++ rest))) :=
    first_stops (by simp)
  have sign : (char '=').first ('=' :: (value ++ rest)) = some ⟨['='], [], value ++ rest⟩ :=
    first_one_cons rfl
  have blanks' : spaces.first (value ++ rest) = some (nowhere (value ++ rest)) := by
    apply first_stops
    rcases written with bare | rfl
    · exact not_blank_of_bare bare rest
    · simp
  have valuePart : (optional (group 2 valuePattern)).first (value ++ rest) =
      some ⟨value, [(2, value)], rest⟩ :=
    first_alt_left (first_group 2 (first_value written stops))
  exact first_seq keyPart (first_alt_left
    (first_seq blanks (first_seq sign (first_seq blanks' valuePart))))

theorem consumes_option : Consumes shortOptionRegexp :=
  consumes_seq_left (consumes_group 1 (consumes_seq_left (consumes_one keyChar) _)) _

/-- A key and the value that is read for it. -/
def readOption (m : Match Char) : List Char × List Char := ((m.group 1).getD [], readValue m)

/-- What is shown of a bare word or nothing is a bare word or two quotes. -/
theorem shown_plain (plain : Bare value ∨ value = []) :
    Bare (shown value) ∨ shown value = ['"', '"'] := by
  rcases plain with bare | rfl
  · left
    rwa [shown, if_pos bare]
  · exact Or.inr rfl

/-- A written option is found first, with a blank or nothing behind it. -/
theorem findAll_option (isKey : Key key) (plain : Bare value ∨ value = [])
    (stops : ∀ c ∈ rest.head?, c = ' ') :
    (shortOptionRegexp.findAll (shownOption ⟨key, value⟩ ++ rest)).map readOption =
      (key, shown value) :: (shortOptionRegexp.findAll rest).map readOption := by
  have written := shown_plain plain
  have some : shown value ≠ [] := by
    rcases written with bare | quotes
    · exact bare.1
    · rw [quotes]
      exact List.cons_ne_nil _ _
  have found := first_option isKey written stops
  have text : shownOption ⟨key, value⟩ ++ rest = key ++ '=' :: (shown value ++ rest) := by
    simp [shownOption]
  rw [text, findAll_of_search consumes_option (search_of_first found), List.map_cons]
  simp [readOption, readValue, Match.group, List.lookup, some]

/-- Options whose values are bare words or empty are read as they are written,
the empty ones with their quotes. -/
theorem read_written (options : List (Sigma fun _ : List Char => List Char))
    (keys : ∀ option ∈ options, Key option.1)
    (plain : ∀ option ∈ options, Bare option.2 ∨ option.2 = []) :
    (shortOptionRegexp.findAll ([' '].intercalate (options.map shownOption))).map readOption =
      options.map fun option => (option.1, shown option.2) := by
  induction options with
  | nil => rfl
  | cons option options ih =>
    obtain ⟨isKey, otherKeys⟩ := List.forall_mem_cons.mp keys
    obtain ⟨isPlain, otherPlain⟩ := List.forall_mem_cons.mp plain
    have later := ih otherKeys otherPlain
    cases options with
    | nil =>
      have alone := @findAll_option _ _ [] isKey isPlain (by simp)
      have nothing : shortOptionRegexp.findAll [] = [] := rfl
      rw [nothing, List.append_nil] at alone
      rw [List.map_singleton, List.intercalate_singleton]
      exact alone
    | cons next options =>
      have blank : shortOptionRegexp.attempts
          (' ' :: [' '].intercalate ((next :: options).map shownOption)) = [] :=
        seq_attempts_nil (group_attempts_nil 1 (seq_attempts_nil (one_attempts_nil (by decide))))
      have rest := @findAll_option _ _ (' ' :: [' '].intercalate ((next :: options).map shownOption))
        isKey isPlain (by simp)
      rw [findAll_skip consumes_option blank, later] at rest
      simpa using rest

/-! ## Round trips -/

/-- The map that entries make one after the other. -/
def inserted (entries : List (List Char × List Char)) (options : OptionMap) : OptionMap :=
  entries.foldl (fun options entry => options.insert entry.1 entry.2) options

theorem lookup_inserted_of_absent {entries : List (List Char × List Char)} {options : OptionMap}
    (absent : key ∉ entries.map Prod.fst) :
    (inserted entries options).lookup key = options.lookup key := by
  induction entries generalizing options with
  | nil => rfl
  | cons entry entries ih =>
    rw [List.map_cons, List.mem_cons, not_or] at absent
    have later := @ih (options.insert entry.1 entry.2) absent.2
    rw [Finmap.lookup_insert_of_ne _ absent.1] at later
    exact later

theorem lookup_inserted_of_mem {entries : List (List Char × List Char)} {options : OptionMap}
    (distinct : (entries.map Prod.fst).Nodup) (member : (key, value) ∈ entries) :
    (inserted entries options).lookup key = some value := by
  induction entries generalizing options with
  | nil => cases member
  | cons entry entries ih =>
    obtain ⟨absent, distinct⟩ := List.nodup_cons.mp distinct
    rcases List.mem_cons.mp member with rfl | later
    · have kept := @lookup_inserted_of_absent key entries (options.insert key value) absent
      rw [Finmap.lookup_insert] at kept
      exact kept
    · exact ih distinct later

theorem mem_of_lookup_inserted {entries : List (List Char × List Char)} {options : OptionMap}
    (held : (inserted entries options).lookup key = some value) :
    options.lookup key = some value ∨ (key, value) ∈ entries := by
  induction entries generalizing options with
  | nil => exact Or.inl held
  | cons entry entries ih =>
    rcases ih held with before | later
    · by_cases same : key = entry.1
      · subst same
        rw [Finmap.lookup_insert, Option.some.injEq] at before
        subst before
        exact Or.inr List.mem_cons_self
      · rw [Finmap.lookup_insert_of_ne _ same] at before
        exact Or.inl before
    · exact Or.inr (List.mem_cons_of_mem entry later)

theorem parseEqOptions_inserted (option_str : List Char) :
    parseEqOptions option_str =
      .ok (inserted ((shortOptionRegexp.findAll option_str).map readOption) ∅) := by
  rw [parseEqOptions_eq, inserted, List.foldl_map]
  rfl

/-- A value that was parsed is nothing, a bare word or one with its quotes. -/
theorem parsed_shape {options : OptionMap} (parsed : parseEqOptions text = .ok options)
    (held : options.lookup key = some value) : value = [] ∨ Bare value ∨ '"' ∈ value := by
  rw [parseEqOptions_inserted, Except.ok.injEq] at parsed
  rw [← parsed] at held
  rcases mem_of_lookup_inserted held with none | read
  · cases none
  · obtain ⟨m, found, same⟩ := List.mem_map.mp read
    obtain ⟨_, member⟩ := mem_findAll found
    have own : readValue m = value := congrArg Prod.snd same
    rw [← own]
    unfold readValue
    split
    · right
      left
      decide
    · rcases group2_shape member with none | ⟨taken, reported, shape⟩
      · left
        rw [none]
        rfl
      · right
        rw [reported]
        exact shape

/-- The keys and the values that can be written. -/
def Writable (options : OptionMap) : Prop :=
  ∀ key value, options.lookup key = some value → Key key ∧ '"' ∉ value

/-- Options come back as they were written exactly when no value of them needs
quotes. -/
theorem round_trip_iff (order : Order fun _ : List Char => List Char) {options : OptionMap}
    (writable : Writable options) :
    parseEqOptions (written order options) = .ok options ↔
      ∀ key value, options.lookup key = some value → Bare value := by
  have keys : ∀ option ∈ order.entries options, Key option.1 := fun option member =>
    (writable _ _ (Order.mem_entries.mp member)).1
  have read (plain : ∀ option ∈ order.entries options, Bare option.2 ∨ option.2 = []) :
      parseEqOptions (written order options) =
        .ok (inserted ((order.entries options).map fun option => (option.1, shown option.2)) ∅) := by
    rw [parseEqOptions_inserted, written, read_written _ keys plain]
  have distinct : (((order.entries options).map
      fun option => (option.1, shown option.2)).map Prod.fst).Nodup := by
    rw [List.map_map]
    exact order.nodup_keys options
  have entry {key value : List Char} (held : options.lookup key = some value) :
      (⟨key, value⟩ : Sigma fun _ : List Char => List Char) ∈ order.entries options :=
    Order.mem_entries.mpr held
  have shownEntry {key value : List Char} (held : options.lookup key = some value) :
      (key, shown value) ∈ (order.entries options).map fun option => (option.1, shown option.2) :=
    List.mem_map.mpr ⟨_, entry held, rfl⟩
  constructor
  · intro back
    have plain : ∀ option ∈ order.entries options, Bare option.2 ∨ option.2 = [] := by
      intro option member
      have held := Order.mem_entries.mp member
      rcases parsed_shape back held with empty | bare | quoted
      · exact Or.inr empty
      · exact Or.inl bare
      · exact absurd quoted (writable _ _ held).2
    intro key value held
    rcases plain _ (entry held) with bare | empty
    · exact bare
    · rw [read plain, Except.ok.injEq] at back
      have parsed := @lookup_inserted_of_mem _ _ _ ∅ distinct (shownEntry held)
      rw [back, held, Option.some.injEq] at parsed
      rw [show value = [] from empty] at parsed
      cases parsed
  · intro bare
    have same {value : List Char} (isBare : Bare value) : shown value = value := if_pos isBare
    rw [read fun option member => Or.inl (bare _ _ (Order.mem_entries.mp member)),
      Except.ok.injEq]
    apply Finmap.ext_lookup
    intro key
    cases held : options.lookup key with
    | some value =>
      have parsed := @lookup_inserted_of_mem _ _ _ ∅ distinct (shownEntry held)
      rw [parsed, same (bare key value held)]
    | none =>
      apply lookup_inserted_of_absent
      intro member
      obtain ⟨_, shownMember, rfl⟩ := List.mem_map.mp member
      obtain ⟨option, inside, rfl⟩ := List.mem_map.mp shownMember
      rw [Order.mem_entries.mp inside] at held
      cases held

/-- A map of one option. -/
def single (key value : String) : OptionMap := Finmap.singleton key.toList value.toList

theorem lookup_single {own value : String} {key value' : List Char}
    (held : (single own value).lookup key = some value') :
    key = own.toList ∧ value' = value.toList := by
  have member : key ∈ single own value := Finmap.mem_of_lookup_eq_some held
  obtain rfl := (Finmap.mem_singleton ..).mp member
  rw [single, Finmap.lookup_singleton_eq, Option.some.injEq] at held
  exact ⟨rfl, held.symm⟩

theorem take_back :
    ∃ order, written order (single "take" "10") = "take=10".toList ∧
      parseEqOptions (written order (single "take" "10")) = .ok (single "take" "10") := by
  obtain ⟨order, listing⟩ := exists_order (single "take" "10")
    [⟨"take".toList, "10".toList⟩] rfl
  refine ⟨order, ?_, (round_trip_iff order ?_).mpr ?_⟩
  · rw [written, listing]
    decide
  · intro key value held
    obtain ⟨rfl, rfl⟩ := lookup_single held
    exact ⟨by decide, by decide⟩
  · intro key value held
    obtain ⟨rfl, rfl⟩ := lookup_single held
    decide

/-- A name with a blank in it comes back with quotes around it. -/
theorem quoted_host_differs :
    ∃ order, written order (single "host" "core 1") = "host=\"core 1\"".toList ∧
      parseEqOptions (written order (single "host" "core 1")) =
        .ok (single "host" "\"core 1\"") ∧
      parseEqOptions (written order (single "host" "core 1")) ≠ .ok (single "host" "core 1") := by
  obtain ⟨order, listing⟩ := exists_order (single "host" "core 1")
    [⟨"host".toList, "core 1".toList⟩] rfl
  have text : written order (single "host" "core 1") = "host=\"core 1\"".toList := by
    rw [written, listing]
    decide
  have read : (shortOptionRegexp.findAll "host=\"core 1\"".toList).map readOption =
      [("host".toList, "\"core 1\"".toList)] := by
    decide
  have parsed : parseEqOptions "host=\"core 1\"".toList = .ok (single "host" "\"core 1\"") := by
    rw [parseEqOptions_inserted, read]
    rfl
  refine ⟨order, text, by rw [text, parsed], fun same => ?_⟩
  rw [text, parsed, Except.ok.injEq] at same
  have held : (single "host" "core 1").lookup "host".toList = some "\"core 1\"".toList := by
    rw [← same]
    exact Finmap.lookup_singleton_eq
  exact absurd (lookup_single held).2 (by decide)

end NetGraphz.CliOptions
