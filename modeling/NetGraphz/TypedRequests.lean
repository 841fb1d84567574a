import Mathlib
import NetGraphz.ShellSessions

/-! A request for metrics from the line that is typed to the lines that are
printed: whatever options are typed, in whatever order and however often, and
in whatever order the loop over their map takes them, what is asked of the
backend is what the last option of each kind says. -/
namespace NetGraphz.TypedRequests
open CliOptions GoIntegers GoMap GoText Shell ShellSessions

/-- An option of `list metrics`. -/
inductive ListOption where
  | skip (n : Int)
  | take (n : Int)
  | host (name : Text)

/-- The option's key and value. -/
def ListOption.entry : ListOption → Sigma fun _ : Text => Text
  | .skip n => ⟨"skip".toList, (toString n).toList⟩
  | .take n => ⟨"take".toList, (toString n).toList⟩
  | .host name => ⟨"host".toList, name⟩

/-- The number is an int64; the name needs no quotes. -/
def ListOption.Fits : ListOption → Prop
  | .skip n => Signed 63 n
  | .take n => Signed 63 n
  | .host name => Bare name

/-- What the option asks for. -/
def ListOption.apply (settings : Settings) : ListOption → Settings
  | .skip n => { settings with nSkip := n }
  | .take n => { settings with nTake := n }
  | .host name => { settings with filterHost := true, host := name }

/-- The line: the command, the object and the options. -/
def listLine (options : List ListOption) : Text :=
  [' '].intercalate ("list".toList :: "metrics".toList ::
    options.map fun option => shownOption option.entry)

/-! ## The words of the line -/

theorem valueChar_of_number (n : Int) : ∀ c ∈ (toString n).toList, valueChar c := by
  have digits (m : Nat) (c : Char) (held : c ∈ Nat.toDigits 10 m) : valueChar c := by
    have digit := ParseInt.isDigit_of_toDigits m c held
    simp [valueChar, Char.isAlphanum, digit]
  intro c held
  cases n with
  | ofNat m => exact digits m c (by simpa [toString, Int.repr, Nat.repr] using held)
  | negSucc m =>
    have text : (toString (Int.negSucc m)).toList = '-' :: Nat.toDigits 10 (m + 1) := by
      simp [toString, Int.repr, Nat.repr]
    rw [text] at held
    rcases List.mem_cons.mp held with rfl | held
    · rfl
    · exact digits _ c held

theorem bare_number (n : Int) : Bare (toString n).toList := by
  refine ⟨?_, valueChar_of_number n⟩
  cases n with
  | ofNat m => simp [toString, Int.repr, Nat.repr]
  | negSucc m => simp [toString, Int.repr, Nat.repr]

theorem ListOption.Fits.bare {option : ListOption} (fits : option.Fits) : Bare option.entry.2 := by
  cases option with
  | skip n => exact bare_number n
  | take n => exact bare_number n
  | host name => exact fits

theorem key_entry (option : ListOption) : Key option.entry.1 := by
  cases option with
  | skip n => exact (by decide : Key "skip".toList)
  | take n => exact (by decide : Key "take".toList)
  | host name => exact (by decide : Key "host".toList)

theorem no_blank_of_bare (bare : Bare value) : ' ' ∉ value := fun held =>
  absurd (bare.2 ' ' held) (by decide)

theorem no_blank_shown {option : ListOption} (fits : option.Fits) :
    ' ' ∉ shownOption option.entry := by
  have value := no_blank_of_bare fits.bare
  rw [shownOption, shown, if_pos fits.bare]
  cases option <;> simpa [ListOption.entry] using value

/-- The line falls into its words. -/
theorem split_listLine {options : List ListOption} (fits : ∀ option ∈ options, option.Fits) :
    (listLine options).splitOn ' ' = "list".toList :: "metrics".toList ::
      options.map fun option => shownOption option.entry := by
  refine List.splitOn_intercalate ' ' ?_ (List.cons_ne_nil _ _)
  intro word held
  rcases List.mem_cons.mp held with rfl | held
  · decide
  rcases List.mem_cons.mp held with rfl | held
  · decide
  obtain ⟨option, member, rfl⟩ := List.mem_map.mp held
  exact no_blank_shown (fits option member)

/-- The map of the options that were typed: the last one of each key. -/
def mapOf (options : List ListOption) : OptionMap :=
  inserted (options.map fun option => (option.entry.1, option.entry.2)) ∅

theorem parse_shown {options : List ListOption} (fits : ∀ option ∈ options, option.Fits) :
    parseEqOptions ([' '].intercalate (options.map fun option => shownOption option.entry)) =
      .ok (mapOf options) := by
  have read := read_written (options.map ListOption.entry) ?_ ?_
  · rw [List.map_map, List.map_map] at read
    rw [parseEqOptions_inserted, mapOf]
    change Except.ok (inserted ((shortOptionRegexp.findAll ([' '].intercalate
      (options.map (shownOption ∘ ListOption.entry)))).map CliOptions.readOption) ∅) = _
    rw [read]
    congr 2
    apply List.map_congr_left
    intro option member
    simp [shown, (fits option member).bare]
  · intro entry held
    obtain ⟨option, _, rfl⟩ := List.mem_map.mp held
    exact key_entry option
  · intro entry held
    obtain ⟨option, member, rfl⟩ := List.mem_map.mp held
    exact .inl (fits option member).bare

/-! ## What the options are read as -/

/-- The number under a key. -/
def number (otherwise : Int) (value : Option Text) : Int :=
  match value.map parseInt64 with
  | some (.ok n) => n
  | _ => otherwise

/-- The settings that a map of options holds. -/
def settingsOf (options : OptionMap) : Settings where
  nSkip := number 0 (options.lookup "skip".toList)
  nTake := number (-1) (options.lookup "take".toList)
  filterHost := (options.lookup "host".toList).isSome
  host := (options.lookup "host".toList).getD []

/-- One more option in the map is one more option read. -/
theorem readOption_settingsOf {option : ListOption} (fits : option.Fits) (options : OptionMap) :
    Shell.readOption (settingsOf options) option.entry =
      .ok (settingsOf (options.insert option.entry.1 option.entry.2)) ∧
    settingsOf (options.insert option.entry.1 option.entry.2) =
      option.apply (settingsOf options) := by
  have skipTake : "skip".toList ≠ "take".toList := by decide
  have skipHost : "skip".toList ≠ "host".toList := by decide
  have takeHost : "take".toList ≠ "host".toList := by decide
  have parsed (n : Int) (signed : Signed 63 n) : parseInt64 (toString n).toList = .ok n :=
    parseInt64_toString signed
  cases option with
  | skip n =>
    have entered : settingsOf (options.insert "skip".toList (toString n).toList) =
        { settingsOf options with nSkip := n } := by
      simp only [settingsOf, lookup_insert, skipTake.symm, skipHost.symm, number, Option.map_some,
        parsed n fits, if_true, if_false]
    refine ⟨?_, entered⟩
    simp only [Shell.readOption, ListOption.entry, skipHost, parsed n fits, if_true, if_false, entered]
  | take n =>
    have entered : settingsOf (options.insert "take".toList (toString n).toList) =
        { settingsOf options with nTake := n } := by
      simp only [settingsOf, lookup_insert, skipTake, takeHost.symm, number, Option.map_some,
        parsed n fits, if_true, if_false]
    refine ⟨?_, entered⟩
    simp only [Shell.readOption, ListOption.entry, skipTake.symm, takeHost, parsed n fits, if_true,
      if_false, entered]
  | host name =>
    have entered : settingsOf (options.insert "host".toList name) =
        { settingsOf options with filterHost := true, host := name } := by
      simp only [settingsOf, lookup_insert, skipHost, takeHost, if_true, if_false, Option.isSome_some,
        Option.getD_some]
    refine ⟨?_, entered⟩
    simp only [Shell.readOption, ListOption.entry, if_true, entered]

/-- What has been typed so far is what the map holds. -/
theorem settingsOf_mapOf {options : List ListOption} (fits : ∀ option ∈ options, option.Fits) :
    settingsOf (mapOf options) = options.foldl ListOption.apply {} := by
  induction options using List.reverseRecOn with
  | nil => rfl
  | append_singleton before option ih =>
    have own := fits option (by simp)
    rw [List.foldl_append, ← ih fun other member => fits other (List.mem_append_left _ member)]
    have grown : mapOf (before ++ [option]) = (mapOf before).insert option.entry.1 option.entry.2 := by
      simp [mapOf, inserted]
    rw [grown, (readOption_settingsOf own _).2]
    rfl

/-- The loop over a map of such options reads what the map holds. -/
theorem foldlM_readOption {entries : List ListOption} (fits : ∀ option ∈ entries, option.Fits) :
    (entries.map ListOption.entry).foldlM Shell.readOption {} = .ok (settingsOf (mapOf entries)) := by
  induction entries using List.reverseRecOn with
  | nil => rfl
  | append_singleton before option ih =>
    have own := fits option (by simp)
    have earlier := ih fun other member => fits other (List.mem_append_left _ member)
    have grown : mapOf (before ++ [option]) = (mapOf before).insert option.entry.1 option.entry.2 := by
      simp [mapOf, inserted]
    rw [List.map_append, List.foldlM_append, earlier, grown]
    change (Shell.readOption (settingsOf (mapOf before)) option.entry >>= pure) = _
    rw [(readOption_settingsOf own _).1]
    rfl

/-- A listing of the map's entries holds options that were typed. -/
theorem exists_options (order : Order fun _ : Text => Text) (typed : List ListOption) :
    ∃ entries : List ListOption, entries.map ListOption.entry = order.entries (mapOf typed) ∧
      ∀ option ∈ entries, option ∈ typed := by
  have each : ∀ entry ∈ order.entries (mapOf typed), ∃ option ∈ typed, option.entry = entry := by
    intro entry member
    rcases mem_of_lookup_inserted (Order.mem_entries.mp member) with none | read
    · cases none
    · obtain ⟨option, member, same⟩ := List.mem_map.mp read
      exact ⟨option, member, Sigma.ext (congrArg Prod.fst same) (heq_of_eq (congrArg Prod.snd same))⟩
  choose pick member same using each
  refine ⟨(order.entries (mapOf typed)).attach.map fun entry => pick entry.1 entry.2, ?_, ?_⟩
  · rw [List.map_map]
    refine (List.map_congr_left fun entry _ => same entry.1 entry.2).trans ?_
    exact List.attach_map_subtype_val _
  · intro option held
    obtain ⟨entry, _, rfl⟩ := List.mem_map.mp held
    exact member entry.1 entry.2

/-- A listing of a map's entries makes the map again. -/
theorem inserted_entries (order : Order fun _ : Text => Text) (options : OptionMap) :
    inserted ((order.entries options).map fun entry => (entry.1, entry.2)) ∅ = options := by
  apply Finmap.ext_lookup
  intro key
  have keys : (((order.entries options).map fun entry => (entry.1, entry.2)).map Prod.fst).Nodup := by
    rw [List.map_map]
    exact order.nodup_keys options
  cases held : options.lookup key with
  | some value =>
    apply lookup_inserted_of_mem keys
    exact List.mem_map.mpr ⟨⟨key, value⟩, Order.mem_entries.mpr held, rfl⟩
  | none =>
    rw [lookup_inserted_of_absent, Finmap.lookup_empty]
    intro member
    rw [List.map_map] at member
    obtain ⟨entry, listed, same⟩ := List.mem_map.mp member
    have found := Order.mem_entries.mp listed
    rw [show entry.1 = key from same, held] at found
    cases found

/-- **The loop over the options reads what was typed**, in whatever order it
takes them. -/
theorem options_read_as_typed (order : Order fun _ : Text => Text) {typed : List ListOption}
    (fits : ∀ option ∈ typed, option.Fits) :
    (order.entries (mapOf typed)).foldlM Shell.readOption {} =
      .ok (typed.foldl ListOption.apply {}) := by
  obtain ⟨entries, listing, among⟩ := exists_options order typed
  have again : mapOf entries = mapOf typed := by
    rw [mapOf, ← inserted_entries order (mapOf typed), ← listing, List.map_map]
    rfl
  rw [← listing, foldlM_readOption fun option member => fits option (among option member), again,
    settingsOf_mapOf fits]

/-! ## From the line to the answer -/

/-- What is printed of an answer: the metrics as they come, then the error. -/
def shownAnswer : Except String (List MetricsEndpoint.RpcMetric × Option String) → List Printed
  | .error err => [.error (.text err)]
  | .ok (stream, ended) =>
    stream.map Printed.metric ++ (ended.map fun err => Printed.error (.text err)).toList

/-- The command of such a line reads the options that were typed. -/
theorem executeList_listLine {options : List ListOption} (fits : ∀ option ∈ options, option.Fits)
    (console : ConsoleInstance) (world : World) (order : Order fun _ : Text => Text) :
    executeList console world order ((listLine options).splitOn ' ') =
      listMetrics console world order (mapOf options) := by
  have read : (if options.map (fun option => shownOption option.entry) = [] then .ok ∅
      else parseEqOptions ([' '].intercalate (options.map fun option => shownOption option.entry))) =
      (.ok (mapOf options) : Except String OptionMap) := by
    split
    · rename_i none
      rw [List.map_eq_nil_iff.mp none]
      rfl
    · exact parse_shown fits
  rw [split_listLine fits, executeList]
  simp only [read, if_true]

theorem listMetrics_asks {options : List ListOption} (fits : ∀ option ∈ options, option.Fits)
    (address : Text) (world : World) (order : Order fun _ : Text => Text) :
    let req := (options.foldl ListOption.apply {}).request
    (listMetrics (reaching (some address)) world order (mapOf options)).reported =
      .done (reaching (some address)) [(address, .allMetrics req)]
        (shownAnswer (world.getAllMetrics address req)) none := by
  intro req
  simp only [listMetrics, options_read_as_typed order fits, reaching]
  cases world.getAllMetrics address req with
  | error err => simp [req, Outcome.reported, shownAnswer]
  | ok stream =>
    obtain ⟨metrics, ended⟩ := stream
    cases ended <;> simp [req, Outcome.reported, shownAnswer]

/-- **What is typed is asked, and what is answered is printed.** In a session
whose last dial reached a backend, a `list metrics` line asks that backend once,
for what the last option of each kind says, and prints the metrics it answers. -/
theorem typed_request_is_asked (session : List Typed) (console : ConsoleInstance)
    (waiting : shellAfter session = .waiting console) (address : Text)
    (dialed : lastDialed session = some address) (options : List ListOption)
    (fits : ∀ option ∈ options, option.Fits) (world : World) (order : Order fun _ : Text => Text) :
    let req := (options.foldl ListOption.apply {}).request
    carryOut console ⟨listLine options, world, order⟩ =
      .done console [(address, .allMetrics req)] (shownAnswer (world.getAllMetrics address req))
        none := by
  intro req
  obtain rfl : console = reaching (some address) := dialed ▸ (console_after session).2 console waiting
  have found : getCmdlets.find?
      (fun cmdlet => ((listLine options).splitOn ' ').head? = some cmdlet.commandPrefix) =
        some ⟨"list".toList, true, executeList⟩ := by
    rw [split_listLine fits]
    rfl
  simp only [carryOut, found]
  rw [if_neg (by simp [reaching]), executeList_listLine fits]
  exact listMetrics_asks fits address world order

/-- A backend without metrics. -/
def quietWorld : World where
  dial _ := none
  getAllMetrics _ _ := .ok ([], none)
  getStatus _ := .ok ⟨0, 0, 0⟩
  now := 0

/-- After `connect backend:8083`, of two counts the second is asked for. -/
theorem second_page_of_core :
    ∃ order, carryOut (reaching (some "backend:8083".toList))
      ⟨listLine [.take 20, .host "core".toList, .take 10, .skip 10], quietWorld, order⟩ =
        .done (reaching (some "backend:8083".toList))
          [("backend:8083".toList, .allMetrics ⟨10, 10, true, "core"⟩)] [] none := by
  obtain ⟨order, _⟩ := exists_order (∅ : OptionMap) [] rfl
  let dialing : Typed := ⟨"connect backend:8083".toList, quietWorld, order⟩
  have fits : ∀ option ∈ [ListOption.take 20, .host "core".toList, .take 10, .skip 10],
      option.Fits := by
    have number : Signed 63 20 ∧ Signed 63 10 := by decide
    have name : Bare "core".toList := by decide
    simp only [List.forall_mem_cons, List.not_mem_nil, false_imp_iff, implies_true, and_true]
    exact ⟨number.1, name, number.2, number.2⟩
  exact ⟨order, typed_request_is_asked [dialing] _ rfl _ rfl _ fits quietWorld order⟩

end NetGraphz.TypedRequests
