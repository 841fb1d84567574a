import NetGraphz.Base.History
import NetGraphz.Shell

/-! Whole sessions of the shell. The connection and the client are made and
dropped together, by the last dial; so no command calls a client that is not
there, and what is asked is asked of the backend that was dialed last. -/
namespace NetGraphz.ShellSessions
open CliOptions GoMap GoText Shell

/-- The shell after a session. -/
def shellAfter (session : List Typed) : State := after step (.waiting {}) session

/-- The dial that a line asks for, and the address where it succeeds. -/
def dialOf (typed : Typed) : Option (Option Text) :=
  match typed.line.splitOn ' ' with
  | [command, hostPort] =>
    if command = "connect".toList ∧ (splitHostPort hostPort).isOk then
      some (if typed.world.dial hostPort = none then some hostPort else none)
    else none
  | _ => none

/-- The address of the last dial, if that dial succeeded. -/
def lastDialed (session : List Typed) : Option Text := ((session.filterMap dialOf).getLast?).join

theorem lastDialed_concat (session : List Typed) (typed : Typed) :
    lastDialed (session ++ [typed]) = (dialOf typed).getD (lastDialed session) := by
  rw [lastDialed, List.filterMap_append]
  cases dialed : dialOf typed with
  | none => simp [dialed, lastDialed]
  | some address => simp [dialed]

/-- The console with the connection and the client of one address. -/
def reaching (address : Option Text) : ConsoleInstance := ⟨address, address⟩

/-- What a command may do to the console of an address: leave it as it is and
ask that address, or replace it and ask nothing. -/
structure Consistent (address : Option Text) (replaced : Option (Option Text)) (outcome : Outcome) :
    Prop where
  alive : outcome ≠ .crashed
  left : ∀ console, outcome.state = .waiting console → console = reaching (replaced.getD address)
  asks : ∀ target request, (target, request) ∈ outcome.sent → address = some target

theorem consistent_quiet (address : Option Text) (printed : List Printed) (err : Option ShellError) :
    Consistent address none (.done (reaching address) [] printed err) :=
  ⟨nofun, fun _ left => (State.waiting.inj left).symm, fun _ _ sent => absurd sent List.not_mem_nil⟩

theorem consistent_replacing (address replaced : Option Text) (printed : List Printed)
    (err : Option ShellError) :
    Consistent address (some replaced) (.done (reaching replaced) [] printed err) :=
  ⟨nofun, fun _ left => (State.waiting.inj left).symm, fun _ _ sent => absurd sent List.not_mem_nil⟩

theorem consistent_asking (address : Text) (request : Request) (printed : List Printed)
    (err : Option ShellError) :
    Consistent (some address) none
      (.done (reaching (some address)) [(address, request)] printed err) := by
  refine ⟨nofun, fun _ left => (State.waiting.inj left).symm, fun target _ sent => ?_⟩
  cases List.mem_singleton.mp sent
  rfl

theorem consistent_listMetrics (world : World) (order : Order fun _ : Text => Text)
    (options : OptionMap) (address : Text) :
    Consistent (some address) none (listMetrics (reaching (some address)) world order options) := by
  unfold listMetrics
  cases (order.entries options).foldlM readOption {} with
  | error err => exact consistent_quiet _ _ _
  | ok settings =>
    simp only [reaching]
    cases world.getAllMetrics address settings.request with
    | error err => exact consistent_asking _ _ _ _
    | ok stream => exact consistent_asking _ _ _ _

theorem consistent_executeList (world : World) (order : Order fun _ : Text => Text)
    (tokens : List Text) (address : Text) :
    Consistent (some address) none
      (executeList (reaching (some address)) world order tokens) := by
  rcases tokens with _ | ⟨command, _ | ⟨object, rest⟩⟩
  · exact consistent_quiet _ _ _
  · exact consistent_quiet _ _ _
  · simp only [executeList]
    generalize (if rest = [] then .ok ∅ else parseEqOptions _) = rawOptions
    cases rawOptions with
    | error err => exact consistent_quiet _ _ _
    | ok options =>
      by_cases metrics : object = "metrics".toList
      · simp only [if_pos metrics]
        exact consistent_listMetrics world order options address
      · simp only [if_neg metrics]
        exact consistent_quiet _ _ _

theorem consistent_executeStatus (world : World) (address : Text) :
    Consistent (some address) none (executeStatus (reaching (some address)) world) := by
  simp only [executeStatus, reaching]
  cases world.getStatus address with
  | error err => exact consistent_asking _ _ _ _
  | ok resp => exact consistent_asking _ _ _ _

/-- The dial that the words of a line ask for, once the first one is `connect`. -/
def connectDial (world : World) : List Text → Option (Option Text)
  | [_, hostPort] =>
    if (splitHostPort hostPort).isOk then
      some (if world.dial hostPort = none then some hostPort else none)
    else none
  | _ => none

theorem consistent_executeConnect (world : World) (tokens : List Text) (address : Option Text) :
    Consistent address (connectDial world tokens)
      (executeConnect (reaching address) world tokens) := by
  rcases tokens with _ | ⟨command, _ | ⟨hostPort, _ | ⟨extra, more⟩⟩⟩
  · exact consistent_quiet _ _ _
  · exact consistent_quiet _ _ _
  · simp only [executeConnect, connectDial]
    cases splitHostPort hostPort with
    | error err => exact consistent_quiet _ _ _
    | ok parts =>
      cases dialed : world.dial hostPort with
      | none =>
        simp only [connect, dialed]
        exact consistent_replacing _ _ _ _
      | some err =>
        simp only [connect, dialed]
        exact consistent_replacing _ _ _ _
  · exact consistent_quiet _ _ _

/-! ## One line -/

/-- What the loop makes of a command's error changes neither the console nor
what was asked. -/
theorem Consistent.reported (consistent : Consistent address replaced outcome) :
    Consistent address replaced outcome.reported := by
  cases outcome with
  | done console sent printed err => exact ⟨nofun, consistent.left, consistent.asks⟩
  | exited => exact consistent
  | crashed => exact consistent

/-- The words of a line that ask for a dial. -/
theorem dialOf_eq (typed : Typed) :
    dialOf typed =
      if (typed.line.splitOn ' ').head? = some "connect".toList
      then connectDial typed.world (typed.line.splitOn ' ') else none := by
  unfold dialOf
  generalize typed.line.splitOn ' ' = tokens
  rcases tokens with _ | ⟨command, _ | ⟨hostPort, _ | ⟨extra, more⟩⟩⟩
  · rfl
  · simp [connectDial]
  · simp only [connectDial, List.head?_cons, Option.some.injEq]
    by_cases same : command = "connect".toList
    · simp only [same, true_and, if_true]
    · simp only [same, false_and, if_false]
  · simp [connectDial]

/-- **A line asks the address of the console, or replaces it.** -/
theorem consistent_carryOut (address : Option Text) (typed : Typed) :
    Consistent address (dialOf typed) (carryOut (reaching address) typed) := by
  rw [dialOf_eq]
  simp only [carryOut]
  generalize typed.line.splitOn ' ' = tokens
  cases found : getCmdlets.find? (fun cmdlet => tokens.head? = some cmdlet.commandPrefix) with
  | none =>
    have other := List.find?_eq_none.mp found
    simp only [getCmdlets, List.forall_mem_cons, decide_eq_true_eq] at other
    rw [if_neg other.2.1]
    exact consistent_quiet _ _ _
  | some cmdlet =>
    have named : tokens.head? = some cmdlet.commandPrefix := by simpa using List.find?_some found
    have known := List.mem_of_find?_eq_some found
    simp only [getCmdlets, List.mem_cons, List.not_mem_nil, or_false] at known
    rcases known with rfl | rfl | rfl | rfl
    · exact ⟨nofun, nofun, nofun⟩
    · rw [if_pos named]
      exact (consistent_executeConnect typed.world tokens address).reported
    · rw [if_neg (by rw [named]; decide)]
      cases address with
      | none => exact consistent_quiet _ _ _
      | some address =>
        exact (consistent_executeList typed.world typed.order tokens address).reported
    · rw [if_neg (by rw [named]; decide)]
      cases address with
      | none => exact consistent_quiet _ _ _
      | some address => exact (consistent_executeStatus typed.world address).reported

/-! ## Whole sessions -/

/-- **Every line keeps the connection and the client together**, at the address
of the last dial. -/
theorem console_after (session : List Typed) :
    shellAfter session ≠ .crashed ∧
      ∀ console, shellAfter session = .waiting console → console = reaching (lastDialed session) := by
  refine history_induction (fun session => shellAfter session ≠ .crashed ∧ ∀ console,
    shellAfter session = .waiting console → console = reaching (lastDialed session)) ?_ ?_ session
  · exact ⟨nofun, fun _ waiting => (State.waiting.inj waiting).symm⟩
  · rintro past typed ⟨alive, kept⟩
    rw [shellAfter, after_concat, ← shellAfter, lastDialed_concat]
    cases state : shellAfter past with
    | exited => exact ⟨nofun, nofun⟩
    | crashed => exact absurd state alive
    | waiting console =>
      obtain rfl := kept console state
      have line := consistent_carryOut (lastDialed past) typed
      refine ⟨?_, line.left⟩
      intro crashed
      cases outcome : carryOut (reaching (lastDialed past)) typed with
      | crashed => exact line.alive outcome
      | exited => simp [step, outcome, Outcome.state] at crashed
      | done console sent printed err => simp [step, outcome, Outcome.state] at crashed

/-- **A session keeps to the address of its last dial.** The shell never calls a
client that is not there. While it waits for a line its connection and its
client are those of the last dial, or none if that dial failed or there was
none; and whatever the next line asks a backend it asks at that address. -/
theorem session_keeps_to_last_dialed (session : List Typed) :
    shellAfter session ≠ .crashed ∧
    ∀ console, shellAfter session = .waiting console →
      console = reaching (lastDialed session) ∧
      ∀ typed target request, (target, request) ∈ (carryOut console typed).sent →
        lastDialed session = some target := by
  obtain ⟨alive, kept⟩ := console_after session
  refine ⟨alive, fun console waiting => ⟨kept console waiting, fun typed target request asked => ?_⟩⟩
  rw [kept console waiting] at asked
  exact (consistent_carryOut (lastDialed session) typed).asks target request asked

end NetGraphz.ShellSessions
