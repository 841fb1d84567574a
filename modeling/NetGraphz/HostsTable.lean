import NetGraphz.HostDispatch

/-! The states of a whole table of hosts. Every column that is asked for reaches
its field, if its number fits there; one that is read was not asked for, and one
field is never written. -/
namespace NetGraphz.HostsTable
open Livestatus StateCache IcingaSource HostDispatch

/-- A connection to a server that has these rows. -/
def serving (rows : List Record) : Connection where
  exec q := .ok (answer rows q)
  execTimeout _ q := .ok (answer rows q)

theorem statesOfQuery_serving (config : Config) (rows : List Record) (q : Query) :
    statesOfQuery ⟨config, serving rows⟩ q =
      .ok ((rows.filter (selects q.headers)).map fun row =>
        stateOf (getFullName ⟨config, serving rows⟩) (offer q.columns row)) := by
  have executed : execQuery ⟨config, serving rows⟩ q = .ok (answer rows q) := by
    unfold execQuery serving
    split <;> rfl
  rw [statesOfQuery, executed]
  simp only [dispatch_eq, answer, List.map_map]
  rfl

/-- A row of the table of hosts, as far as states are made of it. -/
structure HostRow where
  hostName : String
  name : String
  lastCheck : Int64
  displayName : String
  notes : String
  address : String
  address6 : String
  hasBeenChecked : Bool
  numServices : Int64
  numServicesCrit : Int64
  numServicesWarn : Int64
  numServicesPending : Int64
  numServicesOk : Int64
  numServicesUnknown : Int64
  state : Int64
  hardState : Int64
  stateType : Int64
  perfData : String
  pluginOutput : String
  isFlapping : Bool
  isExecuting : Bool
  isReachable : Bool

/-- The columns of a row, by their names. -/
def HostRow.record (row : HostRow) : Record where
  getString
    | "host_name" => .ok row.hostName
    | "name" => .ok row.name
    | "display_name" => .ok row.displayName
    | "notes" => .ok row.notes
    | "address" => .ok row.address
    | "address6" => .ok row.address6
    | "perf_data" => .ok row.perfData
    | "plugin_output" => .ok row.pluginOutput
    | column => missing column
  getInt
    | "last_check" => .ok row.lastCheck
    | "num_services" => .ok row.numServices
    | "num_services_crit" => .ok row.numServicesCrit
    | "num_services_warn" => .ok row.numServicesWarn
    | "num_services_pending" => .ok row.numServicesPending
    | "num_services_ok" => .ok row.numServicesOk
    | "num_services_unknown" => .ok row.numServicesUnknown
    | "state" => .ok row.state
    | "hard_state" => .ok row.hardState
    | "state_type" => .ok row.stateType
    | column => missing column
  getBool
    | "has_been_checked" => .ok row.hasBeenChecked
    | "is_flapping" => .ok row.isFlapping
    | "is_executing" => .ok row.isExecuting
    | "is_reachable" => .ok row.isReachable
    | column => missing column

/-- A state that says what its row says; the effective state, the round-trip
time and the loss are made of the columns. -/
structure Agrees (sourceName : String) (row : HostRow) (s : HostState) : Prop where
  hostName : s.hostName = row.hostName
  name : s.name = row.name
  label : s.label = row.displayName
  source : s.source = sourceName
  notes : s.notes = row.notes
  output : s.output = row.pluginOutput
  ip : s.ip = NetIP.parseIP row.address
  ip6 : s.ip6 = NetIP.parseIP row.address6
  time : s.time = row.lastCheck.toInt * 1000000000
  hasBeenChecked : s.hasBeenChecked = row.hasBeenChecked
  isFlapping : s.isFlapping = row.isFlapping
  isExecuting : s.isExecuting = row.isExecuting
  isReachable : s.isReachable = row.isReachable
  isHardState : s.isHardState ↔ row.stateType = 1
  type : s.type.toInt = row.stateType.toInt
  state : s.state.toInt = row.state.toInt
  hardState : s.hardState.toInt = row.hardState.toInt
  numServices : s.numServices.toInt = row.numServices.toInt
  numServicesOk : s.numServicesOk.toInt = row.numServicesOk.toInt
  numServicesWarning : s.numServicesWarning.toInt = row.numServicesWarn.toInt
  numServicesCritical : s.numServicesCritical.toInt = row.numServicesCrit.toInt
  numServicesPending : s.numServicesPending.toInt = row.numServicesPending.toInt
  numServicesUnknown : s.numServicesUnknown.toInt = row.numServicesUnknown.toInt
  effectiveState : s.effectiveState = icingaStateToEffectiveState s.state s.hardState
    row.hasBeenChecked row.isFlapping s.numServicesCritical s.numServicesWarning
  rtt : s.rtt = (getRTTPacketLossFromPerfdata row.perfData).1
  loss : s.loss = (getRTTPacketLossFromPerfdata row.perfData).2.1

/-- The number is one of so many bits. -/
def Fits (bits : Nat) (n : Int64) : Prop := -2 ^ (bits - 1) ≤ n.toInt ∧ n.toInt < 2 ^ (bits - 1)

theorem toInt16_iff (n : Int64) : n.toInt16.toInt = n.toInt ↔ Fits 16 n := by
  rw [Int64.toInt_toInt16, Fits]
  constructor
  · intro same
    rw [← same]
    exact ⟨Int.le_bmod (by decide), Int.bmod_lt (by decide)⟩
  · rintro ⟨low, high⟩
    exact Int.bmod_eq_of_le low high

theorem toInt32_iff (n : Int64) : n.toInt32.toInt = n.toInt ↔ Fits 32 n := by
  rw [Int64.toInt_toInt32, Fits]
  constructor
  · intro same
    rw [← same]
    exact ⟨Int.le_bmod (by decide), Int.bmod_lt (by decide)⟩
  · rintro ⟨low, high⟩
    exact Int.bmod_eq_of_le low high

/-- The row says of its host what every state says: that it is not reachable and
that its state is not hard; and its numbers fit the fields. -/
structure Carried (row : HostRow) : Prop where
  notReachable : row.isReachable = false
  notHard : row.stateType ≠ 1
  short : ∀ n ∈ [row.stateType, row.state, row.hardState], Fits 16 n
  counts : ∀ n ∈ [row.numServices, row.numServicesOk, row.numServicesWarn, row.numServicesCrit,
    row.numServicesPending, row.numServicesUnknown], Fits 32 n

/-- A row as the query offers it. -/
def offered (row : HostRow) : Record := offer getHostsTableStateQuery.columns row.record

theorem stateOf_offered (sourceName : String) (row : HostRow) :
    stateOf sourceName (offered row) =
      { hostName := row.hostName
        name := row.name
        label := row.displayName
        source := sourceName
        hasBeenChecked := row.hasBeenChecked
        state := row.state.toInt16
        effectiveState := icingaStateToEffectiveState row.state.toInt16 row.hardState.toInt16
          row.hasBeenChecked row.isFlapping row.numServicesCrit.toInt32 row.numServicesWarn.toInt32
        hardState := row.hardState.toInt16
        rtt := (getRTTPacketLossFromPerfdata row.perfData).1
        loss := (getRTTPacketLossFromPerfdata row.perfData).2.1
        isDuplicate := (getRTTPacketLossFromPerfdata row.perfData).2.2.1
        time := row.lastCheck.toInt * 1000000000
        notes := row.notes
        ip := NetIP.parseIP row.address
        ip6 := NetIP.parseIP row.address6
        output := row.pluginOutput
        isFlapping := row.isFlapping
        isExecuting := row.isExecuting
        isReachable := false
        numServices := row.numServices.toInt32
        numServicesOk := row.numServicesOk.toInt32
        numServicesWarning := row.numServicesWarn.toInt32
        numServicesCritical := row.numServicesCrit.toInt32
        numServicesPending := row.numServicesPending.toInt32
        numServicesUnknown := row.numServicesUnknown.toInt32
        type := row.stateType.toInt16 } := by
  rw [stateOf_eq]
  rfl

/-- A row is in its state exactly if it is carried over. -/
theorem agrees_offered_iff (sourceName : String) (row : HostRow) :
    Agrees sourceName row (stateOf sourceName (offered row)) ↔ Carried row := by
  rw [stateOf_offered]
  constructor
  · intro agrees
    refine ⟨agrees.isReachable.symm, fun hard => ?_, ?_, ?_⟩
    · exact absurd (agrees.isHardState.mpr hard) Bool.false_ne_true
    · simp only [List.forall_mem_cons, ← toInt16_iff]
      exact ⟨agrees.type, agrees.state, agrees.hardState, List.forall_mem_nil _⟩
    · simp only [List.forall_mem_cons, ← toInt32_iff]
      exact ⟨agrees.numServices, agrees.numServicesOk, agrees.numServicesWarning,
        agrees.numServicesCritical, agrees.numServicesPending, agrees.numServicesUnknown,
        List.forall_mem_nil _⟩
  · rintro ⟨notReachable, notHard, short, counts⟩
    simp only [List.forall_mem_cons, ← toInt16_iff] at short
    simp only [List.forall_mem_cons, ← toInt32_iff] at counts
    obtain ⟨type, state, hardState, -⟩ := short
    obtain ⟨all, ok, warn, crit, pending, unknown, -⟩ := counts
    exact
      { hostName := rfl, name := rfl, label := rfl, source := rfl, notes := rfl, output := rfl
        ip := rfl, ip6 := rfl, time := rfl, hasBeenChecked := rfl, isFlapping := rfl
        isExecuting := rfl, isReachable := notReachable.symm
        isHardState := iff_of_false Bool.false_ne_true notHard
        type, state, hardState, numServices := all, numServicesOk := ok
        numServicesWarning := warn, numServicesCritical := crit, numServicesPending := pending
        numServicesUnknown := unknown, effectiveState := rfl, rtt := rfl, loss := rfl }

theorem getAllHostsState_serving (config : Config) (table : List HostRow) :
    let source : IcingaStateSource := ⟨config, serving (table.map HostRow.record)⟩
    getAllHostsState source = .ok (table.map fun row => stateOf (getFullName source) (offered row)) := by
  have every : selects getHostsTableStateQuery.headers = fun _ => true := rfl
  dsimp only
  rw [getAllHostsState, statesOfQuery_serving, every, List.filter_true, List.map_map]
  rfl

/-- One state for each row, in order, that says what its row says. -/
def StatesAgree (config : Config) (table : List HostRow) : Prop :=
  let source : IcingaStateSource := ⟨config, serving (table.map HostRow.record)⟩
  ∃ states, getAllHostsState source = .ok states ∧
    List.Forall₂ (Agrees (getFullName source)) table states

/-- **Two columns are lost.** The states agree with the table exactly if no row
is reachable or of a hard state, and the numbers fit. -/
theorem table_states_agree_iff (config : Config) (table : List HostRow) :
    StatesAgree config table ↔ ∀ row ∈ table, Carried row := by
  unfold StatesAgree
  dsimp only
  rw [getAllHostsState_serving]
  simp only [Except.ok.injEq, exists_eq_left', List.forall₂_map_right_iff, List.forall₂_same,
    agrees_offered_iff]

/-- A host that is up and reachable, in a soft state. -/
def core : HostRow where
  hostName := "core"
  name := "core"
  lastCheck := 0
  displayName := "core"
  notes := ""
  address := "10.0.0.1"
  address6 := ""
  hasBeenChecked := true
  numServices := 0
  numServicesCrit := 0
  numServicesWarn := 0
  numServicesPending := 0
  numServicesOk := 0
  numServicesUnknown := 0
  state := 0
  hardState := 0
  stateType := 0
  perfData := ""
  pluginOutput := ""
  isFlapping := false
  isExecuting := false
  isReachable := true

/-- It is reported as unreachable. -/
theorem reachable_host_is_reported_unreachable :
    ¬ ∀ (config : Config) (table : List HostRow), StatesAgree config table := by
  intro claimed
  obtain ⟨states, obtained, agree⟩ := claimed ⟨"icinga", 6557, false, "", false, 0⟩ [core]
  rw [getAllHostsState_serving] at obtained
  cases obtained
  rw [List.forall₂_map_right_iff, List.forall₂_same] at agree
  have carried := (agrees_offered_iff _ core).mp (agree core (List.mem_singleton_self core))
  cases carried.notReachable

end NetGraphz.HostsTable
