import NetGraphz.IcingaSource

/-! What becomes of the records of a Livestatus response: one state a record,
in order and each by its own record; what a state says where fields could not
be read; and which columns of the table of hosts reach the states. -/
namespace NetGraphz.HostDispatch
open Livestatus StateCache IcingaSource

/-! ## One record, one state -/

/-- A reading, with the zero value of its type where it fails. -/
def valueOr (zero : α) : Except String α → α
  | .ok value => value
  | .error _ => zero

def failure : Except String α → Option String
  | .ok _ => none
  | .error err => some err

theorem getRecErr_eq (zero : α) (reading : Except String α) (inErr : Option String) :
    getRecErr zero reading inErr = (valueOr zero reading, (failure reading).or inErr) := by
  cases reading <;> rfl

/-- The state of a record, written into a new one. -/
def stateOf (sourceName : String) (r : Record) : HostState := (dispatchRecord sourceName {} r).s

/-- A record overwrites every field of the shared state but `IsHardState`. -/
theorem dispatchRecord_s {loop : Dispatching} (soft : loop.s.isHardState = false)
    (sourceName : String) (r : Record) :
    (dispatchRecord sourceName loop r).s = stateOf sourceName r := by
  simp only [stateOf, dispatchRecord, getRecErrStrval, getRecErrBoolval, getRecErrIntval,
    getRecErr_eq, soft]

theorem stateOf_isHardState (sourceName : String) (r : Record) :
    (stateOf sourceName r).isHardState = false := rfl

/-- Nothing is carried over from one record to the next. -/
theorem dispatch_eq (resp : Response) (sourceName : String) :
    dispatchLivestatusHostsResponse resp sourceName =
      .ok (resp.records.map (stateOf sourceName)) := by
  suffices ∀ loop : Dispatching, loop.s.isHardState = false →
      (resp.records.foldl (dispatchRecord sourceName) loop).states =
        loop.states ++ resp.records.map (stateOf sourceName) by
    rw [dispatchLivestatusHostsResponse, this {} rfl]
    rfl
  induction resp.records with
  | nil => simp
  | cons r records ih =>
    intro loop soft
    have written := dispatchRecord_s soft sourceName r
    have joined : (dispatchRecord sourceName loop r).states =
        loop.states ++ [(dispatchRecord sourceName loop r).s] := rfl
    rw [List.foldl_cons, ih _ (by rw [written]; exact stateOf_isHardState sourceName r), joined,
      written, List.map_cons, List.append_assoc, List.singleton_append]

/-- Records and states are related pair by pair. -/
theorem forall₂_stateOf {relation : Record → HostState → Prop} (records : List Record)
    (sourceName : String) :
    List.Forall₂ relation records (records.map (stateOf sourceName)) ↔
      ∀ r ∈ records, relation r (stateOf sourceName r) := by
  rw [List.forall₂_map_right_iff, List.forall₂_same]

/-- The fields of a state, by the readings of its record. -/
theorem stateOf_eq (sourceName : String) (r : Record) :
    stateOf sourceName r =
      let str := fun field => valueOr "" (r.getString field)
      let int := fun field => valueOr 0 (r.getInt field)
      let bool := fun field => valueOr false (r.getBool field)
      let perf := getRTTPacketLossFromPerfdata (str "perf_data")
      { hostName := str "host_name"
        name := str "name"
        label := str "display_name"
        source := sourceName
        hasBeenChecked := bool "has_been_checked"
        state := (int "state").toInt16
        effectiveState := icingaStateToEffectiveState (int "state").toInt16
          (int "hard_state").toInt16 (bool "has_been_checked") (bool "is_flapping")
          (int "num_services_crit").toInt32 (int "num_services_warn").toInt32
        hardState := (int "hard_state").toInt16
        rtt := perf.1
        loss := perf.2.1
        isDuplicate := perf.2.2.1
        time := (int "last_check").toInt * 1000000000
        notes := str "notes"
        ip := NetIP.parseIP (str "address")
        ip6 := NetIP.parseIP (str "address6")
        output := str "plugin_output"
        isFlapping := bool "is_flapping"
        isExecuting := bool "is_executing"
        isReachable := bool "is_reachable"
        numServices := (int "num_services").toInt32
        numServicesOk := (int "num_services_ok").toInt32
        numServicesWarning := (int "num_services_warn").toInt32
        numServicesCritical := (int "num_services_crit").toInt32
        numServicesPending := (int "num_services_pending").toInt32
        numServicesUnknown := (int "num_services_unknown").toInt32
        type := (int "state_type").toInt16 } := by
  simp only [stateOf, dispatchRecord, getRecErrStrval, getRecErrBoolval, getRecErrIntval,
    getRecErr_eq, icingaStateToNetstate]

/-! ## Duplicated replies -/

/-- Both expressions are anchored, and they start with different letters. -/
theorem duplicateR_of_packLossR {text : List Char} (found : (packLossR.findWhole text).isSome) :
    duplicateR.findWhole text = none := by
  rw [← Option.not_isSome_iff_eq_none]
  intro duplicate
  obtain ⟨rest, rta⟩ := Regexp.literal_prefix found
  obtain ⟨rest', ping⟩ := Regexp.literal_prefix duplicate
  rw [← rta] at ping
  simp at ping

/-- The flag for duplicates is never set. -/
theorem getRTTPacketLossFromPerfdata_dup (perfData : String) :
    (getRTTPacketLossFromPerfdata perfData).2.2.1 = false := by
  simp only [getRTTPacketLossFromPerfdata]
  split
  · rfl
  · rename_i whole
    have found : (packLossR.findWhole perfData.toList).isSome := by
      by_contra none
      rw [Option.not_isSome_iff_eq_none.mp none] at whole
      exact whole (by decide)
    have noDup : decide (((duplicateR.findWhole perfData.toList).getD []).length > 0) = false := by
      rw [duplicateR_of_packLossR found]
      rfl
    rw [noDup]
    split
    · rfl
    · split <;> rfl

theorem stateOf_isDuplicate (sourceName : String) (r : Record) :
    (stateOf sourceName r).isDuplicate = false := by
  rw [stateOf_eq]
  exact getRTTPacketLossFromPerfdata_dup _

/-- The text of a check that reports duplicated replies. -/
def TellsDuplicates (text : String) : Prop :=
  "PING WARNING - DUPLICATES FOUND! ".toList <+: text.toList ∧ '\n' ∉ text.toList

/-- Those are the texts that `duplicate_r` matches. -/
theorem duplicateR_iff (text : String) :
    (duplicateR.findWhole text.toList).isSome ↔ TellsDuplicates text := by
  unfold duplicateR
  rw [Regexp.literal_many_iff, TellsDuplicates]
  constructor
  · rintro ⟨rest, same, line⟩
    rw [same]
    refine ⟨List.prefix_append _ _, ?_⟩
    rw [List.mem_append, not_or]
    refine ⟨by decide, fun member => ?_⟩
    simpa using line _ member
  · rintro ⟨⟨rest, same⟩, line⟩
    refine ⟨rest, same.symm, fun c member => decide_eq_true ?_⟩
    rintro rfl
    exact line (same ▸ List.mem_append_right _ member)

/-- The output or the performance data of the record tells of duplicates. -/
def ReportsDuplicates (r : Record) : Prop :=
  ∃ text, (r.getString "plugin_output" = .ok text ∨ r.getString "perf_data" = .ok text) ∧
    TellsDuplicates text

/-- **Duplicated replies are never reported.** No host whose check reports them
is flagged, whatever its performance data. -/
theorem duplicates_never_flagged (resp : Response) (sourceName : String) :
    ∃ states, dispatchLivestatusHostsResponse resp sourceName = .ok states ∧
      List.Forall₂ (fun r s => ReportsDuplicates r → s.isDuplicate = false) resp.records states := by
  refine ⟨_, dispatch_eq resp sourceName, (forall₂_stateOf _ _).mpr ?_⟩
  intro r _ _
  exact stateOf_isDuplicate sourceName r

/-- A record with one text column, and nothing else. -/
def textRecord (column text : String) : Record where
  getString field := if field = column then .ok text else missing field
  getInt := missing
  getBool := missing

/-- A ping that came back twice. -/
theorem duplicate_reply_is_not_flagged :
    ¬ ∀ (resp : Response) (sourceName : String) (states : List HostState),
      dispatchLivestatusHostsResponse resp sourceName = .ok states →
      List.Forall₂ (fun r s => ReportsDuplicates r → s.isDuplicate = true) resp.records states := by
  intro claimed
  let r := textRecord "plugin_output" "PING WARNING - DUPLICATES FOUND! Packet loss = 0%"
  have flagged := claimed ⟨[r]⟩ "icinga" _ (dispatch_eq _ _)
  have reports : ReportsDuplicates r := ⟨_, Or.inl rfl, by decide, by decide⟩
  have set := (forall₂_stateOf _ _).mp flagged r (List.mem_singleton_self r) reports
  rw [stateOf_isDuplicate] at set
  cases set

end NetGraphz.HostDispatch
