import NetGraphz.HostDispatch

/-! When a host is shown as up: what its numbers have to be for that, that a
host whose hard state is down can be among them, and that so can a host whose
numbers could not be read. -/
namespace NetGraphz.EffectiveStates
open Livestatus StateCache IcingaSource HostDispatch

variable {state hardState : Int16} {hasBeenChecked isFlapping : Bool}
  {numServicesCrit numServicesWarn : Int32}

/-- The state and the service counts of a host that is shown as up. The hard
state is not asked for. -/
def LooksUp (state : Int16) (numServicesCrit numServicesWarn : Int32) : Prop :=
  (state = STATE_UNREACH ∧ numServicesCrit = 0 ∧ numServicesWarn = 0) ∨
    (state = STATE_UP ∧ ¬ numServicesCrit > 0 ∧ ¬ numServicesWarn > 0)

instance : Decidable (LooksUp state numServicesCrit numServicesWarn) :=
  inferInstanceAs (Decidable (_ ∨ _))

theorem effective_up_iff :
    icingaStateToEffectiveState state hardState hasBeenChecked isFlapping numServicesCrit
        numServicesWarn = E_STATE_UP ↔
      hasBeenChecked ∧ isFlapping = false ∧ LooksUp state numServicesCrit numServicesWarn := by
  have codes : E_STATE_UNKNOWN ≠ E_STATE_UP ∧ E_STATE_FLAPPING ≠ E_STATE_UP ∧
      E_STATE_DOWN ≠ E_STATE_UP ∧ E_STATE_WARNING ≠ E_STATE_UP ∧ STATE_UNREACH ≠ STATE_UP ∧
      STATE_DOWN ≠ STATE_UP := by decide
  obtain ⟨unknown, flapping, down, warning, unreach, isDown⟩ := codes
  have up : E_STATE_UP = STATE_UP := rfl
  unfold icingaStateToEffectiveState LooksUp
  cases hasBeenChecked with
  | false => simp [unknown]
  | true =>
    cases isFlapping with
    | true => simp [flapping]
    | false =>
      by_cases lost : state = STATE_UNREACH
      · subst lost
        by_cases quiet : numServicesCrit = 0 ∧ numServicesWarn = 0
        · simp [quiet]
        · by_cases hard : hardState = STATE_DOWN
          · simp [quiet, hard, down, unreach]
          · simp [quiet, hard, warning, unreach]
      · by_cases trouble : numServicesCrit > 0 ∨ numServicesWarn > 0
        · have notUp : ¬ (state = STATE_UP ∧ ¬ numServicesCrit > 0 ∧ ¬ numServicesWarn > 0) :=
            fun up => not_or.mpr up.2 trouble
          by_cases off : state = STATE_DOWN
          · subst off
            simp [lost, isDown, up]
          · simpa [lost, off, trouble, warning] using notUp
        · have quiet := not_or.mp trouble
          simp [lost, quiet, up]

/-! ## Hosts that are down -/

/-- A host that is shown as up is not down in either state, and has no service
in trouble. -/
def UpMeansUp (state hardState : Int16) (numServicesCrit numServicesWarn : Int32) : Prop :=
  icingaStateToEffectiveState state hardState true false numServicesCrit numServicesWarn =
      E_STATE_UP →
    state ≠ STATE_DOWN ∧ hardState ≠ STATE_DOWN ∧ ¬ numServicesCrit > 0 ∧ ¬ numServicesWarn > 0

/-- **The hard state is asked too late.** A host that is shown as up is up,
exactly if its hard state is not down or its other numbers do not look up. -/
theorem up_means_up_iff (state hardState : Int16) (numServicesCrit numServicesWarn : Int32) :
    UpMeansUp state hardState numServicesCrit numServicesWarn ↔
      hardState ≠ STATE_DOWN ∨ ¬ LooksUp state numServicesCrit numServicesWarn := by
  rw [UpMeansUp, effective_up_iff]
  constructor
  · intro means
    by_cases looks : LooksUp state numServicesCrit numServicesWarn
    · exact Or.inl (means ⟨rfl, rfl, looks⟩).2.1
    · exact Or.inr looks
  · rintro notDown ⟨-, -, looks⟩
    have hard := notDown.resolve_right (not_not.mpr looks)
    rcases looks with ⟨rfl, crit, warn⟩ | ⟨rfl, crit, warn⟩
    · subst crit warn
      exact ⟨by decide, hard, by decide, by decide⟩
    · exact ⟨by decide, hard, crit, warn⟩

/-- A host behind a lost one, its own hard state down. -/
theorem unreachable_down_host_is_up : ¬ ∀ (state hardState : Int16)
    (numServicesCrit numServicesWarn : Int32),
      UpMeansUp state hardState numServicesCrit numServicesWarn := by
  intro claimed
  exact (claimed STATE_UNREACH STATE_DOWN 0 0 (by decide)).2.1 rfl

/-! ## Hosts that could not be read -/

/-- A reading that did not fail. -/
def Succeeds (reading : Except String α) : Prop := ∃ value, reading = .ok value

/-- Everything the effective state is made from was read. -/
structure AllRead (r : Record) : Prop where
  hasBeenChecked : Succeeds (r.getBool "has_been_checked")
  isFlapping : Succeeds (r.getBool "is_flapping")
  state : Succeeds (r.getInt "state")
  hardState : Succeeds (r.getInt "hard_state")
  numServicesCrit : Succeeds (r.getInt "num_services_crit")
  numServicesWarn : Succeeds (r.getInt "num_services_warn")

/-- The record is that of a checked host which is not known to flap, and whose
state and service counts, zero where they fail, are those of a host that is up. -/
structure ReadsUp (r : Record) : Prop where
  checked : r.getBool "has_been_checked" = .ok true
  calm : r.getBool "is_flapping" ≠ .ok true
  looks : LooksUp (valueOr 0 (r.getInt "state")).toInt16
    (valueOr 0 (r.getInt "num_services_crit")).toInt32
    (valueOr 0 (r.getInt "num_services_warn")).toInt32

theorem valueOr_false_iff (reading : Except String Bool) :
    valueOr false reading = true ↔ reading = .ok true := by
  cases reading <;> simp [valueOr]

/-- Such records, and no others, are shown as up. -/
theorem stateOf_up_iff (sourceName : String) (r : Record) :
    (stateOf sourceName r).effectiveState = E_STATE_UP ↔ ReadsUp r := by
  have made : (stateOf sourceName r).effectiveState =
      icingaStateToEffectiveState (valueOr 0 (r.getInt "state")).toInt16
        (valueOr 0 (r.getInt "hard_state")).toInt16
        (valueOr false (r.getBool "has_been_checked")) (valueOr false (r.getBool "is_flapping"))
        (valueOr 0 (r.getInt "num_services_crit")).toInt32
        (valueOr 0 (r.getInt "num_services_warn")).toInt32 := by
    rw [stateOf_eq]
  rw [made, effective_up_iff, valueOr_false_iff, ← Bool.not_eq_true, valueOr_false_iff]
  exact ⟨fun ⟨checked, calm, looks⟩ => ⟨checked, calm, looks⟩,
    fun ⟨checked, calm, looks⟩ => ⟨checked, calm, looks⟩⟩

/-- Only what was read is shown as up. -/
def UpWasRead (records : List Record) (states : List HostState) : Prop :=
  List.Forall₂ (fun r s => s.effectiveState = E_STATE_UP → AllRead r) records states

theorem upWasRead_stateOf (records : List Record) (sourceName : String) :
    UpWasRead records (records.map (stateOf sourceName)) ↔ ∀ r ∈ records, ReadsUp r → AllRead r := by
  rw [UpWasRead, forall₂_stateOf]
  simp only [stateOf_up_iff]

/-- **What cannot be read counts as zero.** A response's records that are shown
as up were all read, exactly if those that read as up were. -/
theorem up_was_read_iff (resp : Response) (sourceName : String) :
    (∀ states, dispatchLivestatusHostsResponse resp sourceName = .ok states →
      UpWasRead resp.records states) ↔ ∀ r ∈ resp.records, ReadsUp r → AllRead r := by
  rw [← upWasRead_stateOf resp.records sourceName, dispatch_eq]
  constructor
  · intro all
    exact all _ rfl
  · rintro up states made
    cases made
    exact up

/-- A checked host of which nothing else can be read. -/
def unreadable : Record where
  getString := missing
  getInt := missing
  getBool field := if field = "has_been_checked" then .ok true else missing field

/-- It is shown as up. -/
theorem unreadable_host_is_up : ¬ ∀ (resp : Response) (sourceName : String)
    (states : List HostState), dispatchLivestatusHostsResponse resp sourceName = .ok states →
      UpWasRead resp.records states := by
  intro claimed
  have readsUp : ReadsUp unreadable := ⟨rfl, by decide, by decide⟩
  have up := claimed ⟨[unreadable]⟩ "icinga" _ (dispatch_eq _ _)
  have read := (upWasRead_stateOf _ _).mp up unreadable (List.mem_singleton_self _) readsUp
  obtain ⟨value, state⟩ := read.state
  cases state

end NetGraphz.EffectiveStates
