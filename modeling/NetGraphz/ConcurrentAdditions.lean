import NetGraphz.HostIndexProofs

/-! `AddMetricValue` calls that run at once. Each locked section is one step;
what a call has looked up in the first of them may no longer hold in the later
ones. -/
namespace NetGraphz.ConcurrentAdditions
open Metrics MemoryStorage MemoryStorageProofs HostIndexProofs

/-- How far a call is: what it found in its lookup, and the section it runs next. -/
inductive Progress where
  | called
  | entering (hostFound : Option Ref)
  | hosting (found : Bool) (hostFound : Option Ref) (mr : Ref)
  | storing (found : Bool) (mr : Ref)
  | returned
  deriving DecidableEq

/-- The storage, and the progress of the calls by their number. -/
structure State where
  storage : MemoryMetricStorage
  progress : Nat → Progress

/-- The next section of a call. -/
def proceed (storage : MemoryMetricStorage) (m : Metric) (val : MetricValue) :
    Progress → MemoryMetricStorage × Progress
  | .called =>
    let hostFound := storage.hostRings.lookup m.getHost
    match storage.rings.lookup (getMetricString m) with
    | none => (storage, .entering hostFound)
    | some mr => (storage, .hosting true hostFound mr)
  | .entering hostFound =>
    let (storage, mr) := enterRing storage m none
    (storage, .hosting false hostFound mr)
  | .hosting found hostFound mr => (enterHost storage m hostFound mr, .storing found mr)
  | .storing found mr => (storeValue storage found mr val, .returned)
  | .returned => (storage, .returned)

/-- One of the calls runs its next section. -/
def step (calls : List Addition) (state : State) (i : Nat) : State :=
  match calls[i]? with
  | none => state
  | some (m, val) =>
    let (storage, progress) := proceed state.storage m val (state.progress i)
    ⟨storage, Function.update state.progress i progress⟩

/-- None of the calls has begun. -/
def begin (storage : MemoryMetricStorage) : State := ⟨storage, fun _ => .called⟩

/-- A call that runs alone is `AddMetricValue`. -/
theorem alone_is_addMetricValue (storage : MemoryMetricStorage) (m : Metric) (val : MetricValue) :
    let state := after (step [(m, val)]) (begin storage) [0, 0, 0, 0]
    state.storage = addMetricValue storage m val ∧ state.progress 0 = .returned := by
  cases known : storage.rings.lookup (getMetricString m) with
  | none => simp [after, step, begin, proceed, known, addMetricValue, enterRing]
  | some mr => simp [after, step, begin, proceed, known, addMetricValue, enterRing]

/-- What a call found of its host still serves: the map it found is the host's,
or it found none and nothing but its own metric has been listed since. -/
def HostCurrent (storage : MemoryMetricStorage) (m : Metric) : Option Ref → Prop
  | none => ∀ key mr, hostEntry storage m.getHost key = some mr → key = getMetricString m
  | some hr => storage.hostRings.lookup m.getHost = some hr

/-- The next section of a call acts on what still holds: where it creates a ring
there is none yet, and a ring that was found, and is moved on, already holds a
value. -/
def SectionCurrent (storage : MemoryMetricStorage) (m : Metric) : Progress → Prop
  | .called => True
  | .entering _ => storage.rings.lookup (getMetricString m) = none
  | .hosting _ hostFound _ => HostCurrent storage m hostFound
  | .storing found mr => found = true →
      ∃ ring, storage.ringCells.read mr = some ring ∧ ring.r.value ≠ none
  | .returned => True

/-- The section that a call runs next is current. -/
def Current (calls : List Addition) (state : State) (i : Nat) : Prop :=
  ∀ m val, calls[i]? = some (m, val) → SectionCurrent state.storage m (state.progress i)

/-- Every section of a run is. -/
def RunsCurrent (calls : List Addition) : State → List Nat → Prop
  | _, [] => True
  | state, i :: rest => Current calls state i ∧ RunsCurrent calls (step calls state i) rest

/-! ## What the storage holds -/

/-- The values that were stored under a metric string, the last one first. -/
def storedUnder (calls : List Addition) (stored : List Nat) (key : String) : List MetricValue :=
  stored.filterMap fun i => (calls[i]?).bind fun call =>
    if getMetricString call.1 = key then some call.2 else none

/-- The log of a ring: what was stored, before what the storage had. -/
def logOf (calls : List Addition) (capacity : Nat) (old : Logs) (stored : List Nat) (key : String) :
    List MetricValue :=
  (storedUnder calls stored key ++ old key).take capacity

/-- What holds of a call from its progress. -/
def CallHolds (storage : MemoryMetricStorage) (log : List MetricValue) (m : Metric) :
    Progress → Prop
  | .called => True
  | .entering _ => True
  | .hosting found _ mr =>
    storage.rings.lookup (getMetricString m) = some mr ∧ (found = false → log = [])
  | .storing found mr =>
    storage.rings.lookup (getMetricString m) = some mr ∧ (found = false → log = []) ∧
      (hostEntry storage m.getHost (getMetricString m)).isSome
  | .returned => (hostEntry storage m.getHost (getMetricString m)).isSome

/-- The call has created its ring and not stored its value. -/
def Creating : Progress → Prop
  | .hosting found _ _ => found = false
  | .storing found _ => found = false
  | _ => False

/-- The storage in the middle of a run: the maps agree, and the rings hold their
logs. -/
structure Sound (storage : MemoryMetricStorage) (capacity : Nat) (logs : Logs) : Prop where
  width : storage.capacity = capacity
  apart : MapsApart storage
  shared : ∀ {host key mr}, hostEntry storage host key = some mr → storage.rings.lookup key = some mr
  rings : RingsHold storage logs

/-- Nothing that was entered is taken out. -/
structure Grows (before later : MemoryMetricStorage) : Prop where
  rings : ∀ {key mr}, before.rings.lookup key = some mr → later.rings.lookup key = some mr
  entries : ∀ {host key}, (hostEntry before host key).isSome → (hostEntry later host key).isSome

variable {calls : List Addition} {capacity : Nat} {old logs : Logs} {stored : List Nat}
variable {storage later : MemoryMetricStorage} {m : Metric} {val : MetricValue} {mr : Ref}

/-! ## The sections -/

/-- A ring that was missing is entered. -/
theorem sound_enterRing (sound : Sound storage capacity logs)
    (fresh : storage.rings.lookup (getMetricString m) = none) :
    Sound (enterRing storage m none).1 capacity logs ∧ Grows storage (enterRing storage m none).1 := by
  have kept : ∀ {key mr}, storage.rings.lookup key = some mr →
      (enterRing storage m none).1.rings.lookup key = some mr := by
    intro key mr known
    have other : key ≠ getMetricString m := by
      rintro rfl
      cases fresh.symm.trans known
    rw [← known]
    exact Finmap.lookup_insert_of_ne _ other
  refine ⟨⟨sound.width, mapsApart_enterRing sound.apart none, ?_, sound.rings.enterRing fresh⟩, kept, ?_⟩
  · intro host key mr listed
    rw [hostEntry_enterRing] at listed
    exact kept (sound.shared listed)
  · intro host key listed
    rwa [hostEntry_enterRing]

/-- A ring is entered under its host. -/
theorem sound_enterHost (sound : Sound storage capacity logs)
    (current : HostCurrent storage m hostFound)
    (ring : storage.rings.lookup (getMetricString m) = some mr) :
    Sound (enterHost storage m hostFound mr) capacity logs ∧
      Grows storage (enterHost storage m hostFound mr) ∧
      (hostEntry (enterHost storage m hostFound mr) m.getHost (getMetricString m)).isSome := by
  have entered : MapsApart (enterHost storage m hostFound mr) ∧ ∀ host key,
      hostEntry (enterHost storage m hostFound mr) host key =
        if host = m.getHost ∧ key = getMetricString m then some mr else hostEntry storage host key := by
    cases hostFound with
    | none => exact enterHost_new sound.apart current mr
    | some hr => exact enterHost_known sound.apart current mr
  obtain ⟨apart, entries⟩ := entered
  refine ⟨⟨?_, apart, ?_, sound.rings.enterHost m hostFound mr⟩, ⟨?_, ?_⟩, ?_⟩
  · rw [enterHost_capacity, sound.width]
  · intro host key mr' listed
    rw [entries] at listed
    rw [enterHost_rings]
    split at listed
    · rename_i own
      rw [own.2, ring, listed]
    · exact sound.shared listed
  · rw [enterHost_rings]
    exact id
  · intro host key listed
    rw [entries]
    split
    · rfl
    · exact listed
  · rw [entries, if_pos ⟨rfl, rfl⟩]
    rfl

/-- A value is stored in its ring. -/
theorem sound_storeValue (sound : Sound storage capacity logs) (positive : 0 < capacity)
    (ring : storage.rings.lookup (getMetricString m) = some mr)
    (first : found = false → logs (getMetricString m) = []) (val : MetricValue) :
    Sound (storeValue storage found mr val) capacity (logs.add capacity m val) ∧
      Grows storage (storeValue storage found mr val) := by
  have stored := sound.rings.storeValue (by rw [sound.width]; exact positive) ring first val
  rw [sound.width] at stored
  exact ⟨⟨sound.width, ⟨sound.apart.present, sound.apart.apart⟩, sound.shared, stored⟩, id, id⟩

/-! ## The calls -/

/-- The state in the middle of a run: each call finds what it relies on, and no
two of them create one ring. -/
structure Consistent (calls : List Addition) (capacity : Nat) (old : Logs) (stored : List Nat)
    (state : State) : Prop where
  sound : Sound state.storage capacity (logOf calls capacity old stored)
  holds : ∀ {i m val}, calls[i]? = some (m, val) →
    CallHolds state.storage (logOf calls capacity old stored (getMetricString m)) m (state.progress i)
  creators : ∀ {i j m m' val val'}, calls[i]? = some (m, val) → calls[j]? = some (m', val') →
    Creating (state.progress i) → Creating (state.progress j) →
      getMetricString m = getMetricString m' → i = j
  once : stored.Nodup
  counted : ∀ {i}, i ∈ stored ↔ i < calls.length ∧ state.progress i = .returned

variable {progress : Nat → Progress} {state : State} {i : Nat} {p : Progress}

/-- What a call relies on, after the section of another. -/
theorem CallHolds.frame {log log' : List MetricValue} (holds : CallHolds storage log m p)
    (grows : Grows storage later) (empty : Creating p → log = [] → log' = []) :
    CallHolds later log' m p := by
  cases p with
  | called => trivial
  | entering hostFound => trivial
  | hosting found hostFound mr =>
    obtain ⟨ring, first⟩ := holds
    exact ⟨grows.rings ring, fun new => empty new (first new)⟩
  | storing found mr =>
    obtain ⟨ring, first, listed⟩ := holds
    exact ⟨grows.rings ring, fun new => empty new (first new), grows.entries listed⟩
  | returned => exact grows.entries holds

/-- A value that is stored is pushed onto the log of its key. -/
theorem logOf_cons (call : calls[i]? = some (m, val)) (stored : List Nat) :
    logOf calls capacity old (i :: stored) = Logs.add capacity (logOf calls capacity old stored) m val := by
  funext key
  unfold Logs.add logOf storedUnder
  rw [List.filterMap_cons, call, Option.bind_some]
  by_cases own : key = getMetricString m
  · subst own
    rw [if_pos rfl, Function.update_self]
    cases capacity with
    | zero => simp
    | succ capacity => simp [List.take_take]
  · rw [if_neg (Ne.symm own), Function.update_of_ne own]

/-- A call that creates its ring has entered it. -/
theorem CallHolds.entered {log : List MetricValue} (holds : CallHolds storage log m p)
    (creating : Creating p) : log = [] ∧ ∃ mr, storage.rings.lookup (getMetricString m) = some mr := by
  cases p with
  | called => cases creating
  | entering hostFound => cases creating
  | hosting found hostFound mr => exact ⟨holds.2 creating, mr, holds.1⟩
  | storing found mr => exact ⟨holds.2.1 creating, mr, holds.1⟩
  | returned => cases creating

/-- One creator of each ring, after a call has gone on: it created its ring
before, or the storage had none that another could have created. -/
theorem Consistent.creators_update
    (consistent : Consistent calls capacity old stored ⟨storage, progress⟩)
    (call : calls[i]? = some (m, val))
    (creator : Creating p → Creating (progress i) ∨ storage.rings.lookup (getMetricString m) = none)
    {j k : Nat} (first : calls[j]? = some (m', val')) (second : calls[k]? = some (m'', val''))
    (creating : Creating (Function.update progress i p j))
    (creating' : Creating (Function.update progress i p k))
    (same : getMetricString m' = getMetricString m'') : j = k := by
  -- the call that went on, against another
  have alone : ∀ {j m' val'}, calls[j]? = some (m', val') → Creating p → Creating (progress j) →
      getMetricString m = getMetricString m' → i = j := by
    intro j m' val' other creating creating' same
    rcases creator creating with before | fresh
    · exact consistent.creators call other before creating' same
    · obtain ⟨_, mr, ring⟩ := (consistent.holds other).entered creating'
      rw [same] at fresh
      cases fresh.symm.trans ring
  by_cases own : j = i
  · subst own
    cases call.symm.trans first
    rw [Function.update_self] at creating
    by_cases own' : k = j
    · exact own'.symm
    · rw [Function.update_of_ne own'] at creating'
      exact alone second creating creating' same
  · rw [Function.update_of_ne own] at creating
    by_cases own' : k = i
    · subst own'
      cases call.symm.trans second
      rw [Function.update_self] at creating'
      exact (alone first creating' creating same.symm).symm
    · rw [Function.update_of_ne own'] at creating'
      exact consistent.creators first second creating creating' same

/-- A section before the last: the call goes on, and the storage keeps its logs. -/
theorem Consistent.goes_on (consistent : Consistent calls capacity old stored ⟨storage, progress⟩)
    (call : calls[i]? = some (m, val)) (pending : progress i ≠ .returned) (further : p ≠ .returned)
    (sound : Sound later capacity (logOf calls capacity old stored)) (grows : Grows storage later)
    (own : CallHolds later (logOf calls capacity old stored (getMetricString m)) m p)
    (creator : Creating p → Creating (progress i) ∨ storage.rings.lookup (getMetricString m) = none) :
    Consistent calls capacity old stored ⟨later, Function.update progress i p⟩ := by
  refine ⟨sound, ?_, consistent.creators_update call creator, consistent.once, ?_⟩
  · intro j m' val' other
    dsimp only
    by_cases same : j = i
    · subst same
      cases call.symm.trans other
      rw [Function.update_self]
      exact own
    · rw [Function.update_of_ne same]
      exact (consistent.holds other).frame grows fun _ => id
  · intro j
    rw [consistent.counted]
    dsimp only
    by_cases same : j = i
    · subst same
      rw [Function.update_self]
      exact and_congr_right fun _ => iff_of_false pending further
    · rw [Function.update_of_ne same]

/-- The last section: the value is stored, in a ring that no other call has yet
to fill. -/
theorem Consistent.stores (consistent : Consistent calls capacity old stored ⟨storage, progress⟩)
    (positive : 0 < capacity) (call : calls[i]? = some (m, val))
    (storing : progress i = .storing found mr)
    (filled : found = true → logOf calls capacity old stored (getMetricString m) ≠ []) :
    Consistent calls capacity old (i :: stored)
      ⟨storeValue storage found mr val, Function.update progress i .returned⟩ := by
  have holds := consistent.holds call
  simp only [storing] at holds
  obtain ⟨ring, first, listed⟩ := holds
  obtain ⟨sound, grows⟩ := sound_storeValue consistent.sound positive ring first val
  refine ⟨?_, ?_, consistent.creators_update call False.elim, ?_, ?_⟩
  · rw [logOf_cons call]
    exact sound
  · intro j m' val' other
    rw [logOf_cons call]
    dsimp only
    by_cases same : j = i
    · subst same
      cases call.symm.trans other
      rw [Function.update_self]
      exact listed
    · rw [Function.update_of_ne same]
      apply (consistent.holds other).frame grows
      intro creating empty
      have apart : getMetricString m' ≠ getMetricString m := by
        intro shared
        rw [shared] at empty
        cases found with
        | true => exact filled rfl empty
        | false =>
          have own : Creating (progress i) := by
            rw [storing]
            rfl
          exact same (consistent.creators other call creating own shared)
      rw [Logs.add, Function.update_of_ne apart]
      exact empty
  · have pending : i ∉ stored := by
      rw [consistent.counted]
      simp [storing]
    exact consistent.once.cons pending
  · intro j
    have inside : i < calls.length := (List.getElem?_eq_some_iff.mp call).1
    rw [List.mem_cons, consistent.counted]
    dsimp only
    by_cases same : j = i
    · subst same
      simp [inside]
    · rw [Function.update_of_ne same, or_iff_right same]

/-- **One current section keeps the state consistent.** -/
theorem consistent_step (consistent : Consistent calls capacity old stored state)
    (positive : 0 < capacity) (current : Current calls state i) :
    ∃ stored', Consistent calls capacity old stored' (step calls state i) := by
  obtain ⟨storage, progress⟩ := state
  unfold step
  cases call : calls[i]? with
  | none => exact ⟨stored, consistent⟩
  | some entry =>
    obtain ⟨m, val⟩ := entry
    have now := current m val call
    have holds := consistent.holds call
    dsimp only at now holds ⊢
    cases at' : progress i with
    | called =>
      have pending : progress i ≠ .returned := by simp [at']
      have unchanged : Grows storage storage := ⟨id, id⟩
      simp only [proceed]
      cases known : storage.rings.lookup (getMetricString m) with
      | none =>
        exact ⟨stored, consistent.goes_on call pending Progress.noConfusion consistent.sound unchanged
          trivial False.elim⟩
      | some mr =>
        exact ⟨stored, consistent.goes_on call pending Progress.noConfusion consistent.sound unchanged
          ⟨known, Bool.noConfusion⟩ Bool.noConfusion⟩
    | entering hostFound =>
      rw [at'] at now holds
      have pending : progress i ≠ .returned := by simp [at']
      have fresh : storage.rings.lookup (getMetricString m) = none := now
      obtain ⟨sound, grows⟩ := sound_enterRing consistent.sound fresh
      have entered : (enterRing storage m none).1.rings.lookup (getMetricString m) =
          some (enterRing storage m none).2 := Finmap.lookup_insert _
      have empty := consistent.sound.rings.absent fresh
      exact ⟨stored, consistent.goes_on call pending Progress.noConfusion sound grows
        ⟨entered, fun _ => empty⟩ fun _ => .inr fresh⟩
    | hosting found hostFound mr =>
      rw [at'] at now holds
      have pending : progress i ≠ .returned := by simp [at']
      obtain ⟨ring, first⟩ := holds
      obtain ⟨sound, grows, listed⟩ := sound_enterHost consistent.sound now ring
      have creator : Creating (.storing found mr) → Creating (progress i) := by
        rw [at']
        exact id
      exact ⟨stored, consistent.goes_on call pending Progress.noConfusion sound grows
        ⟨grows.rings ring, first, listed⟩ fun creating => .inl (creator creating)⟩
    | storing found mr =>
      rw [at'] at now holds
      refine ⟨i :: stored, consistent.stores positive call at' fun moves empty => ?_⟩
      -- a ring that moves on holds a value, so its log is not empty
      obtain ⟨ring, read, held⟩ := now moves
      obtain ⟨ring', read', _, log⟩ := consistent.sound.rings.present holds.1
      cases read.symm.trans read'
      rw [empty, consistent.sound.width] at log
      exact held (log.value positive)
    | returned =>
      have unchanged : Function.update progress i .returned = progress := by
        rw [← at', Function.update_eq_self]
      simp only [proceed, unchanged]
      exact ⟨stored, consistent⟩

/-- **So does a run of them.** -/
theorem consistent_run (consistent : Consistent calls capacity old stored state)
    (positive : 0 < capacity) (run : List Nat) (current : RunsCurrent calls state run) :
    ∃ stored', Consistent calls capacity old stored' (after (step calls) state run) := by
  induction run generalizing state stored with
  | nil => exact ⟨stored, consistent⟩
  | cons i rest ih =>
    obtain ⟨stored', next⟩ := consistent_step consistent positive current.1
    exact ih next current.2

/-- Before the calls, after any history of earlier ones. -/
theorem consistent_begin (positive : 0 < capacity) (history calls : List Addition) :
    Consistent calls capacity (logsAfter capacity history) [] (begin (storageAfter capacity history)) := by
  have refines := refines_storageAfter positive history
  have paired := paired_storageAfter capacity history
  have width := storageAfter_capacity capacity history
  have fits : ∀ key, (logsAfter capacity history key).length ≤ capacity := by
    intro key
    cases known : (storageAfter capacity history).rings.lookup key with
    | none => simp [refines.absent known]
    | some mr =>
      obtain ⟨ring, _, _, _, log⟩ := refines.present known
      have fit := log.fits
      rwa [width] at fit
  have logs : logOf calls capacity (logsAfter capacity history) [] = logsAfter capacity history := by
    funext key
    exact List.take_of_length_le (fits key)
  constructor
  · rw [logs]
    exact ⟨width, paired.sound, paired.shared, refines.ringsHold⟩
  · exact fun _ => trivial
  · exact fun _ _ => False.elim
  · exact List.nodup_nil
  · simp [begin]

/-! ## Nothing is lost -/

/-- The values met by walking back once around the ring of a metric. -/
def reachable (storage : MemoryMetricStorage) (m : Metric) : List MetricValue :=
  match ringOf storage m with
  | none => []
  | some mr => mr.r.reachable storage.capacity

/-- Every value added is reachable in the ring of its metric, as often as it was
added, and every metric added is listed for its host. -/
def AllKept (calls : List Addition) (storage : MemoryMetricStorage) : Prop :=
  (∀ m, (received calls m).Subperm (reachable storage m)) ∧
    ∀ entry ∈ calls, ∀ order, ∃ m ∈ getMetricsByHost order storage entry.1.getHost,
      getMetricString m = getMetricString entry.1

theorem Sound.reachable (sound : Sound storage capacity logs) (m : Metric) :
    reachable storage m = logs (getMetricString m) := by
  unfold ConcurrentAdditions.reachable ringOf
  cases known : storage.rings.lookup (getMetricString m) with
  | none => exact (sound.rings.absent known).symm
  | some mr =>
    obtain ⟨ring, holds, _, log⟩ := sound.rings.present known
    simp only [Option.bind_some, holds]
    exact log.reachable

/-- What is entered under a host is listed for it. -/
theorem Sound.listed (sound : Sound storage capacity logs)
    (entered : (hostEntry storage m.getHost (getMetricString m)).isSome) (order : RingOrder) :
    ∃ m' ∈ getMetricsByHost order storage m.getHost, getMetricString m' = getMetricString m := by
  obtain ⟨mr, entry⟩ := Option.isSome_iff_exists.mp entered
  obtain ⟨ring, holds, keyed, _⟩ := sound.rings.present (sound.shared entry)
  exact ⟨ring.m, mem_getMetricsByHost.mpr ⟨_, mr, entry, by simp [metricAt, holds]⟩, keyed⟩

theorem received_eq_filterMap (calls : List Addition) (m : Metric) :
    received calls m = calls.filterMap fun call =>
      if getMetricString call.1 = getMetricString m then some call.2 else none := by
  unfold received
  induction calls with
  | nil => rfl
  | cons call rest ih =>
    rw [List.filterMap_cons, ← ih]
    by_cases own : getMetricString call.1 = getMetricString m
    · simp [own]
    · simp [own]

/-- Once all calls have returned, all their values are stored. -/
theorem Consistent.storedUnder_perm (consistent : Consistent calls capacity old stored state)
    (returned : ∀ i < calls.length, state.progress i = .returned) (m : Metric) :
    (storedUnder calls stored (getMetricString m)).Perm (received calls m) := by
  have everyone : stored.Perm (List.range calls.length) := by
    rw [List.perm_ext_iff_of_nodup consistent.once List.nodup_range]
    intro i
    rw [consistent.counted, List.mem_range]
    exact and_iff_left_of_imp (returned i)
  have values : storedUnder calls (List.range calls.length) (getMetricString m) = received calls m := by
    unfold storedUnder
    rw [← List.filterMap_filterMap, Ring.filterMap_getElem? calls le_rfl, received_eq_filterMap]
  rw [← values]
  exact everyone.filterMap _

/-- **Calls that run at once keep everything**, in a run whose sections act on
what still holds: once all have returned. -/
theorem all_kept (capacity : Nat) (history calls : List Addition) (room : calls.length ≤ capacity)
    (run : List Nat) (current : RunsCurrent calls (begin (storageAfter capacity history)) run) :
    let state := after (step calls) (begin (storageAfter capacity history)) run
    (∀ i < calls.length, state.progress i = .returned) → AllKept calls state.storage := by
  intro state returned
  rcases Nat.eq_zero_or_pos capacity with none | positive
  · have nothing : calls = [] := List.length_eq_zero_iff.mp (by omega)
    subst nothing
    exact ⟨fun m => List.nil_subperm, by simp⟩
  · obtain ⟨stored, consistent⟩ :=
      consistent_run (consistent_begin positive history calls) positive run current
    refine ⟨fun m => ?_, fun entry member order => ?_⟩
    · have values := consistent.storedUnder_perm returned m
      have fits : (storedUnder calls stored (getMetricString m)).length ≤ capacity := by
        rw [values.length_eq, received, List.length_map]
        exact (List.length_filter_le ..).trans room
      rw [consistent.sound.reachable, logOf, List.take_append, List.take_of_length_le fits]
      exact values.symm.subperm.trans (List.sublist_append_left ..).subperm
    · obtain ⟨i, inside, rfl⟩ := List.getElem_of_mem member
      have call : calls[i]? = some (calls[i].1, calls[i].2) := List.getElem?_eq_getElem inside
      have entered := consistent.holds call
      rw [returned i inside] at entered
      exact consistent.sound.listed entered order

/-- A series. -/
def rx : Metric := ⟨"Collectd", "core", [], "rx", METRIC_GAUGE, 0⟩

/-- Its value at a time. -/
def sample (t : Nat) : Addition := (rx, { time := t, value := .int64 0 })

/-- Two calls on a known series, their sections in turn. -/
theorem two_calls_in_turn :
    let start := begin (storageAfter 3 [sample 0])
    let run := [0, 1, 0, 1, 0, 1]
    RunsCurrent [sample 1, sample 2] start run ∧
      AllKept [sample 1, sample 2] (after (step [sample 1, sample 2]) start run).storage := by
  intro start run
  have current : RunsCurrent [sample 1, sample 2] start run := by
    refine ⟨?_, ?_, ?_, ?_, ?_, ?_, trivial⟩
    · rintro _ _ ⟨⟩
      trivial
    · rintro _ _ ⟨⟩
      trivial
    · rintro _ _ ⟨⟩
      rfl
    · rintro _ _ ⟨⟩
      rfl
    · rintro _ _ ⟨⟩ _
      exact ⟨_, rfl, nofun⟩
    · rintro _ _ ⟨⟩ _
      exact ⟨_, rfl, nofun⟩
  refine ⟨current, all_kept 3 [sample 0] [sample 1, sample 2] (Nat.le_succ 2) run current ?_⟩
  intro i inside
  match i with
  | 0 => rfl
  | 1 => rfl
  | i + 2 => exact absurd inside (Nat.not_lt_of_le (Nat.le_add_left 2 i))

/-- Two first calls of one series each find no ring. The later one puts its ring
in the place of the other's, which keeps its value to itself. -/
theorem a_first_value_is_lost :
    ¬ ∀ capacity history calls run, calls.length ≤ capacity →
      let state := after (step calls) (begin (storageAfter capacity history)) run
      (∀ i < calls.length, state.progress i = .returned) → AllKept calls state.storage := by
  intro claimed
  have kept := (claimed 2 [] [sample 1, sample 2] [0, 1, 0, 1, 0, 1, 0, 1] le_rfl fun i inside =>
    match i with
    | 0 => rfl
    | 1 => rfl
    | i + 2 => absurd inside (Nat.not_lt_of_le (Nat.le_add_left 2 i))).1 rx
  exact absurd kept.length_le (Nat.not_succ_le_self 1)
end NetGraphz.ConcurrentAdditions
