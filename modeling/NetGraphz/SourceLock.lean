import NetGraphz.Base.History
import NetGraphz.Base.RWMutex
import NetGraphz.Base.Tally
import NetGraphz.StatusService

/-! The mutex of the sources while calls of the status service run at once. A
batch lookup holds it for reading all along, and asks for it again whenever it
looks for a source by name. A writer that comes in between parks that second
request behind itself, and itself waits for the first one to be given back. -/
namespace NetGraphz.SourceLock
open StatusService

/-- A call on the service. -/
inductive Call where
  | getHostsStatusByName
  | getHostsStatusByIP
  | addSource (source : StateSource)

/-- How far a call is with the mutex. The number is that of the fetches still
to come, each of which begins in `get_source_by_name`. -/
inductive Progress where
  -- a batch lookup: `src_mutex.RLock`, then the loop over the sources
  | asking
  | parked
  | serving (fetches : Nat)
  | searching (fetches : Nat)
  | parkedSearch (fetches : Nat)
  | served
  -- `AddSource`
  | adding (source : StateSource)
  | waiting (source : StateSource)
  | appending (source : StateSource)
  | added

/-- A call that has not begun. Both lookups take the mutex in the same places. -/
def Call.begun : Call → Progress
  | .getHostsStatusByName | .getHostsStatusByIP => .asking
  | .addSource source => .adding source

/-- The service's mutex and sources, and the calls. -/
structure State where
  mutex : RWMutex
  sources : List StateSource
  calls : List Progress

/-- No call has begun. -/
def begin (sources : List StateSource) (calls : List Call) : State :=
  ⟨{}, sources, calls.map Call.begun⟩

/-- One call goes on. -/
def State.move (s : State) (i : Nat) (mutex : RWMutex) (next : Progress) : State :=
  { s with mutex := mutex, calls := s.calls.set i next }

/-- What `Unlock` makes of a call: a parked one has its read lock. Each source
is asked in two fetches. -/
def Progress.resume (sources : List StateSource) : Progress → Progress
  | .parked => .serving (2 * sources.length)
  | .parkedSearch fetches => .searching fetches
  | call => call

/-- The call with the number `i` goes on, if it does not have to wait. An unlock
that fails would end the program, in which then no call goes on. -/
def step (s : State) (i : Nat) : State :=
  match s.calls[i]? with
  | some .asking =>
    s.move i s.mutex.rLock
      (if s.mutex.announced then .parked else .serving (2 * s.sources.length))
  | some (.serving 0) =>
    match s.mutex.rUnlock with
    | .ok mutex => s.move i mutex .served
    | .error _ => s
  | some (.serving (fetches + 1)) =>
    s.move i s.mutex.rLock
      (if s.mutex.announced then .parkedSearch fetches else .searching fetches)
  | some (.searching fetches) =>
    match s.mutex.rUnlock with
    | .ok mutex => s.move i mutex (.serving fetches)
    | .error _ => s
  | some (.adding source) =>
    match s.mutex.announce with
    | some mutex => s.move i mutex (.waiting source)
    | none => s
  | some (.waiting source) =>
    if s.mutex.readers = 0 then s.move i s.mutex (.appending source) else s
  | some (.appending source) =>
    match s.mutex.unlock with
    | .ok mutex =>
      let sources := s.sources ++ [source]
      ⟨mutex, sources, (s.calls.set i .added).map (Progress.resume sources)⟩
    | .error _ => s
  | _ => s

/-- The call has returned. -/
def Progress.Returned : Progress → Prop
  | .served | .added => True
  | _ => False

/-- The call has not returned, and will not get any further whatever the calls
do from now on. -/
def Stuck (s : State) (i : Nat) : Prop :=
  ∃ call, s.calls[i]? = some call ∧ ¬ call.Returned ∧
    ∀ schedule, (after step s schedule).calls[i]? = some call

/-- The read locks a lookup will still ask for while it holds one. -/
def Progress.toCome : Progress → Nat
  | .serving fetches | .searching fetches => fetches
  | .parkedSearch fetches => fetches + 1
  | _ => 0

/-- The call with the number `i` is an `AddSource` that asks for the lock while
some lookup that holds it has still to ask for it again. -/
def CutsOff (s : State) (i : Nat) : Prop :=
  (∃ source, s.calls[i]? = some (.adding source)) ∧ s.mutex.announced = false ∧
    ∃ call ∈ s.calls, 0 < call.toCome

/-! ## What the mutex holds -/

/-- The read locks a call holds. -/
def Progress.readLocks : Progress → Nat
  | .serving _ | .parkedSearch _ => 1
  | .searching _ => 2
  | _ => 0

/-- The read lock it is parked for. -/
def Progress.parkedReads : Progress → Nat
  | .parked | .parkedSearch _ => 1
  | _ => 0

/-- The write lock it holds, or waits for before all others. -/
def Progress.writes : Progress → Nat
  | .waiting _ | .appending _ => 1
  | _ => 0

/-- The write lock it holds. -/
def Progress.appends : Progress → Nat
  | .appending _ => 1
  | _ => 0

/-- The mutex agrees with how far the calls are. -/
structure Consistent (s : State) : Prop where
  readers : s.mutex.readers = tally Progress.readLocks s.calls
  parked : s.mutex.parked = tally Progress.parkedReads s.calls
  writers : s.mutex.announced.toNat = tally Progress.writes s.calls
  opened : s.mutex.announced = false → s.mutex.parked = 0
  alone : 0 < tally Progress.appends s.calls → s.mutex.readers = 0

variable {s : State} {i : Nat} {call next : Progress} {mutex : RWMutex}

theorem consistent_begin (sources : List StateSource) (calls : List Call) :
    Consistent (begin sources calls) := by
  have nothing : ∀ weight : Progress → Nat, (∀ call : Call, weight call.begun = 0) →
      tally weight (calls.map Call.begun) = 0 := by
    intro weight zero
    rw [tally_map, show (fun call : Call => weight call.begun) = fun _ => 0 from funext zero,
      tally_zero]
  constructor
  · exact (nothing _ fun call => by cases call <;> rfl).symm
  · exact (nothing _ fun call => by cases call <;> rfl).symm
  · exact (nothing _ fun call => by cases call <;> rfl).symm
  · intro _
    rfl
  · intro _
    rfl

/-- A call moves on, and the mutex keeps the books. -/
theorem Consistent.move (consistent : Consistent s) (found : s.calls[i]? = some call)
    (readers : mutex.readers + call.readLocks = s.mutex.readers + next.readLocks)
    (parked : mutex.parked + call.parkedReads = s.mutex.parked + next.parkedReads)
    (writers : mutex.announced.toNat + call.writes = s.mutex.announced.toNat + next.writes)
    (opened : mutex.announced = false → mutex.parked = 0)
    (alone : 0 < tally Progress.appends s.calls + next.appends → mutex.readers = 0) :
    Consistent (s.move i mutex next) := by
  have reads := tally_set Progress.readLocks found next
  have parks := tally_set Progress.parkedReads found next
  have writes := tally_set Progress.writes found next
  have appends := tally_set Progress.appends found next
  constructor
  · have before := consistent.readers
    simp only [State.move]
    omega
  · have before := consistent.parked
    simp only [State.move]
    omega
  · have before := consistent.writers
    simp only [State.move]
    omega
  · exact opened
  · intro holding
    apply alone
    simp only [State.move] at holding
    omega

theorem appends_le_writes (calls : List Progress) :
    tally Progress.appends calls ≤ tally Progress.writes calls := by
  apply tally_le
  intro call _
  cases call <;> simp [Progress.appends, Progress.writes]

/-- While no writer has announced itself none holds the lock. -/
theorem Consistent.none_appends (consistent : Consistent s) (quiet : s.mutex.announced = false) :
    tally Progress.appends s.calls = 0 := by
  have fewer := appends_le_writes s.calls
  have writers := consistent.writers
  rw [quiet] at writers
  simp only [Bool.toNat_false] at writers
  omega

/-! ## The steps -/

/-- What a call does that does not have to wait. -/
inductive Goes (s : State) (i : Nat) : State → Prop where
  | ask (found : s.calls[i]? = some .asking) (quiet : s.mutex.announced = false) :
    Goes s i (s.move i { s.mutex with readers := s.mutex.readers + 1 }
      (.serving (2 * s.sources.length)))
  | park (found : s.calls[i]? = some .asking) (announced : s.mutex.announced = true) :
    Goes s i (s.move i { s.mutex with parked := s.mutex.parked + 1 } .parked)
  | finish (found : s.calls[i]? = some (.serving 0)) (held : 0 < s.mutex.readers) :
    Goes s i (s.move i { s.mutex with readers := s.mutex.readers - 1 } .served)
  | search (found : s.calls[i]? = some (.serving (fetches + 1)))
      (quiet : s.mutex.announced = false) :
    Goes s i (s.move i { s.mutex with readers := s.mutex.readers + 1 } (.searching fetches))
  | parkSearch (found : s.calls[i]? = some (.serving (fetches + 1)))
      (announced : s.mutex.announced = true) :
    Goes s i (s.move i { s.mutex with parked := s.mutex.parked + 1 } (.parkedSearch fetches))
  | fetch (found : s.calls[i]? = some (.searching fetches)) (held : 0 < s.mutex.readers) :
    Goes s i (s.move i { s.mutex with readers := s.mutex.readers - 1 } (.serving fetches))
  | announce (found : s.calls[i]? = some (.adding source)) (quiet : s.mutex.announced = false) :
    Goes s i (s.move i { s.mutex with announced := true } (.waiting source))
  | acquire (found : s.calls[i]? = some (.waiting source)) (empty : s.mutex.readers = 0) :
    Goes s i (s.move i s.mutex (.appending source))
  | append (found : s.calls[i]? = some (.appending source)) (announced : s.mutex.announced = true) :
    Goes s i ⟨{ readers := s.mutex.readers + s.mutex.parked }, s.sources ++ [source],
      (s.calls.set i .added).map (Progress.resume (s.sources ++ [source]))⟩

theorem Goes.step (goes : Goes s i s') : step s i = s' := by
  cases goes with
  | ask found quiet => simp [SourceLock.step, found, quiet, RWMutex.rLock]
  | park found announced => simp [SourceLock.step, found, announced, RWMutex.rLock]
  | finish found held => simp [SourceLock.step, found, RWMutex.rUnlock, Nat.ne_of_gt held]
  | search found quiet => simp [SourceLock.step, found, quiet, RWMutex.rLock]
  | parkSearch found announced => simp [SourceLock.step, found, announced, RWMutex.rLock]
  | fetch found held => simp [SourceLock.step, found, RWMutex.rUnlock, Nat.ne_of_gt held]
  | announce found quiet => simp [SourceLock.step, found, quiet, RWMutex.announce]
  | acquire found empty => simp [SourceLock.step, found, empty]
  | append found announced => simp [SourceLock.step, found, announced, RWMutex.unlock]

/-- What a call holds, the mutex has counted. -/
theorem Consistent.readers_pos (consistent : Consistent s) (found : s.calls[i]? = some call)
    (holds : 0 < call.readLocks) : 0 < s.mutex.readers := by
  have counted := le_tally Progress.readLocks (List.mem_of_getElem? found)
  rw [consistent.readers]
  omega

/-- A writer that waits or holds the lock has announced itself. -/
theorem Consistent.announced (consistent : Consistent s) (found : s.calls[i]? = some call)
    (writer : 0 < call.writes) : s.mutex.announced = true := by
  have counted := le_tally Progress.writes (List.mem_of_getElem? found)
  have writers := consistent.writers
  cases quiet : s.mutex.announced with
  | true => rfl
  | false =>
    simp only [quiet, Bool.toNat_false] at writers
    omega

/-- A call waits, or goes on. -/
theorem step_goes (consistent : Consistent s) (i : Nat) : step s i = s ∨ Goes s i (step s i) := by
  have go : ∀ {s'}, Goes s i s' → step s i = s ∨ Goes s i (step s i) := by
    intro s' goes
    right
    rwa [goes.step]
  cases found : s.calls[i]? with
  | none => exact Or.inl (by simp [step, found])
  | some call =>
    cases call with
    | asking =>
      cases announced : s.mutex.announced with
      | false => exact go (.ask found announced)
      | true => exact go (.park found announced)
    | serving fetches =>
      have held : 0 < s.mutex.readers := consistent.readers_pos found Nat.one_pos
      cases fetches with
      | zero => exact go (.finish found held)
      | succ fetches =>
        cases announced : s.mutex.announced with
        | false => exact go (.search found announced)
        | true => exact go (.parkSearch found announced)
    | searching fetches => exact go (.fetch found (consistent.readers_pos found Nat.two_pos))
    | adding source =>
      cases announced : s.mutex.announced with
      | false => exact go (.announce found announced)
      | true => exact Or.inl (by simp [step, found, announced, RWMutex.announce])
    | waiting source =>
      by_cases empty : s.mutex.readers = 0
      · exact go (.acquire found empty)
      · exact Or.inl (by simp [step, found, empty])
    | appending source => exact go (.append found (consistent.announced found Nat.one_pos))
    | parked | parkedSearch | served | added => exact Or.inl (by simp [step, found])

/-- A writer that unlocks lets the parked readers in. -/
theorem Consistent.append (consistent : Consistent s)
    (found : s.calls[i]? = some (.appending source)) :
    Consistent ⟨{ readers := s.mutex.readers + s.mutex.parked }, s.sources ++ [source],
      (s.calls.set i .added).map (Progress.resume (s.sources ++ [source]))⟩ := by
  have resumed : ∀ weight : Progress → Nat, ∀ change : Progress → Nat,
      (∀ call : Progress, weight (call.resume (s.sources ++ [source])) = change call) →
      tally weight ((s.calls.set i .added).map (Progress.resume (s.sources ++ [source]))) =
        tally change (s.calls.set i .added) := by
    intro weight change same
    rw [tally_map, show (fun call => weight (Progress.resume _ call)) = change from funext same]
  have writes := tally_set Progress.writes found .added
  have writers := consistent.writers
  rw [consistent.announced found Nat.one_pos] at writers
  constructor
  · have reads := tally_set Progress.readLocks found .added
    have parks := tally_set Progress.parkedReads found .added
    have both := resumed Progress.readLocks (fun call => call.readLocks + call.parkedReads)
      (fun call => by cases call <;> rfl)
    rw [tally_add] at both
    have before := consistent.readers
    have waiting := consistent.parked
    simp only [both]
    simp only [Progress.readLocks, Progress.parkedReads] at reads parks
    omega
  · have none := resumed Progress.parkedReads (fun _ => 0) (fun call => by cases call <;> rfl)
    simp only [none, tally_zero]
  · have same := resumed Progress.writes Progress.writes (fun call => by cases call <;> rfl)
    simp only [same, Bool.toNat_false]
    simp only [Progress.writes, Bool.toNat_true] at writes writers
    omega
  · intro _
    rfl
  · intro holding
    have same := resumed Progress.appends Progress.appends (fun call => by cases call <;> rfl)
    have fewer := appends_le_writes (s.calls.set i .added)
    simp only [same] at holding
    simp only [Progress.writes, Bool.toNat_true] at writes writers
    omega

/-- The books are kept by every step. -/
theorem consistent_goes (consistent : Consistent s) (goes : Goes s i s') : Consistent s' := by
  have opened := consistent.opened
  have alone := consistent.alone
  have nobody : s.mutex.announced = false → ¬ 0 < tally Progress.appends s.calls := by
    intro quiet holding
    rw [consistent.none_appends quiet] at holding
    cases holding
  cases goes with
  | ask found quiet =>
    exact consistent.move found rfl rfl rfl opened fun holding => absurd holding (nobody quiet)
  | park found announced =>
    exact consistent.move found rfl rfl rfl (fun quiet => by simp [announced] at quiet) alone
  | finish found held =>
    refine consistent.move found (Nat.sub_add_cancel held) rfl rfl opened ?_
    intro holding
    exact absurd (alone holding) (Nat.ne_of_gt held)
  | search found quiet =>
    exact consistent.move found (Nat.add_assoc _ 1 1) rfl rfl opened fun holding =>
      absurd holding (nobody quiet)
  | parkSearch found announced =>
    exact consistent.move found rfl rfl rfl (fun quiet => by simp [announced] at quiet) alone
  | fetch found held =>
    refine consistent.move found ?_ rfl rfl opened ?_
    · simp only [Progress.readLocks]
      omega
    · intro holding
      exact absurd (alone holding) (Nat.ne_of_gt held)
  | announce found quiet =>
    refine consistent.move found rfl rfl ?_ (fun loud => by cases loud) fun holding =>
      absurd holding (nobody quiet)
    rw [quiet]
    rfl
  | acquire found empty =>
    exact consistent.move found rfl rfl rfl opened fun _ => empty
  | append found announced => exact consistent.append found

theorem consistent_step (consistent : Consistent s) (i : Nat) : Consistent (step s i) := by
  rcases step_goes consistent i with waits | goes
  · rwa [waits]
  · exact consistent_goes consistent goes

theorem consistent_after (consistent : Consistent s) (schedule : List Nat) :
    Consistent (after step s schedule) :=
  after_invariant step Consistent consistent (fun _ i kept => consistent_step kept i) schedule

/-! ## When all goes on -/

/-- No lookup has to get past a writer to give back the lock that the writer
waits for. -/
def Safe (s : State) : Prop := s.mutex.announced = true → ∀ call ∈ s.calls, call.toCome = 0

theorem Safe.move (safe : Safe s) (found : s.calls[i]? = some call)
    (same : mutex.announced = s.mutex.announced) (less : next.toCome ≤ call.toCome) :
    Safe (s.move i mutex next) := by
  intro announced other member
  have before := safe (same.symm.trans announced)
  rcases List.mem_or_eq_of_mem_set member with old | rfl
  · exact before other old
  · have none := before call (List.mem_of_getElem? found)
    omega

theorem not_cutsOff (found : s.calls[i]? = some call) (other : ∀ source, call ≠ .adding source) :
    ¬ CutsOff s i := by
  rintro ⟨⟨source, adding⟩, _⟩
  exact other source (Option.some.inj (found.symm.trans adding))

/-- A step keeps all going exactly where no lookup is cut off. -/
theorem safe_step_iff (consistent : Consistent s) (safe : Safe s) (i : Nat) :
    Safe (step s i) ↔ ¬ CutsOff s i := by
  constructor
  · rintro after ⟨⟨source, found⟩, quiet, call, member, pending⟩
    rw [(Goes.announce found quiet).step] at after
    obtain ⟨j, there⟩ := List.mem_iff_getElem?.mp member
    have apart : i ≠ j := by
      rintro rfl
      cases found.symm.trans there
      cases pending
    have kept : call ∈ s.calls.set i (.waiting source) := by
      refine List.mem_of_getElem? (i := j) ?_
      rw [List.getElem?_set_ne apart, there]
    exact absurd (after rfl call kept) (Nat.ne_of_gt pending)
  · intro free
    rcases step_goes consistent i with waits | goes
    · rwa [waits]
    · generalize step s i = s' at goes
      cases goes with
      | ask found quiet => exact fun announced => by simp [State.move, quiet] at announced
      | park found announced => exact safe.move found rfl (Nat.le_refl _)
      | finish found held => exact safe.move found rfl (Nat.le_refl _)
      | search found quiet => exact safe.move found rfl (Nat.le_succ _)
      | parkSearch found announced => exact safe.move found rfl (Nat.le_refl _)
      | fetch found held => exact safe.move found rfl (Nat.le_refl _)
      | announce found quiet =>
        intro _ call member
        rcases List.mem_or_eq_of_mem_set member with old | rfl
        · refine Nat.eq_zero_of_not_pos fun pending => free ⟨⟨_, found⟩, quiet, call, old, pending⟩
        · rfl
      | acquire found empty => exact safe.move found rfl (Nat.le_refl _)
      | append found announced => exact fun loud => by cases loud

/-! ## All calls return -/

theorem readLocks_pos_of_toCome (pending : 0 < call.toCome) : 0 < call.readLocks := by
  cases call with
  | serving | searching | parkedSearch => simp [Progress.readLocks]
  | asking | parked | served | adding | waiting | appending | added => cases pending

/-- Some call has not to wait, and does not cut off a lookup. -/
def SomeGoes (s : State) : Prop := ∃ i s', Goes s i s' ∧ ¬ CutsOff s i

/-- A lookup that holds the lock goes on. -/
theorem holder_goes (consistent : Consistent s) (safe : Safe s) (member : call ∈ s.calls)
    (holds : 0 < call.readLocks) : SomeGoes s := by
  obtain ⟨i, found⟩ := List.mem_iff_getElem?.mp member
  have held := consistent.readers_pos found holds
  refine ⟨i, ?_⟩
  cases call with
  | serving fetches =>
    have free := not_cutsOff found fun source => by simp
    cases fetches with
    | zero => exact ⟨_, .finish found held, free⟩
    | succ fetches =>
      cases announced : s.mutex.announced with
      | false => exact ⟨_, .search found announced, free⟩
      | true => exact ⟨_, .parkSearch found announced, free⟩
  | searching fetches => exact ⟨_, .fetch found held, not_cutsOff found fun source => by simp⟩
  | parkedSearch fetches =>
    have parks := le_tally Progress.parkedReads member
    have parked : 0 < s.mutex.parked := by
      rw [consistent.parked]
      exact parks
    cases announced : s.mutex.announced with
    | false => exact absurd (consistent.opened announced) (Nat.ne_of_gt parked)
    | true => cases safe announced _ member
  | asking | parked | served | adding | waiting | appending | added => cases holds

/-- Some writer waits or holds the lock, when one has announced itself. -/
theorem Consistent.exists_writer (consistent : Consistent s)
    (announced : s.mutex.announced = true) : ∃ call ∈ s.calls, 0 < call.writes := by
  have writers := consistent.writers
  rw [announced, Bool.toNat_true] at writers
  exact tally_pos_iff.mp (by omega)

/-- The writer that has announced itself goes on once no lookup holds the lock. -/
theorem writer_goes (consistent : Consistent s) (announced : s.mutex.announced = true)
    (empty : s.mutex.readers = 0) : SomeGoes s := by
  obtain ⟨call, member, writer⟩ := consistent.exists_writer announced
  obtain ⟨i, found⟩ := List.mem_iff_getElem?.mp member
  refine ⟨i, ?_⟩
  cases call with
  | waiting source => exact ⟨_, .acquire found empty, not_cutsOff found fun source => by simp⟩
  | appending source =>
    exact ⟨_, .append found announced, not_cutsOff found fun source => by simp⟩
  | asking | parked | serving | searching | parkedSearch | served | adding | added =>
    cases writer

/-- A call begins while nobody holds the lock or waits for it. -/
theorem beginner_goes (consistent : Consistent s) (quiet : s.mutex.announced = false)
    (nobody : ¬ ∃ call ∈ s.calls, 0 < call.readLocks) (member : call ∈ s.calls)
    (unfinished : ¬ call.Returned) : SomeGoes s := by
  obtain ⟨i, found⟩ := List.mem_iff_getElem?.mp member
  refine ⟨i, ?_⟩
  cases call with
  | asking => exact ⟨_, .ask found quiet, not_cutsOff found fun source => by simp⟩
  | adding source =>
    refine ⟨_, .announce found quiet, ?_⟩
    rintro ⟨_, _, other, there, pending⟩
    exact nobody ⟨other, there, readLocks_pos_of_toCome pending⟩
  | parked =>
    have parks := le_tally Progress.parkedReads member
    rw [← consistent.parked, consistent.opened quiet] at parks
    cases parks
  | serving | searching | parkedSearch =>
    exact absurd ⟨_, member, by simp [Progress.readLocks]⟩ nobody
  | waiting source => cases quiet.symm.trans (consistent.announced found Nat.one_pos)
  | appending source => cases quiet.symm.trans (consistent.announced found Nat.one_pos)
  | served | added => exact absurd trivial unfinished

theorem some_goes (consistent : Consistent s) (safe : Safe s)
    (unfinished : ∃ call ∈ s.calls, ¬ call.Returned) : SomeGoes s := by
  by_cases holder : ∃ call ∈ s.calls, 0 < call.readLocks
  · obtain ⟨call, member, holds⟩ := holder
    exact holder_goes consistent safe member holds
  · cases announced : s.mutex.announced with
    | true =>
      have empty : s.mutex.readers = 0 := by
        rw [consistent.readers]
        exact Nat.eq_zero_of_not_pos fun some => holder (tally_pos_iff.mp some)
      exact writer_goes consistent announced empty
    | false =>
      obtain ⟨call, member, unfinished⟩ := unfinished
      exact beginner_goes consistent announced holder member unfinished

/-- A lookup that does not hold the lock yet. -/
def Progress.unbegun : Progress → Nat
  | .asking | .parked => 1
  | _ => 0

/-- The steps that are left to a call, as long as no new lookup gets the lock. -/
def Progress.work : Progress → Nat
  | .asking | .appending _ => 1
  | .serving fetches => 3 * fetches + 1
  | .searching fetches | .parkedSearch fetches => 3 * fetches + 2
  | .waiting _ => 2
  | .adding _ => 3
  | .parked | .served | .added => 0

/-- A lookup gets the lock, or there is less left to do. -/
def Nearer (s' s : State) : Prop :=
  tally Progress.unbegun s'.calls < tally Progress.unbegun s.calls ∨
    tally Progress.unbegun s'.calls = tally Progress.unbegun s.calls ∧
      tally Progress.work s'.calls < tally Progress.work s.calls

theorem nearer_move (found : s.calls[i]? = some call)
    (nearer : next.unbegun < call.unbegun ∨ next.unbegun = call.unbegun ∧ next.work < call.work) :
    Nearer (s.move i mutex next) s := by
  have unbegun := tally_set Progress.unbegun found next
  have work := tally_set Progress.work found next
  simp only [Nearer, State.move]
  omega

/-- The lookup parked before it got the lock. -/
def Progress.parkedFirst : Progress → Nat
  | .parked => 1
  | _ => 0

/-- A writer that unlocks has done its work, and parked lookups get the lock. -/
theorem nearer_append (found : s.calls[i]? = some (.appending source))
    (sources : List StateSource) :
    Nearer ⟨mutex, sources, (s.calls.set i .added).map (Progress.resume sources)⟩ s := by
  have unbegun := tally_set Progress.unbegun found .added
  have work := tally_set Progress.work found .added
  simp only [Progress.unbegun, Progress.work] at unbegun work
  simp only [Nearer, tally_map]
  have left : tally Progress.unbegun (s.calls.set i .added) =
      tally (fun call => (call.resume sources).unbegun) (s.calls.set i .added) +
        tally Progress.parkedFirst (s.calls.set i .added) := by
    rw [← tally_add]
    exact congrArg (tally · _) (funext fun call => by cases call <;> rfl)
  by_cases parked : 0 < tally Progress.parkedFirst (s.calls.set i .added)
  · left
    omega
  · right
    have less : tally (fun call => (call.resume sources).work) (s.calls.set i .added) ≤
        tally Progress.work (s.calls.set i .added) := by
      apply tally_le
      intro call member
      cases call with
      | parked => exact absurd (tally_pos_iff.mpr ⟨_, member, Nat.one_pos⟩) parked
      | _ => exact Nat.le_refl _
    omega

theorem nearer_goes (goes : Goes s i s') : Nearer s' s := by
  cases goes with
  | ask found quiet => exact nearer_move found (Or.inl Nat.one_pos)
  | park found announced => exact nearer_move found (Or.inr ⟨rfl, Nat.one_pos⟩)
  | finish found held => exact nearer_move found (Or.inr ⟨rfl, Nat.one_pos⟩)
  | search found quiet =>
    exact nearer_move found (Or.inr ⟨rfl, by simp only [Progress.work]; omega⟩)
  | parkSearch found announced =>
    exact nearer_move found (Or.inr ⟨rfl, by simp only [Progress.work]; omega⟩)
  | fetch found held => exact nearer_move found (Or.inr ⟨rfl, Nat.lt_succ_self _⟩)
  | announce found quiet => exact nearer_move found (Or.inr ⟨rfl, Nat.lt_succ_self _⟩)
  | acquire found empty => exact nearer_move found (Or.inr ⟨rfl, Nat.lt_succ_self _⟩)
  | append found announced => exact nearer_append found _

/-- Where no lookup is cut off, the calls can all be brought to return. -/
theorem all_return (s : State) (consistent : Consistent s) (safe : Safe s) :
    ∃ schedule, ∀ call ∈ (after step s schedule).calls, call.Returned := by
  by_cases returned : ∀ call ∈ s.calls, call.Returned
  · exact ⟨[], returned⟩
  · have unfinished : ∃ call ∈ s.calls, ¬ call.Returned := by
      simpa only [not_forall, exists_prop] using returned
    obtain ⟨i, s', goes, free⟩ := some_goes consistent safe unfinished
    have nearer := nearer_goes goes
    have kept := consistent_goes consistent goes
    have safe' : Safe s' := by
      have same := (safe_step_iff consistent safe i).mpr free
      rwa [goes.step] at same
    obtain ⟨schedule, done⟩ := all_return s' kept safe'
    refine ⟨i :: schedule, ?_⟩
    rwa [after, List.foldl_cons, goes.step]
  termination_by (tally Progress.unbegun s.calls, tally Progress.work s.calls)
  decreasing_by
    rcases nearer with fewer | ⟨same, less⟩
    · exact .left _ _ fewer
    · rw [same]
      exact .right _ less

/-- No call is stuck then. -/
theorem not_stuck (consistent : Consistent s) (safe : Safe s) (i : Nat) : ¬ Stuck s i := by
  rintro ⟨call, found, unfinished, stays⟩
  obtain ⟨schedule, returned⟩ := all_return s consistent safe
  exact unfinished (returned call (List.mem_of_getElem? (stays schedule)))

/-! ## No call returns -/

/-- A writer waits for a lookup that is behind it. -/
structure Barred (s : State) (i : Nat) (source : StateSource) : Prop where
  consistent : Consistent s
  waiting : s.calls[i]? = some (.waiting source)
  announced : s.mutex.announced = true
  pending : ∃ call ∈ s.calls, 0 < call.toCome

theorem Barred.readers_pos (barred : Barred s i source) : 0 < s.mutex.readers := by
  obtain ⟨call, member, pending⟩ := barred.pending
  obtain ⟨j, found⟩ := List.mem_iff_getElem?.mp member
  exact barred.consistent.readers_pos found (readLocks_pos_of_toCome pending)

theorem Barred.move (barred : Barred s i source) (found : s.calls[j]? = some call)
    (other : call ≠ .waiting source) (kept : Consistent (s.move j mutex next))
    (announced : mutex.announced = true) (pending : call.toCome = next.toCome) :
    Barred (s.move j mutex next) i source := by
  have apart : j ≠ i := by
    rintro rfl
    exact other (Option.some.inj (found.symm.trans barred.waiting))
  refine ⟨kept, ?_, announced, ?_⟩
  · simp only [State.move]
    rw [List.getElem?_set_ne apart, barred.waiting]
  · obtain ⟨blocked, member, some⟩ := barred.pending
    obtain ⟨k, there⟩ := List.mem_iff_getElem?.mp member
    by_cases own : j = k
    · subst own
      cases found.symm.trans there
      have inside := (List.getElem?_eq_some_iff.mp found).1
      exact ⟨next, List.mem_of_getElem? (List.getElem?_set_self inside), pending ▸ some⟩
    · refine ⟨blocked, List.mem_of_getElem? (i := k) ?_, some⟩
      simp only [State.move]
      rw [List.getElem?_set_ne own, there]

theorem Barred.step (barred : Barred s i source) (j : Nat) : Barred (step s j) i source := by
  rcases step_goes barred.consistent j with waits | goes
  · rwa [waits]
  · have kept := consistent_goes barred.consistent goes
    have announced := barred.announced
    have held := barred.readers_pos
    generalize SourceLock.step s j = s' at goes kept
    cases goes with
    | ask found quiet => cases announced.symm.trans quiet
    | park found announced => exact barred.move found (by simp) kept announced rfl
    | finish found _ => exact barred.move found (by simp) kept announced rfl
    | search found quiet => cases announced.symm.trans quiet
    | parkSearch found announced => exact barred.move found (by simp) kept announced rfl
    | fetch found _ => exact barred.move found (by simp) kept announced rfl
    | announce found quiet => cases announced.symm.trans quiet
    | acquire found empty => exact absurd empty (Nat.ne_of_gt held)
    | append found _ =>
      have holding : 0 < tally Progress.appends s.calls :=
        tally_pos_iff.mpr ⟨_, List.mem_of_getElem? found, Nat.one_pos⟩
      exact absurd (barred.consistent.alone holding) (Nat.ne_of_gt held)

/-- The writer that has cut off a lookup waits for ever. -/
theorem Barred.stuck (barred : Barred s i source) : Stuck s i := by
  refine ⟨_, barred.waiting, id, fun schedule => ?_⟩
  exact (after_invariant SourceLock.step (Barred · i source) barred (fun _ j kept => kept.step j)
    schedule).waiting

/-- A call is stuck exactly where a lookup has to get past a waiting writer. -/
theorem none_stuck_iff (consistent : Consistent s) : (∀ i, ¬ Stuck s i) ↔ Safe s := by
  constructor
  · intro free announced call member
    apply Nat.eq_zero_of_not_pos
    intro pending
    obtain ⟨writer, there, writes⟩ := consistent.exists_writer announced
    obtain ⟨i, found⟩ := List.mem_iff_getElem?.mp there
    cases writer with
    | waiting source =>
      have barred : Barred s i source := ⟨consistent, found, announced, call, member, pending⟩
      exact free i barred.stuck
    | appending source =>
      have holding : 0 < tally Progress.appends s.calls :=
        tally_pos_iff.mpr ⟨_, there, Nat.one_pos⟩
      obtain ⟨j, there'⟩ := List.mem_iff_getElem?.mp member
      have held := consistent.readers_pos there' (readLocks_pos_of_toCome pending)
      exact absurd (consistent.alone holding) (Nat.ne_of_gt held)
    | asking | parked | serving | searching | parkedSearch | served | adding | added =>
      cases writes
  · intro safe i
    exact not_stuck consistent safe i

/-- **Every call can go on as long as no writer comes between the read locks of
a lookup.** Otherwise that writer never gets the lock. -/
theorem no_call_stuck_iff (sources : List StateSource) (calls : List Call) (history : List Nat) :
    (∀ past, past <+: history → ∀ i, ¬ Stuck (after step (begin sources calls) past) i) ↔
      ∀ past i, past ++ [i] <+: history → ¬ CutsOff (after step (begin sources calls) past) i := by
  have consistent := consistent_after (consistent_begin sources calls)
  simp only [none_stuck_iff (consistent _)]
  refine throughout_iff_each_step (fun past => Safe (after step (begin sources calls) past)) _ ?_ ?_
    history
  · exact fun announced => by cases announced
  · intro past i safe
    rw [after_concat]
    exact safe_step_iff (consistent past) safe i

/-- A source that answers nothing. -/
def silent : StateSource := ⟨"icinga", fun _ _ => .ok []⟩

/-- One lookup of one source, and one more source added once the lookup has the
lock. -/
theorem lookup_and_addition_deadlock : ¬ ∀ (sources : List StateSource) (calls : List Call)
    (history : List Nat) (i : Nat), ¬ Stuck (after step (begin sources calls) history) i := by
  intro claimed
  have start := consistent_begin [silent] [.getHostsStatusByName, .addSource silent]
  have barred : Barred (after step (begin [silent] [.getHostsStatusByName, .addSource silent])
      [0, 1]) 1 silent :=
    ⟨consistent_after start _, rfl, rfl, .serving 2, List.mem_cons_self, Nat.two_pos⟩
  exact claimed _ _ _ _ barred.stuck

end NetGraphz.SourceLock
