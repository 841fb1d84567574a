import Mathlib
import NetGraphz.ConcurrentLookups
import NetGraphz.StateCacheProofs

/-! Where a served state comes from, when any number of calls run at once on
one cache: from an answer to the call itself, or from an answer to some call
that reached the cache before this one read it, with an age that this call
found short enough or could not refresh. -/
namespace NetGraphz.LookupOrigins
open StateCache StateCacheProofs ConcurrentLookups

variable (ttl : Duration)

/-- The cache and the calls after a history, from a new cache. -/
def servingAfter (history : List Event) : Serving :=
  after (step ttl) ⟨newMemoryStateCache, []⟩ history

theorem servingAfter_concat (past : List Event) (event : Event) :
    servingAfter ttl (past ++ [event]) = step ttl (servingAfter ttl past) event :=
  after_concat _ _ _ _

/-- At this point of a history the call at a position was there, and went on. -/
structure WentOn (history past : List Event) (i : Nat) (reading : Time)
    (answer : Except String (List HostState)) (call : Call) : Prop where
  within : past ++ [.goOn i reading answer] <+: history
  there : (servingAfter ttl past).calls[i]? = some call
  active : call.sources ≠ []

/-- A source answered a fetch of the call with this state among others. -/
def Answered (history : List Event) (i : Nat) (state : HostState) : Prop :=
  ∃ past reading states call round lookups,
    WentOn ttl history past i reading (.ok states) call ∧
      call.stage = .asking round lookups ∧ state ∈ states

/-- The state was answered to some call, which then read the clock for it. -/
def Stamped (history : List Event) (state : HostState) (timestamp : Time) : Prop :=
  ∃ past j answer call round lookups states rest,
    WentOn ttl history past j timestamp answer call ∧
      call.stage = .putting round lookups states (state :: rest) ∧ Answered ttl past j state

/-- The call read the state in the cache as one of the source it was serving,
and found it this old. -/
def Aged (history : List Event) (i : Nat) (state : HostState) (age : Duration) : Prop :=
  ∃ past reading answer call timestamp rest lookups,
    WentOn ttl history past i reading answer call ∧
      call.stage = .aging ⟨state, timestamp⟩ rest lookups ∧
      call.sources.head? = some state.source ∧ Stamped ttl past state timestamp ∧
      age = reading.sub timestamp

/-- The call's attempt to refresh the state failed, with its own source. -/
def RefreshFailed (history : List Event) (i : Nat) (state : HostState) : Prop :=
  ∃ past reading err call lookups,
    WentOn ttl history past i reading (.error err) call ∧
      call.stage = .asking .refresh lookups ∧ call.sources.head? = some state.source ∧
      state ∈ lookups.cacheExpired

/-- What a call may list. -/
def Accounted (history : List Event) (i : Nat) (state : HostState) : Prop :=
  Answered ttl history i state ∨
    (∃ age, Aged ttl history i state age ∧ age ≤ ttl) ∨
    ∃ age, Aged ttl history i state age ∧ ttl < age ∧ RefreshFailed ttl history i state

variable {ttl} {past history : List Event}

/-! ## What has happened stays so -/

theorem WentOn.later (went : WentOn ttl past before i reading answer call)
    (within : past <+: history) : WentOn ttl history before i reading answer call :=
  ⟨went.within.trans within, went.there, went.active⟩

theorem Answered.later (answered : Answered ttl past i state) (within : past <+: history) :
    Answered ttl history i state := by
  obtain ⟨before, reading, states, call, round, lookups, went, asking, member⟩ := answered
  exact ⟨before, reading, states, call, round, lookups, went.later within, asking, member⟩

theorem Stamped.later (put : Stamped ttl past state timestamp) (within : past <+: history) :
    Stamped ttl history state timestamp := by
  obtain ⟨before, j, answer, call, round, lookups, states, rest, went, putting, answered⟩ := put
  exact ⟨before, j, answer, call, round, lookups, states, rest, went.later within, putting, answered⟩

theorem Aged.later (aged : Aged ttl past i state age) (within : past <+: history) :
    Aged ttl history i state age := by
  obtain ⟨before, reading, answer, call, timestamp, rest, lookups, went, aging⟩ := aged
  exact ⟨before, reading, answer, call, timestamp, rest, lookups, went.later within, aging⟩

theorem RefreshFailed.later (failed : RefreshFailed ttl past i state) (within : past <+: history) :
    RefreshFailed ttl history i state := by
  obtain ⟨before, reading, err, call, lookups, went, asking⟩ := failed
  exact ⟨before, reading, err, call, lookups, went.later within, asking⟩

theorem Accounted.later (accounted : Accounted ttl past i state) (within : past <+: history) :
    Accounted ttl history i state := by
  rcases accounted with answered | ⟨age, aged, recent⟩ | ⟨age, aged, old, failed⟩
  · exact .inl (answered.later within)
  · exact .inr (.inl ⟨age, aged.later within, recent⟩)
  · exact .inr (.inr ⟨age, aged.later within, old, failed.later within⟩)

/-! ## What each stage holds -/

variable (ttl) (history)

/-- The lists of a pass over the keys. -/
structure LookupsSound (i : Nat) (source : String) (lookups : Lookups) : Prop where
  found : ∀ state ∈ lookups.cacheFound, ∃ age, Aged ttl history i state age ∧ age ≤ ttl
  expired : ∀ state ∈ lookups.cacheExpired,
    (∃ age, Aged ttl history i state age ∧ ttl < age) ∧ state.source = source

def StageSound (i : Nat) (source : String) : Stage → Prop
  | .looking _ lookups => LookupsSound ttl history i source lookups
  | .aging cacheRec _ lookups =>
    LookupsSound ttl history i source lookups ∧ cacheRec.state.source = source ∧
      Stamped ttl history cacheRec.state cacheRec.time
  | .asking _ lookups => LookupsSound ttl history i source lookups
  | .putting _ lookups states rest =>
    LookupsSound ttl history i source lookups ∧ (∀ state ∈ states, Answered ttl history i state) ∧
      ∀ state ∈ rest, Answered ttl history i state
  | .adding _ lookups states state timestamp rest =>
    LookupsSound ttl history i source lookups ∧ (∀ state ∈ states, Answered ttl history i state) ∧
      (∀ state ∈ rest, Answered ttl history i state) ∧ Stamped ttl history state timestamp

structure CallSound (i : Nat) (call : Call) : Prop where
  listed : ∀ state ∈ call.listed, Accounted ttl history i state
  stage : ∀ source later, call.sources = source :: later → StageSound ttl history i source call.stage

/-- The invariant. Every record of the cache is an answer that was put there. -/
structure Sound (serving : Serving) : Prop where
  indexed : Indexed serving.cache
  cached : ∀ hostName source record, getByName serving.cache hostName source = some record →
    Stamped ttl history record.state record.time
  calls : ∀ i call, serving.calls[i]? = some call → CallSound ttl history i call

variable {ttl} {history}

theorem LookupsSound.later (sound : LookupsSound ttl past i source lookups)
    (within : past <+: history) : LookupsSound ttl history i source lookups := by
  constructor
  · intro state member
    obtain ⟨age, aged, recent⟩ := sound.found state member
    exact ⟨age, aged.later within, recent⟩
  · intro state member
    obtain ⟨⟨age, aged, old⟩, own⟩ := sound.expired state member
    exact ⟨⟨age, aged.later within, old⟩, own⟩

theorem StageSound.later (sound : StageSound ttl past i source stage) (within : past <+: history) :
    StageSound ttl history i source stage := by
  cases stage with
  | looking rest lookups => exact LookupsSound.later sound within
  | aging cacheRec rest lookups =>
    obtain ⟨lookups, own, put⟩ := sound
    exact ⟨lookups.later within, own, put.later within⟩
  | asking round lookups => exact LookupsSound.later sound within
  | putting round lookups states rest =>
    obtain ⟨lookups, states, rest⟩ := sound
    exact ⟨lookups.later within, fun state member => (states state member).later within,
      fun state member => (rest state member).later within⟩
  | adding round lookups states state timestamp rest =>
    obtain ⟨lookups, states, rest, put⟩ := sound
    exact ⟨lookups.later within, fun state member => (states state member).later within,
      fun state member => (rest state member).later within, put.later within⟩

theorem CallSound.later (sound : CallSound ttl past i call) (within : past <+: history) :
    CallSound ttl history i call :=
  ⟨fun state member => (sound.listed state member).later within,
    fun source later serving => (sound.stage source later serving).later within⟩

theorem lookupsSound_none (ttl : Duration) (history : List Event) (i : Nat) (source : String) :
    LookupsSound ttl history i source {} :=
  ⟨by simp, by simp⟩

/-! ## One section -/

/-- A record that a key leads to is of the source, and was answered to a call. -/
theorem Sound.record (sound : Sound ttl history serving) {key : Key}
    (found : key.record serving.cache source = some cacheRec) :
    cacheRec.state.source = source ∧ Stamped ttl history cacheRec.state cacheRec.time := by
  cases key with
  | name hostName =>
    exact ⟨(sound.indexed.getByName_keyed found).2, sound.cached _ _ _ found⟩
  | address ip =>
    obtain ⟨own, named, _⟩ := sound.indexed.getByIP_named found
    exact ⟨own, sound.cached _ _ _ named⟩

theorem LookupsSound.judge (sound : LookupsSound ttl history i source lookups) (kind : LookupKind)
    (aged : Aged ttl history i cacheRec.state (Time.sub reading cacheRec.time))
    (own : cacheRec.state.source = source) :
    LookupsSound ttl history i source (lookups.judge kind ttl reading cacheRec) := by
  unfold Lookups.judge
  split
  · rename_i old
    refine ⟨sound.found, ?_⟩
    intro state member
    rcases List.mem_append.mp member with before | now
    · exact sound.expired state before
    · cases List.mem_singleton.mp now
      exact ⟨⟨_, aged, old⟩, own⟩
  · rename_i recent
    refine ⟨?_, sound.expired⟩
    intro state member
    rcases List.mem_append.mp member with before | now
    · exact sound.found state before
    · cases List.mem_singleton.mp now
      exact ⟨_, aged, Int.not_lt.mp recent⟩

section
variable {call : Call} {i : Nat} {reading : Time} {source : String} {later : List String}
  {lookups : Lookups}

theorem callSound_serving (serving : call.sources = source :: later)
    (listed : ∀ state ∈ call.listed, Accounted ttl history i state)
    (stage : StageSound ttl history i source call.stage) : CallSound ttl history i call := by
  refine ⟨listed, fun own others same => ?_⟩
  cases serving.symm.trans same
  exact stage

/-- What a call does next it does with what its pass brought, or afresh. -/
theorem callSound_next (serving : call.sources = source :: later)
    (listed : ∀ state ∈ call.listed, Accounted ttl history i state)
    (sound : LookupsSound ttl history i source lookups) (round : Round) :
    CallSound ttl history i (call.next later lookups round) := by
  cases round with
  | refresh => exact callSound_serving serving listed sound
  | fetch => exact ⟨listed, fun own _ _ => lookupsSound_none ttl history i own⟩

/-- What a failed fetch lists, this section being the answer to it. -/
theorem accounted_instead {err : String} {round : Round}
    (went : WentOn ttl history past i reading (.error err) call)
    (asking : call.stage = .asking round lookups) (serving : call.sources = source :: later)
    (sound : LookupsSound ttl history i source lookups) :
    ∀ state ∈ lookups.instead round, Accounted ttl history i state := by
  intro state member
  cases round with
  | fetch => cases member
  | refresh =>
    obtain ⟨⟨age, aged, old⟩, own⟩ := sound.expired state member
    refine .inr (.inr ⟨age, aged, old, past, reading, err, call, lookups, went, asking, ?_, member⟩)
    rw [serving, own]
    rfl

theorem accounted_append {listed states : List HostState}
    (before : ∀ state ∈ listed, Accounted ttl history i state)
    (added : ∀ state ∈ states, Accounted ttl history i state) :
    ∀ state ∈ listed ++ states, Accounted ttl history i state := by
  intro state member
  rcases List.mem_append.mp member with earlier | new
  · exact before state earlier
  · exact added state new

/-- **A section keeps what its call holds accounted for.** -/
theorem callSound_goOn {answer : Except String (List HostState)}
    (sound : Sound ttl past (servingAfter ttl past))
    (there : (servingAfter ttl past).calls[i]? = some call) :
    CallSound ttl (past ++ [.goOn i reading answer]) i
      (call.goOn ttl reading answer (servingAfter ttl past).cache).2 := by
  have within : past <+: past ++ [.goOn i reading answer] := List.prefix_append past _
  have before := (sound.calls i call there).later within
  cases serving : call.sources with
  | nil =>
    simp only [Call.goOn, serving]
    exact before
  | cons source later =>
    have went : WentOn ttl (past ++ [.goOn i reading answer]) past i reading answer call :=
      ⟨List.prefix_refl _, there, by simp [serving]⟩
    have held := before.stage source later serving
    cases stage : call.stage with
    | looking rest lookups =>
      rw [stage] at held
      cases rest with
      | nil =>
        simp only [Call.goOn, serving, stage]
        exact callSound_serving rfl
          (accounted_append before.listed fun state member => .inr (.inl (held.found state member)))
          held
      | cons key rest =>
        cases found : key.record (servingAfter ttl past).cache source with
        | none =>
          have missed : LookupsSound ttl (past ++ [.goOn i reading answer]) i source
              (lookups.miss key) := ⟨held.found, held.expired⟩
          simp only [Call.goOn, serving, stage, found]
          exact callSound_serving rfl before.listed missed
        | some cacheRec =>
          obtain ⟨own, put⟩ := sound.record found
          simp only [Call.goOn, serving, stage, found]
          exact callSound_serving rfl before.listed ⟨held, own, put.later within⟩
    | aging cacheRec rest lookups =>
      rw [stage] at held
      obtain ⟨looked, own, _⟩ := held
      obtain ⟨_, _, put⟩ : StageSound ttl past i source (.aging cacheRec rest lookups) :=
        stage ▸ (sound.calls i call there).stage source later serving
      have aged : Aged ttl (past ++ [.goOn i reading answer]) i cacheRec.state
          (reading.sub cacheRec.time) :=
        ⟨past, reading, answer, call, cacheRec.time, rest, lookups, went, stage,
          by rw [serving, own]; rfl, put, rfl⟩
      simp only [Call.goOn, serving, stage]
      exact callSound_serving rfl before.listed (looked.judge call.kind aged own)
    | asking round lookups =>
      rw [stage] at held
      cases answer with
      | error err =>
        simp only [Call.goOn, serving, stage]
        exact callSound_next rfl
          (accounted_append before.listed (accounted_instead went stage serving held)) held round
      | ok states =>
        have answered : ∀ state ∈ states, Answered ttl (past ++ [.goOn i reading (.ok states)]) i state :=
          fun state member => ⟨past, reading, states, call, round, lookups, went, stage, member⟩
        simp only [Call.goOn, serving, stage]
        exact callSound_serving rfl before.listed ⟨held, answered, answered⟩
    | putting round lookups states rest =>
      rw [stage] at held
      obtain ⟨looked, answered, left⟩ := held
      cases rest with
      | nil =>
        simp only [Call.goOn, serving, stage]
        exact callSound_next rfl
          (accounted_append before.listed fun state member => .inl (answered state member)) looked round
      | cons state rest =>
        obtain ⟨_, _, left'⟩ : StageSound ttl past i source
            (.putting round lookups states (state :: rest)) :=
          stage ▸ (sound.calls i call there).stage source later serving
        have put : Stamped ttl (past ++ [.goOn i reading answer]) state reading :=
          ⟨past, i, answer, call, round, lookups, states, rest, went, stage,
            left' state List.mem_cons_self⟩
        simp only [Call.goOn, serving, stage]
        exact callSound_serving rfl before.listed
          ⟨looked, answered, fun other member => left other (List.mem_cons_of_mem _ member), put⟩
    | adding round lookups states state timestamp rest =>
      rw [stage] at held
      obtain ⟨looked, answered, left, _⟩ := held
      simp only [Call.goOn, serving, stage]
      exact callSound_serving rfl before.listed ⟨looked, answered, left⟩

/-- The cache changes in one section only, by the answer that is added. -/
theorem goOn_cache (call : Call) (answer : Except String (List HostState))
    (cache : MemoryStateCache) :
    (call.goOn ttl reading answer cache).1 = cache ∨
      ∃ source later round lookups states state timestamp rest,
        call.sources = source :: later ∧
        call.stage = .adding round lookups states state timestamp rest ∧
        (call.goOn ttl reading answer cache).1 = update cache (state, timestamp) := by
  cases serving : call.sources with
  | nil => simp [Call.goOn, serving]
  | cons source later =>
    cases stage : call.stage with
    | looking rest lookups =>
      cases rest with
      | nil => simp [Call.goOn, serving, stage]
      | cons key rest =>
        cases found : key.record cache source <;> simp [Call.goOn, serving, stage, found]
    | aging cacheRec rest lookups => simp [Call.goOn, serving, stage]
    | asking round lookups => cases answer <;> simp [Call.goOn, serving, stage]
    | putting round lookups states rest => cases rest <;> simp [Call.goOn, serving, stage]
    | adding round lookups states state timestamp rest =>
      exact .inr ⟨source, later, round, lookups, states, state, timestamp, rest, rfl, rfl,
        by simp [Call.goOn, serving, stage]⟩

/-- **A section keeps the cache accounted for.** -/
theorem cacheSound_goOn (reading : Time) (answer : Except String (List HostState))
    (sound : Sound ttl past (servingAfter ttl past))
    (there : (servingAfter ttl past).calls[i]? = some call) :
    let cache := (call.goOn ttl reading answer (servingAfter ttl past).cache).1
    Indexed cache ∧ ∀ hostName source record, getByName cache hostName source = some record →
      Stamped ttl past record.state record.time := by
  intro cache
  rcases goOn_cache call answer (servingAfter ttl past).cache with
    same | ⟨source, later, round, lookups, states, state, timestamp, rest, serving, stage, added⟩
  · rw [show cache = _ from same]
    exact ⟨sound.indexed, sound.cached⟩
  · rw [show cache = _ from added]
    obtain ⟨_, _, _, put⟩ : StageSound ttl past i source
        (.adding round lookups states state timestamp rest) :=
      stage ▸ (sound.calls i call there).stage source later serving
    refine ⟨indexed_update _ _ sound.indexed, fun hostName own record found => ?_⟩
    rw [sound.indexed.getByName_update] at found
    split at found
    · cases found
      exact put
    · exact sound.cached hostName own record found

end

/-! ## Whole runs -/

/-- **Every event keeps everything accounted for.** -/
theorem sound_step (sound : Sound ttl past (servingAfter ttl past)) (event : Event) :
    Sound ttl (past ++ [event]) (step ttl (servingAfter ttl past) event) := by
  have within : past <+: past ++ [event] := List.prefix_append past _
  have others : ∀ i call, (servingAfter ttl past).calls[i]? = some call →
      CallSound ttl (past ++ [event]) i call := fun i call there => (sound.calls i call there).later within
  have cached := fun hostName source record found =>
    (sound.cached hostName source record found).later within
  cases event with
  | call kind requested sources =>
    refine ⟨sound.indexed, cached, fun i call there => ?_⟩
    rcases Nat.lt_or_ge i (servingAfter ttl past).calls.length with earlier | new
    · rw [step, List.getElem?_append_left earlier] at there
      exact others i call there
    · rw [step, List.getElem?_append_right new] at there
      obtain rfl := List.mem_singleton.mp (List.mem_of_getElem? there)
      exact ⟨by simp [begin], fun own _ _ => lookupsSound_none ttl _ i own⟩
  | goOn i reading answer =>
    cases there : (servingAfter ttl past).calls[i]? with
    | none =>
      simp only [step, there]
      exact ⟨sound.indexed, cached, others⟩
    | some call =>
      obtain ⟨indexed, added⟩ := cacheSound_goOn reading answer sound there
      simp only [step, there]
      refine ⟨indexed, fun hostName source record found => (added _ _ _ found).later within, ?_⟩
      intro j call' there'
      rw [List.getElem?_set] at there'
      split at there'
      · rename_i same
        subst same
        rw [if_pos (List.getElem?_eq_some_iff.mp there).1, Option.some.injEq] at there'
        subst there'
        exact callSound_goOn sound there
      · exact others j call' there'

/-- **So does every run.** -/
theorem sound_run (ttl : Duration) (history : List Event) :
    Sound ttl history (servingAfter ttl history) := by
  refine history_induction (fun history => Sound ttl history (servingAfter ttl history)) ?_ ?_ history
  · exact ⟨indexed_new, by simp [servingAfter, newMemoryStateCache, getByName],
      by simp [servingAfter]⟩
  · intro past event sound
    rw [servingAfter_concat]
    exact sound_step sound event

/-- **Whatever a call lists is accounted for.** However the calls interleave, a
state that a call has listed was answered to the call itself; or it was
answered to some call and put into the cache, where this call found it no older
than the time to live, or older and could not refresh it. -/
theorem listed_states_are_accounted (ttl : Duration) (history : List Event) (i : Nat) (call : Call)
    (there : (servingAfter ttl history).calls[i]? = some call) (state : HostState)
    (listed : state ∈ call.listed) : Accounted ttl history i state :=
  ((sound_run ttl history).calls i call there).listed state listed

/-- A host that is first asked for by name. -/
def core : HostState := { source := "icinga", hostName := "core", ip := some [10, 0, 0, 1] }

/-- While the call by name is putting the host into the cache, a call by
address finds it there. -/
def nameThenAddress : List Event :=
  let go (i : Nat) (reading : Time) (states : List HostState) : Event := .goOn i reading (.ok states)
  [.call .byName [.name "core"] ["icinga"], .call .byIP [.address core.ip] ["icinga"],
    go 0 0 [], go 0 0 [], go 0 0 [], go 0 0 [], go 0 0 [core], go 0 10 [], go 0 0 [],
    go 1 0 [], go 1 12 [], go 1 0 [], go 0 0 []]

/-- The second call has the state from the first one's answer, two nanoseconds
old. -/
theorem address_call_is_accounted : Accounted 5 nameThenAddress 1 core :=
  listed_states_are_accounted 5 nameThenAddress 1
    { kind := .byIP
      requested := [.address core.ip]
      sources := ["icinga"]
      stage := .asking .refresh { cacheFound := [core] }
      listed := [core] }
    (by decide) core (by decide)

end NetGraphz.LookupOrigins
