import Mathlib
import NetGraphz.LoneLookups
import NetGraphz.LookupOrigins

/-! What becomes of a source's answer when calls run at once: once the call has
returned, every state that it was answered is in its map, and the cache has a
record of the state's host, whatever the other calls did meanwhile. -/
namespace NetGraphz.KeptAnswers
open StateCache StateCacheProofs ConcurrentLookups LookupOrigins
open LoneLookups (InMap inMap_of_listed)

/-- The states of the answer that a call is putting into the cache. -/
def inHand (call : Call) : List HostState :=
  match call.sources, call.stage with
  | _ :: _, .putting _ _ states _ => states
  | _ :: _, .adding _ _ states _ _ _ => states
  | _, _ => []

/-- Those of them that are still to be put. -/
def unput (call : Call) : List HostState :=
  match call.sources, call.stage with
  | _ :: _, .putting _ _ _ rest => rest
  | _ :: _, .adding _ _ _ state _ rest => state :: rest
  | _, _ => []

/-- The cache has a record of the state's host. -/
def Cached (cache : MemoryStateCache) (state : HostState) : Prop :=
  (getByName cache state.hostName state.source).isSome

/-- Neither the call's map nor the cache goes without the state for good. -/
structure Kept (cache : MemoryStateCache) (call : Call) (state : HostState) : Prop where
  listed : state ∈ call.listed ∨ state ∈ inHand call
  cached : Cached cache state ∨ state ∈ unput call

theorem cached_update (indexed : Indexed cache) (cached : Cached cache state) (entry : Update) :
    Cached (update cache entry) state := by
  rw [Cached, indexed.getByName_update]
  split
  · rfl
  · exact cached

theorem cached_update_self (indexed : Indexed cache) (state : HostState) (timestamp : Time) :
    Cached (update cache (state, timestamp)) state := by
  rw [Cached, indexed.getByName_update, if_pos ⟨rfl, rfl⟩]
  rfl

/-- No section takes a record away. -/
theorem cached_goOn (indexed : Indexed cache) (cached : Cached cache state) (ttl : Duration)
    (reading : Time) (answer : Except String (List HostState)) (call : Call) :
    Cached (call.goOn ttl reading answer cache).1 state := by
  rcases goOn_cache call answer cache with
    same | ⟨_, _, _, _, _, added, timestamp, _, _, _, updated⟩
  · rw [same]
    exact cached
  · rw [updated]
    exact cached_update indexed cached (added, timestamp)

section
variable {ttl : Duration} {reading : Time} {answer : Except String (List HostState)}
  {cache : MemoryStateCache} {call : Call} {state : HostState}

theorem listed_goOn (listed : state ∈ call.listed) :
    state ∈ (call.goOn ttl reading answer cache).2.listed := by
  cases serving : call.sources with
  | nil => simpa [Call.goOn, serving] using listed
  | cons source later =>
    cases stage : call.stage with
    | looking rest lookups =>
      cases rest with
      | nil => simp [Call.goOn, serving, stage, listed]
      | cons key rest =>
        cases found : key.record cache source <;>
          simp [Call.goOn, serving, stage, found, listed]
    | aging cacheRec rest lookups => simpa [Call.goOn, serving, stage] using listed
    | asking round lookups =>
      cases answer <;> cases round <;> simp [Call.goOn, serving, stage, Call.next, listed]
    | putting round lookups states rest =>
      cases rest <;> cases round <;> simp [Call.goOn, serving, stage, Call.next, listed]
    | adding round lookups states other timestamp rest =>
      simpa [Call.goOn, serving, stage] using listed

/-- What is in hand stays there until it is listed. -/
theorem inHand_goOn (held : state ∈ inHand call) :
    state ∈ (call.goOn ttl reading answer cache).2.listed ∨
      state ∈ inHand (call.goOn ttl reading answer cache).2 := by
  cases serving : call.sources with
  | nil => simp [inHand, serving] at held
  | cons source later =>
    cases stage : call.stage with
    | looking rest lookups => simp [inHand, serving, stage] at held
    | aging cacheRec rest lookups => simp [inHand, serving, stage] at held
    | asking round lookups => simp [inHand, serving, stage] at held
    | putting round lookups states rest =>
      simp only [inHand, serving, stage] at held
      cases rest with
      | nil => cases round <;> simp [Call.goOn, serving, stage, Call.next, held]
      | cons other rest => simp [Call.goOn, serving, stage, inHand, held]
    | adding round lookups states other timestamp rest =>
      simp only [inHand, serving, stage] at held
      simp [Call.goOn, serving, stage, inHand, held]

/-- What is to be put stays so until it is in the cache. -/
theorem unput_goOn (indexed : Indexed cache) (waiting : state ∈ unput call) :
    Cached (call.goOn ttl reading answer cache).1 state ∨
      state ∈ unput (call.goOn ttl reading answer cache).2 := by
  cases serving : call.sources with
  | nil => simp [unput, serving] at waiting
  | cons source later =>
    cases stage : call.stage with
    | looking rest lookups => simp [unput, serving, stage] at waiting
    | aging cacheRec rest lookups => simp [unput, serving, stage] at waiting
    | asking round lookups => simp [unput, serving, stage] at waiting
    | putting round lookups states rest =>
      simp only [unput, serving, stage] at waiting
      cases rest with
      | nil => cases waiting
      | cons other rest => exact .inr (by simpa [Call.goOn, serving, stage, unput] using waiting)
    | adding round lookups states other timestamp rest =>
      simp only [unput, serving, stage] at waiting
      simp only [Call.goOn, serving, stage]
      rcases List.mem_cons.mp waiting with rfl | later
      · exact .inl (cached_update_self indexed state timestamp)
      · exact .inr (by simpa [unput] using later)

/-- A section keeps what its call was answered before. -/
theorem kept_goOn (indexed : Indexed cache) (kept : Kept cache call state) :
    Kept (call.goOn ttl reading answer cache).1 (call.goOn ttl reading answer cache).2 state := by
  constructor
  · rcases kept.listed with listed | held
    · exact .inl (listed_goOn listed)
    · exact inHand_goOn held
  · rcases kept.cached with cached | waiting
    · exact .inl (cached_goOn indexed cached ttl reading answer call)
    · exact unput_goOn indexed waiting

/-- An answer is in hand, and all of it is to be put. -/
theorem kept_answer {round : Round} {states : List HostState} (active : call.sources ≠ [])
    (asking : call.stage = .asking round lookups) (member : state ∈ states) :
    Kept (call.goOn ttl reading (.ok states) cache).1 (call.goOn ttl reading (.ok states) cache).2
      state := by
  obtain ⟨source, later, serving⟩ := List.exists_cons_of_ne_nil active
  simp only [Call.goOn, serving, asking]
  exact ⟨.inr (by simpa [inHand] using member), .inr (by simpa [unput] using member)⟩

end

/-! ## Whole runs -/

/-- What was answered by now was answered before, or is answered by this event. -/
theorem answered_concat (answered : Answered ttl (past ++ [event]) i state) :
    Answered ttl past i state ∨ ∃ reading states call round lookups,
      event = .goOn i reading (.ok states) ∧ (servingAfter ttl past).calls[i]? = some call ∧
        call.sources ≠ [] ∧ call.stage = .asking round lookups ∧ state ∈ states := by
  obtain ⟨before, reading, states, call, round, lookups, went, asking, member⟩ := answered
  rcases List.prefix_concat_iff.mp went.within with same | within
  · obtain ⟨rfl, last⟩ := List.append_inj' same rfl
    cases last
    exact .inr ⟨reading, states, call, round, lookups, rfl, went.there, went.active, asking, member⟩
  · exact .inl ⟨before, reading, states, call, round, lookups,
      ⟨within, went.there, went.active⟩, asking, member⟩

/-- A call that was there is still there. -/
theorem calls_length_le (ttl : Duration) (within : past <+: history) :
    (servingAfter ttl past).calls.length ≤ (servingAfter ttl history).calls.length := by
  obtain ⟨later, rfl⟩ := within
  induction later using List.reverseRecOn with
  | nil => simp
  | append_singleton later event ih =>
    rw [← List.append_assoc, servingAfter_concat]
    refine ih.trans ?_
    cases event with
    | call kind requested sources => simp [step]
    | goOn i reading answer =>
      cases there : (servingAfter ttl (past ++ later)).calls[i]? <;> simp [step, there]

theorem answered_there (answered : Answered ttl history i state) :
    i < (servingAfter ttl history).calls.length := by
  obtain ⟨before, reading, states, call, round, lookups, went, _⟩ := answered
  have past : before <+: history := (List.prefix_append before _).trans went.within
  exact Nat.lt_of_lt_of_le (List.getElem?_eq_some_iff.mp went.there).1 (calls_length_le ttl past)

/-- What the calls after a history keep. -/
def AllKept (ttl : Duration) (history : List Event) : Prop :=
  ∀ i call, (servingAfter ttl history).calls[i]? = some call → ∀ state,
    Answered ttl history i state → Kept (servingAfter ttl history).cache call state

/-- **Every event keeps what has been answered.** -/
theorem allKept_step (kept : AllKept ttl past) (event : Event) : AllKept ttl (past ++ [event]) := by
  intro i call there state answered
  have indexed := (sound_run ttl past).indexed
  rw [servingAfter_concat] at there ⊢
  cases event with
  | call kind requested sources =>
    rcases answered_concat answered with before | ⟨_, _, _, _, _, other, _⟩
    · rw [step, List.getElem?_append_left (answered_there before)] at there
      exact kept i call there state before
    · cases other
  | goOn j reading answer =>
    cases began : (servingAfter ttl past).calls[j]? with
    | none =>
      simp only [step, began] at there ⊢
      rcases answered_concat answered with before | ⟨_, _, _, _, _, this, began', _⟩
      · exact kept i call there state before
      · cases this
        rw [began] at began'
        cases began'
    | some call' =>
      simp only [step, began] at there ⊢
      rw [List.getElem?_set] at there
      by_cases same : j = i
      · subst same
        rw [if_pos rfl, if_pos (List.getElem?_eq_some_iff.mp began).1, Option.some.injEq] at there
        subst there
        rcases answered_concat answered with
          before | ⟨_, _, _, _, _, this, began', active, asking, member⟩
        · exact kept_goOn indexed (kept j call' began state before)
        · cases this
          rw [began] at began'
          cases began'
          exact kept_answer active asking member
      · rw [if_neg same] at there
        rcases answered_concat answered with before | ⟨_, _, _, _, _, this, _⟩
        · obtain ⟨listed, cached⟩ := kept i call there state before
          exact ⟨listed, cached.imp (cached_goOn indexed · ttl reading answer call') id⟩
        · cases this
          exact absurd rfl same

/-- **No answer is lost.** However the calls interleave, once a call has
returned, every state that a source answered it is in its map, under its host's
name or under each address that it has, and the cache has a record of the
state's host and source. -/
theorem returned_call_lists_every_answer (ttl : Duration) (history : List Event) (i : Nat)
    (call : Call) (there : (servingAfter ttl history).calls[i]? = some call)
    (returned : call.sources = []) (state : HostState) (answered : Answered ttl history i state) :
    InMap call state ∧
      ∃ record, getByName (servingAfter ttl history).cache state.hostName state.source =
        some record := by
  have run : AllKept ttl history := by
    refine history_induction (AllKept ttl) ?_ (fun past event kept => allKept_step kept event) history
    intro i call there
    simp [servingAfter] at there
  obtain ⟨listed, cached⟩ := run i call there state answered
  simp only [inHand, unput, returned, List.not_mem_nil, or_false] at listed cached
  exact ⟨inMap_of_listed listed, Option.isSome_iff_exists.mp cached⟩

/-- The call by name returns with its one answer, and the cache has it. -/
theorem name_call_keeps_its_answer :
    let serving := servingAfter 5 nameThenAddress
    ∃ call, serving.calls[0]? = some call ∧ InMap call core ∧
      ∃ record, getByName serving.cache "core" "icinga" = some record := by
  intro serving
  let call : Call :=
    { kind := .byName
      requested := [.name "core"]
      sources := []
      stage := .looking [.name "core"] {}
      listed := [core] }
  have there : serving.calls[0]? = some call := by decide
  have answered : Answered 5 nameThenAddress 0 core := by
    refine ⟨nameThenAddress.take 6, 0, [core], _, .fetch, { cacheMissed := [.name "core"] },
      ⟨?_, rfl, ?_⟩, rfl, List.mem_singleton_self core⟩
    · exact List.take_prefix 7 nameThenAddress
    · decide
  exact ⟨call, there,
    returned_call_lists_every_answer 5 nameThenAddress 0 call there rfl core answered⟩

end NetGraphz.KeptAnswers
