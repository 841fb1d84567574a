import NetGraphz.StateCacheProofs

/-! What the lookups of the status service by name and by address have in common,
whatever the key: how the pass over a source sorts the keys, and what the two
fetches of it leave. -/
namespace NetGraphz.SourcePasses
open StateCache StateCacheProofs

/-! ## The pass over the keys -/

/-- What the cache has of one source, by key. -/
abbrev Records (κ : Type u) := κ → Option CacheRecord

section
variable (ttl : Duration) (known : Records κ) (now : Nat → Time)

/-- The key leads to no record. -/
def missed (key : κ × Nat) : Option κ :=
  if (known key.1).isNone then some key.1 else none

/-- The state a key leads to, when it is too old. -/
def expired (key : κ × Nat) : Option HostState :=
  (known key.1).bind fun record =>
    if (now key.2).sub record.time > ttl then some record.state else none

/-- The state a key leads to, when it is recent enough. -/
def recent (key : κ × Nat) : Option HostState :=
  (known key.1).bind fun record =>
    if (now key.2).sub record.time > ttl then none else some record.state

/-- A pass that looks up one key after the other sorts them into the three kinds,
in order. -/
theorem pass_eq (lists : List κ → List HostState → List HostState → L) (look : L → κ × Nat → L)
    (turn : ∀ none old found key, look (lists none old found) key =
      match known key.1 with
      | .none => lists (none ++ [key.1]) old found
      | some record =>
        if (now key.2).sub record.time > ttl then lists none (old ++ [record.state]) found
        else lists none old (found ++ [record.state]))
    (keys : List (κ × Nat)) :
    keys.foldl look (lists [] [] []) = lists (keys.filterMap (missed known))
      (keys.filterMap (expired ttl known now)) (keys.filterMap (recent ttl known now)) := by
  induction keys using List.reverseRecOn with
  | nil => rfl
  | append_singleton before key ih =>
    rw [List.foldl_append, List.foldl_cons, List.foldl_nil, ih, turn]
    simp only [List.filterMap_append]
    cases found : known key.1 with
    | none => simp [missed, expired, recent, found]
    | some record =>
      by_cases old : (now key.2).sub record.time > ttl
      · simp [missed, expired, recent, found, old]
      · simp [missed, expired, recent, found, old]

end

/-- Updates of other sources leave a source's records alone. -/
theorem records_foldl (known : MemoryStateCache → Records κ)
    (kept : ∀ {cache} (entry : Update), Indexed cache → entry.1.source ≠ name →
      known (update cache entry) = known cache)
    (indexed : Indexed cache) (updates : List Update)
    (others : ∀ entry ∈ updates, entry.1.source ≠ name) :
    known (updates.foldl update cache) = known cache := by
  induction updates generalizing cache with
  | nil => rfl
  | cons entry rest ih =>
    rw [List.foldl_cons, ih (indexed_update _ _ indexed)
      fun later member => others later (List.mem_cons_of_mem _ member)]
    exact kept entry indexed (others entry List.mem_cons_self)

/-! ## The fetches -/

/-- The states of an answer, or others where it failed. -/
def statesOr (answer : Except String (List HostState)) (otherwise : List HostState) :
    List HostState :=
  match answer with
  | .ok states => states
  | .error _ => otherwise

/-- The error of a failed fetch. -/
def failure : Except String (List HostState) → Option String
  | .ok _ => none
  | .error err => some err

/-- States with the times they are put into the cache at. -/
def stamped (now : Nat → Time) (states : List HostState) : List Update :=
  states.mapIdx fun j state => (state, now j)

theorem mem_stamped (member : entry ∈ stamped now states) : entry.1 ∈ states := by
  obtain ⟨j, within, rfl⟩ := List.mem_mapIdx.mp member
  exact List.getElem_mem within

/-- Where both fetches answer with states of one source, only its part of the cache
is updated. -/
theorem source_of_stamped (refreshed : ∀ state ∈ states, state.source = name)
    (fetched : ∀ state ∈ states', state.source = name)
    (member : entry ∈ stamped now states ++ stamped now' states') : entry.1.source = name := by
  rcases List.mem_append.mp member with member | member
  · exact refreshed _ (mem_stamped member)
  · exact fetched _ (mem_stamped member)

/-- A fetch in one equation, whether it fails or not. -/
theorem fetch_eq (store : S → List HostState → S) (fill : M → List HostState → M)
    (stored : ∀ srv, store srv [] = srv) (filled : ∀ m, fill m [] = m)
    (answer : Except String (List HostState)) (srv : S) (m : M) :
    (match answer with
      | .error err => (srv, m, 0, some err)
      | .ok states => (store srv states, fill m states, states.length, none)) =
      (store srv (statesOr answer []), fill m (statesOr answer []),
        (statesOr answer []).length, failure answer) := by
  cases answer with
  | ok states => rfl
  | error err => simp [statesOr, failure, stored, filled]

/-- What the errors of the two fetches do, in one equation: the expired states stand
in for a failed refresh, and the later error is kept. -/
theorem serve_eq (fill : M → List HostState → M) (filled : ∀ m, fill m [] = m)
    (more : ∀ m states states', fill m (states ++ states') = fill (fill m states) states')
    (refresh fetch : Except String (List HostState)) (found old : List HostState) (m : M)
    (serving : M → Option String → R) (lastError : Option String) :
    (match (match failure refresh with
        | some err => (fill (fill (fill m found) (statesOr refresh [])) old, some err)
        | none => (fill (fill m found) (statesOr refresh []), lastError)) with
      | (m, lastError) => serving (fill m (statesOr fetch []))
        (match failure fetch with
        | some err => some err
        | none => lastError)) =
      serving (fill m (found ++ (statesOr refresh old ++ statesOr fetch [])))
        ((failure fetch).or ((failure refresh).or lastError)) := by
  rw [more, more]
  cases refresh <;> cases fetch <;> simp [failure, statesOr, filled]

end NetGraphz.SourcePasses
