import NetGraphz.Base.GoMap
import NetGraphz.Base.History
import NetGraphz.Base.RWMutex
import NetGraphz.StateCache

/-! The mutexes of the memory cache. What is added and looked up is unlocked in
the mode in which it was locked; both removals lock for writing and unlock for
reading, which ends the program whether or not the host is there. -/
namespace NetGraphz.CacheLocks
open StateCache

/-- `MemoryStateCache` with its mutexes. -/
structure LockedCache where
  cache : MemoryStateCache
  nameMutex : RWMutex
  ipMutex : RWMutex
  srcMutex : RWMutex

/-- A cache whose mutexes are free. -/
def unlocked (cache : MemoryStateCache) : LockedCache := ⟨cache, {}, {}, {}⟩

/-- A call on `name_mutex`. -/
def onName (act : RWMutex → Except String RWMutex) (c : LockedCache) :
    Except String LockedCache :=
  (act c.nameMutex).map fun mutex => { c with nameMutex := mutex }

/-- A call on `ip_mutex`. -/
def onIP (act : RWMutex → Except String RWMutex) (c : LockedCache) :
    Except String LockedCache :=
  (act c.ipMutex).map fun mutex => { c with ipMutex := mutex }

/-- A call on `src_mutex`. -/
def onSrc (act : RWMutex → Except String RWMutex) (c : LockedCache) :
    Except String LockedCache :=
  (act c.srcMutex).map fun mutex => { c with srcMutex := mutex }

/-- `AddUpdate`. The source is noted under the first of the locks. -/
def addUpdate (c : LockedCache) (state : HostState) (timestamp : Time) :
    Except String (LockedCache × CacheRecord) := do
  let c ← onSrc RWMutex.lockAlone c
  let c ← onSrc RWMutex.unlock c
  let c ← onName RWMutex.lockAlone c
  let c ← onIP RWMutex.lockAlone c
  let (cache, record) := StateCache.addUpdate c.cache state timestamp
  -- the deferred calls, the last one first
  let c ← onIP RWMutex.unlock { c with cache := cache }
  let c ← onName RWMutex.unlock c
  return (c, record)

/-- `GetByName`. -/
def getByName (c : LockedCache) (hostName source : String) :
    Except String (LockedCache × Option CacheRecord) := do
  let c ← onName RWMutex.rLockAlone c
  let found := StateCache.getByName c.cache hostName source
  let c ← onName RWMutex.rUnlock c
  return (c, found)

/-- `GetByIP`. -/
def getByIP (c : LockedCache) (ip : NetIP) (source : String) :
    Except String (LockedCache × Option CacheRecord) := do
  let c ← onIP RWMutex.rLockAlone c
  let found := StateCache.getByIP c.cache ip source
  let c ← onIP RWMutex.rUnlock c
  return (c, found)

/-- `RemoveByName`. -/
def removeByName (c : LockedCache) (hostName source : String) :
    Except String (LockedCache × Bool) := do
  let c ← onName RWMutex.lockAlone c
  let c ← onIP RWMutex.lockAlone c
  let (cache, removed) := StateCache.removeByName c.cache hostName source
  let c ← onIP RWMutex.rUnlock { c with cache := cache }
  let c ← onName RWMutex.rUnlock c
  return (c, removed)

/-- `RemoveByIP`. -/
def removeByIP (c : LockedCache) (ip : NetIP) (source : String) :
    Except String (LockedCache × Bool) := do
  let c ← onName RWMutex.lockAlone c
  let c ← onIP RWMutex.lockAlone c
  let (cache, removed) := StateCache.removeByIP c.cache ip source
  let c ← onIP RWMutex.rUnlock { c with cache := cache }
  let c ← onName RWMutex.rUnlock c
  return (c, removed)

/-- The order in which a loop meets the sources. -/
abbrev SourceOrder := GoMap.Order fun _ : String => Bool

/-- The loop of both `RemoveAll` functions, with its counter. -/
def removeAll (remove : LockedCache → String → Except String (LockedCache × Bool))
    (order : SourceOrder) (c : LockedCache) : Except String (LockedCache × Nat) :=
  (order.entries c.cache.srcMap).foldlM (fun (c, counter) source => do
    let (c, b) ← remove c source.1
    return (c, if b then counter + 1 else counter)) (c, 0)

/-- `RemoveAllByName`. -/
def removeAllByName (order : SourceOrder) (c : LockedCache) (hostName : String) :
    Except String (LockedCache × Nat) :=
  removeAll (fun c source => removeByName c hostName source) order c

/-- `RemoveAllByIP`. -/
def removeAllByIP (order : SourceOrder) (c : LockedCache) (ip : NetIP) :
    Except String (LockedCache × Nat) :=
  removeAll (fun c source => removeByIP c ip source) order c

/-- A call of the cache, with the order its loop meets the sources in. -/
inductive Operation where
  | addUpdate (state : HostState) (timestamp : Time)
  | getByName (hostName source : String)
  | getByIP (ip : NetIP) (source : String)
  | removeByName (hostName source : String)
  | removeByIP (ip : NetIP) (source : String)
  | removeAllByName (hostName : String) (order : SourceOrder)
  | removeAllByIP (ip : NetIP) (order : SourceOrder)

/-- What a call leaves. -/
def Operation.run (c : LockedCache) : Operation → Except String LockedCache
  | .addUpdate state timestamp => (CacheLocks.addUpdate c state timestamp).map Prod.fst
  | .getByName hostName source => (CacheLocks.getByName c hostName source).map Prod.fst
  | .getByIP ip source => (CacheLocks.getByIP c ip source).map Prod.fst
  | .removeByName hostName source => (CacheLocks.removeByName c hostName source).map Prod.fst
  | .removeByIP ip source => (CacheLocks.removeByIP c ip source).map Prod.fst
  | .removeAllByName hostName order =>
    (CacheLocks.removeAllByName order c hostName).map Prod.fst
  | .removeAllByIP ip order => (CacheLocks.removeAllByIP order c ip).map Prod.fst

/-- One call in a program that may have ended. -/
def step (state : Except String LockedCache) (op : Operation) : Except String LockedCache :=
  state.bind op.run

/-- The program goes on, and no lock is held. -/
def Released (state : Except String LockedCache) : Prop := ∃ cache, state = .ok (unlocked cache)

/-! ## The calls, started with free mutexes -/

theorem addUpdate_unlocked (cache : MemoryStateCache) (state : HostState) (timestamp : Time) :
    addUpdate (unlocked cache) state timestamp =
      .ok (unlocked (StateCache.addUpdate cache state timestamp).1,
        (StateCache.addUpdate cache state timestamp).2) :=
  rfl

theorem getByName_unlocked (cache : MemoryStateCache) (hostName source : String) :
    getByName (unlocked cache) hostName source =
      .ok (unlocked cache, StateCache.getByName cache hostName source) :=
  rfl

theorem getByIP_unlocked (cache : MemoryStateCache) (ip : NetIP) (source : String) :
    getByIP (unlocked cache) ip source =
      .ok (unlocked cache, StateCache.getByIP cache ip source) :=
  rfl

/-- No removal returns, whether or not the host is there. -/
theorem removeByName_unlocked (cache : MemoryStateCache) (hostName source : String) :
    removeByName (unlocked cache) hostName source =
      .error "sync: RUnlock of unlocked RWMutex" :=
  rfl

theorem removeByIP_unlocked (cache : MemoryStateCache) (ip : NetIP) (source : String) :
    removeByIP (unlocked cache) ip source = .error "sync: RUnlock of unlocked RWMutex" :=
  rfl

variable {remove : LockedCache → String → Except String (LockedCache × Bool)} {fault : String}
  {start cache : MemoryStateCache} {past : List Operation}

/-- A loop of removals ends the program at the first source it meets. -/
theorem removeAll_unlocked
    (fails : ∀ cache source, remove (unlocked cache) source = .error fault)
    (order : SourceOrder) (cache : MemoryStateCache) :
    removeAll remove order (unlocked cache) =
      if cache.srcMap = ∅ then .ok (unlocked cache, 0) else .error fault := by
  have listed : (unlocked cache).cache.srcMap = cache.srcMap := rfl
  rw [removeAll, listed]
  cases sources : order.entries cache.srcMap with
  | nil =>
    rw [if_pos (GoMap.Order.entries_eq_nil.mp sources)]
    rfl
  | cons source rest =>
    have some : cache.srcMap ≠ ∅ := by
      intro none
      rw [GoMap.Order.entries_eq_nil.mpr none] at sources
      cases sources
    simp only [if_neg some, List.foldlM_cons, fails]
    rfl

/-- The call comes to a removal. -/
def Operation.Removes (cache : MemoryStateCache) : Operation → Prop
  | .removeByName _ _ | .removeByIP _ _ => True
  | .removeAllByName _ _ | .removeAllByIP _ _ => cache.srcMap ≠ ∅
  | _ => False

/-- What a call that comes to none does to the cache. -/
def effect (cache : MemoryStateCache) : Operation → MemoryStateCache
  | .addUpdate state timestamp => update cache (state, timestamp)
  | _ => cache

/-- The loop of removals either ends the program, or finds nothing to do. -/
theorem removeAll_cases
    (fails : ∀ cache source, remove (unlocked cache) source = .error fault)
    (order : SourceOrder) (cache : MemoryStateCache) :
    (cache.srcMap ≠ ∅ →
        (removeAll remove order (unlocked cache)).map Prod.fst = .error fault) ∧
      (¬ cache.srcMap ≠ ∅ →
        (removeAll remove order (unlocked cache)).map Prod.fst = .ok (unlocked cache)) := by
  rw [removeAll_unlocked fails]
  constructor
  · intro some
    rw [if_neg some]
    rfl
  · intro none
    rw [if_pos (not_not.mp none)]
    rfl

/-- A call that comes to a removal ends the program, and any other one does
what it would do without locks and leaves them free. -/
theorem run_unlocked (op : Operation) (cache : MemoryStateCache) :
    (op.Removes cache → op.run (unlocked cache) = .error "sync: RUnlock of unlocked RWMutex") ∧
      (¬ op.Removes cache → op.run (unlocked cache) = .ok (unlocked (effect cache op))) := by
  cases op with
  | addUpdate state timestamp =>
    have added := congrArg (Except.map Prod.fst) (addUpdate_unlocked cache state timestamp)
    exact ⟨False.elim, fun _ => added⟩
  | getByName hostName source =>
    have found := congrArg (Except.map Prod.fst) (getByName_unlocked cache hostName source)
    exact ⟨False.elim, fun _ => found⟩
  | getByIP ip source =>
    have found := congrArg (Except.map Prod.fst) (getByIP_unlocked cache ip source)
    exact ⟨False.elim, fun _ => found⟩
  | removeByName hostName source =>
    have fails := congrArg (Except.map Prod.fst) (removeByName_unlocked cache hostName source)
    exact ⟨fun _ => fails, fun never => absurd trivial never⟩
  | removeByIP ip source =>
    have fails := congrArg (Except.map Prod.fst) (removeByIP_unlocked cache ip source)
    exact ⟨fun _ => fails, fun never => absurd trivial never⟩
  | removeAllByName hostName order =>
    exact removeAll_cases (fun cache source => removeByName_unlocked cache hostName source)
      order cache
  | removeAllByIP ip order =>
    exact removeAll_cases (fun cache source => removeByIP_unlocked cache ip source) order cache

/-! ## Runs -/

/-- A program that goes on runs like the cache without its locks, and holds none
of them between its calls. -/
theorem unlocked_of_running (running : after step (.ok (unlocked start)) past = .ok c) :
    c = unlocked (after effect start past) := by
  induction past using List.reverseRecOn generalizing c with
  | nil => exact (Except.ok.inj running).symm
  | append_singleton past op ih =>
    rw [after_concat] at running ⊢
    cases before : after step (.ok (unlocked start)) past with
    | error fault => simp [before, step, Except.bind] at running
    | ok c' =>
      rw [before, ih before] at running
      obtain ⟨removal, other⟩ := run_unlocked op (after effect start past)
      by_cases removes : op.Removes (after effect start past)
      · exact absurd ((removal removes).symm.trans running) (by simp)
      · exact (Except.ok.inj ((other removes).symm.trans running)).symm

theorem released_iff : Released (after step (.ok (unlocked start)) past) ↔
    after step (.ok (unlocked start)) past = .ok (unlocked (after effect start past)) := by
  constructor
  · rintro ⟨cache, running⟩
    rw [running, unlocked_of_running running]
  · intro running
    exact ⟨_, running⟩

/-- The call puts a source into the cache. -/
def Operation.Adds : Operation → Prop
  | .addUpdate _ _ => True
  | _ => False

/-- Sources that were put in stay. -/
theorem srcMap_after : (after effect start past).srcMap = ∅ ↔
    start.srcMap = ∅ ∧ ∀ op ∈ past, ¬ op.Adds := by
  induction past using List.reverseRecOn with
  | nil => simp
  | append_singleton past op ih =>
    rw [after_concat]
    cases op with
    | addUpdate state timestamp =>
      refine iff_of_false ?_ fun none =>
        none.2 (.addUpdate state timestamp) (List.mem_append_right _ (List.mem_singleton_self _)) trivial
      intro none
      have there : state.source ∈ (update (after effect start past) (state, timestamp)).srcMap := by
        rw [update_srcMap]
        exact Finmap.mem_insert.mpr (Or.inl rfl)
      rw [show (update (after effect start past) (state, timestamp)).srcMap = ∅ from none] at there
      exact Finmap.notMem_empty there
    | _ => simp [effect, ih, Operation.Adds, or_imp, forall_and]

/-- A call that gives its locks back: an addition or a lookup, or a removal
from all sources while there are none. -/
def GivesBack (start : MemoryStateCache) (past : List Operation) : Operation → Prop
  | .removeByName _ _ | .removeByIP _ _ => False
  | .removeAllByName _ _ | .removeAllByIP _ _ =>
    start.srcMap = ∅ ∧ ∀ op ∈ past, ¬ op.Adds
  | _ => True

theorem givesBack_iff (op : Operation) :
    GivesBack start past op ↔ ¬ op.Removes (after effect start past) := by
  cases op <;> simp [GivesBack, Operation.Removes, srcMap_after]

/-- **The locks are given back until the first removal.** -/
theorem released_throughout_iff (start : MemoryStateCache) (history : List Operation) :
    (∀ past, past <+: history → Released (after step (.ok (unlocked start)) past)) ↔
      ∀ past op, past ++ [op] <+: history → GivesBack start past op := by
  refine throughout_iff_each_step _ _ ⟨start, rfl⟩ ?_ history
  intro past op before
  rw [givesBack_iff, after_concat, released_iff.mp before]
  obtain ⟨removal, other⟩ := run_unlocked op (after effect start past)
  constructor
  · rintro ⟨cache, running⟩ removes
    exact absurd ((removal removes).symm.trans running) (by simp)
  · intro keeps
    exact ⟨_, other keeps⟩

/-- Removing a host that is not there. -/
theorem removal_unlocks_in_wrong_mode : ¬ ∀ (start : MemoryStateCache) (history past : List Operation),
    past <+: history → Released (after step (.ok (unlocked start)) past) := by
  intro claimed
  obtain ⟨cache, running⟩ := claimed newMemoryStateCache [.removeByName "core" "icinga"] _
    (List.prefix_refl _)
  cases running

end NetGraphz.CacheLocks
