import Mathlib
import NetGraphz.EventBusProofs

/-! Whole runs of the event bus: each publication calls a subscription at most
once, most specific topic first, in the order of subscription; and once it is
through, it has called every subscription that was in force all along. -/
namespace NetGraphz.EventBusRuns
open EventBus EventBusProofs

variable {F : Type u} {D : Type v} {machine : Machine F D}

/-- The publications that wait, are under way, or are through. -/
def numbers (machine : Machine F D) : List Nat :=
  machine.running.map Delivery.number ++
    (machine.timers.map Prod.fst ++ machine.finished.map Finished.number)

/-- Of one publication, the earlier call is on a longer topic, or on the same
topic for an earlier subscription. -/
def Before (first second : Call F D) : Prop :=
  first.number = second.number →
    second.topic.toList.length < first.topic.toList.length ∨
      first.topic = second.topic ∧ first.uid < second.uid

/-- What was not published synchronously is delivered in turn. -/
def InTurn (first second : Call F D) : Prop :=
  first.sync = false → second.sync = false → first.number ≤ second.number

/-- The deliveries the event loop makes: one at a time, the longest waiting
first. -/
structure Turns (machine : Machine F D) : Prop where
  calls : machine.calls.Pairwise InTurn
  timers : (machine.timers.map Prod.fst).Pairwise (· < ·)
  published : ∀ timer ∈ machine.timers, timer.1 < machine.published
  ahead : ∀ call ∈ machine.calls, call.sync = false → ∀ timer ∈ machine.timers,
    call.number < timer.1
  alone : machine.running.Pairwise fun inner outer => inner.sync = true ∨ outer.sync = true
  running : ∀ delivery ∈ machine.running, delivery.sync = false →
    (∀ call ∈ machine.calls, call.sync = false → call.number ≤ delivery.number) ∧
      ∀ timer ∈ machine.timers, delivery.number < timer.1

/-- A delivery that is through has called what was in force when it began and
still is. -/
structure Through (bus : Bus F) (calls : List (Call F D)) (finished : Finished) : Prop where
  message : ∀ call ∈ calls, call.number = finished.number → call.message = finished.message
  reached : ∀ {topic uid}, Live bus topic uid → uid < finished.since →
    topic ∈ levels finished.message → Called calls finished.number uid

/-- The invariant of the page. -/
structure Sound (machine : Machine F D) : Prop where
  kept : Kept machine.bus machine.made
  way : ∀ delivery ∈ machine.running, Way machine.bus machine.made machine.calls delivery ∧
    delivery.since ≤ machine.bus.lastUid
  numbered : (numbers machine).Nodup
  below : ∀ number ∈ numbers machine, number < machine.published
  waiting : ∀ timer ∈ machine.timers, ∀ call ∈ machine.calls, call.number ≠ timer.1
  counted : ∀ call ∈ machine.calls, call.number < machine.published
  calls : ∀ call ∈ machine.calls, call.topic ∈ levels call.message ∧
    ∃ ref, machine.made[call.uid]? = some (call.topic, ref, call.func)
  order : machine.calls.Pairwise Before
  done : ∀ finished ∈ machine.finished, Through machine.bus machine.calls finished ∧
    finished.since ≤ machine.bus.lastUid

/-! ## The bus changes -/

/-- What using the bus may do to it, as far as deliveries are concerned. -/
structure Continues (bus after : Bus F) (made made' : List (String × Ref × F)) : Prop where
  kept : Kept after made'
  lastUid : bus.lastUid ≤ after.lastUid
  made : ∀ {uid : Nat} {item}, made[uid]? = some item → made'[uid]? = some item
  objects : ∀ {ref object}, bus.objects.read ref = some object →
    ∃ object', after.objects.read ref = some object' ∧ object'.topic = object.topic
  live : ∀ {topic uid}, Live after topic uid → Live bus topic uid ∨ uid = bus.lastUid

variable {bus after : Bus F} {made made' : List (String × Ref × F)}

theorem continues_of_shrinks (kept : Kept bus made) (shrinks : Shrinks bus after) :
    Continues bus after made made := by
  refine ⟨kept.shrinks shrinks, Nat.le_of_eq shrinks.lastUid.symm, fun there => there, ?_,
    fun live => .inl (shrinks.live live)⟩
  intro ref object read
  obtain ⟨keeps, some⟩ := shrinks.objects ref
  exact ⟨keepFuncs keeps object, by rw [some, read, Option.map_some], rfl⟩

theorem continues_of_subscribed {func : F} (kept : Kept bus made)
    (new : Subscribed bus after message ref func) :
    Continues bus after made (made ++ [(message, ref, func)]) := by
  refine ⟨kept.subscribed new, ?_, ?_, ?_, fun live => new.live kept live⟩
  · rw [new.lastUid]
    exact Nat.le_succ _
  · intro uid item there
    rw [List.getElem?_append_left (List.getElem?_eq_some_iff.mp there).1]
    exact there
  · intro other object read
    by_cases same : other = ref
    · subst same
      refine ⟨_, new.object, ?_⟩
      rcases new.before with ⟨-, own⟩ | ⟨-, unread⟩
      · rw [read, Option.some.injEq] at own
        rw [own]
      · rw [read] at unread
        cases unread
    · exact ⟨object, (new.reads same).trans read, rfl⟩

theorem Sound.continues (sound : Sound machine)
    (continues : Continues machine.bus after machine.made made') :
    Sound { machine with bus := after, made := made' } := by
  -- nothing new is in force that was subscribed before a delivery began
  have live : ∀ {topic uid since}, Live after topic uid → uid < since →
      since ≤ machine.bus.lastUid → Live machine.bus topic uid := by
    intro topic uid since there early began
    rcases continues.live there with before | last
    · exact before
    · omega
  refine ⟨continues.kept, ?_, sound.numbered, sound.below, sound.waiting, sound.counted, ?_,
    sound.order, ?_⟩
  · intro delivery held
    obtain ⟨way, began⟩ := sound.way delivery held
    obtain ⟨object, read, title⟩ := way.object
    obtain ⟨object', read', title'⟩ := continues.objects read
    refine ⟨⟨way.suffix, ⟨object', read', title'.trans title⟩, way.ascending, ?_, way.behind, ?_⟩,
      began.trans continues.lastUid⟩
    · intro uid there
      obtain ⟨func, subscribed⟩ := way.home uid there
      exact ⟨func, continues.made subscribed⟩
    · intro topic uid there early level
      exact way.reached (live there early began) early level
  · intro call held
    obtain ⟨level, ref, subscribed⟩ := sound.calls call held
    exact ⟨level, ref, continues.made subscribed⟩
  · intro finished held
    obtain ⟨through, began⟩ := sound.done finished held
    refine ⟨⟨through.message, ?_⟩, began.trans continues.lastUid⟩
    intro topic uid there early level
    exact through.reached (live there early began) early level

/-! ## A delivery goes on -/

variable {delivery next : Delivery D} {calls : List (Call F D)}

/-- Another delivery's call does not concern a delivery. -/
theorem way_more (way : Way bus made calls delivery) (new : Call F D)
    (other : new.number ≠ delivery.number) : Way bus made (calls ++ [new]) delivery := by
  refine ⟨way.suffix, way.object, way.ascending, way.home, ?_, ?_⟩
  · intro call held own
    rcases List.mem_append.mp held with old | last
    · exact way.behind call old own
    · exact absurd (List.mem_singleton.mp last ▸ own) other
  · intro topic uid live early level
    rcases way.reached live early level with later | here | called
    · exact .inl later
    · exact .inr (.inl here)
    · exact .inr (.inr (called.more new))

theorem Through.more (through : Through bus calls finished) (new : Call F D)
    (other : new.number ≠ finished.number) : Through bus (calls ++ [new]) finished := by
  refine ⟨?_, fun live early level => (through.reached live early level).more new⟩
  intro call held own
  rcases List.mem_append.mp held with old | last
  · exact through.message call old own
  · exact absurd (List.mem_singleton.mp last ▸ own) other

theorem Sound.ended {below : List (Delivery D)} (sound : Sound { machine with running := below })
    (fresh : delivery.number ∉ numbers { machine with running := below })
    (own : delivery.number < machine.published) (began : delivery.since ≤ machine.bus.lastUid)
    (left : Left machine.bus machine.calls delivery []) :
    Sound (goOn machine delivery below none) := by
  have moved : (numbers (goOn machine delivery below none)).Perm
      (delivery.number :: numbers { machine with running := below }) := by
    simp only [numbers, goOn, List.map_append, List.map_cons, List.map_nil, ← List.append_assoc]
    exact List.perm_append_singleton _ _
  refine ⟨sound.kept, sound.way, ?_, ?_, sound.waiting, sound.counted, sound.calls, sound.order, ?_⟩
  · exact moved.nodup_iff.mpr (List.nodup_cons.mpr ⟨fresh, sound.numbered⟩)
  · intro number held
    rcases List.mem_cons.mp (moved.subset held) with rfl | old
    · exact own
    · exact sound.below number old
  · intro finished held
    rcases List.mem_append.mp held with old | last
    · exact sound.done finished old
    · rw [List.mem_singleton.mp last]
      refine ⟨⟨fun call there same => (left.behind call there same).1, ?_⟩, began⟩
      intro topic uid live early level
      rcases left.reached live early level with none | called
      · cases none
      · exact called

theorem Sound.called {below : List (Delivery D)} {func : F}
    (sound : Sound { machine with running := below })
    (fresh : delivery.number ∉ numbers { machine with running := below })
    (own : delivery.number < machine.published) (began : delivery.since ≤ machine.bus.lastUid)
    (advanced : Advanced machine.bus machine.made machine.calls delivery next uid func) :
    Sound (goOn machine delivery below (some (uid, func, next))) := by
  obtain ⟨number, -, message, since, follows, way⟩ := advanced
  have others : ∀ other ∈ numbers { machine with running := below }, next.number ≠ other := by
    rintro other held rfl
    exact fresh (number ▸ held)
  refine ⟨sound.kept, ?_, ?_, ?_, ?_, ?_, ?_, ?_, ?_⟩
  · intro other held
    rcases List.mem_cons.mp held with rfl | old
    · exact ⟨way, since ▸ began⟩
    · obtain ⟨older, began'⟩ := sound.way other old
      refine ⟨way_more older _ (others _ ?_), began'⟩
      exact List.mem_append_left _ (List.mem_map_of_mem old)
  · exact List.nodup_cons.mpr ⟨number ▸ fresh, sound.numbered⟩
  · intro other held
    rcases List.mem_cons.mp held with rfl | old
    · exact number ▸ own
    · exact sound.below other old
  · intro timer held call there
    rcases List.mem_append.mp there with old | last
    · exact sound.waiting timer held call old
    · rw [List.mem_singleton.mp last]
      refine others _ (List.mem_append_right _ (List.mem_append_left _ ?_))
      exact List.mem_map_of_mem held
  · intro call there
    rcases List.mem_append.mp there with old | last
    · exact sound.counted call old
    · rw [List.mem_singleton.mp last]
      exact number ▸ own
  · intro call there
    rcases List.mem_append.mp there with old | last
    · exact sound.calls call old
    · rw [List.mem_singleton.mp last]
      exact ⟨message ▸ follows.level, follows.made⟩
  · refine List.pairwise_append.mpr ⟨sound.order, List.pairwise_singleton _ _, ?_⟩
    intro call held new last same
    rw [List.mem_singleton.mp last] at same ⊢
    exact follows.order call held (same.trans number)
  · intro finished held
    obtain ⟨through, began'⟩ := sound.done finished held
    refine ⟨through.more _ (others _ ?_), began'⟩
    exact List.mem_append_right _ (List.mem_append_right _ (List.mem_map_of_mem held))

/-! ## Runs -/

theorem Sound.went {below : List (Delivery D)} {after : Option (Nat × F × Delivery D)}
    (sound : Sound { machine with running := below })
    (fresh : delivery.number ∉ numbers { machine with running := below })
    (own : delivery.number < machine.published) (began : delivery.since ≤ machine.bus.lastUid)
    (ends : after = none → Left machine.bus machine.calls delivery [])
    (goes : ∀ {uid func next}, after = some (uid, func, next) →
      Advanced machine.bus machine.made machine.calls delivery next uid func) :
    Sound (goOn machine delivery below after) := by
  cases after with
  | none => exact sound.ended fresh own began (ends rfl)
  | some call =>
    obtain ⟨uid, func, next⟩ := call
    exact sound.called fresh own began (goes rfl)

/-- A delivery begins: all its topics are left. -/
theorem Sound.deliver (sound : Sound machine) (fresh : number ∉ numbers machine)
    (own : number < machine.published) (uncalled : ∀ call ∈ machine.calls, call.number ≠ number)
    (sync : Bool) (message : String) (data : D) :
    Sound (deliver machine number sync message data) := by
  have left : Left machine.bus machine.calls
      ⟨number, sync, message, data, machine.bus.lastUid, message, 0, [], []⟩ (levels message) := by
    refine ⟨List.suffix_refl _, ?_, fun _ _ level => .inl level⟩
    intro call held same
    exact absurd same (uncalled call held)
  exact Sound.went sound fresh own (Nat.le_refl _) (nextTopic_none left)
    (nextTopic_some sound.kept left)

theorem sound_step [DecidableEq F] (sound : Sound machine) (action : PageAction F D) :
    Sound (step machine action) := by
  cases action with
  | subscribe message func =>
    cases func with
    | none => simpa [step, subscribe] using sound
    | some func =>
      exact sound.continues (continues_of_subscribed sound.kept
        (subscribe_some sound.kept message func))
  | unsubscribe value =>
    exact sound.continues (continues_of_shrinks sound.kept (shrinks_unsubscribe _ value))
  | clearSubscriptions topic =>
    exact sound.continues (continues_of_shrinks sound.kept (shrinks_clearSubscriptions _ topic))
  | clearAllSubscriptions =>
    exact sound.continues (continues_of_shrinks sound.kept (shrinks_clearAllSubscriptions _))
  | publish message data =>
    simp only [step]
    split
    · have fresh : machine.published ∉ numbers machine := fun held =>
        Nat.lt_irrefl _ (sound.below _ held)
      have moved : (numbers { machine with
          timers := machine.timers ++ [(machine.published, message, data)]
          published := machine.published + 1 }).Perm (machine.published :: numbers machine) := by
        simp only [numbers, List.map_append, List.map_cons, List.map_nil, List.append_assoc,
          List.singleton_append]
        rw [← List.append_assoc, ← List.append_assoc]
        exact List.perm_middle
      refine ⟨sound.kept, sound.way, ?_, ?_, ?_, ?_, sound.calls, sound.order, sound.done⟩
      · exact moved.nodup_iff.mpr (List.nodup_cons.mpr ⟨fresh, sound.numbered⟩)
      · intro number held
        rcases List.mem_cons.mp (moved.subset held) with rfl | old
        · exact Nat.lt_succ_self _
        · exact Nat.lt_succ_of_lt (sound.below number old)
      · intro timer held call there
        rcases List.mem_append.mp held with old | last
        · exact sound.waiting timer old call there
        · rw [List.mem_singleton.mp last]
          exact Nat.ne_of_lt (sound.counted call there)
      · exact fun call there => Nat.lt_succ_of_lt (sound.counted call there)
    · exact sound
  | publishSync message data =>
    simp only [step]
    split
    · have counted : Sound { machine with published := machine.published + 1 } :=
        ⟨sound.kept, sound.way, sound.numbered,
          fun number held => Nat.lt_succ_of_lt (sound.below number held), sound.waiting,
          fun call there => Nat.lt_succ_of_lt (sound.counted call there), sound.calls,
          sound.order, sound.done⟩
      exact counted.deliver (fun held => Nat.lt_irrefl _ (sound.below _ held))
        (Nat.lt_succ_self _) (fun call there => Nat.ne_of_lt (sound.counted call there)) _ _ _
    · exact sound
  | ret =>
    cases running : machine.running with
    | nil => simpa only [step, running] using sound
    | cons delivery below =>
      simp only [step, running]
      obtain ⟨way, began⟩ := sound.way delivery (running ▸ List.mem_cons_self)
      have numbered := sound.numbered
      have bounded := sound.below
      simp only [numbers, running, List.map_cons, List.cons_append, List.nodup_cons] at numbered
      simp only [numbers, running, List.map_cons, List.cons_append, List.forall_mem_cons] at bounded
      have rest : Sound { machine with running := below } :=
        ⟨sound.kept, fun other held => sound.way other (running ▸ List.mem_cons_of_mem _ held),
          numbered.2, bounded.2, sound.waiting, sound.counted, sound.calls, sound.order, sound.done⟩
      exact rest.went numbered.1 bounded.1 began (advance_none sound.kept way)
        (advance_some sound.kept way)
  | turn timer =>
    simp only [step]
    split
    · rename_i number message data running waiting
      obtain ⟨within, found⟩ := List.getElem?_eq_some_iff.mp waiting
      have member : (number, message, data) ∈ machine.timers := List.mem_of_getElem? waiting
      have popped : (numbers machine).Perm (number ::
          numbers { machine with timers := machine.timers.eraseIdx timer }) := by
        have taken := (List.getElem_cons_eraseIdx_perm within).symm.map Prod.fst
        rw [found, List.map_cons] at taken
        have others := taken.append_right (machine.finished.map Finished.number)
        simpa only [numbers, running, List.map_nil, List.nil_append, List.cons_append] using others
      have numbered := List.nodup_cons.mp (popped.nodup_iff.mp sound.numbered)
      have others : Sound { machine with timers := machine.timers.eraseIdx timer } :=
        ⟨sound.kept, sound.way, numbered.2,
          fun other held => sound.below other (popped.mem_iff.mpr (List.mem_cons_of_mem _ held)),
          fun other held => sound.waiting other (List.mem_of_mem_eraseIdx held), sound.counted,
          sound.calls, sound.order, sound.done⟩
      exact others.deliver numbered.1 (sound.below _ (popped.mem_iff.mpr List.mem_cons_self))
        (sound.waiting _ member) _ _ _
    · exact sound

theorem sound_machineAfter [DecidableEq F] (history : List (PageAction F D)) :
    Sound (machineAfter history) := by
  refine after_invariant step Sound ?_ (fun _ action sound => sound_step sound action) history
  refine ⟨⟨rfl, ?_, ?_, ?_⟩, ?_, ?_, ?_, ?_, ?_, ?_, List.Pairwise.nil, ?_⟩
  all_goals simp [Heap.read, numbers]

/-! ## Turns of the event loop -/

theorem nextTopic_same (some : nextTopic bus delivery topics = .some (uid, func, next)) :
    next.number = delivery.number ∧ next.sync = delivery.sync := by
  induction topics with
  | nil => cases some
  | cons topic topics ih =>
    unfold nextTopic at some
    split at some
    · exact ih some
    · split at some
      · exact ih some
      · cases some
        exact ⟨rfl, rfl⟩

theorem advance_same (some : advance bus delivery = .some (uid, func, next)) :
    next.number = delivery.number ∧ next.sync = delivery.sync := by
  unfold advance at some
  split at some
  · cases some
    exact ⟨rfl, rfl⟩
  · exact nextTopic_same some

/-- A delivery goes on that is synchronous, or else alone and in its turn. -/
theorem Turns.went {below : List (Delivery D)} {after : Option (Nat × F × Delivery D)}
    (turns : Turns { machine with running := below })
    (own : delivery.sync = true ∨ (∀ other ∈ below, other.sync = true) ∧
      (∀ call ∈ machine.calls, call.sync = false → call.number ≤ delivery.number) ∧
      ∀ timer ∈ machine.timers, delivery.number < timer.1)
    (same : ∀ {uid func next}, after = some (uid, func, next) →
      next.number = delivery.number ∧ next.sync = delivery.sync) :
    Turns (goOn machine delivery below after) := by
  cases after with
  | none => exact ⟨turns.calls, turns.timers, turns.published, turns.ahead, turns.alone, turns.running⟩
  | some call =>
    obtain ⟨uid, func, next⟩ := call
    obtain ⟨number, sync⟩ := same rfl
    refine ⟨?_, turns.timers, turns.published, ?_, ?_, ?_⟩
    · refine List.pairwise_append.mpr ⟨turns.calls, List.pairwise_singleton _ _, ?_⟩
      intro call held new last early late
      rw [List.mem_singleton.mp last] at late ⊢
      rcases own with own | ⟨-, inTurn, -⟩
      · exact absurd (own.symm.trans (sync.symm.trans late)) (by simp)
      · exact number ▸ inTurn call held early
    · intro call held waits timer there
      rcases List.mem_append.mp held with old | last
      · exact turns.ahead call old waits timer there
      · rw [List.mem_singleton.mp last] at waits ⊢
        rcases own with own | ⟨-, -, before⟩
        · exact absurd (own.symm.trans (sync.symm.trans waits)) (by simp)
        · exact number ▸ before timer there
    · refine List.pairwise_cons.mpr ⟨fun other held => ?_, turns.alone⟩
      rcases own with own | ⟨others, -⟩
      · exact .inl (sync.trans own)
      · exact .inr (others other held)
    · intro other held waits
      rcases List.mem_cons.mp held with rfl | old
      · rcases own with own | ⟨-, inTurn, before⟩
        · exact absurd (own.symm.trans (sync.symm.trans waits)) (by simp)
        · refine ⟨?_, fun timer there => number ▸ before timer there⟩
          intro call there early
          rcases List.mem_append.mp there with older | last
          · exact number ▸ inTurn call older early
          · rw [List.mem_singleton.mp last]
      · obtain ⟨inTurn, before⟩ := turns.running other old waits
        refine ⟨?_, before⟩
        intro call there early
        rcases List.mem_append.mp there with older | last
        · exact inTurn call older early
        · rw [List.mem_singleton.mp last] at early
          rcases own with own | ⟨others, -⟩
          · exact absurd (own.symm.trans (sync.symm.trans early)) (by simp)
          · exact absurd ((others other old).symm.trans waits) (by simp)

theorem turns_step [DecidableEq F] (sound : Sound machine) (turns : Turns machine)
    (action : PageAction F D) (fifo : ∀ timer, action = .turn timer → timer = 0) :
    Turns (step machine action) := by
  obtain ⟨calls, timers, published, ahead, alone, running⟩ := turns
  cases action with
  | subscribe message func => exact ⟨calls, timers, published, ahead, alone, running⟩
  | unsubscribe value => exact ⟨calls, timers, published, ahead, alone, running⟩
  | clearSubscriptions topic => exact ⟨calls, timers, published, ahead, alone, running⟩
  | clearAllSubscriptions => exact ⟨calls, timers, published, ahead, alone, running⟩
  | publish message data =>
    simp only [step]
    split
    · refine ⟨calls, ?_, ?_, ?_, alone, ?_⟩
      · rw [List.map_append]
        refine List.pairwise_append.mpr ⟨timers, List.pairwise_singleton _ _, ?_⟩
        intro number held new last
        obtain ⟨timer, there, rfl⟩ := List.mem_map.mp held
        rw [List.mem_singleton.mp last]
        exact published timer there
      · intro timer held
        rcases List.mem_append.mp held with old | last
        · exact Nat.lt_succ_of_lt (published timer old)
        · rw [List.mem_singleton.mp last]
          exact Nat.lt_succ_self _
      · intro call held waits timer there
        rcases List.mem_append.mp there with old | last
        · exact ahead call held waits timer old
        · rw [List.mem_singleton.mp last]
          exact sound.counted call held
      · intro delivery held waits
        obtain ⟨inTurn, before⟩ := running delivery held waits
        refine ⟨inTurn, fun timer there => ?_⟩
        rcases List.mem_append.mp there with old | last
        · exact before timer old
        · rw [List.mem_singleton.mp last]
          exact sound.below _ (List.mem_append_left _ (List.mem_map_of_mem held))
    · exact ⟨calls, timers, published, ahead, alone, running⟩
  | publishSync message data =>
    simp only [step]
    split
    · exact Turns.went
        ⟨calls, timers, fun timer held => Nat.lt_succ_of_lt (published timer held), ahead, alone,
          running⟩ (.inl rfl) nextTopic_same
    · exact ⟨calls, timers, published, ahead, alone, running⟩
  | ret =>
    cases stack : machine.running with
    | nil =>
      simp only [step, stack]
      exact ⟨calls, timers, published, ahead, alone, running⟩
    | cons delivery below =>
      simp only [step, stack]
      rw [stack, List.pairwise_cons] at alone
      rw [stack, List.forall_mem_cons] at running
      refine Turns.went ⟨calls, timers, published, ahead, alone.2, running.2⟩ ?_ advance_same
      cases sync : delivery.sync with
      | true => exact .inl rfl
      | false =>
        obtain ⟨inTurn, before⟩ := running.1 sync
        refine .inr ⟨fun other held => ?_, inTurn, before⟩
        rcases alone.1 other held with own | outer
        · exact absurd (sync.symm.trans own) (by simp)
        · exact outer
  | turn timer =>
    obtain rfl := fifo timer rfl
    simp only [step]
    split
    · rename_i number message data stack first
      obtain ⟨later, queue⟩ := List.head?_eq_some_iff.mp (List.head?_eq_getElem? ▸ first)
      rw [queue] at timers published ahead
      rw [List.map_cons, List.pairwise_cons] at timers
      rw [queue, List.eraseIdx_cons_zero]
      have empty : ∀ {P : Delivery D → Prop}, ∀ delivery ∈ machine.running, P delivery := by
        rw [stack]
        exact fun _ held => absurd held List.not_mem_nil
      refine Turns.went ⟨calls, timers.2, ?_, ?_, alone, empty⟩ (.inr ⟨empty, ?_, ?_⟩)
        nextTopic_same
      · exact fun timer held => published timer (List.mem_cons_of_mem _ held)
      · exact fun call held waits timer there =>
          ahead call held waits timer (List.mem_cons_of_mem _ there)
      · exact fun call held waits => Nat.le_of_lt (ahead call held waits _ List.mem_cons_self)
      · exact fun timer held => timers.1 timer.1 (List.mem_map_of_mem held)
    · exact ⟨calls, timers, published, ahead, alone, running⟩

theorem turns_machineAfter [DecidableEq F] (history : List (PageAction F D))
    (fifo : ∀ timer, .turn timer ∈ history → timer = 0) : Turns (machineAfter history) := by
  induction history using List.reverseRecOn with
  | nil =>
    refine ⟨List.Pairwise.nil, List.Pairwise.nil, ?_, ?_, List.Pairwise.nil, ?_⟩
    all_goals simp [machineAfter]
  | append_singleton past action ih =>
    rw [machineAfter, after_concat]
    refine turns_step (sound_machineAfter past) ?_ action ?_
    · exact ih fun timer held => fifo timer (List.mem_append_left _ held)
    · rintro timer rfl
      exact fifo timer (List.mem_append_right _ (List.mem_singleton_self _))

/-- **Every publication calls its subscribers once and in order.** Whatever the
page and the subscribers do, in any order and however deep they call each other:
a call is of a subscription to the message's topic or to one above, with the
function that was given then; of one publication's calls, the more specific
topic's come first, then the earlier subscription's, and none comes twice; what
is published to wait for the event loop is delivered in the order of publication;
and a delivery that is through has called every subscription to its topics that
was there when it began and still is. -/
theorem called_once_in_order [DecidableEq F] (history : List (PageAction F D))
    (ordinary : OrdinaryRun history) :
    let machine : Machine F D := machineAfter history
    (∀ call ∈ machine.calls, (call.topic = call.message ∨ Above call.topic call.message) ∧
      ∃ ref, machine.made[call.uid]? = some (call.topic, ref, call.func)) ∧
    machine.calls.Pairwise (fun first second => Before first second ∧ InTurn first second) ∧
    ∀ finished ∈ machine.finished, ∀ topic uid, Live machine.bus topic uid →
      uid < finished.since → (topic = finished.message ∨ Above topic finished.message) →
      ∃ call ∈ machine.calls, call.number = finished.number ∧ call.uid = uid ∧
        call.message = finished.message := by
  intro machine
  have sound : Sound machine := sound_machineAfter history
  refine ⟨?_, sound.order.and (turns_machineAfter history ordinary.fifo).calls, ?_⟩
  · intro call held
    obtain ⟨level, made⟩ := sound.calls call held
    exact ⟨(mem_levels _ _).mp level, made⟩
  · intro finished held topic uid live early level
    obtain ⟨through, -⟩ := sound.done finished held
    obtain ⟨call, there, number, same⟩ := through.reached live early ((mem_levels _ _).mpr level)
    exact ⟨call, there, number, same, through.message call there number⟩

/-- What one publication calls is on the longer topic first. -/
theorem longer_topic_called_first :
    let history : List (PageAction Nat Unit) := [.subscribe "store:default" (some 1),
      .subscribe "store:default.load" (some 2), emit "store:default" "load" (), .turn 0, .ret, .ret]
    let machine := machineAfter history
    machine.calls.map Call.uid = [1, 0] ∧ machine.finished.map Finished.number = [0] ∧
      machine.calls.Pairwise (fun first second => Before first second ∧ InTurn first second) := by
  intro history machine
  have ordinary : OrdinaryRun history := by
    constructor
    · intro message func held
      simp only [history, emit, List.mem_cons, PageAction.subscribe.injEq, reduceCtorEq, or_false,
        List.not_mem_nil] at held
      rcases held with ⟨rfl, -⟩ | ⟨rfl, -⟩ <;> decide
    · intro timer held
      simpa [history, emit] using held
  exact ⟨by decide, by decide, (called_once_in_order history ordinary).2.1⟩

/-! ## Unsubscribing -/

/-- A token has been given out, and no object has it any more. -/
def Gone (bus : Bus F) (uid : Nat) : Prop :=
  uid < bus.lastUid ∧ ∀ ref, uid ∉ (bus.funcsOf ref).map Prod.fst

theorem token_injective : Function.Injective token := by
  intro first second same
  have digits : (toString first).toList = (toString second).toList := by
    simpa [token] using congrArg String.toList same
  exact Nat.repr_injective (String.toList_inj.mp digits)

/-- A token is the name of no property that all objects have. -/
theorem token_not_standard (uid : Nat) : Table.standardNames.contains (token uid) = false := by
  have starts : (token uid).toList = 'u' :: ("id_".toList ++ (toString uid).toList) := by
    simp [token]
  rw [← Bool.not_eq_true, List.contains_iff_mem]
  intro held
  have first : ∀ name ∈ Table.standardNames, name.toList.head? ≠ some 'u' := by decide
  exact first _ held (by rw [starts]; rfl)

/-- The call that answers a token has taken it out. -/
theorem gone_of_unsubscribe [DecidableEq F] (kept : Kept bus made)
    (answered : (unsubscribe bus (.text (token uid))).2 = .text (token uid)) :
    Gone (unsubscribe bus (.text (token uid))).1 uid := by
  simp only [unsubscribe] at answered ⊢
  by_cases topic : (bus.messages.lookup (token uid)).isSome
  · rw [if_pos topic] at answered
    cases answered
  · rw [if_neg topic] at answered ⊢
    cases found : bus.messages.find? fun message => hasProperty (bus.funcsOf message.2) (token uid) with
    | none =>
      rw [found] at answered
      cases answered
    | some message =>
      obtain ⟨name, ref⟩ := message
      have has := List.find?_some found
      simp only [hasProperty, token_not_standard, Bool.or_false, List.any_eq_true,
        decide_eq_true_eq] at has
      obtain ⟨entry, there, same⟩ := has
      have own := token_injective same
      subst own
      obtain ⟨object, read, inside⟩ := mem_funcsOf there
      refine ⟨kept.lt_of_mem (List.mem_map_of_mem there), ?_⟩
      intro other held
      have filtered := shrinks_modify bus ref fun other => token other.1 ≠ token entry.1
      have before := ((filtered.funcsOf other).map Prod.fst).subset held
      obtain ⟨entry', there', same'⟩ := List.mem_map.mp before
      obtain ⟨object', read', inside'⟩ := mem_funcsOf there'
      -- the token was subscribed in one object only
      have home := kept.entries read entry inside
      rw [← same', kept.entries read' entry' inside', Option.some.injEq] at home
      have one : other = ref := (Prod.mk.inj (Prod.mk.inj home).2).1
      subst one
      have left : (bus.objects.modify other
          (keepFuncs fun other => token other.1 ≠ token entry.1)).read other =
          some (keepFuncs (fun other => token other.1 ≠ token entry.1) object) := by
        rw [Heap.read_modify, if_pos rfl, read, Option.map_some]
      obtain ⟨entry'', there'', same''⟩ := List.mem_map.mp held
      obtain ⟨object'', read'', inside''⟩ := mem_funcsOf there''
      rw [show object'' = _ from Option.some.inj (read''.symm.trans left)] at inside''
      have kept' := (List.mem_filter.mp inside'').2
      simp [same''] at kept'

theorem Gone.shrinks (gone : Gone bus uid) (shrinks : Shrinks bus after) : Gone after uid := by
  refine ⟨shrinks.lastUid ▸ gone.1, fun ref held => gone.2 ref ?_⟩
  exact ((shrinks.funcsOf ref).map Prod.fst).subset held

theorem Gone.subscribed {func : F} (gone : Gone bus uid)
    (new : Subscribed bus after message ref func) : Gone after uid := by
  refine ⟨new.lastUid ▸ Nat.lt_succ_of_lt gone.1, fun other held => ?_⟩
  by_cases same : other = ref
  · rw [same, new.funcs, List.map_append] at held
    rcases List.mem_append.mp held with old | last
    · exact gone.2 ref old
    · exact Nat.ne_of_lt gone.1 (List.mem_singleton.mp last)
  · rw [new.funcs_other same] at held
    exact gone.2 other held

/-- Who is called is in some object. -/
theorem nextTopic_held (some : nextTopic bus delivery topics = .some (uid, func, next)) :
    ∃ ref, uid ∈ (bus.funcsOf ref).map Prod.fst := by
  induction topics with
  | nil => cases some
  | cons topic topics ih =>
    unfold nextTopic at some
    split at some
    · exact ih some
    · rename_i ref _
      split at some
      · exact ih some
      · rename_i found
        cases some
        exact ⟨ref, List.mem_map_of_mem (nextKey_some found).1⟩

theorem advance_held (some : advance bus delivery = .some (uid, func, next)) :
    ∃ ref, uid ∈ (bus.funcsOf ref).map Prod.fst := by
  unfold advance at some
  split at some
  · rename_i found
    cases some
    exact ⟨delivery.subscribers, List.mem_map_of_mem (nextKey_some found).1⟩
  · exact nextTopic_held some

/-- The calls so far, and others after them that are not of a token. -/
def CallsOnly (uid : Nat) (calls later : List (Call F D)) : Prop :=
  ∃ new, later = calls ++ new ∧ ∀ call ∈ new, call.uid ≠ uid

theorem CallsOnly.refl (calls : List (Call F D)) : CallsOnly uid calls calls :=
  ⟨[], (List.append_nil calls).symm, fun _ held => absurd held List.not_mem_nil⟩

theorem CallsOnly.trans {first second third : List (Call F D)} (early : CallsOnly uid first second)
    (late : CallsOnly uid second third) : CallsOnly uid first third := by
  obtain ⟨new, rfl, others⟩ := early
  obtain ⟨newer, rfl, others'⟩ := late
  refine ⟨new ++ newer, List.append_assoc _ _ _, fun call held => ?_⟩
  rcases List.mem_append.mp held with there | there
  · exact others call there
  · exact others' call there

theorem callsOnly_goOn (gone : Gone machine.bus uid) (below : List (Delivery D))
    {after : Option (Nat × F × Delivery D)}
    (held : ∀ {uid func next}, after = some (uid, func, next) →
      ∃ ref, uid ∈ (machine.bus.funcsOf ref).map Prod.fst) :
    CallsOnly uid machine.calls (goOn machine delivery below after).calls := by
  cases after with
  | none => exact CallsOnly.refl _
  | some call =>
    obtain ⟨other, func, next⟩ := call
    obtain ⟨ref, there⟩ := held rfl
    refine ⟨_, rfl, fun call new => ?_⟩
    rw [List.mem_singleton.mp new]
    rintro rfl
    exact gone.2 ref there

theorem goOn_bus (machine : Machine F D) (delivery : Delivery D) (below : List (Delivery D))
    (after : Option (Nat × F × Delivery D)) :
    (goOn machine delivery below after).bus = machine.bus := by
  cases after <;> rfl

theorem gone_deliver (gone : Gone machine.bus uid) (number : Nat) (sync : Bool) (message : String)
    (data : D) : Gone (deliver machine number sync message data).bus uid ∧
      CallsOnly uid machine.calls (deliver machine number sync message data).calls := by
  refine ⟨?_, callsOnly_goOn gone _ nextTopic_held⟩
  rw [deliver, goOn_bus]
  exact gone

theorem gone_step [DecidableEq F] (sound : Sound machine) (gone : Gone machine.bus uid)
    (action : PageAction F D) :
    Gone (step machine action).bus uid ∧ CallsOnly uid machine.calls (step machine action).calls := by
  cases action with
  | subscribe message func =>
    cases func with
    | none => exact ⟨gone, CallsOnly.refl _⟩
    | some func => exact ⟨gone.subscribed (subscribe_some sound.kept message func), CallsOnly.refl _⟩
  | unsubscribe value => exact ⟨gone.shrinks (shrinks_unsubscribe _ value), CallsOnly.refl _⟩
  | clearSubscriptions topic =>
    exact ⟨gone.shrinks (shrinks_clearSubscriptions _ topic), CallsOnly.refl _⟩
  | clearAllSubscriptions =>
    exact ⟨gone.shrinks (shrinks_clearAllSubscriptions _), CallsOnly.refl _⟩
  | publish message data =>
    simp only [step]
    split <;> exact ⟨gone, CallsOnly.refl _⟩
  | publishSync message data =>
    simp only [step]
    split
    · have counted : Gone { machine with published := machine.published + 1 }.bus uid := gone
      exact gone_deliver counted _ _ _ _
    · exact ⟨gone, CallsOnly.refl _⟩
  | ret =>
    cases stack : machine.running with
    | nil =>
      simp only [step, stack]
      exact ⟨gone, CallsOnly.refl _⟩
    | cons delivery below =>
      simp only [step, stack, goOn_bus]
      exact ⟨gone, callsOnly_goOn gone _ advance_held⟩
  | turn timer =>
    simp only [step]
    split
    · rename_i number message data _ _
      have popped : Gone { machine with timers := machine.timers.eraseIdx timer }.bus uid := gone
      exact gone_deliver popped number false message data
    · exact ⟨gone, CallsOnly.refl _⟩

/-- **Unsubscribed is never called again.** When `unsubscribe` has answered a
token, whatever happens later, not even a delivery that is under way or waits for
the event loop calls that subscription. -/
theorem unsubscribed_not_called [DecidableEq F] (past later : List (PageAction F D)) (uid : Nat)
    (answered : (unsubscribe (machineAfter past).bus (.text (token uid))).2 = .text (token uid)) :
    ∃ new, (machineAfter (past ++ .unsubscribe (.text (token uid)) :: later)).calls =
      (machineAfter past).calls ++ new ∧ ∀ call ∈ new, call.uid ≠ uid := by
  have run : ∀ later : List (PageAction F D),
      Gone (machineAfter (past ++ .unsubscribe (.text (token uid)) :: later)).bus uid ∧
        CallsOnly uid (machineAfter past).calls
          (machineAfter (past ++ .unsubscribe (.text (token uid)) :: later)).calls := by
    intro later
    induction later using List.reverseRecOn with
    | nil =>
      rw [machineAfter, after_concat, ← machineAfter]
      exact ⟨gone_of_unsubscribe (sound_machineAfter past).kept answered, CallsOnly.refl _⟩
    | append_singleton later action ih =>
      rw [← List.cons_append, ← List.append_assoc, machineAfter, after_concat, ← machineAfter]
      obtain ⟨gone, only⟩ := ih
      obtain ⟨gone', only'⟩ := gone_step (sound_machineAfter _) gone action
      exact ⟨gone', only.trans only'⟩
  exact (run later).2

/-- A subscriber of a topic unsubscribes the next one while it is called. -/
theorem next_subscriber_unsubscribed :
    let past : List (PageAction Nat Unit) := [.subscribe "store:default" (some 1),
      .subscribe "store:default" (some 2), emitSync "store:default" "load" ()]
    ∃ new, (machineAfter (past ++ .unsubscribe (.text (token 1)) :: [.ret])).calls =
      (machineAfter past).calls ++ new ∧ ∀ call ∈ new, call.uid ≠ 1 := by
  intro past
  exact unsubscribed_not_called past [.ret] 1 rfl

end NetGraphz.EventBusRuns
