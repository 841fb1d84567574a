import Mathlib.Data.List.Basic
import Mathlib.Data.List.Pairwise
import NetGraphz.EventBus

/-! Who is called, how often and in which order, whatever the subscribers do
while they are called: subscribe, unsubscribe, publish, or publish and wait. -/
namespace NetGraphz.EventBusProofs
open EventBus

variable {F : Type u} {D : Type v}

/-! ## Topics -/

theorem beforeLastDot_none (none : beforeLastDot text = .none) : '.' ∉ text := by
  induction text with
  | nil => exact List.not_mem_nil
  | cons c rest ih =>
    unfold beforeLastDot at none
    split at none
    · cases none
    · rename_i further
      split at none
      · cases none
      · rename_i other
        exact fun held => (List.mem_cons.mp held).elim (fun same => other same.symm) (ih further)

theorem beforeLastDot_some (cutAt : beforeLastDot text = some above) :
    ∃ rest, '.' ∉ rest ∧ text = above ++ '.' :: rest := by
  induction text generalizing above with
  | nil => cases cutAt
  | cons c text ih =>
    unfold beforeLastDot at cutAt
    split at cutAt
    · rename_i further found
      cases cutAt
      obtain ⟨rest, clear, rfl⟩ := ih found
      exact ⟨rest, clear, rfl⟩
    · rename_i found
      split at cutAt
      · rename_i dot
        cases cutAt
        exact ⟨text, beforeLastDot_none found, by rw [dot]; rfl⟩
      · cases cutAt

/-- A topic above another one is shorter by a dot and what follows it. -/
def Above (above topic : String) : Prop := ∃ rest, topic.toList = above.toList ++ '.' :: rest

theorem Above.shorter (above : Above upper topic) : upper.toList.length < topic.toList.length := by
  obtain ⟨rest, whole⟩ := above
  rw [whole, List.length_append, List.length_cons]
  omega

/-- The cut topic is above, and whatever else is above is it or above it. -/
theorem cut_spec (cutAt : cut topic = some upper) :
    Above upper topic ∧ ∀ other, Above other topic → other = upper ∨ Above other upper := by
  obtain ⟨text, found, rfl⟩ := Option.map_eq_some_iff.mp cutAt
  obtain ⟨rest, clear, whole⟩ := beforeLastDot_some found
  refine ⟨⟨rest, by rw [whole, String.toList_ofList]⟩, ?_⟩
  rintro other ⟨tail, split⟩
  have meet := whole.symm.trans split
  rcases List.append_eq_append_iff.mp meet with ⟨more, same, tails⟩ | ⟨more, same, tails⟩
  · -- the other is cut further down, which only the last dot itself allows
    cases more with
    | nil => exact .inl (String.toList_inj.mp (by simpa using same))
    | cons c more =>
      obtain ⟨-, inside⟩ := List.cons.inj tails
      exact absurd (inside ▸ List.mem_append_right _ List.mem_cons_self) clear
  · cases more with
    | nil => exact .inl (String.toList_inj.mp (by simpa using same.symm))
    | cons c more =>
      obtain ⟨dot, inside⟩ := List.cons.inj tails
      subst dot
      exact .inr ⟨more, by rw [String.toList_ofList]; exact same⟩

theorem cut_none (uncut : cut topic = none) : ¬ Above other topic := by
  rintro ⟨rest, whole⟩
  have clear := beforeLastDot_none (Option.map_eq_none_iff.mp uncut)
  exact clear (whole ▸ List.mem_append_right _ List.mem_cons_self)

theorem cuts_spec (fuel : Nat) (topic : String) (enough : topic.toList.length ≤ fuel) :
    (∀ other, other ∈ cuts fuel topic ↔ Above other topic) ∧
      (cuts fuel topic).Pairwise fun a b => b.toList.length < a.toList.length := by
  induction fuel generalizing topic with
  | zero =>
    refine ⟨fun other => iff_of_false List.not_mem_nil ?_, List.Pairwise.nil⟩
    intro above
    have shorter := above.shorter
    omega
  | succ fuel ih =>
    cases found : cut topic with
    | none =>
      rw [cuts, found]
      exact ⟨fun other => iff_of_false List.not_mem_nil (cut_none found), List.Pairwise.nil⟩
    | some upper =>
      obtain ⟨above, highest⟩ := cut_spec found
      have shorter := above.shorter
      obtain ⟨members, falling⟩ := ih upper (by omega)
      rw [cuts, found]
      refine ⟨fun other => ?_, List.pairwise_cons.mpr ⟨?_, falling⟩⟩
      · rw [List.mem_cons, members]
        constructor
        · rintro (rfl | further)
          · exact above
          · obtain ⟨rest, whole⟩ := above
            obtain ⟨tail, split⟩ := further
            exact ⟨tail ++ '.' :: rest, by rw [whole, split, List.append_assoc, List.cons_append]⟩
        · exact highest other
      · intro other held
        exact ((members other).mp held).shorter

/-- A message goes to its own topic and to all above, the longest first. -/
theorem mem_levels (topic message : String) :
    topic ∈ levels message ↔ topic = message ∨ Above topic message := by
  rw [levels, List.mem_cons, (cuts_spec _ _ (Nat.le_of_eq (String.length_toList))).1]

theorem levels_falling (message : String) :
    (levels message).Pairwise fun a b => b.toList.length < a.toList.length := by
  obtain ⟨members, falling⟩ := cuts_spec message.length message (Nat.le_of_eq String.length_toList)
  exact List.pairwise_cons.mpr ⟨fun other held => ((members other).mp held).shorter, falling⟩

/-! ## Subscriptions -/

variable {bus after : Bus F} {made : List (String × Ref × F)}

/-- A subscription is in force: it is in the object of its topic. -/
def Live (bus : Bus F) (topic : String) (uid : Nat) : Prop :=
  ∃ ref, bus.messages.lookup topic = some ref ∧ uid ∈ (bus.funcsOf ref).map Prod.fst

/-- The invariant of the subscriptions: what an object has was subscribed there,
and its tokens ascend. -/
structure Kept (bus : Bus F) (made : List (String × Ref × F)) : Prop where
  counted : made.length = bus.lastUid
  entries : ∀ {ref object}, bus.objects.read ref = some object → ∀ entry ∈ object.funcs,
    made[entry.1]? = some (object.topic, ref, entry.2)
  ascending : ∀ {ref object}, bus.objects.read ref = some object →
    (object.funcs.map Prod.fst).Pairwise (· < ·)
  titled : ∀ {topic ref}, bus.messages.lookup topic = some ref →
    ∃ object, bus.objects.read ref = some object ∧ object.topic = topic

theorem funcsOf_read (read : bus.objects.read ref = some object) :
    bus.funcsOf ref = object.funcs := by
  rw [Bus.funcsOf, read, Option.map_some, Option.getD_some]

theorem mem_funcsOf (held : entry ∈ bus.funcsOf ref) :
    ∃ object, bus.objects.read ref = some object ∧ entry ∈ object.funcs := by
  cases read : bus.objects.read ref with
  | none =>
    rw [Bus.funcsOf, read] at held
    cases held
  | some object => exact ⟨object, rfl, funcsOf_read read ▸ held⟩

theorem Kept.lt_of_mem (kept : Kept bus made) (held : uid ∈ (bus.funcsOf ref).map Prod.fst) :
    uid < bus.lastUid := by
  obtain ⟨entry, there, rfl⟩ := List.mem_map.mp held
  obtain ⟨object, read, inside⟩ := mem_funcsOf there
  rw [← kept.counted]
  exact (List.getElem?_eq_some_iff.mp (kept.entries read entry inside)).1

/-- A token that is in an object was subscribed there, under its topic. -/
theorem Kept.home (kept : Kept bus made) (read : bus.objects.read ref = some object)
    (held : uid ∈ object.funcs.map Prod.fst) : ∃ func, made[uid]? = some (object.topic, ref, func) := by
  obtain ⟨entry, there, rfl⟩ := List.mem_map.mp held
  exact ⟨entry.2, kept.entries read entry there⟩

/-- Subscriptions only went. -/
structure Shrinks (before after : Bus F) : Prop where
  lastUid : after.lastUid = before.lastUid
  objects : ∀ ref, ∃ keeps, after.objects.read ref = (before.objects.read ref).map (keepFuncs keeps)
  messages : ∀ {topic ref}, after.messages.lookup topic = some ref →
    before.messages.lookup topic = some ref

theorem Shrinks.of_messages (bus : Bus F) {messages : List (String × Ref)}
    (fewer : ∀ {topic ref}, messages.lookup topic = some ref → bus.messages.lookup topic = some ref) :
    Shrinks bus { bus with messages := messages } := by
  refine ⟨rfl, fun ref => ⟨fun _ => true, ?_⟩, fewer⟩
  have whole : keepFuncs (F := F) (fun _ => true) = id := by
    funext object
    simp [keepFuncs]
  rw [whole, Option.map_id, id]

/-- Topics that fail a test are deleted. -/
theorem lookup_filter (messages : List (String × Ref)) (keeps : String → Bool) (topic : String) :
    (messages.filter fun message => keeps message.1).lookup topic =
      if keeps topic then messages.lookup topic else none := by
  induction messages with
  | nil => simp
  | cons message rest ih =>
    obtain ⟨name, ref⟩ := message
    by_cases same : topic = name
    · subst same
      cases kept : keeps topic <;> simp [kept, ih]
    · have other : (topic == name) = false := beq_false_of_ne same
      rw [List.lookup_cons, other]
      cases kept : keeps name
      · simpa [kept] using ih
      · simpa [kept, List.lookup_cons, other] using ih

theorem shrinks_filter (bus : Bus F) (keeps : String → Bool) :
    Shrinks bus { bus with messages := bus.messages.filter fun message => keeps message.1 } := by
  apply Shrinks.of_messages
  intro topic ref found
  rw [lookup_filter] at found
  split at found
  · exact found
  · cases found

theorem shrinks_modify (bus : Bus F) (ref : Ref) (keeps : Nat × F → Bool) :
    Shrinks bus { bus with objects := bus.objects.modify ref (keepFuncs keeps) } := by
  refine ⟨rfl, fun other => ?_, fun found => found⟩
  change ∃ keeps', (bus.objects.modify ref (keepFuncs keeps)).read other = _
  rw [Heap.read_modify]
  split
  · exact ⟨keeps, rfl⟩
  · exact (Shrinks.of_messages bus fun found => found).objects other

theorem Shrinks.trans {first second third : Bus F} (early : Shrinks first second)
    (late : Shrinks second third) : Shrinks first third := by
  refine ⟨late.lastUid.trans early.lastUid, fun ref => ?_, fun found =>
    early.messages (late.messages found)⟩
  obtain ⟨keeps, some⟩ := early.objects ref
  obtain ⟨keeps', some'⟩ := late.objects ref
  refine ⟨fun entry => keeps entry && keeps' entry, ?_⟩
  rw [some', some, Option.map_map]
  congr 1
  funext object
  simp [keepFuncs, List.filter_filter, Bool.and_comm]

theorem shrinks_foldl (messages : List (String × Ref)) (bus : Bus F) (keeps : Nat × F → Bool) :
    Shrinks bus { bus with
      objects := messages.foldl (fun objects message => objects.modify message.2 (keepFuncs keeps))
        bus.objects } := by
  induction messages generalizing bus with
  | nil => exact Shrinks.of_messages bus fun found => found
  | cons message rest ih => exact (shrinks_modify bus message.2 keeps).trans (ih _)

theorem shrinks_unsubscribe [DecidableEq F] (bus : Bus F) (value : Value F) :
    Shrinks bus (unsubscribe bus value).1 := by
  cases value with
  | text value =>
    simp only [unsubscribe]
    split
    · have test := shrinks_filter bus fun name => name ≠ value
      exact test
    · split
      · exact Shrinks.of_messages bus fun found => found
      · exact shrinks_modify bus _ _
  | function value => exact shrinks_foldl bus.messages bus _

theorem shrinks_clearSubscriptions (bus : Bus F) (topic : String) :
    Shrinks bus (clearSubscriptions bus topic) :=
  shrinks_filter bus fun name => !topic.toList.isPrefixOf name.toList

theorem shrinks_clearAllSubscriptions (bus : Bus F) : Shrinks bus (clearAllSubscriptions bus) :=
  Shrinks.of_messages bus (by simp)

theorem Shrinks.funcsOf (shrinks : Shrinks bus after) (ref : Ref) :
    (after.funcsOf ref).Sublist (bus.funcsOf ref) := by
  obtain ⟨keeps, some⟩ := shrinks.objects ref
  rw [Bus.funcsOf, Bus.funcsOf, some]
  cases bus.objects.read ref with
  | none => exact List.Sublist.refl _
  | some object => exact List.filter_sublist

theorem Shrinks.live (shrinks : Shrinks bus after) (live : Live after topic uid) :
    Live bus topic uid := by
  obtain ⟨ref, found, held⟩ := live
  exact ⟨ref, shrinks.messages found, ((shrinks.funcsOf ref).map Prod.fst).subset held⟩

theorem Kept.shrinks (kept : Kept bus made) (shrinks : Shrinks bus after) : Kept after made := by
  have older : ∀ {ref object}, after.objects.read ref = some object → ∃ held keeps,
      bus.objects.read ref = some held ∧ object = keepFuncs keeps held := by
    intro ref object read
    obtain ⟨keeps, some⟩ := shrinks.objects ref
    rw [some] at read
    obtain ⟨held, before, rfl⟩ := Option.map_eq_some_iff.mp read
    exact ⟨held, keeps, before, rfl⟩
  refine ⟨kept.counted.trans shrinks.lastUid.symm, ?_, ?_, ?_⟩
  · intro ref object read entry there
    obtain ⟨held, keeps, before, rfl⟩ := older read
    exact kept.entries before entry (List.mem_filter.mp there).1
  · intro ref object read
    obtain ⟨held, keeps, before, rfl⟩ := older read
    exact (kept.ascending before).sublist (List.filter_sublist.map Prod.fst)
  · intro topic ref found
    obtain ⟨object, before, title⟩ := kept.titled (shrinks.messages found)
    obtain ⟨keeps, some⟩ := shrinks.objects ref
    exact ⟨keepFuncs keeps object, by rw [some, before, Option.map_some], title⟩

/-- One subscription came: the last of its topic's object. -/
structure Subscribed (bus after : Bus F) (message : String) (ref : Ref) (func : F) : Prop where
  lastUid : after.lastUid = bus.lastUid + 1
  found : after.messages.lookup message = some ref
  others : ∀ {topic}, topic ≠ message → after.messages.lookup topic = bus.messages.lookup topic
  reads : ∀ {other}, other ≠ ref → after.objects.read other = bus.objects.read other
  object : after.objects.read ref = some ⟨message, bus.funcsOf ref ++ [(bus.lastUid, func)]⟩
  before : bus.messages.lookup message = some ref ∧
      bus.objects.read ref = some ⟨message, bus.funcsOf ref⟩ ∨
    bus.messages.lookup message = none ∧ bus.objects.read ref = none

theorem lookup_append_new (messages : List (String × Ref)) (message topic : String) (ref : Ref)
    (new : messages.lookup message = none) :
    (messages ++ [(message, ref)]).lookup topic =
      if topic = message then some ref else messages.lookup topic := by
  rw [List.lookup_append]
  by_cases same : topic = message
  · subst same
    simp [new]
  · have other : (topic == message) = false := beq_false_of_ne same
    simp [same, List.lookup_cons, other]

theorem subscribe_some (kept : Kept bus made) (message : String) (func : F) :
    Subscribed bus (subscribe bus message (some func)).1 message (registered bus message).2 func := by
  cases found : bus.messages.lookup message with
  | some ref =>
    obtain ⟨object, read, title⟩ := kept.titled found
    have same : object = ⟨message, bus.funcsOf ref⟩ := by
      rw [funcsOf_read read, ← title]
    simp only [subscribe, registered, found]
    refine ⟨rfl, found, fun _ => rfl, ?_, ?_, .inl ⟨found, same ▸ read⟩⟩
    · intro other apart
      simp only [Heap.read_modify, if_neg apart]
    · simp only [Heap.read_modify, if_true, read, Option.map_some, same]
  | none =>
    have fresh : bus.objects.read bus.objects.next = none := by
      simp [Heap.read, Heap.next]
    simp only [subscribe, registered, found]
    refine ⟨rfl, ?_, ?_, ?_, ?_, .inr ⟨found, fresh⟩⟩
    · simp [lookup_append_new _ _ _ _ found]
    · intro topic apart
      simp [lookup_append_new _ _ _ _ found, apart]
    · intro other apart
      simp only [Heap.read_modify, if_neg apart, Heap.read_alloc]
    · simp only [Heap.read_modify, if_true, Heap.read_alloc, Option.map_some, Bus.funcsOf, fresh,
        Option.map_none, Option.getD_none]

section
variable {func : F} {ref : Ref} (new : Subscribed bus after message ref func)
include new

theorem Subscribed.funcs : after.funcsOf ref = bus.funcsOf ref ++ [(bus.lastUid, func)] :=
  funcsOf_read new.object

theorem Subscribed.funcs_other (apart : other ≠ ref) : after.funcsOf other = bus.funcsOf other := by
  rw [Bus.funcsOf, Bus.funcsOf, new.reads apart]

/-- Another topic has another object. -/
theorem Subscribed.apart (kept : Kept bus made) (known : bus.messages.lookup topic = some other)
    (same : topic ≠ message) : other ≠ ref := by
  obtain ⟨object, read, title⟩ := kept.titled known
  rintro rfl
  rcases new.before with ⟨-, own⟩ | ⟨-, unread⟩
  · rw [read, Option.some.injEq] at own
    exact same (title.symm.trans (own ▸ rfl))
  · rw [read] at unread
    cases unread

/-- What is in force was so before, or is the new subscription. -/
theorem Subscribed.live (kept : Kept bus made) (live : Live after topic uid) :
    Live bus topic uid ∨ uid = bus.lastUid := by
  obtain ⟨found, at_, held⟩ := live
  by_cases same : topic = message
  · subst same
    have own : found = ref := Option.some.inj (at_.symm.trans new.found)
    rw [own, new.funcs, List.map_append] at held
    rcases List.mem_append.mp held with old | last
    · rcases new.before with ⟨known, -⟩ | ⟨-, unread⟩
      · exact .inl ⟨ref, known, old⟩
      · rw [Bus.funcsOf, unread] at old
        cases old
    · exact .inr (List.mem_singleton.mp last)
  · rw [new.others same] at at_
    rw [new.funcs_other (new.apart kept at_ same)] at held
    exact .inl ⟨found, at_, held⟩

theorem Kept.subscribed (kept : Kept bus made) : Kept after (made ++ [(message, ref, func)]) := by
  have own : ∀ {object}, after.objects.read ref = some object →
      object = ⟨message, bus.funcsOf ref ++ [(bus.lastUid, func)]⟩ := fun read =>
    Option.some.inj (read.symm.trans new.object)
  -- the object's earlier entries were kept under the same topic
  have earlier : ∀ entry ∈ bus.funcsOf ref, made[entry.1]? = some (message, ref, entry.2) := by
    intro entry held
    rcases new.before with ⟨-, read⟩ | ⟨-, unread⟩
    · exact kept.entries read entry held
    · rw [Bus.funcsOf, unread] at held
      cases held
  have older : ∀ {uid : Nat} {item}, made[uid]? = some item →
      (made ++ [(message, ref, func)])[uid]? = some item := by
    intro uid item there
    rw [List.getElem?_append_left (List.getElem?_eq_some_iff.mp there).1]
    exact there
  refine ⟨?_, ?_, ?_, ?_⟩
  · rw [List.length_append, kept.counted, new.lastUid]
    rfl
  · intro other object read entry held
    by_cases same : other = ref
    · subst same
      rw [own read] at held ⊢
      rcases List.mem_append.mp held with old | last
      · exact older (earlier entry old)
      · rw [List.mem_singleton.mp last, ← kept.counted]
        exact List.getElem?_concat_length
    · rw [new.reads same] at read
      exact older (kept.entries read entry held)
  · intro other object read
    by_cases same : other = ref
    · subst same
      rw [own read, List.map_append, List.pairwise_append]
      refine ⟨?_, List.pairwise_singleton _ _, ?_⟩
      · rcases new.before with ⟨-, before⟩ | ⟨-, unread⟩
        · exact kept.ascending before
        · rw [Bus.funcsOf, unread]
          exact List.Pairwise.nil
      · intro uid old last isLast
        rw [List.mem_singleton.mp isLast]
        exact kept.lt_of_mem old
    · rw [new.reads same] at read
      exact kept.ascending read
  · intro topic other found
    by_cases same : topic = message
    · subst same
      have own := Option.some.inj (found.symm.trans new.found)
      exact ⟨_, own ▸ new.object, rfl⟩
    · rw [new.others same] at found
      obtain ⟨object, read, title⟩ := kept.titled found
      exact ⟨object, (new.reads (new.apart kept found same)).trans read, title⟩

end

/-! ## Deliveries -/

variable {calls : List (Call F D)} {delivery next : Delivery D}

/-- A delivery has called a subscription. -/
def Called (calls : List (Call F D)) (number uid : Nat) : Prop :=
  ∃ call ∈ calls, call.number = number ∧ call.uid = uid

theorem Called.more (called : Called calls number uid) (new : Call F D) :
    Called (calls ++ [new]) number uid := by
  obtain ⟨call, held, own⟩ := called
  exact ⟨call, List.mem_append_left _ held, own⟩

/-- Of a delivery, the topics in `topics` are left: it has called on longer ones,
and what was in force when it began and still is, it has called, or is left. -/
structure Left (bus : Bus F) (calls : List (Call F D)) (delivery : Delivery D)
    (topics : List String) : Prop where
  suffix : topics <:+ levels delivery.message
  behind : ∀ call ∈ calls, call.number = delivery.number → call.message = delivery.message ∧
    ∀ topic ∈ topics, topic.toList.length < call.topic.toList.length
  reached : ∀ {topic uid}, Live bus topic uid → uid < delivery.since →
    topic ∈ levels delivery.message → topic ∈ topics ∨ Called calls delivery.number uid

/-- A delivery is on its way: within the object of one of the topics, with keys
left of it, and with shorter topics. -/
structure Way (bus : Bus F) (made : List (String × Ref × F)) (calls : List (Call F D))
    (delivery : Delivery D) : Prop where
  suffix : delivery.topic :: delivery.topics <:+ levels delivery.message
  object : ∃ object, bus.objects.read delivery.subscribers = some object ∧
    object.topic = delivery.topic
  ascending : delivery.keys.Pairwise (· < ·)
  home : ∀ uid ∈ delivery.keys, ∃ func,
    made[uid]? = some (delivery.topic, delivery.subscribers, func)
  behind : ∀ call ∈ calls, call.number = delivery.number → call.message = delivery.message ∧
    (delivery.topic.toList.length < call.topic.toList.length ∨
      call.topic = delivery.topic ∧ ∀ uid ∈ delivery.keys, call.uid < uid)
  reached : ∀ {topic uid}, Live bus topic uid → uid < delivery.since →
    topic ∈ levels delivery.message → topic ∈ delivery.topics ∨
      (topic = delivery.topic ∧ uid ∈ delivery.keys) ∨ Called calls delivery.number uid

/-- The levels behind a topic are shorter. -/
theorem shorter_of_suffix (suffix : topic :: topics <:+ levels message) (held : other ∈ topics) :
    other.toList.length < topic.toList.length := by
  have falling := (levels_falling message).sublist suffix.sublist
  exact (List.pairwise_cons.mp falling).1 other held

theorem lookup_funcs_none (funcs : List (Nat × F)) (uid : Nat) :
    funcs.lookup uid = none ↔ uid ∉ funcs.map Prod.fst := by
  rw [List.lookup_eq_none_iff]
  constructor
  · intro all held
    obtain ⟨entry, there, rfl⟩ := List.mem_map.mp held
    simpa using all entry there
  · intro gone entry there
    have apart : uid ≠ entry.1 := by
      rintro rfl
      exact gone (List.mem_map_of_mem there)
    simpa using apart

theorem nextKey_none {funcs : List (Nat × F)} {keys : List Nat} (none : nextKey funcs keys = .none) :
    ∀ uid ∈ keys, uid ∉ funcs.map Prod.fst := by
  induction keys with
  | nil => exact fun _ held => absurd held List.not_mem_nil
  | cons uid rest ih =>
    unfold nextKey at none
    split at none
    · rename_i gone
      intro other held
      rcases List.mem_cons.mp held with rfl | later
      · exact (lookup_funcs_none funcs other).mp gone
      · exact ih none other later
    · cases none

theorem nextKey_some {funcs : List (Nat × F)} {keys rest : List Nat}
    (some : nextKey funcs keys = .some (uid, func, rest)) :
    (uid, func) ∈ funcs ∧ ∃ skipped, keys = skipped ++ uid :: rest ∧
      ∀ other ∈ skipped, other ∉ funcs.map Prod.fst := by
  induction keys with
  | nil => cases some
  | cons key keys ih =>
    unfold nextKey at some
    split at some
    · rename_i gone
      obtain ⟨held, skipped, rfl, absent⟩ := ih some
      refine ⟨held, key :: skipped, rfl, ?_⟩
      intro other there
      rcases List.mem_cons.mp there with rfl | later
      · exact (lookup_funcs_none funcs other).mp gone
      · exact absent other later
    · rename_i found
      cases some
      refine ⟨?_, [], rfl, fun _ held => absurd held List.not_mem_nil⟩
      obtain ⟨before, after, split, -⟩ := List.lookup_eq_some_iff.mp found
      rw [split]
      exact List.mem_append_right _ List.mem_cons_self

/-- Over its own keys the loop begins at the first. -/
theorem nextKey_own (funcs : List (Nat × F)) :
    nextKey funcs (funcs.map Prod.fst) =
      funcs.head?.map fun entry => (entry.1, entry.2, funcs.tail.map Prod.fst) := by
  cases funcs with
  | nil => rfl
  | cons entry rest =>
    obtain ⟨uid, func⟩ := entry
    simp [nextKey, List.lookup_cons_self]

/-- What a call that is made next has to do with the calls before. -/
structure Follows (made : List (String × Ref × F)) (calls : List (Call F D)) (number : Nat)
    (message topic : String) (uid : Nat) (func : F) : Prop where
  level : topic ∈ levels message
  made : ∃ ref, made[uid]? = some (topic, ref, func)
  order : ∀ call ∈ calls, call.number = number →
    topic.toList.length < call.topic.toList.length ∨ call.topic = topic ∧ call.uid < uid

/-- The delivery after its next call, and that call. -/
structure Advanced (bus : Bus F) (made : List (String × Ref × F)) (calls : List (Call F D))
    (delivery next : Delivery D) (uid : Nat) (func : F) : Prop where
  number : next.number = delivery.number
  sync : next.sync = delivery.sync
  message : next.message = delivery.message
  since : next.since = delivery.since
  follows : Follows made calls delivery.number delivery.message next.topic uid func
  way : Way bus made
    (calls ++ [⟨next.number, next.sync, next.topic, uid, func, next.message, next.data⟩]) next

/-- A topic on which nothing is in force need not be left. -/
theorem Left.skip (left : Left bus calls delivery (topic :: topics))
    (idle : ∀ uid, ¬ Live bus topic uid) : Left bus calls delivery topics := by
  refine ⟨(List.suffix_cons topic topics).trans left.suffix, ?_, ?_⟩
  · intro call held own
    obtain ⟨message, longer⟩ := left.behind call held own
    exact ⟨message, fun other there => longer other (List.mem_cons_of_mem topic there)⟩
  · intro other uid live early level
    rcases left.reached live early level with there | called
    · rcases List.mem_cons.mp there with rfl | later
      · exact absurd live (idle uid)
      · exact .inl later
    · exact .inr called

/-- With no topic left, everything in force has been called. -/
theorem nextTopic_none (left : Left bus calls delivery topics)
    (none : nextTopic bus delivery topics = .none) : Left bus calls delivery [] := by
  induction topics with
  | nil => exact left
  | cons topic topics ih =>
    -- nothing is in force on the first of the topics
    have idle : ∀ uid, ¬ Live bus topic uid := by
      rintro uid ⟨ref, found, held⟩
      rw [nextTopic, found] at none
      simp only [nextKey_own] at none
      cases funcs : bus.funcsOf ref with
      | nil =>
        rw [funcs] at held
        cases held
      | cons entry rest =>
        rw [funcs] at none
        cases none
    apply ih (left.skip idle)
    rw [nextTopic] at none
    split at none
    · exact none
    · split at none
      · exact none
      · cases none

/-- The next topic with a subscriber: its first is called. -/
theorem nextTopic_some (kept : Kept bus made) (left : Left bus calls delivery topics)
    (some : nextTopic bus delivery topics = .some (uid, func, next)) :
    Advanced bus made calls delivery next uid func := by
  induction topics with
  | nil => cases some
  | cons topic topics ih =>
    unfold nextTopic at some
    split at some
    · rename_i unknown
      refine ih (left.skip ?_) some
      rintro uid ⟨ref, found, -⟩
      rw [unknown] at found
      cases found
    · rename_i ref found
      obtain ⟨object, read, title⟩ := kept.titled found
      rw [nextKey_own, funcsOf_read read] at some
      cases funcs : object.funcs with
      | nil =>
        rw [funcs] at some
        refine ih (left.skip ?_) some
        rintro uid ⟨ref', found', held⟩
        rw [found, Option.some.injEq] at found'
        rw [← found', funcsOf_read read, funcs] at held
        cases held
      | cons entry others =>
        rw [funcs] at some
        cases some
        have ascending := kept.ascending read
        rw [funcs, List.map_cons, List.pairwise_cons] at ascending
        have longer : ∀ call ∈ calls, call.number = delivery.number →
            topic.toList.length < call.topic.toList.length := fun call held own =>
          (left.behind call held own).2 topic List.mem_cons_self
        refine ⟨rfl, rfl, rfl, rfl, ⟨?_, ⟨ref, ?_⟩, fun call held own => .inl (longer call held own)⟩, ?_⟩
        · exact left.suffix.subset List.mem_cons_self
        · rw [← title]
          exact kept.entries read entry (funcs ▸ List.mem_cons_self)
        · refine ⟨left.suffix, ⟨object, read, title⟩, ascending.2, ?_, ?_, ?_⟩
          · intro uid held
            rw [← title]
            exact kept.home read (by rw [funcs]; exact List.mem_cons_of_mem _ held)
          · intro call held own
            rcases List.mem_append.mp held with old | last
            · exact ⟨(left.behind call old own).1, .inl (longer call old own)⟩
            · rw [List.mem_singleton.mp last]
              exact ⟨rfl, .inr ⟨rfl, ascending.1⟩⟩
          · intro other uid live early level
            rcases left.reached live early level with there | called
            · rcases List.mem_cons.mp there with rfl | later
              · obtain ⟨ref', found', held⟩ := live
                rw [found, Option.some.injEq] at found'
                rw [← found', funcsOf_read read, funcs, List.map_cons] at held
                rcases List.mem_cons.mp held with rfl | further
                · exact .inr (.inr ⟨_, List.mem_append_right _ (List.mem_singleton.mpr rfl), rfl, rfl⟩)
                · exact .inr (.inl ⟨rfl, further⟩)
              · exact .inl later
            · exact .inr (.inr (called.more _))

/-- What is in force on the topic a delivery is on, is in its object if it was
there when the loop began. -/
theorem Way.still (kept : Kept bus made) (way : Way bus made calls delivery)
    (live : Live bus delivery.topic uid) (held : uid ∈ delivery.keys) :
    uid ∈ (bus.funcsOf delivery.subscribers).map Prod.fst := by
  obtain ⟨ref, found, there⟩ := live
  obtain ⟨object, read, title⟩ := kept.titled found
  rw [funcsOf_read read] at there
  obtain ⟨func, subscribed⟩ := kept.home read there
  obtain ⟨func', began⟩ := way.home uid held
  have same := Option.some.inj (subscribed.symm.trans began)
  rw [← (Prod.mk.inj (Prod.mk.inj same).2).1, funcsOf_read read]
  exact there

/-- The object is through: the other topics are left. -/
theorem Way.left (kept : Kept bus made) (way : Way bus made calls delivery)
    (through : nextKey (bus.funcsOf delivery.subscribers) delivery.keys = none) :
    Left bus calls delivery delivery.topics := by
  refine ⟨(List.suffix_cons _ _).trans way.suffix, ?_, ?_⟩
  · intro call held own
    obtain ⟨message, place⟩ := way.behind call held own
    refine ⟨message, fun topic there => ?_⟩
    have shorter := shorter_of_suffix way.suffix there
    rcases place with longer | ⟨same, -⟩
    · omega
    · rwa [same]
  · intro topic uid live early level
    rcases way.reached live early level with later | ⟨rfl, held⟩ | called
    · exact .inl later
    · exact absurd (way.still kept live held) (nextKey_none through uid held)
    · exact .inr called

theorem advance_none (kept : Kept bus made) (way : Way bus made calls delivery)
    (none : advance bus delivery = .none) : Left bus calls delivery [] := by
  unfold advance at none
  split at none
  · cases none
  · rename_i through
    exact nextTopic_none (way.left kept through) none

theorem advance_some (kept : Kept bus made) (way : Way bus made calls delivery)
    (some : advance bus delivery = .some (uid, func, next)) :
    Advanced bus made calls delivery next uid func := by
  unfold advance at some
  split at some
  · rename_i uid func keys found
    cases some
    obtain ⟨there, skipped, split, absent⟩ := nextKey_some found
    obtain ⟨object, read, title⟩ := way.object
    rw [funcsOf_read read] at there
    have ascending := way.ascending
    rw [split, List.pairwise_append, List.pairwise_cons] at ascending
    have within : ∀ {other}, other ∈ keys → other ∈ delivery.keys := fun held => by
      rw [split]
      exact List.mem_append_right _ (List.mem_cons_of_mem _ held)
    have own : uid ∈ delivery.keys := by
      rw [split]
      exact List.mem_append_right _ List.mem_cons_self
    refine ⟨rfl, rfl, rfl, rfl,
      ⟨way.suffix.subset List.mem_cons_self, ⟨delivery.subscribers, ?_⟩, ?_⟩, way.suffix,
      ⟨object, read, title⟩, ascending.2.1.2,
      fun other held => way.home other (within held), ?_, ?_⟩
    · exact title ▸ kept.entries read _ there
    · intro call held same
      obtain ⟨-, longer | ⟨topic, before⟩⟩ := way.behind call held same
      · exact .inl longer
      · exact .inr ⟨topic, before uid own⟩
    · intro call held same
      rcases List.mem_append.mp held with old | last
      · obtain ⟨message, longer | ⟨topic, before⟩⟩ := way.behind call old same
        · exact ⟨message, .inl longer⟩
        · exact ⟨message, .inr ⟨topic, fun other later => before other (within later)⟩⟩
      · rw [List.mem_singleton.mp last]
        exact ⟨rfl, .inr ⟨rfl, ascending.2.1.1⟩⟩
    · intro topic other live early level
      rcases way.reached live early level with later | ⟨rfl, held⟩ | called
      · exact .inl later
      · have still := way.still kept live held
        rw [split] at held
        rcases List.mem_append.mp held with gone | held
        · exact absurd still (absent other gone)
        · rcases List.mem_cons.mp held with rfl | later
          · exact .inr (.inr ⟨_, List.mem_append_right _ (List.mem_singleton.mpr rfl), rfl, rfl⟩)
          · exact .inr (.inl ⟨rfl, later⟩)
      · exact .inr (.inr (called.more _))
  · rename_i through
    exact nextTopic_some kept (way.left kept through) some

end NetGraphz.EventBusProofs
