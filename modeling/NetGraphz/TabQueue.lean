import Mathlib.Data.List.InsertIdx
import Mathlib.Logic.Function.Iterate
import NetGraphz.TabStop
import NetGraphz.Base.History

/-! The queue of tab stops against the store it mirrors. Every delivered update
puts the id of its node into the queue or takes it out, so what counts is which
nodes are named to the queue at all. -/
namespace NetGraphz.TabQueue
open GraphStore TabStop

variable {default_state_source : Option String} {storage : Storage R} {page : Page R}
  {queue : List (Handed R)} {shown : Option Int → Prop} {id : Option Int}

/-- The ids in a queue. -/
def ids (queue : List (Handed R)) : List (Option Int) := queue.map Handed.id

/-- Once all events are delivered, no id is in the queue twice and the queue has
the ids of the stored nodes in a bad state. -/
def InStep (default_state_source : Option String) (page : Page R) : Prop :=
  let later := (deliver default_state_source)^[page.pending.length] page
  later.pending = [] ∧ (ids later.stops.queue).Nodup ∧
    ∀ id, id ∈ ids later.stops.queue ↔
      ∃ key node, id = some key ∧ later.storage.store.getNodeById key = some node ∧
        Problem default_state_source node

/-- The queue is told of what a call changes: a bad node that is updated alone is
in the store already, and the last node without an id in a list is not bad. -/
def Announced (default_state_source : Option String) (page : Page R) : Action R → Prop
  | .updateNode node =>
    node.hasId → Problem default_state_source node.node →
      (page.storage.store.getNodeById node.node.id).isSome
  | .updateNodes nodes =>
    ∀ node, (nodes.filter fun node => !node.hasId).getLast? = some node →
      ¬Problem default_state_source node.node
  | .deliver => True
  | .keydown _ _ => True

@[simp] theorem ids_concat (queue : List (Handed R)) (last : Handed R) :
    ids (queue ++ [last]) = ids queue ++ [last.id] := by
  simp [ids]

theorem indexIn_concat (queue : List (Handed R)) (last : Handed R) (id : Option Int) :
    indexIn (queue ++ [last]) id = if last.id = id then some queue.length else indexIn queue id := by
  simp [indexIn, List.zipIdx_append]

theorem indexIn_none (queue : List (Handed R)) (id : Option Int) :
    indexIn queue id = none ↔ id ∉ ids queue := by
  induction queue using List.reverseRecOn with
  | nil => simp [indexIn, ids]
  | append_singleton queue last ih =>
    rw [indexIn_concat]
    by_cases same : last.id = id
    · simp [ids, same]
    · have other : id ≠ last.id := fun back => same back.symm
      simp [same, other, ih]

theorem indexIn_some {index : Nat} (found : indexIn queue id = some index) :
    (ids queue)[index]? = some id := by
  induction queue using List.reverseRecOn generalizing index with
  | nil => simp [indexIn] at found
  | append_singleton queue last ih =>
    rw [indexIn_concat] at found
    split at found
    · rename_i same
      obtain rfl : queue.length = index := by simpa using found
      rw [ids_concat, same]
      simp [ids]
    · have before := ih found
      have inside : index < (ids queue).length := (List.getElem?_eq_some_iff.mp before).1
      rw [ids_concat, List.getElem?_append_left inside]
      exact before

/-- The queue as a set of ids. -/
structure Mirrors (queue : List (Handed R)) (shown : Option Int → Prop) : Prop where
  distinct : (ids queue).Nodup
  same : ∀ id, id ∈ ids queue ↔ shown id

/-- What is shown once a node has been named. -/
def mark (default_state_source : Option String) (shown : Option Int → Prop) (node : Handed R) :
    Option Int → Prop :=
  Function.update shown node.id (Problem default_state_source node.node)

/-- What an update of a node makes of the ids. -/
theorem ids_handleNodeUpdate (distinct : (ids queue).Nodup) (node : Handed R) :
    ids (handleNodeUpdate default_state_source queue node) =
      if Problem default_state_source node.node then
        if node.id ∈ ids queue then ids queue else ids queue ++ [node.id]
      else (ids queue).erase node.id := by
  unfold handleNodeUpdate
  cases found : indexIn queue node.id with
  | none =>
    have absent := (indexIn_none queue node.id).mp found
    dsimp only
    split
    · exact ids_concat queue node
    · exact (List.erase_of_not_mem absent).symm
  | some index =>
    obtain ⟨inside, value⟩ := List.getElem?_eq_some_iff.mp (indexIn_some found)
    have present : node.id ∈ ids queue := value ▸ List.getElem_mem inside
    dsimp only
    split
    · rfl
    · rw [← value, distinct.erase_getElem index inside]
      exact (List.eraseIdx_map Handed.id queue index).symm

theorem Mirrors.handleNodeUpdate (mirrors : Mirrors queue shown) (node : Handed R) :
    Mirrors (handleNodeUpdate default_state_source queue node)
      (mark default_state_source shown node) := by
  have distinct := mirrors.distinct
  constructor
  · rw [ids_handleNodeUpdate distinct]
    split
    · split
      · exact distinct
      · rename_i absent
        exact List.concat_eq_append ▸ distinct.concat absent
    · exact distinct.erase _
  · intro id
    rw [ids_handleNodeUpdate distinct, mark, Function.update_apply, ← mirrors.same id]
    split
    · split <;> split <;> simp_all
    · rw [distinct.mem_erase_iff]
      split <;> simp_all

theorem Mirrors.foldl (mirrors : Mirrors queue shown) (nodes : List (Handed R)) :
    Mirrors (nodes.foldl (TabStop.handleNodeUpdate default_state_source) queue)
      (nodes.foldl (mark default_state_source) shown) := by
  induction nodes generalizing queue shown with
  | nil => exact mirrors
  | cons node nodes ih => exact ih (mirrors.handleNodeUpdate node)

/-- A queue shows one set only. -/
theorem Mirrors.iff (mirrors : Mirrors queue shown) (wanted : Option Int → Prop) :
    Mirrors queue wanted ↔ ∀ id, shown id ↔ wanted id :=
  ⟨fun other id => (mirrors.same id).symm.trans (other.same id),
    fun agree => ⟨mirrors.distinct, fun id => (mirrors.same id).trans (agree id)⟩⟩

/-- The ids that the store would have in the queue. -/
def wanted (default_state_source : Option String) (storage : Storage R) (id : Option Int) : Prop :=
  ∃ key node, id = some key ∧ storage.store.getNodeById key = some node ∧
    Problem default_state_source node

theorem wanted_enterNode (storage : Storage R) (node : Node R) :
    wanted default_state_source (storage.enterNode node) =
      mark default_state_source (wanted default_state_source storage) ⟨node, true⟩ := by
  funext id
  apply propext
  simp only [wanted, Storage.enterNode, getNodeById_enterNode, mark, Handed.id, if_true,
    Function.update_apply]
  split
  · rename_i same
    simp [same]
  · rename_i other
    constructor
    · rintro ⟨key, stored, rfl, found, problem⟩
      rw [if_neg (by simpa using other)] at found
      exact ⟨key, stored, rfl, found, problem⟩
    · rintro ⟨key, stored, rfl, found, problem⟩
      refine ⟨key, stored, rfl, ?_, problem⟩
      rw [if_neg (by simpa using other), found]

theorem not_wanted_none (storage : Storage R) : ¬wanted default_state_source storage none := by
  rintro ⟨key, node, same, _⟩
  cases same

theorem mark_other (shown : Option Int → Prop) (node : Handed R) (other : id ≠ node.id) :
    mark default_state_source shown node id ↔ shown id := by
  rw [mark, Function.update_of_ne other]

/-- Naming the nodes of a list leaves what the store leaves. -/
theorem wanted_foldl (storage : Storage R) (nodes : List (Handed R)) (key : Int) :
    wanted default_state_source (nodes.foldl enterHanded storage) (some key) ↔
      nodes.foldl (mark default_state_source) (wanted default_state_source storage) (some key) := by
  induction nodes using List.reverseRecOn with
  | nil => rfl
  | append_singleton nodes last ih =>
    rw [List.foldl_concat, List.foldl_concat]
    obtain ⟨node, hasId⟩ := last
    cases hasId with
    | true =>
      rw [enterHanded, if_pos rfl, wanted_enterNode]
      by_cases same : some key = some node.id
      · simp [mark, Handed.id, same]
      · rw [mark_other _ _ (by simpa [Handed.id] using same),
          mark_other _ _ (by simpa [Handed.id] using same), ih]
    | false =>
      rw [mark_other _ _ (by simp [Handed.id]), ← ih]
      rfl

/-- What becomes of the missing id is decided by the last node that lacks one. -/
theorem foldl_mark_none (shown : Option Int → Prop) (absent : ¬shown none)
    (nodes : List (Handed R)) :
    nodes.foldl (mark default_state_source) shown none ↔
      ∃ node, (nodes.filter fun node => !node.hasId).getLast? = some node ∧
        Problem default_state_source node.node := by
  induction nodes using List.reverseRecOn with
  | nil => simpa using absent
  | append_singleton nodes last ih =>
    rw [List.foldl_concat, List.filter_append]
    obtain ⟨node, hasId⟩ := last
    cases hasId with
    | true =>
      rw [mark_other _ _ (by simp [Handed.id]), ih]
      simp
    | false => simp [mark, Handed.id]

/-- What is left to deliver, delivered. -/
theorem deliver_all (page : Page R) :
    (deliver default_state_source)^[page.pending.length] page =
      { page with
        pending := []
        stops := { page.stops with
          queue := page.pending.foldl (received default_state_source) page.stops.queue } } := by
  obtain ⟨storage, pending, stops⟩ := page
  induction pending generalizing stops with
  | nil => rfl
  | cons event later ih => exact ih _

/-- The queue that the page is going to have. -/
def settled (default_state_source : Option String) (page : Page R) : List (Handed R) :=
  page.pending.foldl (received default_state_source) page.stops.queue

theorem inStep_iff_mirrors (page : Page R) :
    InStep default_state_source page ↔
      Mirrors (settled default_state_source page) (wanted default_state_source page.storage) := by
  unfold InStep
  rw [deliver_all]
  exact ⟨fun ⟨_, distinct, same⟩ => ⟨distinct, same⟩, fun ⟨distinct, same⟩ => ⟨rfl, distinct, same⟩⟩

theorem settled_updateNode (page : Page R) {node : Handed R} (hasId : node.hasId) :
    settled default_state_source (updateNode page node) =
      if (page.storage.store.getNodeById node.node.id).isSome then
        handleNodeUpdate default_state_source (settled default_state_source page) node
      else settled default_state_source page := by
  simp only [updateNode, if_pos hasId, settled, List.foldl_concat]
  split <;> rfl

/-- A call keeps the queue in step exactly when the queue is told of it. -/
theorem inStep_updateNode (before : InStep default_state_source page) (node : Handed R) :
    InStep default_state_source (updateNode page node) ↔
      Announced default_state_source page (.updateNode node) := by
  rw [inStep_iff_mirrors] at before ⊢
  by_cases hasId : node.hasId
  · have named : node = ⟨node.node, true⟩ := by rw [← hasId]
    have stored : wanted default_state_source (updateNode page node).storage =
        mark default_state_source (wanted default_state_source page.storage) node := by
      simp only [updateNode, if_pos hasId]
      rw [wanted_enterNode, ← named]
    rw [settled_updateNode page hasId, stored]
    split
    · rename_i found
      exact ⟨fun _ _ _ => found, fun _ => before.handleNodeUpdate node⟩
    · rename_i missing
      have unwanted : ¬wanted default_state_source page.storage node.id := by
        rintro ⟨key, other, same, found, _⟩
        obtain rfl : node.node.id = key := by simpa [Handed.id, hasId] using same
        exact missing (by rw [found]; rfl)
      rw [before.iff]
      constructor
      · intro agree _ problem
        exact absurd ((agree node.id).mpr (by simpa [mark] using problem)) unwanted
      · intro announced id
        by_cases own : id = node.id
        · subst own
          have fine : ¬Problem default_state_source node.node :=
            fun problem => missing (announced hasId problem)
          simpa [mark, fine] using unwanted
        · exact (mark_other _ node own).symm
  · have unchanged : updateNode page node = page := by simp [updateNode, hasId]
    rw [unchanged]
    exact ⟨fun _ named => absurd named hasId, fun _ => before⟩

theorem inStep_updateNodes (before : InStep default_state_source page) (nodes : List (Handed R)) :
    InStep default_state_source (updateNodes page nodes) ↔
      Announced default_state_source page (.updateNodes nodes) := by
  rw [inStep_iff_mirrors] at before ⊢
  have told : settled default_state_source (updateNodes page nodes) =
      nodes.foldl (handleNodeUpdate default_state_source) (settled default_state_source page) := by
    simp only [updateNodes, settled, List.foldl_concat, received]
  have nameless : nodes.foldl (mark default_state_source)
      (wanted default_state_source page.storage) none ↔
        ∃ node, (nodes.filter fun node => !node.hasId).getLast? = some node ∧
          Problem default_state_source node.node :=
    foldl_mark_none _ (not_wanted_none page.storage) nodes
  rw [told, (before.foldl nodes).iff]
  constructor
  · intro agree node last problem
    exact not_wanted_none _ ((agree none).mp (nameless.mpr ⟨node, last, problem⟩))
  · intro announced id
    cases id with
    | none =>
      refine iff_of_false (fun shown => ?_) (not_wanted_none _)
      obtain ⟨node, last, problem⟩ := nameless.mp shown
      exact announced node last problem
    | some key => exact (wanted_foldl page.storage nodes key).symm

/-- Neither a delivery nor a key changes what the page is going to have. -/
theorem settled_deliver (page : Page R) :
    settled default_state_source (deliver default_state_source page) =
      settled default_state_source page := by
  obtain ⟨storage, pending, stops⟩ := page
  cases pending <;> rfl

theorem storage_deliver (page : Page R) :
    (deliver default_state_source page).storage = page.storage := by
  unfold deliver
  split <;> rfl

theorem inStep_step (before : InStep default_state_source page) (action : Action R) :
    InStep default_state_source (step default_state_source page action) ↔
      Announced default_state_source page action := by
  cases action with
  | updateNode node => exact inStep_updateNode before node
  | updateNodes nodes => exact inStep_updateNodes before nodes
  | deliver =>
    rw [inStep_iff_mirrors] at before ⊢
    rw [step, settled_deliver, storage_deliver]
    exact iff_of_true before trivial
  | keydown keyCode shiftKey =>
    rw [inStep_iff_mirrors] at before ⊢
    rw [step, settled, queue_keydown]
    exact iff_of_true before trivial

theorem keys_perm (storage : Storage R) : storage.keys.Perm storage.entered := by
  have byNumber := List.mergeSort_perm (storage.entered.filter isArrayIndex)
    fun first second => first ≤ second
  exact (byNumber.append_right _).trans (List.filter_append_perm isArrayIndex storage.entered)

/-- The stored nodes under their keys. -/
theorem stored_ids (storage : Storage R) :
    (storage.keys.filterMap storage.store.getNodeById).map Node.id = storage.keys := by
  have each : ∀ key ∈ storage.keys, (storage.store.getNodeById key).map Node.id = some key := by
    intro key member
    have entered := (keys_perm storage).mem_iff.mp member
    obtain ⟨node, found⟩ := Option.isSome_iff_exists.mp ((storage.listed key).mp entered)
    rw [found, Option.map_some, storage.filed key node found]
  rw [List.map_filterMap, List.filterMap_congr each]
  exact List.filterMap_some

theorem mem_nodesIn (storage : Storage R) (state : Int) (node : Node R) :
    node ∈ storage.nodesIn state default_state_source ↔
      storage.store.getNodeById node.id = some node ∧
        getNodePrefEffectiveState default_state_source node = some state := by
  simp only [Storage.nodesIn, List.mem_filter, List.mem_filterMap, decide_eq_true_eq]
  refine and_congr_left fun _ => ⟨?_, fun found => ⟨node.id, ?_, found⟩⟩
  · rintro ⟨key, _, found⟩
    rwa [storage.filed key node found]
  · exact (keys_perm storage).mem_iff.mpr ((storage.listed node.id).mpr (by rw [found]; rfl))

theorem nodup_nodesIn (storage : Storage R) (state : Int) :
    ((storage.nodesIn state default_state_source).map Node.id).Nodup := by
  have stored : ((storage.keys.filterMap storage.store.getNodeById).map Node.id).Nodup := by
    rw [stored_ids]
    exact (keys_perm storage).nodup_iff.mpr storage.distinct
  exact stored.sublist (List.filter_sublist.map Node.id)

/-- The queue starts in step. -/
theorem inStep_init (storage : Storage R) :
    InStep default_state_source (init default_state_source storage) := by
  rw [inStep_iff_mirrors]
  have named : ids (settled default_state_source (init default_state_source storage)) =
      ((storage.getDownNodes default_state_source).map Node.id ++
        (storage.getWarningNodes default_state_source).map Node.id).map some := by
    simp [settled, init, ids, Handed.id, Function.comp_def]
  constructor
  · rw [named]
    refine List.Nodup.map (fun _ _ => Option.some.inj) ?_
    apply List.Nodup.append (nodup_nodesIn storage _) (nodup_nodesIn storage _)
    intro id down warn
    obtain ⟨first, isDown, rfl⟩ := List.mem_map.mp down
    obtain ⟨second, isWarn, same⟩ := List.mem_map.mp warn
    obtain ⟨firstFound, firstState⟩ := (mem_nodesIn storage _ first).mp isDown
    obtain ⟨secondFound, secondState⟩ := (mem_nodesIn storage _ second).mp isWarn
    rw [same, firstFound] at secondFound
    obtain rfl := Option.some.inj secondFound
    rw [firstState] at secondState
    cases secondState
  · intro id
    rw [named]
    simp only [List.mem_map, List.mem_append, Storage.getDownNodes, Storage.getWarningNodes,
      mem_nodesIn, wanted, Problem, init]
    constructor
    · rintro ⟨_, ⟨node, ⟨found, state⟩, rfl⟩ | ⟨node, ⟨found, state⟩, rfl⟩, rfl⟩
      · exact ⟨node.id, node, rfl, found, .inl state⟩
      · exact ⟨node.id, node, rfl, found, .inr state⟩
    · rintro ⟨key, node, rfl, found, state⟩
      have own := storage.filed key node found
      subst own
      rcases state with state | state
      · exact ⟨node.id, .inl ⟨node, ⟨found, state⟩, rfl⟩, rfl⟩
      · exact ⟨node.id, .inr ⟨node, ⟨found, state⟩, rfl⟩, rfl⟩

/-- The queue is in step all along exactly when it is told of every call. -/
theorem in_step_iff_announced (default_state_source : Option String) (storage : Storage R)
    (history : List (Action R)) :
    (∀ past, past <+: history →
      InStep default_state_source
        (after (step default_state_source) (init default_state_source storage) past)) ↔
      ∀ past last, past ++ [last] <+: history →
        Announced default_state_source
          (after (step default_state_source) (init default_state_source storage) past) last := by
  refine throughout_iff_each_step _ _ (inStep_init storage) ?_ history
  intro past last before
  rw [after_concat]
  exact inStep_step before last

/-- A node that is down when it first comes to the store. -/
def newcomer : Handed Unit where
  node := { id := 1, type := none, status := some [⟨"Icinga", 1, 1⟩], metrics := none }
  hasId := true

/-- It is stored and never gets into the queue. -/
theorem newcomer_is_no_stop :
    ¬∀ history : List (Action Unit),
      InStep none (after (step none) (init none newStorage) history) := by
  intro always
  have announced : Announced none (init none newStorage) (.updateNode newcomer) :=
    (inStep_step (inStep_init newStorage) (.updateNode newcomer)).mp (always [.updateNode newcomer])
  cases announced rfl (.inl rfl)

end NetGraphz.TabQueue
