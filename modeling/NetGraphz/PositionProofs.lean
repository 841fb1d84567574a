import Mathlib
import NetGraphz.Base.History
import NetGraphz.UserPositions

/-! A user's layout is what that user's successful requests made of it, in the order
they were answered, whatever the other users' requests do in between. -/
namespace NetGraphz.PositionProofs
open UserStore Auth Documents UserPositions

variable {F : Type u}

/-! ## Layouts -/

/-- Where a user put the nodes. -/
abbrev Layout (F : Type u) := Int → Option (NodePosition F)

def layoutIn (u_nodes : UserNodes F) : Layout F := fun node =>
  (u_nodes.positions.getD []).lookup node

/-- The layout a user has stored, if any. -/
def layoutOf (store : Store F) (uid : String) : Option (Layout F) :=
  (store.findFirst uid).map layoutIn

section
variable [Zero F]

/-- The last entry for a node says where it is. -/
def overwrite (layout : Layout F) (entries : List (Entry F)) : Layout F := fun node =>
  ((entries.map Entry.position).reverse.find? fun pos => pos.node_id = node).or (layout node)

/-- What a request is meant to do with its user's layout. -/
def effect (call : Call F) (layout : Option (Layout F)) : Option (Layout F) :=
  match call with
  | .savePositions _ rawBody => some (overwrite (layout.getD fun _ => none) (rawBody.getD []))
  | .deletePositions => none

end

/-- The user a request's session names. -/
def uidOf (packages : Packages) (request : Request F) : Option String :=
  request.session.bind (getUserId packages)

/-- The layouts after one more answer. -/
def answered [Zero F] (packages : Packages) (layouts : String → Option (Layout F))
    (answer : Request F × Response) : String → Option (Layout F) := fun uid =>
  if answer.2 = done ∧ uidOf packages answer.1 = some uid then effect answer.1.call (layouts uid)
  else layouts uid

theorem answered_done [Zero F] {packages : Packages} {layouts : String → Option (Layout F)}
    {request : Request F} {uid : String} (own : uidOf packages request = some uid) :
    answered packages layouts (request, done) uid = effect request.call (layouts uid) :=
  if_pos ⟨rfl, own⟩

theorem answered_other [Zero F] {packages : Packages} {layouts : String → Option (Layout F)}
    {answer : Request F × Response} {uid : String}
    (other : answer.2 = done → uidOf packages answer.1 ≠ some uid) :
    answered packages layouts answer uid = layouts uid :=
  if_neg fun mine => other mine.1 mine.2

theorem lookup_setPositions [Zero F] (positions : Option (List (Int × NodePosition F)))
    (entries : List (Entry F)) (node : Int) :
    ((entries.foldl setPosition positions).getD []).lookup node =
      overwrite (fun node => (positions.getD []).lookup node) entries node := by
  induction entries generalizing positions with
  | nil => rfl
  | cons pos rest ih =>
    rw [List.foldl_cons, ih]
    simp only [overwrite, setPosition, Option.getD_some, lookup_put, List.map_cons,
      List.reverse_cons, List.find?_append, Option.or_assoc]
    congr 1
    by_cases isNode : pos.position.node_id = node
    · simp [isNode]
    · simp [isNode, Ne.symm isNode]

theorem layoutIn_updated [Zero F] (found : Option (UserNodes F)) (uid : String) (time : Int)
    (rawBody : Option (List (Entry F))) :
    layoutIn (updated found uid time rawBody) =
      overwrite ((found.map layoutIn).getD fun _ => none) (rawBody.getD []) := by
  funext node
  unfold layoutIn updated
  rw [lookup_setPositions]
  cases found <;> rfl

/-! ## The documents of a user -/

/-- The documents a user has. There should be one at most. -/
def documentsOf (store : Store F) (uid : String) : List (UserNodes F) :=
  ownedBy UserNodes.uid uid store.documents

theorem findFirst_eq_head (store : Store F) (uid : String) :
    store.findFirst uid = (documentsOf store uid).head? :=
  List.head?_filter.symm

/-- Every identifier belongs to one user: the stored documents and those that wait to
be written agree on whose it is, and no new document will get it. -/
def Belongs (users : Nat → String) (nextId : Nat) (u_nodes : UserNodes F) : Prop :=
  ∀ n, u_nodes._id = some n → n < nextId ∧ u_nodes.uid = users n

structure Owned (packages : Packages) (users : Nat → String) (server : Server F) : Prop where
  stored : ∀ u_nodes ∈ server.store.documents, Belongs users server.store.nextId u_nodes
  waiting : ∀ waiting ∈ server.waiting, Belongs users server.store.nextId waiting.u_nodes
  signed : ∀ waiting ∈ server.waiting,
    uidOf packages waiting.request = some waiting.u_nodes.uid

theorem uid_of_findFirst {store : Store F} {uid : String} {u_nodes : UserNodes F}
    (found : store.findFirst uid = some u_nodes) :
    u_nodes ∈ store.documents ∧ u_nodes.uid = uid := by
  refine ⟨List.mem_of_find?_eq_some found, ?_⟩
  simpa using List.find?_some found

/-! ## Reading -/

variable {emailValid : String → Bool} {packages : Packages}

/-- What an action that goes on to write has made of what it read. -/
def Asked [Zero F] (store : Store F) (uid : String) (waiting : Waiting F) : Prop :=
  match waiting.request.call with
  | .savePositions time rawBody =>
    waiting.u_nodes = updated (store.findFirst uid) uid time rawBody
  | .deletePositions => store.findFirst uid = some waiting.u_nodes

variable [Zero F]

theorem uid_updated (store : Store F) (uid : String) (time : Int)
    (rawBody : Option (List (Entry F))) :
    (updated (store.findFirst uid) uid time rawBody).uid = uid := by
  cases found : store.findFirst uid with
  | none => rfl
  | some u_nodes => exact (uid_of_findFirst found).2

/-- An action that gets as far as the collection has a user to read it for. -/
theorem fetch_cases (users : Collection emailValid) (store : Store F) (request : Request F) :
    (∃ response, response ≠ done ∧ fetch packages users store request = .error response) ∨
      ∃ uid, uidOf packages request = some uid ∧
        fetch packages users store request =
          match request.call with
          | .savePositions time rawBody => .ok (updated (store.findFirst uid) uid time rawBody)
          | .deletePositions =>
            match store.findFirst uid with
            | none => .error done
            | some u_nodes => .ok u_nodes := by
  obtain ⟨session, call⟩ := request
  cases session with
  | none => cases call <;> exact Or.inl ⟨_, by simp [done], rfl⟩
  | some identity =>
    cases isId : getUserId packages identity with
    | none =>
      refine Or.inl ⟨.exception "Invalid object ID", by simp [done], ?_⟩
      cases call <;> simp [fetch, savePositionsAction, deletePositionsAction, isId]
    | some uid =>
      cases account : users.findById uid with
      | none =>
        cases call with
        | savePositions time rawBody =>
          refine Or.inl ⟨.status 403 "User not found", by simp [done], ?_⟩
          simp [fetch, savePositionsAction, isId, account]
        | deletePositions =>
          refine Or.inl ⟨.state false 417 (some "Not logged in"), by simp [done], ?_⟩
          simp [fetch, deletePositionsAction, isId, account]
      | some user =>
        refine Or.inr ⟨uid, isId, ?_⟩
        cases call with
        | savePositions time rawBody => simp [fetch, savePositionsAction, isId, account]
        | deletePositions =>
          cases found : store.findFirst uid <;>
            simp [fetch, deletePositionsAction, isId, account, found]

theorem fetch_ok {users : Collection emailValid} {store : Store F} {request : Request F}
    {u_nodes : UserNodes F} (fetched : fetch packages users store request = .ok u_nodes) :
    ∃ uid, uidOf packages request = some uid ∧ Asked store uid ⟨request, u_nodes⟩ ∧
      u_nodes.uid = uid := by
  rcases fetch_cases users store request with ⟨response, -, failed⟩ | ⟨uid, isUid, result⟩
  · rw [fetched] at failed
    cases failed
  · refine ⟨uid, isUid, ?_⟩
    obtain ⟨session, call⟩ := request
    cases call with
    | savePositions time rawBody =>
      cases fetched.symm.trans result
      exact ⟨rfl, uid_updated store uid time rawBody⟩
    | deletePositions =>
      cases found : store.findFirst uid with
      | none =>
        rw [fetched, found] at result
        cases result
      | some old =>
        rw [fetched, found] at result
        cases result
        exact ⟨found, (uid_of_findFirst found).2⟩

/-- The only success without a write is a deletion of nothing. -/
theorem fetch_done {users : Collection emailValid} {store : Store F} {request : Request F}
    (fetched : fetch packages users store request = .error done) :
    request.call = .deletePositions ∧
      ∃ uid, uidOf packages request = some uid ∧ store.findFirst uid = none := by
  rcases fetch_cases users store request with ⟨response, notDone, failed⟩ | ⟨uid, isUid, result⟩
  · rw [fetched] at failed
    cases failed
    exact absurd rfl notDone
  · obtain ⟨session, call⟩ := request
    cases call with
    | savePositions time rawBody => cases fetched.symm.trans result
    | deletePositions =>
      cases found : store.findFirst uid with
      | none => exact ⟨rfl, uid, isUid, found⟩
      | some old =>
        rw [fetched, found] at result
        cases result

/-! ## Identifiers and users -/

theorem belongs_fetched {users : Nat → String} {store : Store F} {uid : String}
    {waiting : Waiting F} (asked : Asked store uid waiting)
    (stored : ∀ u_nodes ∈ store.documents, Belongs users store.nextId u_nodes) :
    Belongs users store.nextId waiting.u_nodes := by
  obtain ⟨⟨session, call⟩, u_nodes⟩ := waiting
  cases call with
  | savePositions time rawBody =>
    cases asked
    cases found : store.findFirst uid with
    | none =>
      intro n isId
      cases isId
    | some old => exact stored old (uid_of_findFirst found).1
  | deletePositions => exact stored u_nodes (uid_of_findFirst asked).1

section
omit [Zero F]

/-- A new identifier goes to the user whose document is saved. -/
theorem belongs_save {users : Nat → String} {store : Store F} {u_nodes : UserNodes F}
    (its : Belongs users store.nextId u_nodes) :
    ∃ users', Belongs users' (store.save u_nodes).nextId (store.identified u_nodes) ∧
      ∀ other : UserNodes F, Belongs users store.nextId other →
        Belongs users' (store.save u_nodes).nextId other := by
  have above : store.nextId ≤ (store.save u_nodes).nextId := Nat.le_max_left _ _
  have kept (other : UserNodes F) (belongs : Belongs users store.nextId other) :
      Belongs (Function.update users store.nextId u_nodes.uid) (store.save u_nodes).nextId
        other := by
    intro n isId
    obtain ⟨below, isUser⟩ := belongs n isId
    refine ⟨Nat.lt_of_lt_of_le below above, ?_⟩
    rw [isUser, Function.update_of_ne (Nat.ne_of_lt below)]
  refine ⟨_, ?_, kept⟩
  cases isNew : u_nodes._id with
  | none =>
    intro n isId
    simp only [Store.identified, isNew, Option.getD_none, Option.some.injEq] at isId
    subst isId
    refine ⟨?_, by simp [Store.identified]⟩
    simp [Store.save, isNew]
  | some n =>
    have same : store.identified u_nodes = u_nodes := by
      unfold Store.identified
      rw [isNew, Option.getD_some, ← isNew]
    rw [same]
    exact kept u_nodes its

/-- At the start every identifier belongs to the user of its document. -/
theorem owned_start (store : Store F) :
    ∃ users, Owned packages users { store := store } := by
  refine ⟨fun n => ((store.documents.find? fun stored => stored._id = some n).map
    UserNodes.uid).getD "", ?_, by simp, by simp⟩
  intro u_nodes held n isId
  obtain ⟨m, below, isNumber⟩ := store.numbered u_nodes held
  have same : m = n := Option.some.inj (isNumber.symm.trans isId)
  refine ⟨same ▸ below, ?_⟩
  have found := Keyed.find_of_mem store.distinct held
  rw [isId] at found
  simp [found]

theorem documentsOf_save {users : Nat → String} {store : Store F} {u_nodes : UserNodes F}
    (stored : ∀ old ∈ store.documents, Belongs users store.nextId old)
    (its : Belongs users store.nextId u_nodes) (uid : String) :
    documentsOf (store.save u_nodes) uid =
      if u_nodes.uid = uid then
        put UserNodes._id (documentsOf store uid) (store.identified u_nodes)
      else documentsOf store uid := by
  obtain ⟨users', itsNow, kept⟩ := belongs_save its
  have same : ∀ old ∈ store.documents, old._id = (store.identified u_nodes)._id →
      old.uid = (store.identified u_nodes).uid := by
    intro old held isId
    rw [(kept old (stored old held) _ isId).2, (itsNow _ rfl).2]
  exact ownedBy_put same uid

theorem documentsOf_delete {users : Nat → String} {store : Store F} {u_nodes : UserNodes F}
    (stored : ∀ old ∈ store.documents, Belongs users store.nextId old)
    (its : Belongs users store.nextId u_nodes) (uid : String) :
    documentsOf (store.delete u_nodes) uid =
      if u_nodes.uid = uid then drop UserNodes._id (documentsOf store uid) u_nodes._id
      else documentsOf store uid := by
  have dropped : documentsOf (store.delete u_nodes) uid =
      drop UserNodes._id (documentsOf store uid) u_nodes._id :=
    ownedBy_drop store.documents uid u_nodes._id
  split
  · exact dropped
  · rename_i other
    refine dropped.trans (drop_absent ?_)
    intro old held same
    obtain ⟨oldHeld, isUser⟩ := mem_ownedBy.mp held
    obtain ⟨n, _, isId⟩ := store.numbered old oldHeld
    have isOwner := (its n (same ▸ isId)).2
    have oldOwner := (stored old oldHeld n isId).2
    exact other (isOwner.trans (oldOwner.symm.trans isUser))

end

/-! ## Writing -/

/-- The collection after a request's write. -/
def written (store : Store F) (waiting : Waiting F) : Store F :=
  match waiting.request.call with
  | .savePositions _ _ => store.save waiting.u_nodes
  | .deletePositions => store.delete waiting.u_nodes

section
omit [Zero F]

theorem finish_cases (store : Store F) (waiting : Waiting F) (succeeds : Bool) :
    finish store waiting succeeds = (written store waiting, done) ∨
      ∃ response, response ≠ done ∧ finish store waiting succeeds = (store, response) := by
  unfold finish written
  cases waiting.request.call <;> cases succeeds <;> simp [done]

theorem written_other {users : Nat → String} {store : Store F} {waiting : Waiting F}
    (stored : ∀ old ∈ store.documents, Belongs users store.nextId old)
    (its : Belongs users store.nextId waiting.u_nodes) {uid : String}
    (other : waiting.u_nodes.uid ≠ uid) :
    documentsOf (written store waiting) uid = documentsOf store uid := by
  unfold written
  split
  · rw [documentsOf_save stored its, if_neg other]
  · rw [documentsOf_delete stored its, if_neg other]

/-- What is written belongs to whom it belonged to. -/
theorem belongs_written {users : Nat → String} {store : Store F} {waiting : Waiting F}
    (stored : ∀ old ∈ store.documents, Belongs users store.nextId old)
    (its : Belongs users store.nextId waiting.u_nodes) :
    ∃ users', (∀ old ∈ (written store waiting).documents,
        Belongs users' (written store waiting).nextId old) ∧
      ∀ other : UserNodes F, Belongs users store.nextId other →
        Belongs users' (written store waiting).nextId other := by
  unfold written
  split
  · obtain ⟨users', itsNow, kept⟩ := belongs_save its
    refine ⟨users', ?_, kept⟩
    intro old held
    rcases mem_put.mp held with rfl | ⟨before, _⟩
    · exact itsNow
    · exact kept old (stored old before)
  · exact ⟨users, fun old held => stored old (mem_drop.mp held).1, fun _ belongs => belongs⟩

end

/-- What can happen in a step. -/
theorem step_cases (packages : Packages) (server : Server F) (event : Event F emailValid) :
    (∃ accounts request response, event = .arrives accounts request ∧
        fetch packages accounts server.store request = .error response ∧
        step packages server event =
          { server with answers := server.answers ++ [(request, response)] }) ∨
      (∃ accounts request u_nodes, event = .arrives accounts request ∧
        fetch packages accounts server.store request = .ok u_nodes ∧
        step packages server event =
          { server with waiting := server.waiting ++ [⟨request, u_nodes⟩] }) ∨
      (∃ index waiting, server.waiting[index]? = some waiting ∧
        step packages server event =
          { store := written server.store waiting
            waiting := server.waiting.eraseIdx index
            answers := server.answers ++ [(waiting.request, done)] }) ∨
      (∃ index waiting response, server.waiting[index]? = some waiting ∧ response ≠ done ∧
        step packages server event =
          { store := server.store
            waiting := server.waiting.eraseIdx index
            answers := server.answers ++ [(waiting.request, response)] }) ∨
      step packages server event = server := by
  cases event with
  | arrives accounts request =>
    simp only [step]
    cases fetched : fetch packages accounts server.store request with
    | error response => exact Or.inl ⟨accounts, request, response, rfl, fetched, rfl⟩
    | ok u_nodes => exact Or.inr (Or.inl ⟨accounts, request, u_nodes, rfl, fetched, rfl⟩)
  | writes index succeeds =>
    simp only [step]
    cases found : server.waiting[index]? with
    | none => exact Or.inr (Or.inr (Or.inr (Or.inr rfl)))
    | some waiting =>
      rcases finish_cases server.store waiting succeeds with isDone | ⟨response, notDone, failed⟩
      · refine Or.inr (Or.inr (Or.inl ⟨index, waiting, found, ?_⟩))
        simp only [isDone]
      · refine Or.inr (Or.inr (Or.inr (Or.inl ⟨index, waiting, response, found, notDone, ?_⟩)))
        simp only [failed]

/-- Whatever arrives or is written, identifiers keep belonging to users. -/
theorem owned_step {users : Nat → String} {server : Server F}
    (owned : Owned packages users server) (event : Event F emailValid) :
    ∃ users', Owned packages users' (step packages server event) := by
  rcases step_cases packages server event with
    ⟨accounts, request, response, -, -, next⟩ | ⟨accounts, request, u_nodes, -, fetched, next⟩ |
    ⟨index, waiting, found, next⟩ | ⟨index, waiting, response, found, -, next⟩ | next <;> rw [next]
  · exact ⟨users, owned.stored, owned.waiting, owned.signed⟩
  · obtain ⟨uid, isUid, asked, its⟩ := fetch_ok fetched
    refine ⟨users, owned.stored, ?_, ?_⟩ <;> intro waiting held <;>
      rcases List.mem_append.mp held with before | new
    · exact owned.waiting waiting before
    · cases List.mem_singleton.mp new
      exact belongs_fetched asked owned.stored
    · exact owned.signed waiting before
    · cases List.mem_singleton.mp new
      rw [isUid, its]
  · have held := List.mem_of_getElem? found
    obtain ⟨users', stored, kept⟩ := belongs_written owned.stored (owned.waiting waiting held)
    exact ⟨users', stored,
      fun other later => kept _ (owned.waiting other (List.mem_of_mem_eraseIdx later)),
      fun other later => owned.signed other (List.mem_of_mem_eraseIdx later)⟩
  · exact ⟨users, owned.stored,
      fun other later => owned.waiting other (List.mem_of_mem_eraseIdx later),
      fun other later => owned.signed other (List.mem_of_mem_eraseIdx later)⟩
  · exact ⟨users, owned⟩

theorem owned_after (packages : Packages) (store : Store F) (events : List (Event F emailValid)) :
    ∃ users, Owned packages users (after (step packages) { store := store } events) := by
  refine after_invariant (step packages) (fun server => ∃ users, Owned packages users server)
    (owned_start store) ?_ events
  rintro server event ⟨users, owned⟩
  exact owned_step owned event

/-! ## One user's requests -/

/-- What holds for a user whose requests do not overlap: there is one document at
most, one request at most that waits, and what it has read is what is still stored. -/
structure Kept (packages : Packages) (uid : String) (server : Server F) : Prop where
  single : (documentsOf server.store uid).length ≤ 1
  apart : server.waiting.Pairwise fun first second =>
    ¬ (first.u_nodes.uid = uid ∧ second.u_nodes.uid = uid)
  current : ∀ waiting ∈ server.waiting, waiting.u_nodes.uid = uid →
    Asked server.store uid waiting

theorem asked_congr {store store' : Store F} {uid : String} {waiting : Waiting F}
    (same : documentsOf store' uid = documentsOf store uid) (asked : Asked store uid waiting) :
    Asked store' uid waiting := by
  have found : store'.findFirst uid = store.findFirst uid := by
    rw [findFirst_eq_head, findFirst_eq_head, same]
  unfold Asked at asked ⊢
  rwa [found]

omit [Zero F] in
theorem identified_eq {store : Store F} {old u_nodes : UserNodes F}
    (held : old ∈ store.documents) (same : u_nodes._id = old._id) :
    (store.identified u_nodes)._id = old._id := by
  obtain ⟨n, _, isId⟩ := store.numbered old held
  simp [Store.identified, same, isId]

/-- The write of a request that read what is still stored. -/
theorem written_own {users : Nat → String} {store : Store F} {uid : String} {waiting : Waiting F}
    (stored : ∀ old ∈ store.documents, Belongs users store.nextId old)
    (its : Belongs users store.nextId waiting.u_nodes) (own : waiting.u_nodes.uid = uid)
    (single : (documentsOf store uid).length ≤ 1) (asked : Asked store uid waiting) :
    documentsOf (written store waiting) uid =
      match waiting.request.call with
      | .savePositions _ _ => [store.identified waiting.u_nodes]
      | .deletePositions => [] := by
  obtain ⟨⟨session, call⟩, u_nodes⟩ := waiting
  have head := findFirst_eq_head store uid
  cases call with
  | savePositions time rawBody =>
    have isUpdated : u_nodes = updated (store.findFirst uid) uid time rawBody := asked
    refine (documentsOf_save stored its uid).trans ?_
    rw [if_pos own]
    cases documents : documentsOf store uid with
    | nil => rfl
    | cons old rest =>
      have none : rest = [] := by
        rw [documents] at single
        simpa using single
      subst none
      have held : old ∈ store.documents :=
        (mem_ownedBy.mp (documents ▸ List.mem_singleton_self old)).1
      rw [documents, List.head?_cons] at head
      have same : u_nodes._id = old._id := by
        rw [isUpdated, head]
        rfl
      exact put_self old _ (identified_eq held same).symm
  | deletePositions =>
    have found : store.findFirst uid = some u_nodes := asked
    refine (documentsOf_delete stored its uid).trans ?_
    rw [if_pos own]
    cases documents : documentsOf store uid with
    | nil => rfl
    | cons old rest =>
      have none : rest = [] := by
        rw [documents] at single
        simpa using single
      subst none
      rw [documents, List.head?_cons, found] at head
      cases head
      exact drop_self u_nodes

/-- What a layout becomes by such a write. -/
theorem layoutOf_written {users : Nat → String} {store : Store F} {uid : String}
    {waiting : Waiting F}
    (stored : ∀ old ∈ store.documents, Belongs users store.nextId old)
    (its : Belongs users store.nextId waiting.u_nodes) (own : waiting.u_nodes.uid = uid)
    (single : (documentsOf store uid).length ≤ 1) (asked : Asked store uid waiting) :
    layoutOf (written store waiting) uid =
      effect waiting.request.call (layoutOf store uid) := by
  have documents := written_own stored its own single asked
  unfold layoutOf
  rw [findFirst_eq_head (written store waiting), documents]
  obtain ⟨⟨session, call⟩, u_nodes⟩ := waiting
  cases call with
  | savePositions time rawBody =>
    have isUpdated : u_nodes = updated (store.findFirst uid) uid time rawBody := asked
    simp only [List.head?_cons, Option.map_some, effect]
    rw [← layoutIn_updated (store.findFirst uid) uid time rawBody, ← isUpdated]
    rfl
  | deletePositions => rfl

/-- A request of the user comes in only when none of the user's waits. -/
def AloneNow (packages : Packages) (uid : String) (server : Server F) :
    Event F emailValid → Prop
  | .arrives _ request => uidOf packages request = some uid →
    ∀ waiting ∈ server.waiting, uidOf packages waiting.request ≠ some uid
  | .writes _ _ => True

theorem rest_apart {uid : String} {server : Server F} {index : Nat} {waiting : Waiting F}
    (kept : Kept packages uid server) (found : server.waiting[index]? = some waiting)
    (own : waiting.u_nodes.uid = uid) :
    ∀ other ∈ server.waiting.eraseIdx index, other.u_nodes.uid ≠ uid := by
  obtain ⟨within, rfl⟩ := List.getElem?_eq_some_iff.mp found
  have apart := kept.apart.perm (List.getElem_cons_eraseIdx_perm within).symm
    fun different both => different both.symm
  intro other later isOwn
  exact (List.pairwise_cons.mp apart).1 other later ⟨own, isOwn⟩

/-- One step of a user whose requests do not overlap. -/
theorem kept_step {users : Nat → String} {uid : String} {server : Server F}
    {event : Event F emailValid} (owned : Owned packages users server)
    (kept : Kept packages uid server) (alone : AloneNow packages uid server event) :
    Kept packages uid (step packages server event) := by
  rcases step_cases packages server event with
    ⟨accounts, request, response, -, -, next⟩ |
    ⟨accounts, request, u_nodes, rfl, fetched, next⟩ |
    ⟨index, waiting, found, next⟩ | ⟨index, waiting, response, found, -, next⟩ | next <;> rw [next]
  · exact ⟨kept.single, kept.apart, kept.current⟩
  · obtain ⟨own, isUid, asked, its⟩ := fetch_ok fetched
    refine ⟨kept.single, List.pairwise_append.mpr ⟨kept.apart, List.pairwise_singleton _ _, ?_⟩, ?_⟩
    · rintro first held second new ⟨isFirst, isSecond⟩
      cases List.mem_singleton.mp new
      subst isSecond
      refine alone (isUid.trans (congrArg some its.symm)) first held ?_
      rw [owned.signed first held, isFirst]
    · intro waiting held isOwn
      rcases List.mem_append.mp held with before | new
      · exact kept.current waiting before isOwn
      · cases List.mem_singleton.mp new
        subst isOwn
        exact its ▸ asked
  · have held := List.mem_of_getElem? found
    have erased := kept.apart.sublist (List.eraseIdx_sublist server.waiting index)
    have waits (other : Waiting F) (later : other ∈ server.waiting.eraseIdx index) :=
      List.mem_of_mem_eraseIdx later
    by_cases own : waiting.u_nodes.uid = uid
    · have documents := written_own owned.stored (owned.waiting waiting held) own kept.single
        (kept.current waiting held own)
      refine ⟨?_, erased, ?_⟩
      · rw [documents]
        split <;> simp
      · intro other later isOwn
        exact absurd isOwn (rest_apart kept found own other later)
    · have documents := written_other owned.stored (owned.waiting waiting held) own
      refine ⟨?_, erased, ?_⟩
      · rw [documents]
        exact kept.single
      · intro other later isOwn
        exact asked_congr documents (kept.current other (waits other later) isOwn)
  · refine ⟨kept.single, kept.apart.sublist (List.eraseIdx_sublist server.waiting index), ?_⟩
    intro other later isOwn
    exact kept.current other (List.mem_of_mem_eraseIdx later) isOwn
  · exact kept

/-- The layout and the answers keep in step. -/
theorem layout_step {users : Nat → String} {uid : String} {server : Server F}
    {event : Event F emailValid} {layouts : String → Option (Layout F)}
    (owned : Owned packages users server) (kept : Kept packages uid server)
    (heard : layoutOf server.store uid = server.answers.foldl (answered packages) layouts uid) :
    layoutOf (step packages server event).store uid =
      (step packages server event).answers.foldl (answered packages) layouts uid := by
  rcases step_cases packages server event with
    ⟨accounts, request, response, -, fetched, next⟩ | ⟨accounts, request, u_nodes, -, -, next⟩ |
    ⟨index, waiting, found, next⟩ | ⟨index, waiting, response, -, notDone, next⟩ | next <;>
    rw [next] <;> try rw [List.foldl_append, List.foldl_cons, List.foldl_nil]
  · by_cases mine : response = done ∧ uidOf packages request = some uid
    · obtain ⟨rfl, isUid⟩ := mine
      obtain ⟨isDelete, own, isOwn, none⟩ := fetch_done fetched
      cases isUid.symm.trans isOwn
      rw [answered_done isUid, isDelete]
      simp [effect, layoutOf, none]
    · rw [answered_other fun isDone isUid => mine ⟨isDone, isUid⟩]
      exact heard
  · exact heard
  · have held := List.mem_of_getElem? found
    have signed := owned.signed waiting held
    by_cases own : waiting.u_nodes.uid = uid
    · rw [answered_done (own ▸ signed), ← heard]
      exact layoutOf_written owned.stored (owned.waiting waiting held) own kept.single
        (kept.current waiting held own)
    · have other : uidOf packages waiting.request ≠ some uid := by
        rw [signed]
        exact fun same => own (Option.some.inj same)
      have same := written_other owned.stored (owned.waiting waiting held) own
      rw [answered_other fun _ => other, ← heard]
      unfold layoutOf
      rw [findFirst_eq_head, findFirst_eq_head, same]
  · rw [answered_other fun isDone => absurd isDone notDone]
    exact heard
  · exact heard

/-- A user's requests do not overlap in a run: each comes in when the one before has
been answered. Other users' requests may. -/
def Alone (packages : Packages) (uid : String) (store : Store F)
    (events : List (Event F emailValid)) : Prop :=
  ∀ past event, past ++ [event] <+: events →
    AloneNow packages uid (after (step packages) { store := store } past) event

theorem kept_after {uid : String} {store : Store F} {events : List (Event F emailValid)}
    (single : (documentsOf store uid).length ≤ 1) (alone : Alone packages uid store events) :
    Kept packages uid (after (step packages) { store := store } events) := by
  refine prefix_induction
    (fun past => Kept packages uid (after (step packages) { store := store } past))
    ⟨single, List.Pairwise.nil, by simp⟩ ?_ events (List.prefix_refl events)
  intro past event within kept
  obtain ⟨users, owned⟩ := owned_after packages store past
  rw [after_concat]
  exact kept_step owned kept (alone past event within)

/-- Where a user's requests do not overlap, the user keeps one document at most, and the
layout in it is what the answered requests made of the first one, in the order of the
answers. -/
theorem layout_follows_answers (packages : Packages) (uid : String) (store : Store F)
    (events : List (Event F emailValid)) (single : (documentsOf store uid).length ≤ 1)
    (alone : Alone packages uid store events) :
    let server := after (step packages) { store := store } events
    (documentsOf server.store uid).length ≤ 1 ∧
      layoutOf server.store uid =
        server.answers.foldl (answered packages) (layoutOf store) uid := by
  refine ⟨(kept_after single alone).single, ?_⟩
  refine prefix_induction (fun past =>
    let server := after (step packages) { store := store } past
    layoutOf server.store uid = server.answers.foldl (answered packages) (layoutOf store) uid)
    rfl ?_ events (List.prefix_refl events)
  intro past event within heard
  obtain ⟨users, owned⟩ := owned_after packages store past
  have before : Alone packages uid store past := fun earlier other inPast =>
    alone earlier other (inPast.trans ((List.prefix_append past [event]).trans within))
  dsimp only at heard ⊢
  rw [after_concat]
  exact layout_step owned (kept_after single before) heard

/-- Two users, and identifiers that are valid whatever they are. -/
def plainPackages : Packages where
  checkHash := fun _ _ => true
  sha256 := id
  mongoId := some

def accounts : Collection fun _ => true where
  documents := [.setEmptyLoginState "a" "ann" "" "", .setEmptyLoginState "b" "bob" "" ""]
  validated := by simp
  distinct := by simp [Users.setEmptyLoginState]

def noLayouts : Store Int := ⟨[], 0, by simp, by simp⟩

def saving (id : String) (entries : List (Entry Int)) : Request Int :=
  ⟨some ⟨id, ""⟩, .savePositions 0 (some entries)⟩

/-- Both users save at once, and the layout of the one is as that user left it. -/
theorem two_users_save :
    let events : List (Event Int fun _ => true) :=
      [.arrives accounts (saving "b" [⟨some 1, some 7, some 7⟩]),
        .arrives accounts (saving "a" [⟨some 1, some 2, some 3⟩]), .writes 0 true, .writes 0 true]
    let server := after (step plainPackages) { store := noLayouts } events
    (documentsOf server.store "a").length ≤ 1 ∧
      layoutOf server.store "a" =
        server.answers.foldl (answered plainPackages) (layoutOf noLayouts) "a" := by
  refine layout_follows_answers plainPackages "a" noLayouts _ (Nat.zero_le 1) ?_
  intro past event within
  rcases past with _ | ⟨first, _ | ⟨second, past⟩⟩
  · obtain ⟨rfl, _⟩ := List.cons_prefix_cons.mp within
    intro _ waiting held
    cases held
  · obtain ⟨rfl, later⟩ := List.cons_prefix_cons.mp within
    obtain ⟨rfl, _⟩ := List.cons_prefix_cons.mp later
    intro _ waiting held
    cases List.mem_singleton.mp held
    simp [uidOf, saving, getUserId, plainPackages]
  · obtain ⟨rfl, later⟩ := List.cons_prefix_cons.mp within
    obtain ⟨rfl, rest⟩ := List.cons_prefix_cons.mp later
    have write : event ∈ [Event.writes 0 true, Event.writes 0 true] :=
      rest.subset (List.mem_append_right past (List.mem_singleton_self event))
    simp only [List.mem_cons, List.not_mem_nil, or_false, or_self] at write
    subst write
    trivial

end NetGraphz.PositionProofs
