import NetGraphz.ClientStore

/-! Which responses to a node fetch change the store. The status is not among
what decides: a body that has an identifier is kept as a node. -/
namespace NetGraphz.NodeUpdateProofs
open ClientStore

variable {parse : String → Option JsValue} {ui : Ui} {problem : Bool} {response : Response}
  {page : Page} {node : JsValue}

/-- The value has an identifier that can be a key of the store. -/
def HasId (node : JsValue) : Prop :=
  ∃ fields id key, node = .obj fields ∧ fields.lookup "id" = some id ∧ id.toText = some key

/-- The body of the response is the text of such a value. -/
def CarriesNode (parse : String → Option JsValue) (response : Response) : Prop :=
  ∃ body node, response.response = some body ∧ body ≠ "" ∧ parse body = some node ∧ HasId node

theorem HasId.property (has : HasId node) :
    ∃ id key, node.property "id" = some (.json id) ∧ id.toText = some key := by
  obtain ⟨fields, id, key, rfl, found, text⟩ := has
  exact ⟨id, key, by simp [JsValue.property, found], text⟩

/-- Without one, `updateNode` does nothing at all. -/
theorem updateNode_of_not_hasId (page : Page) (lacks : ¬ HasId node) :
    (updateNode page node).1 = page := by
  unfold updateNode
  split
  · rfl
  · rfl
  · rename_i id defined found
    split
    · rfl
    · rename_i key text
      cases node with
      | obj fields =>
        simp only [JsValue.property, Option.some.injEq] at found
        cases field : fields.lookup "id" with
        | none =>
          rw [field] at found
          exact absurd found.symm defined
        | some value =>
          rw [field] at found
          subst found
          exact absurd ⟨fields, value, key, rfl, field, text⟩ lacks
      | null => cases found
      | bool value => cases found; exact absurd rfl defined
      | num text' => cases found; exact absurd rfl defined
      | str value => cases found; exact absurd rfl defined
      | arr elements => cases found; exact absurd rfl defined

/-- An object that is kept is reached by a reference the table did not have. -/
theorem setNode_holds (store : Store) (key : String) (object : node.kind = .object keys) :
    (setNode store key node).nodesById.Holds store.objects.next := by
  apply Table.holds_assign
  have kept : (store.objects.alloc node).1.read store.objects.next = some node :=
    Heap.read_alloc_self store.objects node
  rw [nodeKind, kept]
  exact object

/-- With one, it keeps the value as a node. -/
theorem updateNode_of_hasId (page : Page) (has : HasId node) :
    (updateNode page node).1.store.nodesById.Holds page.store.objects.next := by
  obtain ⟨fields, id, key, rfl, found, text⟩ := has
  have kept : (setNode page.store key (.obj fields)).nodesById.Holds page.store.objects.next :=
    setNode_holds page.store key rfl
  have property : (JsValue.obj fields).property "id" = some (.json id) := by
    simp [JsValue.property, found]
  have keyed : (Property.json id).toText = some key := text
  simp only [updateNode, property, keyed]
  split
  · exact kept
  · exact kept

/-! ## The callback -/

theorem onNode_of_not_hasId (lacks : ¬ HasId node) (error : FetchError) :
    (onNode ui problem page node error).1.store = page.store := by
  have same : (updateNode page node).1.store = page.store :=
    congrArg Page.store (updateNode_of_not_hasId page lacks)
  unfold onNode
  split
  · rfl
  · split
    · rename_i page' updated
      rw [updated] at same
      exact same
    · rename_i page' updated
      rw [updated] at same
      split
      · exact same
      · exact same

theorem onNode_of_hasId (has : HasId node) :
    (onNode ui problem page node .null).1.store.nodesById.Holds page.store.objects.next := by
  have kept := updateNode_of_hasId page has
  unfold onNode
  rw [if_neg (by simp [FetchError.truthy])]
  split
  · rename_i page' updated
    rw [updated] at kept
    exact kept
  · rename_i page' updated
    rw [updated] at kept
    split
    · exact kept
    · exact kept

theorem not_hasId_empty : ¬ HasId (.obj []) := by
  rintro ⟨fields, id, key, same, found, _⟩
  cases same
  cases found

theorem not_hasId_response (response : Response) : ¬ HasId (response.response.elim .null .str) := by
  rintro ⟨fields, id, key, same, _⟩
  cases body : response.response <;> simp [body] at same

/-! ## The fetch -/

/-- What follows the first callback of a fetch leaves the store alone. -/
theorem fetchJson_store (parse : String → Option JsValue) (response : Response) (page : Page) :
    (fetchJson parse response (onNode ui problem) page).store =
      (onReadyStateChange parse response (onNode ui problem) page).store := by
  unfold fetchJson
  split
  · exact onNode_of_not_hasId (not_hasId_response response) .flag
  · rfl

theorem performNodeUpdate_of_not_carriesNode (page : Page) (lacks : ¬ CarriesNode parse response) :
    (performNodeUpdate parse ui problem response page).store = page.store := by
  rw [performNodeUpdate, fetchJson_store, onReadyStateChange]
  split
  · exact onNode_of_not_hasId (by rintro ⟨_, _, _, same, _⟩; cases same) _
  · rename_i body given
    split
    · exact onNode_of_not_hasId not_hasId_empty _
    · rename_i nonempty
      split
      · exact onNode_of_not_hasId not_hasId_empty _
      · rename_i node parsed
        have lacksId : ¬ HasId node := fun has => lacks ⟨body, node, given, nonempty, parsed, has⟩
        have same : (onNode ui problem page node .null).1.store = page.store :=
          onNode_of_not_hasId lacksId .null
        split
        · rename_i page' returned
          rw [returned] at same
          exact same
        · rename_i page' threw
          rw [threw] at same
          exact (onNode_of_not_hasId not_hasId_empty .thrown).trans same

theorem performNodeUpdate_of_carriesNode (page : Page) (carries : CarriesNode parse response) :
    (performNodeUpdate parse ui problem response page).store.nodesById.Holds
      page.store.objects.next := by
  obtain ⟨body, node, given, nonempty, parsed, has⟩ := carries
  have kept : (onNode ui problem page node .null).1.store.nodesById.Holds
      page.store.objects.next := onNode_of_hasId has
  rw [performNodeUpdate, fetchJson_store]
  simp only [onReadyStateChange, given, if_neg nonempty, parsed]
  split
  · rename_i page' returned
    rw [returned] at kept
    exact kept
  · rename_i page' threw
    rw [threw] at kept
    rw [onNode_of_not_hasId not_hasId_empty]
    exact kept

/-- The status says that the request was served. -/
def Succeeded (status : Nat) : Prop := 200 ≤ status ∧ status < 300

/-- A failed fetch leaves the store as it was. -/
def LeavesStore (parse : String → Option JsValue) (ui : Ui) (problem : Bool) (response : Response)
    (page : Page) : Prop :=
  ¬ Succeeded response.status →
    (performNodeUpdate parse ui problem response page).store = page.store

/-- **A failed fetch leaves the store alone exactly when its body is no node.**
The body of a response outside of 200..299 is kept as a node whenever it is a
JSON object with an identifier. -/
theorem failed_fetch_leaves_store_iff (parse : String → Option JsValue) (ui : Ui) (problem : Bool)
    (response : Response) (page : Page) :
    LeavesStore parse ui problem response page ↔
      (Succeeded response.status ∨ ¬ CarriesNode parse response) := by
  constructor
  · intro leaves
    by_contra neither
    obtain ⟨failed, carries⟩ := not_or.mp neither
    have kept : (performNodeUpdate parse ui problem response page).store.nodesById.Holds _ :=
      performNodeUpdate_of_carriesNode page (not_not.mp carries)
    rw [leaves failed] at kept
    -- the new object's reference was not in use before
    exact Nat.lt_irrefl _ (page.store.allocated _ kept)
  · rintro (succeeded | lacks) failed
    · exact absurd succeeded failed
    · exact performNodeUpdate_of_not_carriesNode page lacks

/-- The body the nodes controller sends with status 404. -/
def notFoundText : String := "\x7b\"status\":\"Not found\",\"code\":404,\"id\":7\x7d"

def notFoundBody : JsValue :=
  .obj [("status", .str "Not found"), ("code", .num "404"), ("id", .num "7")]

/-- A node that is not found any more is replaced by the answer that says so. -/
theorem not_found_answer_replaces_node :
    ¬ ∀ parse ui problem response page, LeavesStore parse ui problem response page := by
  intro claimed
  let core : JsValue := .obj [("id", .num "7"), ("name", .str "core")]
  let page : Page := { store := setNode newStore "7" core }
  let response : Response := ⟨404, "Not Found", some notFoundText, false⟩
  let parse (text : String) : Option JsValue :=
    if text = notFoundText then some notFoundBody else none
  have same := claimed parse ⟨false, fun _ => false⟩ false response page
    (by simp [Succeeded, response])
  have entry := congrArg (fun store : Store => store.nodesById.own.lookup "7") same
  have before : page.store.nodesById.own.lookup "7" = some 0 := by decide
  have after : (performNodeUpdate parse ⟨false, fun _ => false⟩ false response
      page).store.nodesById.own.lookup "7" = some 1 := by decide
  simp only [before, after] at entry
  cases entry

end NetGraphz.NodeUpdateProofs
