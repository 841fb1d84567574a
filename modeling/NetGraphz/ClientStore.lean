import NetGraphz.Base.Heap
import NetGraphz.Base.JsValue

/-! The node store of the web client, and the fetch that brings it a node after
a notification. -/
namespace NetGraphz.ClientStore

/-- The store's variables for nodes and metrics. Nodes are kept by identity:
`objects` holds the parsed objects that were ever kept. -/
structure Store where
  objects : Heap JsValue := {}
  nodesById : Table Ref := {}
  metrics : Table Property := {}
  allocated : ∀ ref, nodesById.Holds ref → ref < objects.next

def newStore : Store where
  allocated := by
    rintro ref (⟨key, found⟩ | found)
    · rw [Finmap.lookup_empty] at found
      cases found
    · cases found

/-- The page around the store: what was published about nodes, and what the
interface was told to select. -/
structure Page where
  store : Store
  published : List (String × Ref) := []
  selected : List Property := []

/-- How an object that was kept behaves as a prototype. -/
def nodeKind (objects : Heap JsValue) (ref : Ref) : Kind :=
  match objects.read ref with
  | none => .primitive
  | some node => node.kind

/-- The store with one node entry set; the object gets its identity here. -/
def setNode (store : Store) (key : String) (node : JsValue) : Store where
  objects := (store.objects.alloc node).1
  nodesById := store.nodesById.assign (nodeKind (store.objects.alloc node).1) key
    store.objects.next
  metrics := store.metrics
  allocated := by
    intro other holds
    have next : (store.objects.alloc node).1.next = store.objects.next + 1 := by
      simp [Heap.alloc, Heap.next]
    rw [next]
    rcases Table.holds_of_assign holds with before | same
    · exact Nat.lt_succ_of_lt (store.allocated other before)
    · exact same ▸ Nat.lt_succ_self _

/-- The loop of `saveMetricsOfNode`, and whether it threw. -/
def saveMetrics (metrics : Table Property) : List JsValue → Table Property × Bool
  | [] => (metrics, false)
  | metric :: rest =>
    match metric.property "name", metric.property "values" with
    | some name, some values =>
      match name.toText with
      | some key => saveMetrics (metrics.assign Property.kind key values) rest
      | none => (metrics, true)
    | _, _ => (metrics, true)

/-- `saveMetricsOfNode`. -/
def saveMetricsOfNode (metrics : Table Property) (node : JsValue) : Table Property × Bool :=
  match node.property "metrics" with
  | some (.json (.arr elements)) => saveMetrics metrics elements
  | _ => (metrics, false)

/-- `updateNode`, and whether it threw. What subscribers throw is thrown later,
out of the publisher's sight. -/
def updateNode (page : Page) (node : JsValue) : Page × Bool :=
  match node.property "id" with
  | none => (page, true)
  | some .undefined => (page, false)
  | some id =>
    match id.toText with
    | none => (page, true)
    | some key =>
      let ref := page.store.objects.next
      let found := page.store.nodesById.has (nodeKind page.store.objects) key
      let before := if found then "before_update_node" else "before_add_node"
      let store := setNode page.store key node
      let (metrics, threw) := saveMetricsOfNode store.metrics node
      let page := { page with
        store := { store with metrics := metrics }
        published := page.published ++ [(before, ref)] }
      if threw then (page, true)
      else
        let event := if found then "update_node" else "add_node"
        ({ page with published := page.published ++ [(event, ref)] }, false)

/-- The error a fetch calls back with; `flag` is the value `true`. -/
inductive FetchError where
  | null
  | text (message : String)
  | thrown
  | flag

/-- `if (error)`. -/
def FetchError.truthy : FetchError → Bool
  | .null => false
  | .text message => message ≠ ""
  | .thrown => true
  | .flag => true

/-- What the interface does with the selection of a node. -/
structure Ui where
  isFollowEnabled : Bool
  selectThrows : Property → Bool

/-- The callback of `performNodeUpdate`, and whether it threw. -/
def onNode (ui : Ui) (problem : Bool) (page : Page) (node : JsValue) (error : FetchError) :
    Page × Bool :=
  if error.truthy then (page, false)
  else
    match updateNode page node with
    | (page, true) => (page, true)
    | (page, false) =>
      if problem && ui.isFollowEnabled then
        let id := (node.property "id").getD .undefined
        ({ page with selected := page.selected ++ [id] }, ui.selectThrows id)
      else (page, false)

/-- The end of a request: status, texts, and whether the network failed. A
response of type text is never null, but the code provides for it. -/
structure Response where
  status : Nat
  statusText : String
  response : Option String
  failed : Bool

/-- `xhr.onreadystatechange` at state 4. The callback stands inside the `try`,
so that what it throws is taken for a parser's error. -/
def onReadyStateChange (parse : String → Option JsValue) (response : Response)
    (callback : Page → JsValue → FetchError → Page × Bool) (page : Page) : Page :=
  match response.response with
  | none => (callback page .null (.text response.statusText)).1
  | some body =>
    if body = "" then (callback page (.obj []) (.text "Server retuned empty response")).1
    else
      match parse body with
      | none => (callback page (.obj []) .thrown).1
      | some value =>
        match callback page value .null with
        | (page, false) => page
        | (page, true) => (callback page (.obj []) .thrown).1

/-- `xhr.onerror`. -/
def onError (response : Response) (callback : Page → JsValue → FetchError → Page × Bool)
    (page : Page) : Page :=
  (callback page (response.response.elim .null .str) .flag).1

/-- `_fetch_json`, from the request to the last event. -/
def fetchJson (parse : String → Option JsValue) (response : Response)
    (callback : Page → JsValue → FetchError → Page × Bool) (page : Page) : Page :=
  let page := onReadyStateChange parse response callback page
  if response.failed then onError response callback page else page

/-- `performNodeUpdate`, with what the server answers to `/Nodes/Get/` and the
node's identifier. -/
def performNodeUpdate (parse : String → Option JsValue) (ui : Ui) (problem : Bool)
    (response : Response) (page : Page) : Page :=
  fetchJson parse response (onNode ui problem) page

end NetGraphz.ClientStore
