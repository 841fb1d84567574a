import NetGraphz.Base.Documents
import NetGraphz.Base.ParseInt
import NetGraphz.Auth

/-! The layout of the graph that a user keeps: the actions that save and delete it
in the collection `ng_user_nodes`, and the pages that are drawn with it. An action
reads the collection first and writes it later; in between, the requests of others
and of the same user may read and write as well. -/
namespace NetGraphz.UserPositions
open UserStore Auth Documents ParseInt

/-! ## The collection -/

structure NodePosition (F : Type u) where
  x : F
  y : F
  node_id : Int

/-- A document of `ng_user_nodes`. The driver gives it its `_id` when it is first
stored; a document without saved positions has null for them. -/
structure UserNodes (F : Type u) where
  _id : Option Nat
  lastModified : Option Int
  uid : String
  positions : Option (List (Int × NodePosition F))

/-- The collection. Identifiers are drawn in turn and not used again. -/
structure Store (F : Type u) where
  documents : List (UserNodes F)
  nextId : Nat
  numbered : ∀ stored ∈ documents, ∃ n < nextId, stored._id = some n
  distinct : (documents.map UserNodes._id).Nodup

variable {F : Type u}

/-- `UserNodes::findFirst` of a user's documents. -/
def Store.findFirst (store : Store F) (uid : String) : Option (UserNodes F) :=
  store.documents.find? fun stored => stored.uid = uid

/-- What `save` makes of a document: one that is new gets an identifier. -/
def Store.identified (store : Store F) (u_nodes : UserNodes F) : UserNodes F :=
  { u_nodes with _id := some (u_nodes._id.getD store.nextId) }

/-- `save`. -/
def Store.save (store : Store F) (u_nodes : UserNodes F) : Store F where
  documents := put UserNodes._id store.documents (store.identified u_nodes)
  nextId := max store.nextId (u_nodes._id.getD store.nextId + 1)
  numbered := by
    intro stored held
    rcases mem_put.mp held with rfl | ⟨before, _⟩
    · exact ⟨_, Nat.lt_of_lt_of_le (Nat.lt_succ_self _) (Nat.le_max_right _ _), rfl⟩
    · obtain ⟨n, below, isId⟩ := store.numbered stored before
      exact ⟨n, Nat.lt_of_lt_of_le below (Nat.le_max_left _ _), isId⟩
  distinct := keys_put_nodup store.distinct _

/-- `delete`. -/
def Store.delete (store : Store F) (u_nodes : UserNodes F) : Store F where
  documents := drop UserNodes._id store.documents u_nodes._id
  nextId := store.nextId
  numbered := fun stored held => store.numbered stored (mem_drop.mp held).1
  distinct := drop_nodup store.distinct _

/-! ## The requests -/

/-- An entry of the body: the decoded numbers, `none` where one is null or missing. -/
structure Entry (F : Type u) where
  id : Option Int
  x : Option F
  y : Option F

/-- `POST /Graph/positions`, at a time and with the decoded body, and
`DELETE /Graph/positions`. A body that is no JSON is decoded to null. -/
inductive Call (F : Type u) where
  | savePositions (time : Int) (rawBody : Option (List (Entry F)))
  | deletePositions

structure Request (F : Type u) where
  session : Option Identity
  call : Call F

/-- What a request is answered with: a bare status, the JSON of `sendStateResponse`,
or an exception that leaves the action. `GraphController` catches an `Exception` of
its own namespace, where there is none. -/
inductive Response where
  | status (code : Nat) (message : String)
  | state (state : Bool) (error_code : Nat) (error : Option String)
  | exception (message : String)
  deriving DecidableEq

/-- `sendStateResponse(true)`. -/
def done : Response := .state true 200 none

/-- `getUserId`. -/
def getUserId (packages : Packages) (identity : Identity) : Option String :=
  packages.mongoId (String.ofList (identity.id.toList.take 24))

section
variable [Zero F]

/-- The position an entry asks for; null is cast to zero. -/
def Entry.position (pos : Entry F) : NodePosition F where
  x := pos.x.getD 0
  y := pos.y.getD 0
  node_id := pos.id.getD 0

/-- `$u_nodes->positions[$node_id] = $position`, on an array or on null. -/
def setPosition (positions : Option (List (Int × NodePosition F))) (pos : Entry F) :
    Option (List (Int × NodePosition F)) :=
  some (put Prod.fst (positions.getD []) (pos.position.node_id, pos.position))

/-- The document that `savePositionsAction` saves, from the one it found. A null body
is iterated over like an empty one. -/
def updated (found : Option (UserNodes F)) (uid : String) (time : Int)
    (rawBody : Option (List (Entry F))) : UserNodes F :=
  let u_nodes := found.getD { _id := none, lastModified := none, uid := uid, positions := none }
  { u_nodes with
    lastModified := some time
    positions := (rawBody.getD []).foldl setPosition u_nodes.positions }

variable {emailValid : String → Bool}

/-- `savePositionsAction` up to its `save`: an early answer, or the document. -/
def savePositionsAction (packages : Packages) (users : Collection emailValid) (store : Store F)
    (session : Option Identity) (time : Int) (rawBody : Option (List (Entry F))) :
    Except Response (UserNodes F) :=
  match session with
  | none => .error (.status 417 "User is not logged in")
  | some identity =>
    match getUserId packages identity with
    | none => .error (.exception "Invalid object ID")
    | some uid =>
      match users.findById uid with
      | none => .error (.status 403 "User not found")
      | some _ => .ok (updated (store.findFirst uid) uid time rawBody)

omit [Zero F] in
/-- `deletePositionsAction` up to its `delete`: an early answer, or the document. -/
def deletePositionsAction (packages : Packages) (users : Collection emailValid) (store : Store F)
    (session : Option Identity) : Except Response (UserNodes F) :=
  match session with
  | none => .error (.state false 417 (some "Not logged in"))
  | some identity =>
    match getUserId packages identity with
    | none => .error (.exception "Invalid object ID")
    | some uid =>
      match users.findById uid with
      | none => .error (.state false 417 (some "Not logged in"))
      | some _ =>
        match store.findFirst uid with
        | none => .error done
        | some u_nodes => .ok u_nodes

def fetch (packages : Packages) (users : Collection emailValid) (store : Store F)
    (request : Request F) : Except Response (UserNodes F) :=
  match request.call with
  | .savePositions time rawBody =>
    savePositionsAction packages users store request.session time rawBody
  | .deletePositions => deletePositionsAction packages users store request.session

end

/-! ## The server -/

/-- A request that has read the collection, with the document it is about to save or
delete. -/
structure Waiting (F : Type u) where
  request : Request F
  u_nodes : UserNodes F

structure Server (F : Type u) where
  store : Store F
  waiting : List (Waiting F) := []
  answers : List (Request F × Response) := []

/-- The end of an action: the database does as it is told, or fails. -/
def finish (store : Store F) (waiting : Waiting F) (succeeds : Bool) : Store F × Response :=
  match waiting.request.call with
  | .savePositions _ _ =>
    if succeeds then (store.save waiting.u_nodes, done)
    else (store, .state false 500 (some "MongoDB save failure"))
  | .deletePositions =>
    if succeeds then (store.delete waiting.u_nodes, done)
    else (store, .state false 500 (some "User positions not deleted"))

/-- A request comes in, with the users as they are then, or one of the waiting
requests writes. -/
inductive Event (F : Type u) (emailValid : String → Bool) where
  | arrives (users : Collection emailValid) (request : Request F)
  | writes (index : Nat) (succeeds : Bool)

variable {emailValid : String → Bool}

def step [Zero F] (packages : Packages) (server : Server F) :
    Event F emailValid → Server F
  | .arrives users request =>
    match fetch packages users server.store request with
    | .error response => { server with answers := server.answers ++ [(request, response)] }
    | .ok u_nodes => { server with waiting := server.waiting ++ [⟨request, u_nodes⟩] }
  | .writes index succeeds =>
    match server.waiting[index]? with
    | none => server
    | some waiting =>
      let (store, response) := finish server.store waiting succeeds
      { store := store
        waiting := server.waiting.eraseIdx index
        answers := server.answers ++ [(waiting.request, response)] }

/-! ## Pages -/

/-- A node as it is sent to the browser, where `ν` is the rest of it. -/
structure Node (ν : Type v) (F : Type u) where
  id : Int
  x : Option F
  y : Option F
  rest : ν

variable {ν : Type v}

/-- `appendUserPositions`. An invalid identifier is an exception that is caught here. -/
def appendUserPositions (packages : Packages) (store : Store F) (session : Option Identity)
    (nodes : List (Node ν F)) : List (Node ν F) :=
  match session.bind (getUserId packages) with
  | none => nodes
  | some uid =>
    match store.findFirst uid with
    | none => nodes
    | some u_nodes =>
      nodes.map fun node =>
        match (u_nodes.positions.getD []).lookup node.id with
        | none => node
        | some pos => { node with x := some pos.x, y := some pos.y }

/-- The parameters response; `π` is an entry of the user's parameters. -/
structure Params (π : Type v) where
  logged : Bool
  positions : Bool
  params : List π
  error : Bool
  error_message : Option String

variable {π : Type v}

/-- `getUserParametersAction`, with the parameters a record has, if any. The record
that was not found is cast to an object, and passes the test that follows. -/
def getUserParametersAction (packages : Packages) (users : Collection emailValid)
    (paramsOf : Users → Option (List π)) (store : Store F) (session : Option Identity) :
    Except String (Params π) :=
  match session with
  | none => .ok ⟨false, false, [], false, none⟩
  | some identity =>
    match getUserId packages identity with
    | none => .error "Invalid object ID"
    | some uid =>
      let params := ((users.findById uid).bind paramsOf).getD []
      .ok ⟨true, (store.findFirst uid).isSome, params, false, none⟩

/-- A node in the graph as the browser draws it. -/
structure DrawnNode (F : Type u) where
  id : List Char
  x : F
  y : F

/-- The identifier a node has in the graph. -/
def drawnId (id : Int) : List Char := 'n' :: (toString id).toList

/-- `renderGraph` for the nodes: one without a position of its own gets its place on a
circle. -/
def renderNodes (circle : Nat → F × F) (nodes : List (Node ν F)) : List (DrawnNode F) :=
  nodes.mapIdx fun i n =>
    { id := drawnId n.id
      x := n.x.getD (circle i).1
      y := n.y.getD (circle i).2 }

/-- `dumpNodesPositions`, as it is sent: an identifier that is no number becomes null. -/
def dumpNodesPositions (nodes : List (DrawnNode F)) : List (Entry F) :=
  nodes.map fun node =>
    { id := parseInt (node.id.drop 1)
      x := some node.x
      y := some node.y }

end NetGraphz.UserPositions
