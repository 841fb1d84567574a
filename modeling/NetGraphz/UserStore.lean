import NetGraphz.Base.Keyed

/-! The users of the web application and the collection `ng_users` they are
stored in. A document enters the collection only through `save`, which runs the
model's own validation first and finds the document to overwrite by its `_id`;
the collection carries both facts. -/
namespace NetGraphz.UserStore

/-- A remember-me token. A stored token may lack its `createDate`, in seconds. -/
structure AuthToken where
  createDate : Option Int
  salt : String
  email : String
  value : String
  ip : String
  userAgent : String
  deriving DecidableEq

/-- A user document. Dates are in seconds, `none` is PHP's null, and `tokens`
is an array keyed by the tokens' values, or no array at all. -/
structure Users where
  _id : String
  login : String
  password : String
  email : String
  lastLoginDate : Option Int
  failedLoginWindowStartDate : Option Int
  failedLoginLastDate : Option Int
  failedLoginAttempts : Option Int
  failedLoginBlock : Bool
  blocked : Bool
  inactive : Bool
  tokens : Option (List (String × AuthToken))
  deriving DecidableEq

/-- `new Users()` under a fresh identifier, before any login. -/
def Users.setEmptyLoginState (_id login password email : String) : Users where
  _id := _id
  login := login
  password := password
  email := email
  lastLoginDate := none
  failedLoginWindowStartDate := none
  failedLoginLastDate := none
  failedLoginAttempts := none
  failedLoginBlock := false
  blocked := false
  inactive := false
  tokens := some []

/-- What the driver does with a document: it takes the place of the one with
its identifier, or comes last when there is none. -/
def put (documents : List Users) (user : Users) : List Users :=
  if user._id ∈ documents.map Users._id then
    documents.map fun stored => if stored._id = user._id then user else stored
  else documents ++ [user]

/-- Storing a document under a known identifier adds none. -/
theorem put_ids (documents : List Users) (user : Users) :
    (put documents user).map Users._id =
      if user._id ∈ documents.map Users._id then documents.map Users._id
      else documents.map Users._id ++ [user._id] := by
  unfold put
  split
  · rw [List.map_map]
    apply List.map_congr_left
    intro stored _
    by_cases same : stored._id = user._id <;> simp [same]
  · simp

theorem put_mem {documents : List Users} {user stored : Users}
    (held : stored ∈ put documents user) : stored = user ∨ stored ∈ documents := by
  unfold put at held
  split at held
  · obtain ⟨old, oldHeld, result⟩ := List.mem_map.mp held
    split at result
    · exact Or.inl result.symm
    · exact Or.inr (result ▸ oldHeld)
  · rcases List.mem_append.mp held with before | new
    · exact Or.inr before
    · exact Or.inl (List.mem_singleton.mp new)

/-- The collection, for the email test the model's validation applies. -/
structure Collection (emailValid : String → Bool) where
  documents : List Users
  validated : ∀ user ∈ documents, emailValid user.email
  distinct : (documents.map Users._id).Nodup

variable {emailValid : String → Bool}

/-- `Users::findFirst`. -/
def Collection.findFirst (users : Collection emailValid) (conditions : Users → Bool) :
    Option Users :=
  users.documents.find? conditions

/-- `Users::findById`. -/
def Collection.findById (users : Collection emailValid) (_id : String) : Option Users :=
  users.findFirst fun user => user._id = _id

/-- `Users::validation`. -/
def validation (emailValid : String → Bool) (user : Users) : Bool := emailValid user.email

/-- `save`, which fails when the validation does. -/
def Collection.save (users : Collection emailValid) (user : Users) :
    Option (Collection emailValid) :=
  if valid : validation emailValid user then
    some {
      documents := put users.documents user
      validated := by
        intro stored held
        rcases put_mem held with rfl | before
        · exact valid
        · exact users.validated stored before
      distinct := by
        rw [put_ids]
        split
        · exact users.distinct
        · rename_i new
          exact List.nodup_append'.mpr ⟨users.distinct, List.nodup_singleton _,
            List.disjoint_singleton.mpr new⟩ }
  else none

/-- The collection after a `save` whose result is not looked at. -/
def Collection.saved (users : Collection emailValid) (user : Users) : Collection emailValid :=
  (users.save user).getD users

/-- A document stored again passes the validation it passed before. -/
theorem saved_documents {users : Collection emailValid} {stored user : Users}
    (held : stored ∈ users.documents) (_id : user._id = stored._id)
    (email : user.email = stored.email) :
    (users.saved user).documents =
      users.documents.map fun old => if old._id = user._id then user else old := by
  have valid : validation emailValid user := by
    unfold validation
    rw [email]
    exact users.validated stored held
  have known : user._id ∈ users.documents.map Users._id := by
    rw [_id]
    exact List.mem_map_of_mem held
  simp [Collection.saved, Collection.save, valid, put, known]

theorem saved_mem {users : Collection emailValid} {stored user : Users}
    (held : stored ∈ users.documents) (_id : user._id = stored._id)
    (email : user.email = stored.email) : user ∈ (users.saved user).documents := by
  rw [saved_documents held _id email]
  exact List.mem_map.mpr ⟨stored, held, by simp [_id]⟩

/-- The only document with an identifier is the one stored under it. -/
theorem document_unique {users : Collection emailValid} {stored other : Users}
    (held : stored ∈ users.documents) (otherHeld : other ∈ users.documents)
    (same : other._id = stored._id) : other = stored :=
  List.inj_on_of_nodup_map users.distinct otherHeld held same

/-- Document by document, what was stored before and what is stored now. -/
def Evolves (related : Users → Users → Prop) (before now : Collection emailValid) : Prop :=
  List.Forall₂ related before.documents now.documents

theorem evolves_refl {related : Users → Users → Prop} (same : ∀ user, related user user)
    (users : Collection emailValid) : Evolves related users users :=
  List.forall₂_same.mpr fun user _ => same user

theorem evolves_trans {related : Users → Users → Prop}
    (joined : ∀ old between new, related old between → related between new → related old new)
    {before between now : Collection emailValid} (first : Evolves related before between)
    (second : Evolves related between now) : Evolves related before now :=
  Keyed.pointwise_trans joined first second

/-- Storing a changed copy of a document changes that document alone. -/
theorem saved_evolves {related : Users → Users → Prop} (same : ∀ user, related user user)
    {users : Collection emailValid} {stored user : Users} (held : stored ∈ users.documents)
    (_id : user._id = stored._id) (email : user.email = stored.email)
    (changed : related stored user) : Evolves related users (users.saved user) := by
  unfold Evolves
  rw [saved_documents held _id email, List.forall₂_map_right_iff, List.forall₂_same]
  intro old oldHeld
  by_cases this : old._id = user._id
  · have : old = stored := document_unique held oldHeld (this.trans _id)
    simp [this, _id, changed]
  · simp [this, same]

/-- A lookup that cannot tell related documents apart finds related ones. -/
theorem evolves_findFirst {related : Users → Users → Prop} {before now : Collection emailValid}
    {conditions : Users → Bool} (evolves : Evolves related before now)
    (alike : ∀ old new, related old new → conditions old = conditions new)
    {old : Users} (found : before.findFirst conditions = some old) :
    ∃ new, now.findFirst conditions = some new ∧ related old new :=
  Keyed.pointwise_find evolves alike found

/-- The document a lookup found, changed and stored, is found by it again. -/
theorem saved_findFirst {users : Collection emailValid} {conditions : Users → Bool}
    {stored user : Users} (found : users.findFirst conditions = some stored)
    (_id : user._id = stored._id) (email : user.email = stored.email)
    (met : conditions user = true) : (users.saved user).findFirst conditions = some user := by
  have held := List.mem_of_find?_eq_some found
  have evolves : Evolves (fun old new => new = old ∨ old = stored ∧ new = user) users
      (users.saved user) :=
    saved_evolves (fun _ => Or.inl rfl) held _id email (Or.inr ⟨rfl, rfl⟩)
  obtain ⟨new, foundNew, same | ⟨-, rfl⟩⟩ := evolves_findFirst evolves (by
    rintro old new (rfl | ⟨rfl, rfl⟩)
    · rfl
    · rw [met, List.find?_some found]) found
  · have newHeld := List.mem_of_find?_eq_some foundNew
    have : new = user := document_unique (saved_mem held _id email) newHeld (by rw [same, _id])
    rw [foundNew, this]
  · exact foundNew

end NetGraphz.UserStore
