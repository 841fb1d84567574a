import Mathlib.Algebra.Order.BigOperators.Group.List
import Mathlib.Algebra.Order.Ring.Nat
import NetGraphz.UserStore
import NetGraphz.Base.History

/-! Signing up. The name a new user asks for is looked up under a property that
user records do not have, so that only the e-mail address is kept apart from
those already stored. -/
namespace NetGraphz.Signup
open UserStore

/-- What a sign-up form is sent with. A field that was not sent reads as an
empty one; `csrf` tells whether the hidden field's validator is content. -/
structure Post where
  username : String
  email : String
  confirmEmail : String
  password : String
  confirmPassword : String
  csrf : Bool
  terms : String

/-- The packages the controller calls: the form's test of e-mail addresses and
of confirmations, the filter and hash of its values, and fresh identifiers. -/
structure Packages where
  email : String → Bool
  confirmed : String → String → Bool
  striptags : String → String
  hash : String → String
  newId : List String → String
  fresh : ∀ taken, newId taken ∉ taken

variable (packages : Packages) {emailValid : String → Bool}

def presenceOf (value : String) : Bool := value ≠ ""

/-- The validators of `UserSignupForm`: the field, the message, and whether the
validator is content. -/
def validators (post : Post) : List (String × String × Bool) :=
  [("username", "The username is required", presenceOf post.username),
   ("username", "Login is too short. It should be at least 4 characters long",
    4 ≤ post.username.length),
   ("username", "Login is too long. It should be maximally 16 characters long",
    post.username.length ≤ 16),
   ("email", "The e-mail is required", presenceOf post.email),
   ("email", "The e-mail is not valid", packages.email post.email),
   ("email", "Email doesn't match confirmation", packages.confirmed post.email post.confirmEmail),
   ("confirmEmail", "The confirmation email is required", presenceOf post.confirmEmail),
   ("password", "The password is required", presenceOf post.password),
   ("password", "Password is too short. Minimum 8 characters", 8 ≤ post.password.length),
   ("password", "Password doesn't match confirmation",
    packages.confirmed post.password post.confirmPassword),
   ("confirmPassword", "The confirmation password is required", presenceOf post.confirmPassword),
   ("csrf", "This request was aborted because it appears to be forged", post.csrf),
   ("terms", "Terms and conditions must be accepted", post.terms = "yes")]

/-- The form's messages, each with its field. -/
def messages (post : Post) : List (String × String) :=
  (validators packages post).filterMap fun (field, message, content) =>
    if content then none else some (field, message)

/-- The form's `isValid`. -/
def isValid (post : Post) : Bool := (messages packages post).isEmpty

/-- `$user->name`. User records have a `login` and no `name`, and this reads null. -/
def name (_user : Users) : Option String := none

/-- `isUserFoundByConditions`. -/
def isUserFoundByConditions (users : Collection emailValid) (conditions : Users → Bool) : Bool :=
  (users.findFirst conditions).isSome

/-- `isUsernameExists`. Null is equal to no login, as every document has one. -/
def isUsernameExists (users : Collection emailValid) (username : Option String) : Bool :=
  isUserFoundByConditions users fun user => some user.login = username

/-- `isEmailExists`. -/
def isEmailExists (users : Collection emailValid) (email : String) : Bool :=
  isUserFoundByConditions users fun user => user.email = email

/-- The user a submission asks for. -/
def newUser (users : Collection emailValid) (post : Post) : Users :=
  .setEmptyLoginState (packages.newId (users.documents.map Users._id))
    (packages.striptags post.username) (packages.hash post.password) post.email

/-- What the browser gets: the form again, with the errors shown above it and at
its fields, or the way to the main page. -/
inductive Response where
  | form (flash : List String) (fields : List (String × String))
  | redirect
  deriving DecidableEq

/-- `signupAction` on a submission, behind `beforeExecuteRoute`. -/
def signupAction (openSignUp : Bool) (users : Collection emailValid) (post : Post) :
    Collection emailValid × Option Response :=
  if !openSignUp then (users, none)
  else if !isValid packages post then (users, some (.form [] (messages packages post)))
  else
    let user := newUser packages users post
    let usernameExists := isUsernameExists users (name user)
    let emailExists := isEmailExists users user.email
    let flash := (if usernameExists then ["User name already exists!"] else []) ++
      (if emailExists then ["Email already exists!"] else [])
    let fields := (if usernameExists then [("username", "Such user name already exists")] else []) ++
      (if emailExists then [("email", "Such email already registred!")] else [])
    let saveConflict := usernameExists || emailExists
    if saveConflict then (users, some (.form (flash ++ ["Conflict detected"]) fields))
    else
      match users.save user with
      | some users => (users, some .redirect)
      | none => (users, some (.form ["Value of field 'email' must have a valid e-mail format"] []))

/-- The collection after a sequence of submissions, from the empty one. -/
def signedUp (emailValid : String → Bool) (openSignUp : Bool) (history : List Post) :
    Collection emailValid :=
  after (fun users post => (signupAction packages openSignUp users post).1)
    { documents := [], validated := by simp, distinct := by simp } history

/-- No two users have the same login, and no two the same e-mail address. -/
structure Unique (users : Collection emailValid) : Prop where
  logins : (users.documents.map Users.login).Nodup
  emails : (users.documents.map Users.email).Nodup

/-- The user name a submission brings is a stored login. -/
def UsernameTaken (users : Collection emailValid) (post : Post) : Prop :=
  packages.striptags post.username ∈ users.documents.map Users.login

/-- The e-mail address a submission brings is a stored one. -/
def EmailTaken (users : Collection emailValid) (post : Post) : Prop :=
  post.email ∈ users.documents.map Users.email

/-- Sign-up is open, the form finds nothing wrong, and neither the search for
the e-mail address nor the model's validation stands in the way. -/
structure Admissible (openSignUp : Bool) (users : Collection emailValid) (post : Post) : Prop where
  isOpen : openSignUp = true
  valid : isValid packages post = true
  emailFree : ¬ EmailTaken users post
  emailValid : emailValid post.email = true

variable {packages} {openSignUp : Bool}

/-- Nothing is found under the name that is looked for. -/
theorem isUsernameExists_name (users : Collection emailValid) (user : Users) :
    isUsernameExists users (name user) = false := by
  unfold isUsernameExists isUserFoundByConditions Collection.findFirst name
  rw [Option.isSome_eq_false_iff, Option.isNone_iff_eq_none, List.find?_eq_none]
  simp

theorem isEmailExists_iff (users : Collection emailValid) (post : Post) :
    isEmailExists users post.email = true ↔ EmailTaken users post := by
  unfold isEmailExists isUserFoundByConditions Collection.findFirst EmailTaken
  rw [List.find?_isSome, List.mem_map]
  simp

/-- Storing a document under a new identifier adds it. -/
theorem save_new (users : Collection emailValid) (user : Users)
    (valid : validation emailValid user = true)
    (fresh : user._id ∉ users.documents.map Users._id) :
    ∃ stored, users.save user = some stored ∧ stored.documents = users.documents ++ [user] := by
  unfold Collection.save
  rw [dif_pos valid]
  exact ⟨_, rfl, if_neg fresh⟩

/-- An admissible submission adds its user, whatever the name. -/
theorem signupAction_admissible {users : Collection emailValid} {post : Post}
    (admissible : Admissible packages openSignUp users post) :
    (signupAction packages openSignUp users post).1.documents =
      users.documents ++ [newUser packages users post] := by
  have free : isEmailExists users (newUser packages users post).email = false :=
    Bool.eq_false_iff.mpr fun found => admissible.emailFree ((isEmailExists_iff users post).mp found)
  obtain ⟨stored, saved, documents⟩ :=
    save_new users (newUser packages users post) admissible.emailValid (packages.fresh _)
  unfold signupAction
  simp [admissible.isOpen, admissible.valid, isUsernameExists_name, free, saved, documents]

/-- Any other submission leaves the collection as it is. -/
theorem signupAction_inadmissible {users : Collection emailValid} {post : Post}
    (inadmissible : ¬ Admissible packages openSignUp users post) :
    (signupAction packages openSignUp users post).1 = users := by
  unfold signupAction
  split
  · rfl
  · rename_i isOpen
    split
    · rfl
    · rename_i valid
      simp only [Bool.not_eq_true', Bool.not_eq_false] at isOpen valid
      dsimp only
      split
      · rfl
      · rename_i free
        rw [isUsernameExists_name, Bool.false_or] at free
        have emailFree : ¬ EmailTaken users post :=
          fun taken => free ((isEmailExists_iff users post).mpr taken)
        have invalid : ¬ validation emailValid (newUser packages users post) = true :=
          fun emailValid => inadmissible ⟨isOpen, valid, emailFree, emailValid⟩
        unfold Collection.save
        rw [dif_neg invalid]

theorem unique_admissible_iff {users : Collection emailValid} (unique : Unique users) {post : Post}
    (admissible : Admissible packages openSignUp users post) :
    Unique (signupAction packages openSignUp users post).1 ↔
      ¬ UsernameTaken packages users post := by
  have documents := signupAction_admissible admissible
  have fresh : post.email ∉ users.documents.map Users.email := admissible.emailFree
  constructor
  · intro still taken
    have logins := still.logins
    rw [documents, List.map_append] at logins
    exact List.disjoint_of_nodup_append logins taken (List.mem_singleton_self _)
  · intro free
    constructor
    · rw [documents, List.map_append]
      exact List.nodup_append'.mpr ⟨unique.logins, List.nodup_singleton _,
        List.disjoint_singleton.mpr free⟩
    · rw [documents, List.map_append]
      exact List.nodup_append'.mpr ⟨unique.emails, List.nodup_singleton _,
        List.disjoint_singleton.mpr fresh⟩

/-- A submission keeps the collection free of repetitions, and is turned away
when its name or address is taken, exactly unless it is admissible under a
taken name. -/
theorem signupAction_iff {users : Collection emailValid} (unique : Unique users) (post : Post) :
    (Unique (signupAction packages openSignUp users post).1 ∧
        (UsernameTaken packages users post ∨ EmailTaken users post →
          (signupAction packages openSignUp users post).1 = users)) ↔
      ¬ (Admissible packages openSignUp users post ∧ UsernameTaken packages users post) := by
  by_cases admissible : Admissible packages openSignUp users post
  · simp only [admissible, true_and, unique_admissible_iff unique admissible]
    constructor
    · exact And.left
    · intro free
      exact ⟨free, fun taken => absurd taken (not_or.mpr ⟨free, admissible.emailFree⟩)⟩
  · rw [signupAction_inadmissible admissible]
    simp [admissible, unique]

theorem signedUp_concat (past : List Post) (post : Post) :
    signedUp packages emailValid openSignUp (past ++ [post]) =
      (signupAction packages openSignUp (signedUp packages emailValid openSignUp past) post).1 :=
  after_concat ..

/-- Every sequence of submissions, from the empty collection: at every point no
login and no address is stored twice, and no submission that brings a taken one
changes anything, exactly if no submission is admissible under a taken name. -/
theorem signedUp_unique_iff (packages : Packages) (emailValid : String → Bool) (openSignUp : Bool)
    (history : List Post) :
    ((∀ past, past <+: history → Unique (signedUp packages emailValid openSignUp past)) ∧
        ∀ past post, past ++ [post] <+: history →
          UsernameTaken packages (signedUp packages emailValid openSignUp past) post ∨
              EmailTaken (signedUp packages emailValid openSignUp past) post →
            signedUp packages emailValid openSignUp (past ++ [post]) =
              signedUp packages emailValid openSignUp past) ↔
      ∀ past post, past ++ [post] <+: history →
        ¬ (Admissible packages openSignUp (signedUp packages emailValid openSignUp past) post ∧
          UsernameTaken packages (signedUp packages emailValid openSignUp past) post) := by
  have earlier {past : List Post} {post : Post} (within : past ++ [post] <+: history) :
      past <+: history := (List.prefix_append past [post]).trans within
  constructor
  · rintro ⟨unique, rejected⟩ past post within
    apply (signupAction_iff (unique past (earlier within)) post).mp
    rw [← signedUp_concat]
    exact ⟨unique _ within, rejected past post within⟩
  · intro each
    have unique : ∀ past, past <+: history →
        Unique (signedUp packages emailValid openSignUp past) := by
      refine prefix_induction (fun past => Unique (signedUp packages emailValid openSignUp past))
        ⟨List.nodup_nil, List.nodup_nil⟩ ?_
      intro past post within before
      rw [signedUp_concat]
      exact ((signupAction_iff before post).mpr (each past post within)).1
    refine ⟨unique, ?_⟩
    intro past post within taken
    rw [signedUp_concat]
    exact ((signupAction_iff (unique past (earlier within)) post).mpr (each past post within)).2
      taken

/-- Packages that filter and hash nothing, and count the identifiers. -/
def plainPackages : Packages where
  email address := address.toList.contains '@'
  confirmed value repeated := value = repeated
  striptags value := value
  hash password := password
  newId taken := String.ofList (List.replicate (taken.map String.length).sum.succ 'x')
  fresh := by
    intro taken held
    have short : ∀ text ∈ taken, text.length ≤ (taken.map String.length).sum :=
      fun text held => List.le_sum_of_mem (List.mem_map_of_mem held)
    have long := short _ held
    rw [String.length_ofList, List.length_replicate] at long
    omega

/-- `alice` under some address. -/
def aliceAt (email : String) : Post where
  username := "alice"
  email := email
  confirmEmail := email
  password := "password"
  confirmPassword := "password"
  csrf := true
  terms := "yes"

/-- A second user signs up under the login of the first. -/
theorem second_alice_signs_up :
    ¬ Unique (signedUp plainPackages (fun _ => true) true
      [aliceAt "alice@example.org", aliceAt "mallory@example.org"]) := by
  intro unique
  have logins : (signedUp plainPackages (fun _ => true) true
      [aliceAt "alice@example.org", aliceAt "mallory@example.org"]).documents.map Users.login =
        ["alice", "alice"] := by decide
  have distinct := unique.logins
  rw [logins] at distinct
  simp at distinct

end NetGraphz.Signup
