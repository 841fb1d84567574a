import NetGraphz.AuthProofs

/-! Logging out. The remember-me token is revoked in the record of the session's
user, before the session is emptied. Without an identity in the session there is
no record, and the code calls a method on `false`. -/
namespace NetGraphz.Logout
open UserStore Auth AuthProofs LoginRelations

/-- The remember-me cookies a browser has. -/
structure BrowserCookies where
  RMU : Option String
  RMT : Option String
  deriving DecidableEq

/-- What a log-out works on: the collection, the session's `auth-identity` and the
browser's cookies. -/
structure Page (emailValid : String → Bool) where
  users : Collection emailValid
  session : Option Identity
  cookies : BrowserCookies

/-- How a log-out ends. -/
inductive Ending where
  | returned
  | thrown (message : String)
  | callOnFalse
  deriving DecidableEq

variable {emailValid : String → Bool}

/-- `getUser`; `none` is the `false` it returns without an identity. -/
def getUser (packages : Packages) (users : Collection emailValid) (session : Option Identity) :
    Except String (Option Users) :=
  match session with
  | none => .ok none
  | some identity =>
    match packages.mongoId (String.ofList (identity.id.toList.take 24)) with
    | none => .error "Invalid object ID"
    | some userId =>
      match users.findById userId with
      | none => .error "The user does not exist"
      | some user => .ok (some user)

/-- `unset($user->tokens[$tokenVal])`, where the key exists. -/
def unsetToken (user : Users) (tokenVal : String) : Users :=
  { user with tokens := user.tokens.map fun tokens => tokens.filter fun entry => entry.1 ≠ tokenVal }

/-- `remove`. -/
def remove (packages : Packages) (page : Page emailValid) : Page emailValid × Ending :=
  let page := { page with cookies := { page.cookies with RMU := none } }
  match page.cookies.RMT with
  | none => ({ page with session := none }, .returned)
  | some tokenVal =>
    match getUser packages page.users page.session with
    | .error message => (page, .thrown message)
    | .ok none => (page, .callOnFalse)
    | .ok (some user) =>
      ({ users := page.users.saved (unsetToken user tokenVal)
         session := none
         cookies := { page.cookies with RMT := none } }, .returned)

/-! ## Later states -/

/-- The user has a token under this value. -/
def Holds (user : Users) (value : String) (token : AuthToken) : Prop :=
  (value, token) ∈ user.tokens.getD []

/-- A state in which no user has a token under this value that the user had not
before, whatever else has changed. -/
def Later (value : String) (before later : Collection emailValid) : Prop :=
  ∀ user ∈ later.documents, ∀ token, Holds user value token →
    ∃ old ∈ before.documents, old._id = user._id ∧ Holds old value token

variable {value : String}

theorem later_refl (users : Collection emailValid) : Later value users users :=
  fun user held _ holds => ⟨user, held, rfl, holds⟩

theorem later_trans {before between later : Collection emailValid}
    (first : Later value before between) (second : Later value between later) :
    Later value before later := by
  intro user held token holds
  obtain ⟨middle, middleHeld, same, middleHolds⟩ := second user held token holds
  obtain ⟨old, oldHeld, same', oldHolds⟩ := first middle middleHeld token middleHolds
  exact ⟨old, oldHeld, same'.trans same, oldHolds⟩

/-- A stored record that gained no token under the value. -/
theorem later_saved {users : Collection emailValid} {stored user : Users}
    (held : stored ∈ users.documents) (_id : user._id = stored._id)
    (email : user.email = stored.email)
    (gained : ∀ token, Holds user value token → Holds stored value token) :
    Later value users (users.saved user) := by
  intro new newHeld token holds
  rw [saved_documents held _id email] at newHeld
  obtain ⟨old, oldHeld, result⟩ := List.mem_map.mp newHeld
  split at result
  · subst result
    exact ⟨stored, held, _id.symm, gained token holds⟩
  · subst result
    exact ⟨old, oldHeld, rfl, holds⟩

/-- A record's new version has no token under the value that the old one had not. -/
structure Gainless (value : String) (old new : Users) : Prop where
  _id : new._id = old._id
  email : new.email = old.email
  tokens : ∀ token, Holds new value token → Holds old value token

theorem later_of_evolves {before later : Collection emailValid}
    (evolves : Evolves (Gainless value) before later) : Later value before later := by
  intro user held token holds
  obtain ⟨old, oldHeld, gainless⟩ := Keyed.pointwise_mem evolves held
  exact ⟨old, oldHeld, gainless._id.symm, gainless.tokens token holds⟩

theorem gainless_kept {old new : Users} (_id : new._id = old._id) (email : new.email = old.email)
    (tokens : new.tokens = old.tokens) : Gainless value old new :=
  ⟨_id, email, fun token holds => by rwa [Holds, tokens] at holds⟩

theorem registerUserThrottling_tokens {config : Config} {now : Int} {user new : Users}
    (registered : registerUserThrottling config now user = some new) :
    new.tokens = user.tokens := by
  have unblocked := (registerUserThrottling_some registered).1
  simp only [registerUserThrottling, unblocked, Bool.false_eq_true, ↓reduceIte] at registered
  by_cases above : config.application.failLoginWindowMaxCount ≤ 1 <;>
    cases permanent : config.application.failLoginBlockPermament <;>
    cases last : user.failedLoginLastDate <;>
    cases window : user.failedLoginWindowStartDate <;>
    simp [Config.failLoginWindowTime, less_null, permanent, last, window, above] at registered <;>
    simp [← registered]

theorem mem_setToken {tokens : Option (List (String × AuthToken))} {key : String}
    {token : AuthToken} {entry : String × AuthToken} (held : entry ∈ setToken tokens key token) :
    entry = (key, token) ∨ entry ∈ tokens.getD [] := by
  unfold setToken at held
  dsimp only at held
  split at held
  · obtain ⟨old, oldHeld, result⟩ := List.mem_map.mp held
    split at result
    · exact Or.inl result.symm
    · exact Or.inr (result ▸ oldHeld)
  · rcases List.mem_append.mp held with before | new
    · exact Or.inr before
    · exact Or.inl (List.mem_singleton.mp new)

/-- The digest an attempt would give a new token is another one. -/
def Fresh (packages : Packages) (value : String) (attempt : Attempt) : Prop :=
  ∀ email, (createUserAuthToken packages attempt.request attempt.now email).value ≠ value

theorem gainless_respected (config : Config) {packages : Packages} {attempt : Attempt}
    (fresh : Fresh packages value attempt) :
    Respects config packages attempt.request attempt.now (Gainless value) where
  refl user := gainless_kept rfl rfl rfl
  trans old between new first second :=
    ⟨second._id.trans first._id, second.email.trans first.email,
      fun token holds => first.tokens token (second.tokens token holds)⟩
  _id gainless := gainless._id
  email gainless := gainless.email
  throttled registered := by
    have follows := registerUserThrottling_follows registered
    exact gainless_kept follows._id follows.email (registerUserThrottling_tokens registered)
  cleaned user := by
    refine ⟨rfl, rfl, ?_⟩
    intro token holds
    unfold Holds cleanUserTokens at holds
    cases stored : user.tokens with
    | none => simp [stored] at holds
    | some tokens =>
      simp only [stored, Option.map_some, Option.getD_some] at holds
      simpa [Holds, stored] using List.mem_of_mem_filter holds
  unflagged user := gainless_kept rfl rfl rfl
  succeeded user := gainless_kept rfl rfl rfl
  remembered user := by
    refine ⟨rfl, rfl, ?_⟩
    intro token holds
    rcases mem_setToken holds with new | before
    · exact absurd (congrArg Prod.fst new).symm (fresh user.email)
    · exact before

/-- After any logins that draw other digests, the state is a later one. -/
theorem later_afterLogins (config : Config) (packages : Packages) (users : Collection emailValid)
    (history : List Attempt) (fresh : ∀ attempt ∈ history, Fresh packages value attempt) :
    Later value users (afterLogins config packages users history) := by
  induction history using List.reverseRecOn with
  | nil => exact later_refl users
  | append_singleton past last ih =>
    have before := ih fun attempt held => fresh attempt (List.mem_append_left [last] held)
    have respected := gainless_respected config (fresh last (by simp))
    rw [afterLogins, after_concat]
    exact later_trans before (later_of_evolves (login_evolves _ last respected))

/-! ## Revocation -/

/-- The record that an identifier from a session or a cookie leads to. -/
def recordOf (packages : Packages) (users : Collection emailValid) (id : String) : Option Users :=
  (packages.mongoId (String.ofList (id.toList.take 24))).bind users.findById

theorem recordOf_eq_some {packages : Packages} {users : Collection emailValid} {id : String}
    {user : Users} :
    recordOf packages users id = some user ↔
      packages.mongoId (String.ofList (id.toList.take 24)) = some user._id ∧
        user ∈ users.documents := by
  unfold recordOf
  rw [Option.bind_eq_some_iff]
  constructor
  · rintro ⟨userId, read, found⟩
    have named : user._id = userId := by simpa using List.find?_some found
    exact ⟨named ▸ read, List.mem_of_find?_eq_some found⟩
  · rintro ⟨read, held⟩
    exact ⟨user._id, read, Keyed.find_of_mem users.distinct held⟩

theorem getUser_eq (packages : Packages) (users : Collection emailValid) (identity : Identity) :
    (∃ message, getUser packages users (some identity) = .error message) ∧
        recordOf packages users identity.id = none ∨
      ∃ user, getUser packages users (some identity) = .ok (some user) ∧
        recordOf packages users identity.id = some user := by
  unfold getUser recordOf
  dsimp only
  cases packages.mongoId (String.ofList (identity.id.toList.take 24)) with
  | none => exact Or.inl ⟨⟨_, rfl⟩, rfl⟩
  | some userId =>
    rw [Option.bind_some]
    cases found : users.findById userId with
    | none => exact Or.inl ⟨⟨"The user does not exist", by simp only [found]⟩, rfl⟩
    | some user => exact Or.inr ⟨user, by simp only [found], rfl⟩

/-- A login put somebody into the session. -/
def LoggedIn (outcome : Outcome) : Prop := ∃ identity cookies, outcome = .loggedIn identity cookies

/-- The user whom the one cookie names has the token of the other, not yet expired. -/
def Live (config : Config) (packages : Packages) (now : Int) (users : Collection emailValid)
    (RMU RMT : String) : Prop :=
  ∃ user token, recordOf packages users RMU = some user ∧ Holds user RMT token ∧
    now - token.createDate.getD 0 < config.application.rememberLifeTime

variable {config : Config} {packages : Packages} {users : Collection emailValid}
  {RMU RMT : String} {now : Int}

/-- A login with the cookies is a login with a live token. -/
theorem live_of_loggedIn
    (loggedIn : LoggedIn (loginWithRememberMe config packages now users ⟨RMU, some RMT⟩).2) :
    Live config packages now users RMU RMT := by
  obtain ⟨identity, cookies, ended⟩ := loggedIn
  unfold loginWithRememberMe at ended
  dsimp only at ended
  split at ended
  · cases ended
  · rename_i userId read
    split at ended
    · cases ended
    · rename_i user found
      split at ended
      · cases ended
      · rename_i token stored
        split at ended
        · rename_i unexpired
          obtain ⟨front, back, whole, _⟩ := List.lookup_eq_some_iff.mp stored
          refine ⟨user, token, ?_, ?_, unexpired⟩
          · rw [recordOf, read]
            exact found
          · rw [Holds, whole]
            exact List.mem_append_right front List.mem_cons_self
        · cases ended

/-- The record without flags, and with one token. -/
def reopened (user : Users) (value : String) (token : AuthToken) : Users :=
  { user with
    inactive := false
    blocked := false
    failedLoginBlock := false
    tokens := some [(value, token)] }

theorem checkUserFlags_reopened (config : Config) (now : Int) (users : Collection emailValid)
    (user : Users) (value : String) (token : AuthToken) :
    ∃ passed, checkUserFlags config now users (reopened user value token) = .ok passed := by
  unfold checkUserFlags reopened
  cases user.lastLoginDate <;> simp

/-- A live token logs in once the flags of its user are off. -/
theorem loggedIn_of_live (live : Live config packages now users RMU RMT) :
    ∃ later, Later RMT users later ∧
      LoggedIn (loginWithRememberMe config packages now later ⟨RMU, some RMT⟩).2 := by
  obtain ⟨user, token, named, holds, unexpired⟩ := live
  obtain ⟨read, held⟩ := recordOf_eq_some.mp named
  have stored : reopened user RMT token ∈ (users.saved (reopened user RMT token)).documents :=
    saved_mem held rfl rfl
  have found : (users.saved (reopened user RMT token)).findById user._id =
      some (reopened user RMT token) := Keyed.find_of_mem (Collection.distinct _) stored
  refine ⟨users.saved (reopened user RMT token), later_saved held rfl rfl ?_, ?_⟩
  · intro other has
    have same : (RMT, other) = (RMT, token) := List.mem_singleton.mp has
    cases same
    exact holds
  · obtain ⟨⟨users', user'⟩, passed⟩ := checkUserFlags_reopened config now
      (users.saved (reopened user RMT token)) user RMT token
    have kept : ((reopened user RMT token).tokens.getD []).lookup RMT = some token := by
      simp [reopened]
    unfold loginWithRememberMe
    simp only [read, found, Option.getD_some, kept, unexpired, passed, ↓reduceIte]
    exact ⟨_, _, rfl⟩

/-- A token that is live stays so in a later state only if it was before. -/
theorem live_before {later : Collection emailValid} {now' : Int} (isLater : Later RMT users later)
    (onward : now ≤ now') (live : Live config packages now' later RMU RMT) :
    Live config packages now users RMU RMT := by
  obtain ⟨user, token, named, holds, unexpired⟩ := live
  obtain ⟨read, held⟩ := recordOf_eq_some.mp named
  obtain ⟨old, oldHeld, same, oldHolds⟩ := isLater user held token holds
  exact ⟨old, token, recordOf_eq_some.mpr ⟨same ▸ read, oldHeld⟩, oldHolds, by omega⟩

/-- No later login succeeds with the cookies, exactly if their token is not live. -/
theorem never_loggedIn_iff :
    (∀ later, Later RMT users later → ∀ now', now ≤ now' →
        ¬ LoggedIn (loginWithRememberMe config packages now' later ⟨RMU, some RMT⟩).2) ↔
      ¬ Live config packages now users RMU RMT := by
  constructor
  · intro never live
    obtain ⟨later, isLater, loggedIn⟩ := loggedIn_of_live live
    exact never later isLater now (Int.le_refl now) loggedIn
  · intro dead later isLater now' onward loggedIn
    exact dead (live_before isLater onward (live_of_loggedIn loggedIn))

/-- The page of a browser that presents both cookies. -/
def presenting (users : Collection emailValid) (session : Option Identity) (RMU RMT : String) :
    Page emailValid where
  users := users
  session := session
  cookies := { RMU := some RMU, RMT := some RMT }

/-- A log-out leaves no identity in the session, and cookies that log in at no
later time and in no later state. -/
structure LogsOut (config : Config) (packages : Packages) (now : Int) (users : Collection emailValid)
    (session : Option Identity) (RMU RMT : String) : Prop where
  gone : (remove packages (presenting users session RMU RMT)).1.session = none
  revoked : ∀ later, Later RMT (remove packages (presenting users session RMU RMT)).1.users later →
    ∀ now', now ≤ now' →
      ¬ LoggedIn (loginWithRememberMe config packages now' later ⟨RMU, some RMT⟩).2

/-- The session's user, if there is one, is stored, and is the one the cookies log
in, if they log anybody in. -/
structure Reached (config : Config) (packages : Packages) (now : Int) (users : Collection emailValid)
    (session : Option Identity) (RMU RMT : String) : Prop where
  stored : ∀ identity ∈ session, (recordOf packages users identity.id).isSome
  own : Live config packages now users RMU RMT →
    ∃ identity ∈ session, recordOf packages users identity.id = recordOf packages users RMU

theorem not_holds_unsetToken (user : Users) (value : String) (token : AuthToken) :
    ¬ Holds (unsetToken user value) value token := by
  unfold Holds unsetToken
  cases user.tokens <;> simp

/-- The token is taken from the record of the session's user alone. -/
theorem live_unset {user : Users} (held : user ∈ users.documents) :
    Live config packages now (users.saved (unsetToken user RMT)) RMU RMT ↔
      Live config packages now users RMU RMT ∧ recordOf packages users RMU ≠ some user := by
  have documents : (users.saved (unsetToken user RMT)).documents = users.documents.map fun old =>
      if old._id = user._id then unsetToken user RMT else old := saved_documents held rfl rfl
  constructor
  · rintro ⟨new, token, named, holds, unexpired⟩
    obtain ⟨read, newHeld⟩ := recordOf_eq_some.mp named
    rw [documents] at newHeld
    obtain ⟨old, oldHeld, result⟩ := List.mem_map.mp newHeld
    split at result
    · subst result
      have kept := (not_holds_unsetToken user RMT token) holds
      exact kept.elim
    · rename_i apart
      subst result
      have stored : recordOf packages users RMU = some old := recordOf_eq_some.mpr ⟨read, oldHeld⟩
      refine ⟨⟨old, token, stored, holds, unexpired⟩, ?_⟩
      rw [stored]
      rintro ⟨⟩
      exact apart rfl
  · rintro ⟨⟨old, token, named, holds, unexpired⟩, other⟩
    obtain ⟨read, oldHeld⟩ := recordOf_eq_some.mp named
    have apart : old._id ≠ user._id := by
      intro same
      rw [named, document_unique held oldHeld same] at other
      exact other rfl
    refine ⟨old, token, recordOf_eq_some.mpr ⟨read, ?_⟩, holds, unexpired⟩
    rw [documents]
    exact List.mem_map.mpr ⟨old, oldHeld, if_neg apart⟩

theorem remove_without_identity (packages : Packages) (users : Collection emailValid)
    (RMU RMT : String) :
    remove packages (presenting users none RMU RMT) =
      ({ users := users, session := none, cookies := { RMU := none, RMT := some RMT } },
        .callOnFalse) := rfl

/-- With an identity whose record is not found the session stays as it is. -/
theorem remove_unknown {identity : Identity}
    (unknown : recordOf packages users identity.id = none) :
    (remove packages (presenting users (some identity) RMU RMT)).1.session = some identity := by
  rcases getUser_eq packages users identity with ⟨⟨message, thrown⟩, _⟩ | ⟨user, _, found⟩
  · simp only [remove, presenting, thrown]
  · rw [unknown] at found
    cases found

theorem remove_known {identity : Identity} {user : Users}
    (known : recordOf packages users identity.id = some user) :
    remove packages (presenting users (some identity) RMU RMT) =
      ({ users := users.saved (unsetToken user RMT), session := none,
         cookies := { RMU := none, RMT := none } }, .returned) := by
  rcases getUser_eq packages users identity with ⟨_, unknown⟩ | ⟨found, got, same⟩
  · rw [known] at unknown
    cases unknown
  · rw [known, Option.some.injEq] at same
    subst same
    simp only [remove, presenting, got]

theorem logsOut_without_identity :
    LogsOut config packages now users none RMU RMT ↔ ¬ Live config packages now users RMU RMT := by
  rw [← never_loggedIn_iff]
  constructor
  · rintro ⟨-, revoked⟩
    rwa [remove_without_identity] at revoked
  · intro revoked
    refine ⟨rfl, ?_⟩
    rwa [remove_without_identity]

theorem not_logsOut_unknown {identity : Identity}
    (unknown : recordOf packages users identity.id = none) :
    ¬ LogsOut config packages now users (some identity) RMU RMT := by
  rintro ⟨gone, -⟩
  rw [remove_unknown unknown] at gone
  cases gone

theorem logsOut_known {identity : Identity} {user : Users}
    (known : recordOf packages users identity.id = some user) :
    LogsOut config packages now users (some identity) RMU RMT ↔
      (Live config packages now users RMU RMT → recordOf packages users RMU = some user) := by
  rw [← not_and_not_right, ← live_unset (recordOf_eq_some.mp known).2, ← never_loggedIn_iff]
  constructor
  · rintro ⟨-, revoked⟩
    rwa [remove_known known] at revoked
  · intro revoked
    refine ⟨?_, ?_⟩
    · rw [remove_known known]
    · rwa [remove_known known]

/-- **The token is looked for in the record of the session's user.** A log-out
revokes it exactly if that is where it is, and empties the session exactly if it
is empty already or that record is found. Logins that draw other digests lead to
such later states (`later_afterLogins`). -/
theorem logs_out_iff (config : Config) (packages : Packages) (now : Int)
    (users : Collection emailValid) (session : Option Identity) (RMU RMT : String) :
    LogsOut config packages now users session RMU RMT ↔
      Reached config packages now users session RMU RMT := by
  cases session with
  | none =>
    rw [logsOut_without_identity]
    constructor
    · intro dead
      exact ⟨nofun, fun live => absurd live dead⟩
    · rintro ⟨-, own⟩ live
      obtain ⟨identity, nobody, _⟩ := own live
      cases nobody
  | some identity =>
    cases found : recordOf packages users identity.id with
    | none =>
      apply iff_of_false (not_logsOut_unknown found)
      rintro ⟨stored, -⟩
      have there := stored identity rfl
      rw [found] at there
      cases there
    | some user =>
      rw [logsOut_known found]
      constructor
      · intro own
        refine ⟨?_, ?_⟩
        · rintro _ ⟨⟩
          rw [found]
          rfl
        · intro live
          exact ⟨identity, rfl, by rw [found, own live]⟩
      · rintro ⟨-, own⟩ live
        obtain ⟨_, ⟨⟩, named⟩ := own live
        rw [← named, found]

/-- A token made at the beginning of time. -/
def rememberedToken : AuthToken where
  createDate := some 0
  salt := "s"
  email := "alice@example.org"
  value := "digest"
  ip := "192.0.2.1"
  userAgent := "browser"

def remembered : Collection fun _ => true where
  documents := [{ newcomer with tokens := some [("digest", rememberedToken)] }]
  validated := fun _ _ => rfl
  distinct := by simp

/-- An hour later the session has expired, and the log-out leaves the token. -/
theorem expired_session_keeps_token : ¬ ∀ {emailValid : String → Bool} (config : Config)
    (packages : Packages) (now : Int) (users : Collection emailValid) (session : Option Identity)
    (RMU RMT : String), LogsOut config packages now users session RMU RMT := by
  intro claimed
  have logsOut := claimed shippedConfig onePassword 3600 remembered none "5e1f" "digest"
  refine logsOut_without_identity.mp logsOut ⟨_, rememberedToken, rfl, ?_, ?_⟩
  · exact List.mem_singleton_self _
  · decide

end NetGraphz.Logout
