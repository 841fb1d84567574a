import NetGraphz.LoginRelations
import NetGraphz.Base.History

/-! The login lockout. The length of the counting window is looked up where the
configuration does not have it, so that every wrong password is counted as the
first of its window, and no number of them locks an account unless one does. -/
namespace NetGraphz.AuthProofs
open UserStore Auth LoginRelations

/-- What logins may make of a record: whose it is and its password stay, only a
permanent block is ever set as `blocked`, and where one wrong password is below
the limit no flag is set at all. -/
structure Follows (config : Config) (old new : Users) : Prop where
  _id : new._id = old._id
  login : new.login = old.login
  password : new.password = old.password
  email : new.email = old.email
  permanent : new.blocked → old.blocked ∨ config.application.failLoginBlockPermament
  counted : 1 < config.application.failLoginWindowMaxCount →
    (new.blocked → old.blocked) ∧ (new.failedLoginBlock → old.failedLoginBlock)

variable {config : Config} {packages : Packages} {emailValid : String → Bool}

theorem follows_refl (user : Users) : Follows config user user :=
  ⟨rfl, rfl, rfl, rfl, Or.inl, fun _ => ⟨id, id⟩⟩

/-- Fields that logins may write at will. -/
theorem follows_fields (config : Config) (user : Users)
    (lastLoginDate failedLoginAttempts : Option Int) (tokens : Option (List (String × AuthToken))) :
    Follows config user { user with lastLoginDate, failedLoginAttempts, tokens } :=
  ⟨rfl, rfl, rfl, rfl, Or.inl, fun _ => ⟨id, id⟩⟩

theorem follows_trans (old between new : Users) (first : Follows config old between)
    (second : Follows config between new) : Follows config old new where
  _id := second._id.trans first._id
  login := second.login.trans first.login
  password := second.password.trans first.password
  email := second.email.trans first.email
  permanent blocked := by
    rcases second.permanent blocked with between | permanent
    · exact first.permanent between
    · exact Or.inr permanent
  counted several :=
    ⟨fun blocked => (first.counted several).1 ((second.counted several).1 blocked),
      fun blocked => (first.counted several).2 ((second.counted several).2 blocked)⟩

theorem less_null (x : Int) : less x none = false := by
  unfold less
  cases decide (x ≠ 0) <;> rfl

/-- The counter goes to one, whatever it was, and nothing but the limit and the
kind of the block decides about the flags. -/
theorem registerUserThrottling_some {now : Int} {user new : Users}
    (registered : registerUserThrottling config now user = some new) :
    user.blocked = false ∧ new._id = user._id ∧ new.login = user.login ∧
      new.password = user.password ∧ new.email = user.email ∧
      new.blocked = (decide (config.application.failLoginWindowMaxCount ≤ 1) &&
        config.application.failLoginBlockPermament) ∧
      new.failedLoginBlock = (user.failedLoginBlock ||
        (decide (config.application.failLoginWindowMaxCount ≤ 1) &&
          !config.application.failLoginBlockPermament)) := by
  unfold registerUserThrottling at registered
  cases blocked : user.blocked with
  | true => simp [blocked] at registered
  | false =>
    simp only [blocked, Config.failLoginWindowTime, less_null] at registered
    by_cases single : config.application.failLoginWindowMaxCount ≤ 1 <;>
      cases permanent : config.application.failLoginBlockPermament <;>
      cases last : user.failedLoginLastDate <;>
      cases window : user.failedLoginWindowStartDate <;>
      simp [single, permanent, last, window] at registered <;>
      simp [← registered, single]

theorem registerUserThrottling_none {now : Int} {user : Users} :
    registerUserThrottling config now user = none ↔ user.blocked := by
  constructor
  · intro refused
    by_contra open'
    unfold registerUserThrottling at refused
    simp only [open', ↓reduceIte] at refused
    split_ifs at refused
  · intro blocked
    simp [registerUserThrottling, blocked]

theorem registerUserThrottling_follows {now : Int} {user new : Users}
    (registered : registerUserThrottling config now user = some new) :
    Follows config user new := by
  obtain ⟨open', _id, login, password, email, blocked, block⟩ :=
    registerUserThrottling_some registered
  refine ⟨_id, login, password, email, ?_, ?_⟩
  · intro set
    rw [blocked, Bool.and_eq_true] at set
    exact Or.inr set.2
  · intro several
    have above : decide (config.application.failLoginWindowMaxCount ≤ 1) = false := by
      simpa using several
    rw [above, Bool.false_and] at blocked
    rw [above, Bool.false_and, Bool.or_false] at block
    rw [blocked, block]
    exact ⟨nofun, id⟩

/-- Each change a login makes to a record follows. -/
theorem follows_respected (config : Config) (packages : Packages) (request : Request) (now : Int) :
    Respects config packages request now (Follows config) where
  refl := follows_refl
  trans := follows_trans
  _id follows := follows._id
  email follows := follows.email
  throttled := registerUserThrottling_follows
  cleaned user := follows_fields config user user.lastLoginDate user.failedLoginAttempts _
  unflagged _ := ⟨rfl, rfl, rfl, rfl, Or.inl, fun _ => ⟨id, nofun⟩⟩
  succeeded user := follows_fields config user (some now) (some 0) user.tokens
  remembered user := follows_fields config user user.lastLoginDate user.failedLoginAttempts _

/-- The collection after a history of login attempts, on whatever accounts. -/
def afterLogins (config : Config) (packages : Packages) (users : Collection emailValid)
    (history : List Attempt) : Collection emailValid :=
  after (fun users attempt => (login config packages users attempt).1) users history

theorem afterLogins_evolves (config : Config) (packages : Packages) (users : Collection emailValid)
    (history : List Attempt) :
    Evolves (Follows config) users (afterLogins config packages users history) :=
  after_invariant _ (Evolves (Follows config) users) (evolves_refl follows_refl users)
    (fun _ attempt evolves => evolves_trans follows_trans evolves
      (login_evolves _ attempt (follows_respected config packages _ _)))
    history

/-- The record of the account with this login. -/
def account (users : Collection emailValid) (name : String) : Option Users :=
  users.findFirst fun user => user.login = name

/-- A wrong password for this account. -/
def WrongPassword (packages : Packages) (name : String) (user : Users) (attempt : Attempt) : Prop :=
  ∃ credentials, attempt.entry = .form credentials ∧ credentials.login = name ∧
    packages.checkHash credentials.password user.password = false

instance : DecidablePred (WrongPassword packages name user) := fun attempt =>
  match entry : attempt.entry with
  | .form credentials =>
    decidable_of_iff (credentials.login = name ∧
        packages.checkHash credentials.password user.password = false)
      ⟨fun wrong => ⟨credentials, entry, wrong⟩, fun ⟨other, same, wrong⟩ => by
        rw [entry] at same
        cases same
        exact wrong⟩
  | .remembered _ => isFalse fun ⟨_, same, _⟩ => by simp [entry] at same

/-- A login that puts this user into the session. -/
def Successful (config : Config) (packages : Packages) (users : Collection emailValid)
    (user : Users) (attempt : Attempt) : Prop :=
  ∃ cookies, (login config packages users attempt).2 =
    .loggedIn { id := user._id, name := user.login } cookies

/-- The mark a locked account carries. -/
def Locked (config : Config) (user : Users) : Prop :=
  if config.application.failLoginBlockPermament then user.blocked = true
  else user.failedLoginBlock = true

instance : Decidable (Locked config user) := by
  unfold Locked
  infer_instance

/-- At the end of the history `earlier ++ window ++ [last]`, as many wrong
passwords as the limit have come within the time of a window, the last of them
just now, and no successful login between them. -/
structure Burst (config : Config) (packages : Packages) (users : Collection emailValid)
    (name : String) (user : Users) (earlier window : List Attempt) (last : Attempt) : Prop where
  enough : config.application.failLoginWindowMaxCount ≤
    ((window ++ [last]).filter fun attempt => WrongPassword packages name user attempt).length
  within : ∀ attempt ∈ window, last.now - attempt.now ≤ config.application.failLoginWindowTime
  unsuccessful : ∀ before attempt, before ++ [attempt] <+: window →
    ¬ Successful config packages (afterLogins config packages users (earlier ++ before)) user
      attempt
  wrong : WrongPassword packages name user last

/-- All a wrong password does is count. -/
theorem login_wrongPassword {users : Collection emailValid} {name : String} {user record : Users}
    {attempt : Attempt} (found : account users name = some record)
    (same : record.password = user.password) (wrong : WrongPassword packages name user attempt) :
    login config packages users attempt =
      match registerUserThrottling config attempt.now record with
      | none => (users, .callOnNull)
      | some new => (users.saved new, .thrown "Wrong email/password combination") := by
  obtain ⟨credentials, entry, rfl, refused⟩ := wrong
  unfold login check
  rw [entry]
  dsimp only
  rw [show users.findFirst (fun user => user.login = credentials.login) = some record from found]
  cases registered : registerUserThrottling config attempt.now record <;>
    simp only [same, refused, registered, Bool.not_false, ↓reduceIte]

theorem wrongPassword_unsuccessful {users : Collection emailValid} {name : String}
    {user record : Users} {attempt : Attempt} (found : account users name = some record)
    (same : record.password = user.password) (wrong : WrongPassword packages name user attempt)
    (someone : Users) : ¬ Successful config packages users someone attempt := by
  rintro ⟨cookies, loggedIn⟩
  rw [login_wrongPassword found same wrong] at loggedIn
  cases registered : registerUserThrottling config attempt.now record <;>
    simp [registered] at loggedIn

/-- A wrong password locks the account if one is enough, or leaves it as it
was locked before. -/
theorem wrongPassword_locked (config : Config) {users : Collection emailValid} {name : String}
    {user record : Users} {attempt : Attempt} (found : account users name = some record)
    (same : record.password = user.password) (wrong : WrongPassword packages name user attempt) :
    ∃ new, account (login config packages users attempt).1 name = some new ∧
      if record.blocked then new = record
      else (Locked config new ↔ config.application.failLoginWindowMaxCount ≤ 1 ∨
        Locked config record) := by
  rw [login_wrongPassword found same wrong]
  cases registered : registerUserThrottling config attempt.now record with
  | none => exact ⟨record, found, by simp [registerUserThrottling_none.mp registered]⟩
  | some new =>
    have follows := registerUserThrottling_follows registered
    obtain ⟨unblocked, _, _, _, _, blocked, block⟩ := registerUserThrottling_some registered
    have named : record.login = name := by simpa using List.find?_some found
    refine ⟨new, saved_findFirst found follows._id follows.email ?_, ?_⟩
    · rw [follows.login, named, decide_eq_true rfl]
    · simp only [unblocked, Bool.false_eq_true, ↓reduceIte, Locked, blocked, block]
      cases config.application.failLoginBlockPermament <;> simp [or_comm]

/-- The lockout of an account that no flag was set for, at the end of a burst
of wrong passwords: there is none unless a single wrong password locks. -/
theorem burst_locks_iff {users : Collection emailValid} {name : String} {user : Users}
    {earlier window : List Attempt} {last : Attempt} (found : account users name = some user)
    (unblocked : user.blocked = false) (unlocked : user.failedLoginBlock = false)
    (burst : Burst config packages users name user earlier window last) :
    (∃ record, account (afterLogins config packages users (earlier ++ window ++ [last])) name =
        some record ∧ Locked config record) ↔
      config.application.failLoginWindowMaxCount ≤ 1 := by
  have evolves := afterLogins_evolves config packages users (earlier ++ window)
  obtain ⟨record, foundRecord, follows⟩ :=
    evolves_findFirst evolves (fun old new follows => by rw [follows.login]) found
  obtain ⟨new, foundNew, locked⟩ :=
    wrongPassword_locked config foundRecord follows.password burst.wrong
  have concat : afterLogins config packages users (earlier ++ window ++ [last]) =
      (login config packages (afterLogins config packages users (earlier ++ window)) last).1 :=
    after_concat ..
  rw [concat]
  have single : Locked config new ↔ config.application.failLoginWindowMaxCount ≤ 1 := by
    by_cases several : 1 < config.application.failLoginWindowMaxCount
    · have open' : record.blocked = false := by
        have kept := (follows.counted several).1
        simpa [unblocked] using kept
      have notLocked : ¬ Locked config record := by
        have kept := (follows.counted several).2
        simp only [unlocked, Bool.false_eq_true, imp_false, Bool.not_eq_true] at kept
        simp [Locked, open', kept]
      simp only [open', Bool.false_eq_true, ↓reduceIte] at locked
      rw [locked]
      exact or_iff_left notLocked
    · have enough := Int.not_lt.mp several
      refine iff_of_true ?_ enough
      split at locked
      · rename_i blocked
        have permanent := (follows.permanent blocked).resolve_left (by simp [unblocked])
        rw [locked, Locked, if_pos permanent]
        exact blocked
      · exact locked.mpr (Or.inl enough)
  constructor
  · rintro ⟨other, foundOther, otherLocked⟩
    rw [foundNew] at foundOther
    cases foundOther
    exact single.mp otherLocked
  · intro enough
    exact ⟨new, foundNew, single.mpr enough⟩

/-- An account just signed up, alone in the collection. -/
def newcomer : Users := .setEmptyLoginState "5e1f" "alice" "hash" "alice@example.org"

def newcomers : Collection fun _ => true where
  documents := [newcomer]
  validated := fun _ _ => rfl
  distinct := by simp

/-- A password hash only `secret` matches. -/
def onePassword : Packages where
  checkHash password _ := password = "secret"
  sha256 text := text
  mongoId text := some text

def wrongAttempt (now : Int) : Attempt where
  now := now
  request := { clientAddress := "192.0.2.1", userAgent := "browser", salt := "s", nonce := "n" }
  entry := .form { login := "alice", password := "guess", remember := false }

/-- Four guesses, one a second. -/
def fourGuesses : List Attempt := (List.range 4).map fun second : Nat => wrongAttempt second

/-- Five wrong passwords within five seconds. -/
theorem five_wrong_passwords : Burst shippedConfig onePassword newcomers "alice" newcomer []
    fourGuesses (wrongAttempt 4) where
  enough := by decide
  within := by
    intro attempt held
    obtain ⟨second, _, rfl⟩ := List.mem_map.mp held
    change (4 : Int) - (second : Int) ≤ 300
    omega
  unsuccessful := by
    intro before attempt within
    have evolves := afterLogins_evolves shippedConfig onePassword newcomers ([] ++ before)
    obtain ⟨record, found, follows⟩ : ∃ record, account
        (afterLogins shippedConfig onePassword newcomers ([] ++ before)) "alice" = some record ∧
          Follows shippedConfig newcomer record :=
      evolves_findFirst evolves (fun old new follows => by rw [follows.login]) (by decide)
    have held : attempt ∈ fourGuesses :=
      within.subset (List.mem_append_right before (List.mem_singleton_self attempt))
    obtain ⟨second, _, rfl⟩ := List.mem_map.mp held
    exact wrongPassword_unsuccessful found follows.password ⟨_, rfl, rfl, rfl⟩ newcomer
  wrong := ⟨_, rfl, rfl, by decide⟩

/-- The shipped configuration asks for a lock after five. -/
theorem five_wrong_passwords_lock_iff :
    (∃ record, account (afterLogins shippedConfig onePassword newcomers
        ([] ++ fourGuesses ++ [wrongAttempt 4])) "alice" = some record ∧
          Locked shippedConfig record) ↔
      shippedConfig.application.failLoginWindowMaxCount ≤ 1 :=
  burst_locks_iff rfl rfl rfl five_wrong_passwords

/-- After five wrong passwords in a row the account is open. -/
theorem five_wrong_passwords_without_lock :
    Burst shippedConfig onePassword newcomers "alice" newcomer [] fourGuesses (wrongAttempt 4) ∧
      ∃ record, account (afterLogins shippedConfig onePassword newcomers
        ([] ++ fourGuesses ++ [wrongAttempt 4])) "alice" = some record ∧
          ¬ Locked shippedConfig record := by
  refine ⟨five_wrong_passwords, { newcomer with
    failedLoginLastDate := some 4
    failedLoginWindowStartDate := some 0
    failedLoginAttempts := some 1 }, ?_, ?_⟩
  · decide
  · decide

end NetGraphz.AuthProofs
