import NetGraphz.AccountVisits
import NetGraphz.LoginRelations

/-! Where an identity in a session comes from: from a login with the user's password,
by the same browser or by the one the presented token was issued to. -/
namespace NetGraphz.SessionOrigins
open UserStore Auth AuthProofs Logout AccountVisits

variable {emailValid : String → Bool}

/-! ## One record at a time -/

/-- The record `user` has become `final`, and no other record has changed. -/
structure Rewritten (users users' : Collection emailValid) (user final : Users) : Prop where
  held : user ∈ users.documents
  _id : final._id = user._id
  login : final.login = user.login
  email : final.email = user.email
  documents : users'.documents =
    users.documents.map fun old => if old._id = user._id then final else old

variable {users users' : Collection emailValid} {user middle final : Users}

theorem rewritten_refl (held : user ∈ users.documents) : Rewritten users users user user := by
  refine ⟨held, rfl, rfl, rfl, (List.map_id users.documents).symm.trans ?_⟩
  apply List.map_congr_left
  intro old oldHeld
  split
  · rename_i same
    exact document_unique held oldHeld same
  · rfl

theorem final_held (rewritten : Rewritten users users' user final) : final ∈ users'.documents := by
  rw [rewritten.documents]
  exact List.mem_map.mpr ⟨user, rewritten.held, if_pos rfl⟩

/-- The rewritten record is stored once more. -/
theorem rewritten_saved (rewritten : Rewritten users users' user middle)
    (_id : final._id = middle._id) (login : final.login = middle.login)
    (email : final.email = middle.email) : Rewritten users (users'.saved final) user final := by
  refine ⟨rewritten.held, _id.trans rewritten._id, login.trans rewritten.login,
    email.trans rewritten.email, ?_⟩
  rw [saved_documents (final_held rewritten) _id email, rewritten.documents, List.map_map]
  apply List.map_congr_left
  intro old _
  have same : final._id = user._id := _id.trans rewritten._id
  by_cases this : old._id = user._id
  · simp [this, same, rewritten._id]
  · simp [this, same]

/-! ## Tokens -/

/-- The tokens a record has, each under its value. -/
def tokensOf (user : Users) : List (String × AuthToken) := user.tokens.getD []

/-- Every token of a record was in it before, or is a gain. -/
def Gains (gained : String → String × AuthToken → Prop) (users users' : Collection emailValid) :
    Prop :=
  ∀ new ∈ users'.documents, ∀ entry ∈ tokensOf new,
    (∃ old ∈ users.documents, old._id = new._id ∧ entry ∈ tokensOf old) ∨ gained new._id entry

variable {gained : String → String × AuthToken → Prop}

theorem gains_refl (users : Collection emailValid) : Gains gained users users :=
  fun new held _ holds => Or.inl ⟨new, held, rfl, holds⟩

theorem gains_of_rewritten (rewritten : Rewritten users users' user final)
    (tokens : ∀ entry ∈ tokensOf final, entry ∈ tokensOf user ∨ gained user._id entry) :
    Gains gained users users' := by
  intro new held entry holds
  rw [rewritten.documents] at held
  obtain ⟨old, oldHeld, result⟩ := List.mem_map.mp held
  split at result
  · subst result
    rcases tokens entry holds with kept | gain
    · exact Or.inl ⟨user, rewritten.held, rewritten._id.symm, kept⟩
    · exact Or.inr (rewritten._id ▸ gain)
  · subst result
    exact Or.inl ⟨old, oldHeld, rfl, holds⟩

theorem gains_of_fewer (rewritten : Rewritten users users' user final)
    (tokens : ∀ entry ∈ tokensOf final, entry ∈ tokensOf user) : Gains gained users users' :=
  gains_of_rewritten rewritten fun entry holds => Or.inl (tokens entry holds)

theorem mem_tokensOf_cleaned {config : Config} {now : Int} {entry : String × AuthToken}
    (holds : entry ∈ tokensOf { user with tokens := cleanUserTokens config now user.tokens }) :
    entry ∈ tokensOf user := by
  unfold tokensOf cleanUserTokens at *
  cases stored : user.tokens with
  | none => simp [stored] at holds
  | some tokens =>
    simp only [stored, Option.map_some, Option.getD_some] at holds ⊢
    exact List.mem_of_mem_filter holds

/-! ## Logins -/

variable {config : Config} {packages : Packages} {request : Request} {now : Int}

/-- Whom the flags let through. -/
theorem checkUserFlags_passed {users₀ checked : Collection emailValid} {passed : Users}
    (rewritten : Rewritten users₀ users user middle)
    (ok : checkUserFlags config now users middle = .ok (checked, passed)) :
    middle.inactive = false ∧ middle.blocked = false ∧ passed.tokens = middle.tokens ∧
      Rewritten users₀ checked user passed := by
  unfold checkUserFlags at ok
  split_ifs at ok with inactive blocked
  refine ⟨by simpa using inactive, by simpa using blocked, ?_⟩
  split at ok
  · cases ok
    exact ⟨rfl, rewritten⟩
  · dsimp only at ok
    split_ifs at ok
    cases ok
    exact ⟨rfl, rewritten_saved rewritten rfl rfl rfl⟩

theorem createRememberEnviroment_rewritten (rewritten : Rewritten users users' user middle) :
    ∃ final, Rewritten users (createRememberEnviroment packages request now users' middle).1 user
        final ∧
      ∀ entry ∈ tokensOf final, entry ∈ tokensOf middle ∨
        entry = ((createUserAuthToken packages request now middle.email).value,
          createUserAuthToken packages request now middle.email) := by
  let token := createUserAuthToken packages request now middle.email
  let stored := { middle with tokens := some (setToken middle.tokens token.value token) }
  have saved : (createRememberEnviroment packages request now users' middle).1 =
      users'.saved stored := by
    unfold createRememberEnviroment Collection.saved
    dsimp only
    cases users'.save stored <;> rfl
  rw [saved]
  refine ⟨stored, rewritten_saved rewritten rfl rfl rfl, ?_⟩
  intro entry holds
  exact (mem_setToken holds).symm

/-- The last step, with or without a token to remember. -/
theorem remembered_rewritten (rewritten : Rewritten users users' user middle) (remember : Bool) :
    ∃ final, Rewritten users
        (if remember then createRememberEnviroment packages request now users' middle
          else (users', none)).1 user final ∧
      ∀ entry ∈ tokensOf final, entry ∈ tokensOf middle ∨ remember = true ∧
        entry = ((createUserAuthToken packages request now user.email).value,
          createUserAuthToken packages request now user.email) := by
  cases remember with
  | true =>
    obtain ⟨final, stored, gained⟩ := createRememberEnviroment_rewritten rewritten
    rw [rewritten.email] at gained
    refine ⟨final, stored, ?_⟩
    intro entry holds
    rcases gained entry holds with kept | new
    · exact Or.inl kept
    · exact Or.inr ⟨rfl, new⟩
  | false => exact ⟨middle, rewritten, fun _ holds => Or.inl holds⟩

theorem not_loggedIn_thrown (message : String) : ¬ LoggedIn (.thrown message) := by
  rintro ⟨_, _, impossible⟩
  cases impossible

/-- How a login with a password can end: it puts nobody into the session and gives no
token out, or it puts the user in whose password it was. -/
theorem check_cases (gained : String → String × AuthToken → Prop) (config : Config)
    (packages : Packages) (request : Request) (now : Int) (users : Collection emailValid)
    (credentials : Credentials) :
    (¬ LoggedIn (check config packages request now users credentials).2 ∧
        Gains gained users (check config packages request now users credentials).1) ∨
      ∃ user final cookies,
        users.findFirst (fun user => user.login = credentials.login) = some user ∧
        packages.checkHash credentials.password user.password = true ∧
        user.inactive = false ∧ user.blocked = false ∧
        (check config packages request now users credentials).2 =
          .loggedIn ⟨user._id, user.login⟩ cookies ∧
        Rewritten users (check config packages request now users credentials).1 user final ∧
        ∀ entry ∈ tokensOf final, entry ∈ tokensOf user ∨ credentials.remember = true ∧
          entry = ((createUserAuthToken packages request now user.email).value,
            createUserAuthToken packages request now user.email) := by
  unfold check
  cases found : users.findFirst fun user => user.login = credentials.login with
  | none => exact Or.inl ⟨not_loggedIn_thrown _, gains_refl users⟩
  | some user =>
    have start := rewritten_refl (List.mem_of_find?_eq_some found)
    dsimp only
    by_cases right : packages.checkHash credentials.password user.password = true
    · rw [if_neg (by simp [right])]
      have cleaned : Rewritten users
          (users.saved { user with tokens := cleanUserTokens config now user.tokens }) user
          { user with tokens := cleanUserTokens config now user.tokens } :=
        rewritten_saved start rfl rfl rfl
      cases flags : checkUserFlags config now
          (users.saved { user with tokens := cleanUserTokens config now user.tokens })
          { user with tokens := cleanUserTokens config now user.tokens } with
      | error message =>
        exact Or.inl ⟨not_loggedIn_thrown _, gains_of_fewer cleaned fun _ => mem_tokensOf_cleaned⟩
      | ok result =>
        obtain ⟨checked, passed⟩ := result
        obtain ⟨inactive, blocked, tokens, rewritten⟩ := checkUserFlags_passed cleaned flags
        have stored : Rewritten users (saveSuccessLogin now checked passed).1 user
            (saveSuccessLogin now checked passed).2 := rewritten_saved rewritten rfl rfl rfl
        have kept : ∀ entry ∈ tokensOf (saveSuccessLogin now checked passed).2,
            entry ∈ tokensOf user := by
          intro entry holds
          have holds : entry ∈ passed.tokens.getD [] := holds
          rw [tokens] at holds
          exact mem_tokensOf_cleaned holds
        have named : (⟨(saveSuccessLogin now checked passed).2._id,
            (saveSuccessLogin now checked passed).2.login⟩ : Identity) = ⟨user._id, user.login⟩ := by
          rw [stored._id, stored.login]
        obtain ⟨final, ended, gained⟩ := remembered_rewritten stored credentials.remember
        dsimp only
        rw [named]
        refine Or.inr ⟨user, final, _, rfl, right, inactive, blocked, rfl, ended, ?_⟩
        intro entry holds
        exact (gained entry holds).imp_left (kept entry)
    · rw [if_pos (by simp [right])]
      cases throttled : registerUserThrottling config now user with
      | none =>
        refine Or.inl ⟨?_, gains_refl users⟩
        rintro ⟨_, _, impossible⟩
        cases impossible
      | some new =>
        have follows := registerUserThrottling_follows throttled
        have counted : Rewritten users (users.saved new) user new :=
          rewritten_saved start follows._id follows.login follows.email
        refine Or.inl ⟨not_loggedIn_thrown _, gains_of_fewer counted ?_⟩
        intro entry holds
        unfold tokensOf at holds
        rwa [registerUserThrottling_tokens throttled] at holds

/-- What a login with the cookies took: the user whom the one names has a token under
the other that is young enough, and no flag against it. -/
structure Remembered (config : Config) (packages : Packages) (now : Int)
    (users : Collection emailValid) (cookies : Cookies) (user : Users) : Prop where
  named : packages.mongoId (String.ofList (cookies.RMU.toList.take 24)) = some user._id
  held : user ∈ users.documents
  token : ∃ token, (cookies.RMT.getD "", token) ∈ tokensOf user ∧
    now - token.createDate.getD 0 < config.application.rememberLifeTime
  active : user.inactive = false
  unblocked : user.blocked = false

theorem loginWithRememberMe_cases (users : Collection emailValid) (cookies : Cookies) :
    Gains gained users (loginWithRememberMe config packages now users cookies).1 ∧
      ∀ identity cookies', (loginWithRememberMe config packages now users cookies).2 =
          .loggedIn identity cookies' →
        ∃ user, Remembered config packages now users cookies user ∧
          identity = ⟨user._id, user.login⟩ := by
  unfold loginWithRememberMe
  cases named : packages.mongoId (String.ofList (cookies.RMU.toList.take 24)) with
  | none => exact ⟨gains_refl users, nofun⟩
  | some userId =>
    dsimp only
    cases found : users.findById userId with
    | none => exact ⟨gains_refl users, nofun⟩
    | some user =>
      have held := List.mem_of_find?_eq_some found
      have isId : user._id = userId := by simpa using List.find?_some found
      dsimp only
      cases stored : (user.tokens.getD []).lookup (cookies.RMT.getD "") with
      | none => exact ⟨gains_refl users, nofun⟩
      | some token =>
        obtain ⟨front, back, whole, _⟩ := List.lookup_eq_some_iff.mp stored
        have holds : (cookies.RMT.getD "", token) ∈ tokensOf user := by
          rw [tokensOf, whole]
          exact List.mem_append_right front List.mem_cons_self
        dsimp only
        split_ifs with unexpired
        · cases flags : checkUserFlags config now users user with
          | error message => exact ⟨gains_refl users, nofun⟩
          | ok result =>
            obtain ⟨checked, passed⟩ := result
            obtain ⟨inactive, blocked, tokens, rewritten⟩ :=
              checkUserFlags_passed (rewritten_refl held) flags
            have ended : Rewritten users (saveSuccessLogin now checked passed).1 user
                (saveSuccessLogin now checked passed).2 := rewritten_saved rewritten rfl rfl rfl
            refine ⟨gains_of_fewer ended ?_, ?_⟩
            · intro entry kept
              have kept : entry ∈ passed.tokens.getD [] := kept
              rwa [tokens] at kept
            · rintro identity cookies' same
              cases same
              refine ⟨user, ⟨isId ▸ named, held, ⟨token, holds, unexpired⟩, inactive, blocked⟩, ?_⟩
              rw [rewritten._id, rewritten.login]
        · exact ⟨gains_refl users, nofun⟩

/-! ## Log-outs and sign-ups -/

theorem remove_cases (gained : String → String × AuthToken → Prop) (packages : Packages)
    (page : Logout.Page emailValid) :
    Gains gained page.users (remove packages page).1.users ∧
      ((remove packages page).1.session = none ∨
        (remove packages page).1.session = page.session) := by
  unfold remove
  dsimp only
  split
  · exact ⟨gains_refl _, Or.inl rfl⟩
  · rename_i tokenVal _
    cases session : page.session with
    | none => exact ⟨gains_refl _, Or.inl rfl⟩
    | some identity =>
      rcases getUser_eq packages page.users identity with ⟨⟨message, thrown⟩, _⟩ |
        ⟨user, known, record⟩
      · rw [thrown]
        exact ⟨gains_refl _, Or.inr rfl⟩
      · rw [known]
        have unset : Rewritten page.users (page.users.saved (unsetToken user tokenVal)) user
            (unsetToken user tokenVal) :=
          rewritten_saved (rewritten_refl (recordOf_eq_some.mp record).2) rfl rfl rfl
        refine ⟨gains_of_fewer unset ?_, Or.inl rfl⟩
        intro entry holds
        unfold tokensOf unsetToken at holds
        unfold tokensOf
        cases stored : user.tokens with
        | none => simp [stored] at holds
        | some tokens =>
          simp only [stored, Option.map_some, Option.getD_some] at holds ⊢
          exact List.mem_of_mem_filter holds

theorem signupAction_gains (signup : Signup.Packages) (openSignUp : Bool)
    (users : Collection emailValid) (post : Signup.Post) :
    Gains gained users (Signup.signupAction signup openSignUp users post).1 := by
  by_cases admissible : Signup.Admissible signup openSignUp users post
  · intro new held entry holds
    rw [Signup.signupAction_admissible admissible] at held
    rcases List.mem_append.mp held with before | added
    · exact Or.inl ⟨new, before, rfl, holds⟩
    · cases List.mem_singleton.mp added
      cases holds
  · rw [Signup.signupAction_inadmissible admissible]
    exact gains_refl users

/-! ## Visits -/

/-- A visit that sends a user's login and password. -/
structure PasswordLogin (setup : Setup) (site : Site emailValid) (visit : Visit)
    (post : LoginPost) (user : Users) : Prop where
  page : visit.page = .login post
  valid : post.messages = []
  found : site.users.findFirst (fun user => user.login = post.login) = some user
  right : setup.packages.checkHash post.password user.password = true
  active : user.inactive = false
  unblocked : user.blocked = false

/-- The visit logs in with a password, asks to be remembered, and is given the token. -/
def Issues (setup : Setup) (site : Site emailValid) (visit : Visit) (id : String)
    (entry : String × AuthToken) : Prop :=
  ∃ post user, PasswordLogin setup site visit post user ∧ post.remember.isSome = true ∧
    user._id = id ∧
    entry = ((createUserAuthToken setup.packages visit.request visit.now user.email).value,
      createUserAuthToken setup.packages visit.request visit.now user.email)

/-- The visit puts the identity into its browser's session. -/
inductive Identifies (setup : Setup) (site : Site emailValid) (visit : Visit) :
    Identity → Prop where
  | password (login : PasswordLogin setup site visit post owner) :
      Identifies setup site visit ⟨owner._id, owner.login⟩
  | cookies (present : visit.cookies.RMU = some RMU)
      (remembered : Remembered setup.config setup.packages visit.now site.users
        ⟨RMU, visit.cookies.RMT⟩ owner) :
      Identifies setup site visit ⟨owner._id, owner.login⟩

theorem registered_sessions {site : Site emailValid} {browser other : Nat} {identity : Identity}
    {result : Collection emailValid × Outcome}
    (set : (registered site browser result).sessions other = some identity) :
    site.sessions other = some identity ∨
      browser = other ∧ ∃ cookies, result.2 = .loggedIn identity cookies := by
  obtain ⟨users, outcome⟩ := result
  cases outcome with
  | loggedIn own cookies =>
    by_cases same : browser = other
    · subst same
      simp only [registered, Function.update_self, Option.some.injEq] at set
      exact Or.inr ⟨rfl, cookies, by rw [set]⟩
    · simp only [registered, Function.update_of_ne (Ne.symm same)] at set
      exact Or.inl set
  | thrown => exact Or.inl set
  | callOnNull => exact Or.inl set
  | loginPage => exact Or.inl set

/-- What a visit can do to the tokens and to the sessions. -/
structure Accounted (setup : Setup) (site : Site emailValid) (visit : Visit)
    (next : Site emailValid) : Prop where
  tokens : Gains (Issues setup site visit) site.users next.users
  sessions : ∀ browser identity, next.sessions browser = some identity →
    site.sessions browser = some identity ∨
      visit.browser = browser ∧ Identifies setup site visit identity

variable {setup : Setup} {site : Site emailValid} {visit : Visit}

theorem accounted_refl : Accounted setup site visit site :=
  ⟨gains_refl _, fun _ _ held => Or.inl held⟩

theorem accounted_cookies {RMU : String} (present : visit.cookies.RMU = some RMU) :
    Accounted setup site visit (registered site visit.browser
      (loginWithRememberMe setup.config setup.packages visit.now site.users
        ⟨RMU, visit.cookies.RMT⟩)) := by
  obtain ⟨tokens, sessions⟩ := loginWithRememberMe_cases site.users ⟨RMU, visit.cookies.RMT⟩
  refine ⟨tokens, ?_⟩
  intro browser identity set
  rcases registered_sessions set with before | ⟨own, cookies, loggedIn⟩
  · exact Or.inl before
  · obtain ⟨user, remembered, rfl⟩ := sessions identity cookies loggedIn
    exact Or.inr ⟨own, .cookies present remembered⟩

theorem accounted_password {post : LoginPost} (page : visit.page = .login post)
    (valid : post.messages = []) :
    Accounted setup site visit (registered site visit.browser
      (check setup.config setup.packages visit.request visit.now site.users post.credentials)) := by
  rcases check_cases (Issues setup site visit) setup.config setup.packages visit.request visit.now
    site.users post.credentials with ⟨nobody, tokens⟩ |
    ⟨user, final, cookies, found, right, active, unblocked, outcome, rewritten, gained⟩
  · refine ⟨tokens, ?_⟩
    intro browser identity set
    rcases registered_sessions set with before | ⟨_, cookies, loggedIn⟩
    · exact Or.inl before
    · exact absurd ⟨identity, cookies, loggedIn⟩ nobody
  · have login : PasswordLogin setup site visit post user :=
      ⟨page, valid, found, right, active, unblocked⟩
    refine ⟨gains_of_rewritten rewritten ?_, ?_⟩
    · intro entry holds
      rcases gained entry holds with kept | ⟨remember, new⟩
      · exact Or.inl kept
      · exact Or.inr ⟨post, user, login, remember, rfl, new⟩
    · intro browser identity set
      rcases registered_sessions set with before | ⟨own, cookies', loggedIn⟩
      · exact Or.inl before
      · rw [outcome] at loggedIn
        cases loggedIn
        exact Or.inr ⟨own, .password login⟩

/-- Every visit is accounted for. -/
theorem accounted (setup : Setup) (site : Site emailValid) (visit : Visit) :
    Accounted setup site visit (step setup site (.visits visit)) := by
  unfold step
  dsimp only
  split
  · rename_i post page
    unfold loginAction
    dsimp only
    split
    · exact accounted_refl
    · rename_i valid
      exact accounted_password page (not_not.mp valid)
  · unfold loginAction
    dsimp only
    split
    · exact accounted_refl
    · rename_i RMU present
      exact accounted_cookies present
  · obtain ⟨tokens, session⟩ := remove_cases (Issues setup site visit) setup.packages
      ⟨site.users, site.sessions visit.browser, visit.cookies⟩
    refine ⟨tokens, ?_⟩
    intro browser identity set
    left
    by_cases own : browser = visit.browser
    · subst own
      simp only [logoutAction, Function.update_self] at set
      rcases session with gone | same
      · rw [gone] at set
        cases set
      · rwa [same] at set
    · simpa only [logoutAction, Function.update_of_ne own] using set
  · exact ⟨signupAction_gains _ _ _ _, fun _ _ held => Or.inl held⟩
  · unfold beforeExecuteRoute
    split
    · rename_i RMU RMT _ present given
      have cookies : Accounted setup site visit (registered site visit.browser
          (loginWithRememberMe setup.config setup.packages visit.now site.users
            ⟨RMU, visit.cookies.RMT⟩)) := accounted_cookies present
      rwa [given] at cookies
    · exact accounted_refl

end NetGraphz.SessionOrigins
