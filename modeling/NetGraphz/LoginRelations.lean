import NetGraphz.Auth

/-! What a login makes of the stored records, for any relation between a record
and its later versions that each single change of a login respects. -/
namespace NetGraphz.LoginRelations
open UserStore Auth

/-- The relation holds along every change that an attempt makes to a record. -/
structure Respects (config : Config) (packages : Packages) (request : Request) (now : Int)
    (related : Users → Users → Prop) : Prop where
  refl : ∀ user, related user user
  trans : ∀ old between new, related old between → related between new → related old new
  _id : ∀ {old new}, related old new → new._id = old._id
  email : ∀ {old new}, related old new → new.email = old.email
  throttled : ∀ {user new}, registerUserThrottling config now user = some new → related user new
  cleaned : ∀ user, related user { user with tokens := cleanUserTokens config now user.tokens }
  unflagged : ∀ user, related user { user with failedLoginBlock := false }
  succeeded : ∀ user,
    related user { user with lastLoginDate := some now, failedLoginAttempts := some 0 }
  remembered : ∀ user, related user
    { user with
      tokens := some (setToken user.tokens (createUserAuthToken packages request now user.email).value
        (createUserAuthToken packages request now user.email)) }

variable {config : Config} {packages : Packages} {request : Request} {now : Int}
  {related : Users → Users → Prop} {emailValid : String → Bool}

/-- A record under work: the collection has changed within the relation, and
holds the record as it is now. -/
structure Kept (related : Users → Users → Prop) (before now : Collection emailValid)
    (old new : Users) : Prop where
  evolves : Evolves related before now
  held : new ∈ now.documents

theorem kept_trans (respects : Respects config packages request now related)
    {before between later : Collection emailValid} {old middle new : Users}
    (first : Kept related before between old middle)
    (second : Kept related between later middle new) : Kept related before later old new :=
  ⟨evolves_trans respects.trans first.evolves second.evolves, second.held⟩

/-- A changed record is stored. -/
theorem kept_saved (respects : Respects config packages request now related)
    {users : Collection emailValid} {old new : Users} (held : old ∈ users.documents)
    (changed : related old new) : Kept related users (users.saved new) old new :=
  ⟨saved_evolves respects.refl held (respects._id changed) (respects.email changed) changed,
    saved_mem held (respects._id changed) (respects.email changed)⟩

/-- The flags are checked, and at most taken back. -/
theorem checkUserFlags_kept (respects : Respects config packages request now related)
    {users users' : Collection emailValid} {user user' : Users} (held : user ∈ users.documents)
    (passed : checkUserFlags config now users user = .ok (users', user')) :
    Kept related users users' user user' := by
  unfold checkUserFlags at passed
  split_ifs at passed
  split at passed
  · cases passed
    exact ⟨evolves_refl respects.refl users, held⟩
  · dsimp only at passed
    split_ifs at passed
    cases passed
    exact kept_saved respects held (respects.unflagged user)

theorem saveSuccessLogin_kept (respects : Respects config packages request now related)
    {users : Collection emailValid} {user : Users} (held : user ∈ users.documents) :
    Kept related users (saveSuccessLogin now users user).1 user
      (saveSuccessLogin now users user).2 :=
  kept_saved respects held (respects.succeeded user)

theorem createRememberEnviroment_evolves
    (respects : Respects config packages request now related) {users : Collection emailValid}
    {user : Users} (held : user ∈ users.documents) :
    Evolves related users (createRememberEnviroment packages request now users user).1 := by
  let token := createUserAuthToken packages request now user.email
  let stored := { user with tokens := some (setToken user.tokens token.value token) }
  have saved : (createRememberEnviroment packages request now users user).1 =
      users.saved stored := by
    unfold createRememberEnviroment Collection.saved
    dsimp only
    cases users.save stored <;> rfl
  rw [saved]
  exact (kept_saved respects held (respects.remembered user)).evolves

theorem check_evolves (respects : Respects config packages request now related)
    (users : Collection emailValid) (credentials : Credentials) :
    Evolves related users (check config packages request now users credentials).1 := by
  unfold check
  cases found : users.findFirst fun user => user.login = credentials.login with
  | none => exact evolves_refl respects.refl users
  | some user =>
    have held := List.mem_of_find?_eq_some found
    dsimp only
    split
    · cases registered : registerUserThrottling config now user with
      | none => exact evolves_refl respects.refl users
      | some new => exact (kept_saved respects held (respects.throttled registered)).evolves
    · have cleaned := kept_saved respects held (respects.cleaned user)
      split
      · exact cleaned.evolves
      · rename_i users' user' passed
        have checked := kept_trans respects cleaned (checkUserFlags_kept respects cleaned.held passed)
        have stored := kept_trans respects checked (saveSuccessLogin_kept respects checked.held)
        split
        · exact evolves_trans respects.trans stored.evolves
            (createRememberEnviroment_evolves respects stored.held)
        · exact stored.evolves

theorem loginWithRememberMe_evolves (respects : Respects config packages request now related)
    (users : Collection emailValid) (cookies : Cookies) :
    Evolves related users (loginWithRememberMe config packages now users cookies).1 := by
  unfold loginWithRememberMe
  split
  · exact evolves_refl respects.refl users
  · rename_i userId _
    cases found : users.findById userId with
    | none => exact evolves_refl respects.refl users
    | some user =>
      have held := List.mem_of_find?_eq_some found
      dsimp only
      split
      · exact evolves_refl respects.refl users
      · split
        · split
          · exact evolves_refl respects.refl users
          · rename_i users' user' passed
            have checked := checkUserFlags_kept respects held passed
            exact (kept_trans respects checked (saveSuccessLogin_kept respects checked.held)).evolves
        · exact evolves_refl respects.refl users

/-- A login, however it ends, changes the records within the relation. -/
theorem login_evolves (users : Collection emailValid) (attempt : Attempt)
    (respects : Respects config packages attempt.request attempt.now related) :
    Evolves related users (login config packages users attempt).1 := by
  unfold login
  split
  · exact check_evolves respects ..
  · exact loginWithRememberMe_evolves respects ..

end NetGraphz.LoginRelations
