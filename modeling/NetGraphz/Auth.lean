import NetGraphz.UserStore

/-! Identity management of the web application: a login with a password, a
login with the remember-me cookies, and what both leave in the user's record. -/
namespace NetGraphz.Auth
open UserStore

/-- The group `application` of the configuration. -/
structure Application where
  rememberLifeTime : Int
  failLoginWindowTime : Int
  failLoginBlockPermament : Bool
  failLoginBlockTime : Int
  failLoginWindowMaxCount : Int

structure Config where
  application : Application

/-- The configuration as it is shipped. -/
def shippedConfig : Config where
  application :=
    { rememberLifeTime := 604800
      failLoginWindowTime := 300
      failLoginBlockPermament := false
      failLoginBlockTime := 600
      failLoginWindowMaxCount := 5 }

/-- `$this->config->failLoginWindowTime`. The key is in the group `application`
and not next to it, so that this reads null. -/
def Config.failLoginWindowTime (_config : Config) : Option Int := none

/-- `<` between an integer and a value that may be null; null is compared as a
boolean, and so is then the integer. -/
def less (x : Int) : Option Int → Bool
  | some y => x < y
  | none => decide (x ≠ 0) < false

/-- The packages the component calls: the password hash, the digest a token's
value is made with, and the identifiers of the database. -/
structure Packages where
  checkHash : String → String → Bool
  sha256 : String → String
  mongoId : String → Option String

/-- What a login finds in its request, and the two random strings it draws. -/
structure Request where
  clientAddress : String
  userAgent : String
  salt : String
  nonce : String

structure Credentials where
  login : String
  password : String
  remember : Bool

/-- The remember-me cookies. -/
structure Cookies where
  RMU : String
  RMT : Option String
  deriving DecidableEq

/-- What the session holds under `auth-identity`. -/
structure Identity where
  id : String
  name : String
  deriving DecidableEq

/-- How a login ends: with an identity in the session and perhaps new cookies,
with an exception, with a call on null, or at the login page. -/
inductive Outcome where
  | loggedIn (identity : Identity) (cookies : Option Cookies)
  | thrown (message : String)
  | callOnNull
  | loginPage
  deriving DecidableEq

/-- `cleanUserTokens`. -/
def cleanUserTokens (config : Config) (now : Int)
    (tokens : Option (List (String × AuthToken))) : Option (List (String × AuthToken)) :=
  tokens.map fun tokens => tokens.filter fun token =>
    match token.2.createDate with
    | none => false
    | some createDate => ¬ now - createDate > config.application.rememberLifeTime

/-- `registerUserThrottling`, which returns nothing for a blocked user. -/
def registerUserThrottling (config : Config) (now : Int) (user : Users) : Option Users :=
  if user.blocked then none
  else
    let user := match user.failedLoginLastDate, user.failedLoginWindowStartDate with
      | some last, some window =>
        let failedLoginAttempts :=
          if less (last - window) config.failLoginWindowTime then
            user.failedLoginAttempts.getD 0 + 1
          else 1
        { user with
          failedLoginAttempts := some failedLoginAttempts
          failedLoginLastDate := some now }
      | _, _ =>
        { user with
          failedLoginLastDate := some now
          failedLoginWindowStartDate := some now
          failedLoginAttempts := some 1 }
    if user.failedLoginAttempts.getD 0 ≥ config.application.failLoginWindowMaxCount then
      if config.application.failLoginBlockPermament then some { user with blocked := true }
      else some { user with failedLoginBlock := true }
    else some user

variable {emailValid : String → Bool}

/-- `checkUserFlags`: the exception's message, or the record let through. -/
def checkUserFlags (config : Config) (now : Int) (users : Collection emailValid) (user : Users) :
    Except String (Collection emailValid × Users) :=
  if user.inactive then .error "The user is inactive"
  else if user.blocked then .error "The user is blocked"
  else
    match user.lastLoginDate with
    | none => .ok (users, user)
    | some _ =>
      -- a date that is null has a null `sec`, which counts as zero
      let login_int := user.failedLoginLastDate.getD 0 - now
      if user.failedLoginBlock && login_int < config.application.failLoginBlockTime then
        .error "The user is temporary blocked"
      else
        let user := { user with failedLoginBlock := false }
        .ok (users.saved user, user)

/-- `saveSuccessLogin`. -/
def saveSuccessLogin (now : Int) (users : Collection emailValid) (user : Users) :
    Collection emailValid × Users :=
  let user := { user with lastLoginDate := some now, failedLoginAttempts := some 0 }
  (users.saved user, user)

/-- `createUserAuthToken`. -/
def createUserAuthToken (packages : Packages) (request : Request) (now : Int) (email : String) :
    AuthToken where
  createDate := some now
  salt := request.salt
  ip := request.clientAddress
  userAgent := request.userAgent
  email := email
  value := packages.sha256
    (email ++ request.userAgent ++ request.clientAddress ++ toString now ++ request.nonce)

/-- `$tokens[$key] = $token`, on an array or on null. -/
def setToken (tokens : Option (List (String × AuthToken))) (key : String) (token : AuthToken) :
    List (String × AuthToken) :=
  let tokens := tokens.getD []
  if key ∈ tokens.map Prod.fst then
    tokens.map fun entry => if entry.1 = key then (key, token) else entry
  else tokens ++ [(key, token)]

/-- `createRememberEnviroment`: the cookies are sent once the record is stored. -/
def createRememberEnviroment (packages : Packages) (request : Request) (now : Int)
    (users : Collection emailValid) (user : Users) : Collection emailValid × Option Cookies :=
  let token := createUserAuthToken packages request now user.email
  match users.save { user with tokens := some (setToken user.tokens token.value token) } with
  | none => (users, none)
  | some users => (users, some { RMU := user._id, RMT := some token.value })

/-- `check`. -/
def check (config : Config) (packages : Packages) (request : Request) (now : Int)
    (users : Collection emailValid) (credentials : Credentials) :
    Collection emailValid × Outcome :=
  match users.findFirst fun user => user.login = credentials.login with
  | none => (users, .thrown "Wrong email/password combination")
  | some user =>
    if !packages.checkHash credentials.password user.password then
      match registerUserThrottling config now user with
      | none => (users, .callOnNull)
      | some user => (users.saved user, .thrown "Wrong email/password combination")
    else
      let user := { user with tokens := cleanUserTokens config now user.tokens }
      let users := users.saved user
      match checkUserFlags config now users user with
      | .error message => (users, .thrown message)
      | .ok (users, user) =>
        let (users, user) := saveSuccessLogin now users user
        let (users, cookies) :=
          if credentials.remember then createRememberEnviroment packages request now users user
          else (users, none)
        (users, .loggedIn { id := user._id, name := user.login } cookies)

/-- `loginWithRememberMe`. -/
def loginWithRememberMe (config : Config) (packages : Packages) (now : Int)
    (users : Collection emailValid) (cookies : Cookies) : Collection emailValid × Outcome :=
  match packages.mongoId (String.ofList (cookies.RMU.toList.take 24)) with
  | none => (users, .thrown "Invalid object ID")
  | some userId =>
    match users.findById userId with
    | none => (users, .loginPage)
    | some user =>
      match (user.tokens.getD []).lookup (cookies.RMT.getD "") with
      | none => (users, .loginPage)
      | some token =>
        if now - token.createDate.getD 0 < config.application.rememberLifeTime then
          match checkUserFlags config now users user with
          | .error message => (users, .thrown message)
          | .ok (users, user) =>
            ((saveSuccessLogin now users user).1,
              .loggedIn { id := user._id, name := user.login } none)
        else (users, .loginPage)

/-- What a browser comes with: the login form, or the cookies. -/
inductive Entry where
  | form (credentials : Credentials)
  | remembered (cookies : Cookies)

/-- A login attempt. -/
structure Attempt where
  now : Int
  request : Request
  entry : Entry

/-- `loginAction`, from where its form has been found valid. -/
def login (config : Config) (packages : Packages) (users : Collection emailValid)
    (attempt : Attempt) : Collection emailValid × Outcome :=
  match attempt.entry with
  | .form credentials => check config packages attempt.request attempt.now users credentials
  | .remembered cookies => loginWithRememberMe config packages attempt.now users cookies

end NetGraphz.Auth
