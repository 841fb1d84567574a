import Mathlib.Logic.Function.Basic
import NetGraphz.Logout
import NetGraphz.Signup

/-! The site as its visitors see it: the users, and for every browser whose page it
shows. A visitor sends whatever forms and cookies they like. -/
namespace NetGraphz.AccountVisits
open UserStore Auth Logout

/-- A login form that was sent; `csrf` tells whether the hidden field's validator is
content. -/
structure LoginPost where
  login : String
  password : String
  remember : Option String
  csrf : Bool

/-- The validators of `LoginForm`: the field, the message, and whether the validator is
content. -/
def LoginPost.validators (post : LoginPost) : List (String × String × Bool) :=
  [("login", "Login required", Signup.presenceOf post.login),
   ("password", "Password required", Signup.presenceOf post.password),
   ("csrf", "This request was aborted because it appears to be forged", post.csrf)]

/-- The messages shown above the form. -/
def LoginPost.messages (post : LoginPost) : List String :=
  post.validators.filterMap fun (_, message, content) => if content then none else some message

def LoginPost.credentials (post : LoginPost) : Credentials where
  login := post.login
  password := post.password
  remember := post.remember.isSome

/-- The pages a browser asks for. `other` is any page outside of `Account`. -/
inductive WebPage where
  | login (post : LoginPost)
  | loginForm
  | logout
  | signup (post : Signup.Post)
  | other

structure Visit where
  browser : Nat
  now : Int
  request : Request
  cookies : BrowserCookies
  page : WebPage

/-- What the site is set up with. -/
structure Setup where
  config : Config
  packages : Packages
  signup : Signup.Packages
  openSignUp : Bool

variable {emailValid : String → Bool}

/-- The collection `ng_users`, and what each browser's session holds under
`auth-identity`. -/
structure Site (emailValid : String → Bool) where
  users : Collection emailValid
  sessions : Nat → Option Identity

/-- The end of a login: the session of the browser is set when it succeeded. -/
def registered (site : Site emailValid) (browser : Nat)
    (result : Collection emailValid × Outcome) : Site emailValid where
  users := result.1
  sessions :=
    match result.2 with
    | .loggedIn identity _ => Function.update site.sessions browser (some identity)
    | _ => site.sessions

/-- `loginAction`. -/
def loginAction (setup : Setup) (site : Site emailValid) (visit : Visit) :
    Option LoginPost → Site emailValid
  | none =>
    match visit.cookies.RMU with
    | none => site
    | some RMU =>
      registered site visit.browser
        (loginWithRememberMe setup.config setup.packages visit.now site.users
          ⟨RMU, visit.cookies.RMT⟩)
  | some post =>
    if post.messages ≠ [] then site
    else
      registered site visit.browser
        (check setup.config setup.packages visit.request visit.now site.users post.credentials)

/-- `logoutAction`. -/
def logoutAction (setup : Setup) (site : Site emailValid) (visit : Visit) : Site emailValid :=
  let (page, _) := remove setup.packages
    { users := site.users
      session := site.sessions visit.browser
      cookies := visit.cookies }
  { users := page.users
    sessions := Function.update site.sessions visit.browser page.session }

/-- `beforeExecuteRoute` of the other controllers. -/
def beforeExecuteRoute (setup : Setup) (site : Site emailValid) (visit : Visit) :
    Site emailValid :=
  match site.sessions visit.browser, visit.cookies.RMU, visit.cookies.RMT with
  | none, some RMU, some RMT =>
    registered site visit.browser
      (loginWithRememberMe setup.config setup.packages visit.now site.users ⟨RMU, some RMT⟩)
  | _, _, _ => site

/-- A browser visits a page, or its session ends on the server. -/
inductive Event where
  | visits (visit : Visit)
  | expires (browser : Nat)

def step (setup : Setup) (site : Site emailValid) : Event → Site emailValid
  | .visits visit =>
    match visit.page with
    | .login post => loginAction setup site visit (some post)
    | .loginForm => loginAction setup site visit none
    | .logout => logoutAction setup site visit
    | .signup post =>
      { site with users := (Signup.signupAction setup.signup setup.openSignUp site.users post).1 }
    | .other => beforeExecuteRoute setup site visit
  | .expires browser => { site with sessions := Function.update site.sessions browser none }

end NetGraphz.AccountVisits
