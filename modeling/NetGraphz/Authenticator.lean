import NetGraphz.Base.NodeText

/-! The gate in front of the notifications API: who a request with an
`Authorization` header comes from, and whether it may go on to the handlers. -/
namespace NetGraphz.Authenticator
open NodeText

/-- An entry of the token file. A bearer-only entry has no credentials. -/
structure Token where
  username : Option (List Char)
  password : Option (List Char)
  bearer : Option (List Char)
  url : List (List Char)

/-- One value of a parsed `Authorization` header. -/
structure AuthValue where
  scheme : String
  token : Option String
  deriving DecidableEq

/-- The two packages the gate calls: `auth-header` reads the header, or throws
on it; `string` compares prefixes. -/
structure Packages where
  parse : String → Option (List AuthValue)
  startsWith : List Char → List Char → Bool

/-- What becomes of a request. -/
inductive Outcome where
  /-- the next handler is called -/
  | next
  /-- the response is sent with this status -/
  | refused (status : Nat)
  /-- an exception leaves the handler -/
  | throws
  deriving DecidableEq

variable (packages : Packages)

/-- `valid_for_url`. Returning from the callback of `forEach` ends no loop. -/
def validForUrl (url : List Char) (urls : List (List Char)) : Bool :=
  urls.foldl (fun valid e => if packages.startsWith url e then true else valid) false

def sendAuthenticationRequired : Outcome := .refused 401
def sendAuthenticationFailed : Outcome := .refused 403

/-- `authenticate_basic`. -/
def authenticateBasic (validTokens : List Token) (token : String) (path : List Char) : Bool :=
  let parts := (split ':' (base64Text token)).take 2
  if parts.length < 2 then false
  else
    let _auth := validTokens.foldl (fun auth e =>
      if e.username = parts[0]? ∧ e.password = parts[1]? then validForUrl packages path e.url
      else auth) false
    -- `return true;` stands in front of `return auth;`
    true

/-- `authenticate_bearer`. -/
def authenticateBearer (validTokens : List Token) (token : String) (path : List Char) : Bool :=
  let bearer := base64Text token
  validTokens.foldl (fun auth e =>
    if e.bearer = some bearer then validForUrl packages path e.url else auth) false

/-- The end of `authenticate_request`. -/
def conclude (authPass : Bool) : Outcome :=
  if authPass then .next else sendAuthenticationFailed

/-- `authenticate_request`. The test of `auth.values.lenght` never succeeds, as
there is no such property, so a header without values makes the handler throw. -/
def authenticateRequest (authEnabled : Bool) (validTokens : List Token)
    (header : Option String) (path : List Char) : Outcome :=
  if !authEnabled then .next
  else
    match header with
    | none => sendAuthenticationRequired
    | some httpAuthHeader =>
      match packages.parse httpAuthHeader with
      | none => .throws
      | some [] => .throws
      | some (value :: _) =>
        if value.scheme = "Basic" then
          match value.token with
          | none => .throws
          | some token => conclude (authenticateBasic packages validTokens token path)
        else if value.scheme = "Bearer" then
          match value.token with
          | none => .throws
          | some token => conclude (authenticateBearer packages validTokens token path)
        else sendAuthenticationRequired

/-- The request should be let through: some entry has these credentials and a
url that the path begins with. -/
def Admits (validTokens : List Token) (username password path : List Char) : Prop :=
  ∃ e ∈ validTokens, e.username = some username ∧ e.password = some password ∧
    ∃ url ∈ e.url, url <+: path

instance : Decidable (Admits validTokens username password path) :=
  inferInstanceAs (Decidable (∃ _ ∈ validTokens, _ ∧ _ ∧ ∃ _ ∈ _, _))

/-- Credentials of any content pass the Basic check once they have a colon. -/
theorem authenticateBasic_of_colon (validTokens : List Token) (path : List Char)
    (decoded : base64Text token = username ++ ':' :: password) (clear : ':' ∉ username) :
    authenticateBasic packages validTokens token path = true := by
  have parts : split ':' (base64Text token) = username :: split ':' password := by
    rw [decoded, split_append ':' username password clear]
  have second := List.length_pos_iff.mpr (split_ne_nil ':' password)
  have two : ¬ ((username :: split ':' password).take 2).length < 2 := by
    rw [List.length_take, List.length_cons]
    omega
  simp only [authenticateBasic, parts, if_neg two]

/-- Such a request always reaches the next handler. -/
theorem basic_request_passes (validTokens : List Token) (path : List Char)
    (parsed : packages.parse header = some (⟨"Basic", some token⟩ :: rest))
    (decoded : base64Text token = username ++ ':' :: password) (clear : ':' ∉ username) :
    authenticateRequest packages true validTokens (some header) path = .next := by
  have passed := authenticateBasic_of_colon packages validTokens path decoded clear
  simp [authenticateRequest, parsed, passed, conclude]

/-- What the gate owes a Basic request: `next` exactly for the credentials the
table admits to the path, and 403 for all others. -/
def BasicGate (validTokens : List Token) (header : String) (path username password : List Char) :
    Prop :=
  (authenticateRequest packages true validTokens (some header) path = .next ↔
    Admits validTokens username password path) ∧
  (¬ Admits validTokens username password path →
    authenticateRequest packages true validTokens (some header) path = sendAuthenticationFailed)

/-- **The gate is right about a Basic request exactly when the request is one
to let through**, since it lets every Basic request through. -/
theorem basic_gate_iff_admitted (validTokens : List Token) (path : List Char)
    (parsed : packages.parse header = some (⟨"Basic", some token⟩ :: rest))
    (decoded : base64Text token = username ++ ':' :: password) (clear : ':' ∉ username) :
    BasicGate packages validTokens header path username password ↔
      Admits validTokens username password path := by
  have passes := basic_request_passes packages validTokens path parsed decoded clear
  constructor
  · intro gate
    exact gate.1.mp passes
  · intro admitted
    exact ⟨iff_of_true passes admitted, fun refused => absurd admitted refused⟩

/-- `auth-header` on a header of one scheme and one token. -/
def parseSchemeToken (header : String) : Option (List AuthValue) :=
  let (scheme, rest) := header.toList.span (· ≠ ' ')
  some [⟨String.ofList scheme, some (String.ofList (rest.drop 1))⟩]

/-- The packages as they behave on plain headers and string prefixes. -/
def plainPackages : Packages := ⟨parseSchemeToken, fun text start => start.isPrefixOf text⟩

theorem parseSchemeToken_basic :
    parseSchemeToken "Basic dTpw" = some [⟨"Basic", some "dTpw"⟩] := by decide

/-- The credentials `u:p` are let through by an empty token table. -/
theorem empty_table_lets_strangers_in :
    ¬ BasicGate plainPackages [] "Basic dTpw" "/api/icinga/notify_host".toList ['u'] ['p'] := by
  intro gate
  have passes : authenticateRequest plainPackages true [] (some "Basic dTpw")
      "/api/icinga/notify_host".toList = .next :=
    basic_request_passes plainPackages [] _ parseSchemeToken_basic
      (show _ = ['u'] ++ ':' :: ['p'] by decide) (by decide)
  have admitted := gate.1.mp passes
  simp [Admits] at admitted

/-- The entry of the shipped token file's shape, asked with its own
credentials. -/
theorem admitted_credentials_gate :
    BasicGate plainPackages [⟨some ['u'], some ['p'], none, ["/api/".toList]⟩] "Basic dTpw"
      "/api/icinga/notify_host".toList ['u'] ['p'] :=
  (basic_gate_iff_admitted plainPackages _ _ parseSchemeToken_basic (by decide) (by decide)).mpr
    ⟨_, List.mem_singleton_self _, rfl, rfl, _, List.mem_singleton_self _, by decide⟩

end NetGraphz.Authenticator
