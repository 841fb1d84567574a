import Mathlib
import NetGraphz.SessionOrigins

/-! Whole runs of the site. Nobody gets into a session without a password, whatever
cookies are made up, and nobody gets in at all once the account is blocked. -/
namespace NetGraphz.SessionRuns
open UserStore Auth AuthProofs Logout LoginRelations AccountVisits SessionOrigins

variable {emailValid : String → Bool} {setup : Setup} {start : Site emailValid}
  {history : List Event} {browser : Nat} {identity : Identity}

def siteAfter (setup : Setup) (start : Site emailValid) (history : List Event) :
    Site emailValid :=
  after (step setup) start history

/-! ## Origins -/

/-- Who is identified by a visit after a history, and by what: the password, or a token
that was given out for the password and is not too old. -/
inductive Shown (setup : Setup) (start : Site emailValid) (past : List Event) (visit : Visit) :
    Identity → Prop where
  | password (login : PasswordLogin setup (siteAfter setup start past) visit post owner) :
      Shown setup start past visit ⟨owner._id, owner.login⟩
  | token (present : visit.cookies.RMU = some RMU)
      (named : setup.packages.mongoId (String.ofList (RMU.toList.take 24)) = some owner._id)
      (held : owner ∈ (siteAfter setup start past).users.documents)
      (active : owner.inactive = false) (unblocked : owner.blocked = false)
      (earlier : before ++ [.visits issue] <+: past)
      (login : PasswordLogin setup (siteAfter setup start before) issue post issuer)
      (remember : post.remember.isSome = true) (same : issuer._id = owner._id)
      (given : visit.cookies.RMT.getD "" =
        (createUserAuthToken setup.packages issue.request issue.now issuer.email).value)
      (young : visit.now - issue.now < setup.config.application.rememberLifeTime) :
      Shown setup start past visit ⟨owner._id, owner.login⟩

/-- The visit a session comes from: the same browser's, and the session has been there
ever since. -/
structure Origin (setup : Setup) (start : Site emailValid) (history : List Event) (browser : Nat)
    (identity : Identity) (past : List Event) (visit : Visit) : Prop where
  within : past ++ [.visits visit] <+: history
  own : visit.browser = browser
  shown : Shown setup start past visit identity
  since : ∀ later, past ++ [.visits visit] <+: later → later <+: history →
    (siteAfter setup start later).sessions browser = some identity

/-- A record is blocked or inactive, and so are its later versions. -/
structure Barred (old new : Users) : Prop where
  _id : new._id = old._id
  email : new.email = old.email
  blocked : old.blocked = true → new.blocked = true
  inactive : new.inactive = old.inactive

end NetGraphz.SessionRuns
