import NetGraphz.Auth

/-! The temporary block after failed logins. The time that has passed is taken
the wrong way round, so that a block of a user who has logged in before never
ends, and one of a user who has not is never looked at. -/
namespace NetGraphz.TemporaryBlock
open UserStore Auth

/-- A user under a temporary block, and nothing else. -/
structure OnlyBlocked (user : Users) : Prop where
  active : user.inactive = false
  unlocked : user.blocked = false
  flagged : user.failedLoginBlock = true

/-- The flag taken off. -/
def cleared (user : Users) : Users := { user with failedLoginBlock := false }

/-- The block is there for its time, and gone with its flag once that is over. -/
def BlockedInTime {emailValid : String → Bool} (config : Config) (now : Int)
    (users : Collection emailValid) (user : Users) (last : Int) : Prop :=
  (checkUserFlags config now users user = .error "The user is temporary blocked" ↔
      now - last < config.application.failLoginBlockTime) ∧
    (config.application.failLoginBlockTime ≤ now - last →
      ∃ users', checkUserFlags config now users user = .ok (users', cleared user))

variable {emailValid : String → Bool} {config : Config} {now last : Int}
  {users : Collection emailValid} {user : Users}

/-- A user who never logged in is let in, flag and all. -/
theorem checkUserFlags_never_in (only : OnlyBlocked user) (never : user.lastLoginDate = none) :
    checkUserFlags config now users user = .ok (users, user) := by
  simp [checkUserFlags, only.active, only.unlocked, never]

/-- A user who has logged in is kept out while the negated time is below the
limit. -/
theorem checkUserFlags_once_in (only : OnlyBlocked user) (once : user.lastLoginDate ≠ none)
    (failed : user.failedLoginLastDate = some last) :
    checkUserFlags config now users user =
      if last - now < config.application.failLoginBlockTime then
        .error "The user is temporary blocked"
      else .ok (users.saved (cleared user), cleared user) := by
  obtain ⟨date, loggedIn⟩ := Option.ne_none_iff_exists'.mp once
  simp only [checkUserFlags, only.active, only.unlocked, only.flagged, loggedIn, failed, cleared,
    Option.getD_some, Bool.true_and, decide_eq_true_eq, Bool.false_eq_true, if_false]

/-- **A block never ends, or is never there.** The block is right exactly for
users who have logged in before and whose block is not over; past its end it is
right only for a limit so far below zero that no block is meant at all. -/
theorem blocked_in_time_iff (config : Config) (now : Int) (users : Collection emailValid)
    (user : Users) (last : Int) (only : OnlyBlocked user)
    (failed : user.failedLoginLastDate = some last) (since : last ≤ now) :
    BlockedInTime config now users user last ↔
      user.lastLoginDate ≠ none ∧
        (now - last < config.application.failLoginBlockTime ∨
          config.application.failLoginBlockTime ≤ last - now) := by
  unfold BlockedInTime
  by_cases never : user.lastLoginDate = none
  · rw [checkUserFlags_never_in only never]
    refine iff_of_false ?_ fun both => both.1 never
    rintro ⟨blocked, ended⟩
    by_cases within : now - last < config.application.failLoginBlockTime
    · cases blocked.mpr within
    · obtain ⟨users', letIn⟩ := ended (Int.not_lt.mp within)
      have same : user = cleared user := congrArg Prod.snd (Except.ok.inj letIn)
      have flag : user.failedLoginBlock = false := congrArg Users.failedLoginBlock same
      rw [only.flagged] at flag
      cases flag
  · rw [checkUserFlags_once_in only never failed]
    by_cases kept : last - now < config.application.failLoginBlockTime
    · rw [if_pos kept]
      constructor
      · rintro ⟨blocked, _⟩
        exact ⟨never, Or.inl (blocked.mp rfl)⟩
      · rintro ⟨_, within | below⟩
        · exact ⟨iff_of_true rfl within, fun ended => absurd within (Int.not_lt.mpr ended)⟩
        · exact absurd kept (Int.not_lt.mpr below)
    · rw [if_neg kept]
      have below := Int.not_lt.mp kept
      refine iff_of_true ⟨iff_of_false (by simp) (by omega), fun _ => ⟨_, rfl⟩⟩
        ⟨never, Or.inr below⟩

/-- A user who has logged in and then failed too often. -/
def alice : Users :=
  { Users.setEmptyLoginState "1" "alice" "secret" "alice@example.org" with
    lastLoginDate := some 0
    failedLoginLastDate := some 0
    failedLoginBlock := true }

theorem alice_only : OnlyBlocked alice := ⟨rfl, rfl, rfl⟩

def accounts : Collection fun _ => true where
  documents := [alice]
  validated := fun _ _ => rfl
  distinct := by simp

/-- A minute later she is kept out. -/
theorem blocked_after_a_minute : BlockedInTime shippedConfig 60 accounts alice 0 :=
  (blocked_in_time_iff shippedConfig 60 accounts alice 0 alice_only rfl (by decide)).mpr
    ⟨by decide, by decide⟩

/-- A year later she is kept out as well. -/
theorem block_never_ends : ¬ ∀ {emailValid : String → Bool} (config : Config) (now : Int)
    (users : Collection emailValid) (user : Users) (last : Int), OnlyBlocked user →
      user.failedLoginLastDate = some last → last ≤ now →
        BlockedInTime config now users user last := by
  intro claimed
  have right := claimed shippedConfig 31536000 accounts alice 0 alice_only rfl (by decide)
  obtain ⟨users', letIn⟩ := right.2 (by decide)
  cases letIn

end NetGraphz.TemporaryBlock
