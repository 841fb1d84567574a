import NetGraphz.Authenticator
import Mathlib.Data.List.Induction

/-! Which requests with a bearer token the gate lets through. The callback of
`forEach` runs for every entry of the token table, so of several entries with
one bearer the last one decides. -/
namespace NetGraphz.BearerProofs
open Authenticator NodeText

/-- A loop that writes its result anew for every element picked ends with what
the last of them wrote. -/
theorem foldl_overwrite (picked : α → Bool) (value : α → β) (start : β) (items : List α) :
    items.foldl (fun result item => if picked item then value item else result) start =
      ((items.filter picked).getLast?.map value).getD start := by
  induction items using List.reverseRecOn with
  | nil => rfl
  | append_singleton before item ih =>
    rw [List.foldl_append, List.foldl_cons, List.foldl_nil, ih, List.filter_append]
    cases last : picked item with
    | true => simp [last]
    | false => simp [last]

/-- The documented behaviour of the string package: it tells prefixes. -/
def TellsPrefixes (packages : Packages) : Prop :=
  ∀ text start, packages.startsWith text start = true ↔ start <+: text

/-- The entry has a url that the path begins with. -/
def Covers (e : Token) (path : List Char) : Prop := ∃ url ∈ e.url, url <+: path

instance : Decidable (Covers e path) := inferInstanceAs (Decidable (∃ _ ∈ _, _))

/-- The request should be let through: some entry has this bearer and a url
that the path begins with. -/
def AdmitsBearer (validTokens : List Token) (bearer path : List Char) : Prop :=
  ∃ e ∈ validTokens, e.bearer = some bearer ∧ Covers e path

/-- The entries with this bearer, in the order of the table. -/
def bearing (validTokens : List Token) (bearer : List Char) : List Token :=
  validTokens.filter fun e => e.bearer = some bearer

theorem admitsBearer_iff (validTokens : List Token) (bearer path : List Char) :
    AdmitsBearer validTokens bearer path ↔ ∃ e ∈ bearing validTokens bearer, Covers e path := by
  simp [AdmitsBearer, bearing, and_assoc]

variable {packages : Packages}

/-- The loop over the urls finds one that the path begins with, if there is one. -/
theorem validForUrl_iff (tells : TellsPrefixes packages) (path : List Char)
    (urls : List (List Char)) :
    validForUrl packages path urls = true ↔ ∃ url ∈ urls, url <+: path := by
  unfold validForUrl
  induction urls using List.reverseRecOn with
  | nil => simp
  | append_singleton before url ih =>
    rw [List.foldl_append, List.foldl_cons, List.foldl_nil]
    by_cases begins : packages.startsWith path url = true
    · rw [if_pos begins]
      exact iff_of_true rfl ⟨url, by simp, (tells path url).mp begins⟩
    · have apart := mt (tells path url).mpr begins
      rw [if_neg begins, ih]
      simp [or_and_right, exists_or, apart]

/-- The answer is that of the last entry with the bearer. -/
theorem authenticateBearer_iff_last (tells : TellsPrefixes packages) (validTokens : List Token)
    (token : String) (path : List Char) :
    authenticateBearer packages validTokens token path = true ↔
      ∃ e, (bearing validTokens (base64Text token)).getLast? = some e ∧ Covers e path := by
  have written := foldl_overwrite (fun e : Token => decide (e.bearer = some (base64Text token)))
    (fun e => validForUrl packages path e.url) false validTokens
  simp only [decide_eq_true_eq] at written
  rw [authenticateBearer, written, ← bearing]
  cases last : (bearing validTokens (base64Text token)).getLast? with
  | none => simp
  | some e => simp [validForUrl_iff tells, Covers]

/-- What the gate owes a Bearer request: `true` exactly for the bearers the
table admits to the path. -/
def BearerGate (packages : Packages) (validTokens : List Token) (token : String)
    (path : List Char) : Prop :=
  authenticateBearer packages validTokens token path = true ↔
    AdmitsBearer validTokens (base64Text token) path

/-- The last entry with the bearer covers the path, if any entry with it does. -/
def LastCovers (validTokens : List Token) (bearer path : List Char) : Prop :=
  (∃ e ∈ bearing validTokens bearer, Covers e path) →
    ∃ e, (bearing validTokens bearer).getLast? = some e ∧ Covers e path

/-- **The last entry with a bearer decides.** The gate is right about a request
exactly when that entry covers the path or no other one does. -/
theorem bearer_gate_iff_last_covers (tells : TellsPrefixes packages) (validTokens : List Token)
    (token : String) (path : List Char) :
    BearerGate packages validTokens token path ↔
      LastCovers validTokens (base64Text token) path := by
  rw [BearerGate, authenticateBearer_iff_last tells, admitsBearer_iff]
  constructor
  · intro gate
    exact gate.mpr
  · intro last
    refine ⟨?_, last⟩
    rintro ⟨e, found, covers⟩
    exact ⟨e, List.mem_of_getLast? found, covers⟩

/-- The gate is right in every order of the table exactly when the entries with
the bearer agree on the path. -/
theorem bearer_gate_in_every_order_iff (tells : TellsPrefixes packages)
    (validTokens : List Token) (token : String) (path : List Char) :
    (∀ order, order.Perm validTokens → BearerGate packages order token path) ↔
      ∀ e ∈ bearing validTokens (base64Text token),
        ∀ e' ∈ bearing validTokens (base64Text token), Covers e path → Covers e' path := by
  constructor
  · intro right e member e' member' covers
    -- the order that asks `e'` last
    have inTable : e' ∈ validTokens := (List.mem_filter.mp member').1
    have carries := (List.mem_filter.mp member').2
    obtain ⟨before, after, split⟩ := List.append_of_mem inTable
    have order : (before ++ after ++ [e']).Perm validTokens := by
      rw [split, List.append_assoc]
      exact List.perm_append_comm.append_left before
    have kept : e ∈ bearing (before ++ after ++ [e']) (base64Text token) :=
      (order.filter _).mem_iff.mpr member
    have passes := (right _ order).mpr ((admitsBearer_iff ..).mpr ⟨e, kept, covers⟩)
    obtain ⟨e'', found, covers'⟩ := (authenticateBearer_iff_last tells ..).mp passes
    have final : (bearing (before ++ after ++ [e']) (base64Text token)).getLast? = some e' := by
      simp [bearing, List.filter_append, carries]
    rw [final] at found
    cases found
    exact covers'
  · intro agree order perm
    rw [BearerGate, authenticateBearer_iff_last tells, admitsBearer_iff]
    have same := perm.filter fun e => e.bearer = some (base64Text token)
    constructor
    · rintro ⟨e, found, covers⟩
      exact ⟨e, List.mem_of_getLast? found, covers⟩
    · rintro ⟨e, member, covers⟩
      obtain ⟨e', found⟩ := Option.isSome_iff_exists.mp
        (List.getLast?_isSome.mpr (List.ne_nil_of_mem member))
      have member' := List.mem_of_getLast? found
      exact ⟨e', found, agree e (same.mem_iff.mp member) e' (same.mem_iff.mp member') covers⟩

theorem plainPackages_tellsPrefixes : TellsPrefixes plainPackages := by
  intro text start
  exact List.isPrefixOf_iff_prefix

/-- The bearer `t` is entered for the API and once more for another path; the
second entry takes the first one's permission away. -/
theorem later_entry_shuts_out :
    ¬ ∀ validTokens token path, BearerGate plainPackages validTokens token path := by
  intro right
  let forApi : Token := ⟨none, none, some ['t'], ["/api/".toList]⟩
  let forStatus : Token := ⟨none, none, some ['t'], ["/status/".toList]⟩
  have refused : authenticateBearer plainPackages [forApi, forStatus] "dA=="
      "/api/icinga/notify_host".toList = false := by decide
  have passes := (right [forApi, forStatus] "dA==" "/api/icinga/notify_host".toList).mpr
    ⟨forApi, by simp, by decide, "/api/".toList, by simp [forApi], by decide⟩
  rw [refused] at passes
  cases passes

/-- In the other order the request is let through. -/
theorem earlier_entry_harmless :
    BearerGate plainPackages
      [⟨none, none, some ['t'], ["/status/".toList]⟩, ⟨none, none, some ['t'], ["/api/".toList]⟩]
      "dA==" "/api/icinga/notify_host".toList := by
  apply (bearer_gate_iff_last_covers plainPackages_tellsPrefixes _ _ _).mpr
  intro _
  exact ⟨_, rfl, "/api/".toList, by decide, by decide⟩

end NetGraphz.BearerProofs
