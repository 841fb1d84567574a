import NetGraphz.Base.IPText
import NetGraphz.StateCacheProofs

/-! The two forms of an IPv4 address as keys of the state cache. A parsed address
is filed in its 16-byte form, and the 4-byte form leads nowhere. -/
namespace NetGraphz.AddressForms
open StateCache StateCacheProofs

/-- Some host of the source had the address when it was first seen. -/
def FiledUnder (updates : List Update) (source : String) (address : List UInt8) : Prop :=
  ∃ past entry, past ++ [entry] <+: updates ∧ entry.1.source = source ∧
    HasAddress entry.1 address ∧ lastUpdate past entry.1.hostName source = none

theorem filedUnder_concat (past : List Update) (entry : Update) (source : String)
    (address : List UInt8) :
    FiledUnder (past ++ [entry]) source address ↔ FiledUnder past source address ∨
      (entry.1.source = source ∧ HasAddress entry.1 address ∧
        lastUpdate past entry.1.hostName source = none) := by
  constructor
  · rintro ⟨earlier, own, within, filed⟩
    rcases List.prefix_concat_iff.mp within with same | within
    · obtain ⟨rfl, last⟩ := List.append_inj' same rfl
      cases last
      exact Or.inr filed
    · exact Or.inl ⟨earlier, own, within, filed⟩
  · rintro (⟨earlier, own, within, filed⟩ | filed)
    · exact ⟨earlier, own, within.trans (List.prefix_append past [entry]), filed⟩
    · exact ⟨past, entry, List.prefix_refl _, filed⟩

/-- An address leads to a record exactly if a host was filed under it. -/
theorem getByIP_isSome_iff (updates : List Update) (source : String) (address : List UInt8) :
    (getByIP (cacheAfter updates) (some address) source).isSome ↔
      FiledUnder updates source address := by
  refine history_induction (fun updates =>
    (getByIP (cacheAfter updates) (some address) source).isSome ↔
      FiledUnder updates source address) ?_ ?_ updates
  · simp [cacheAfter, newMemoryStateCache, getByIP, FiledUnder]
  · intro past entry ih
    have indexed := indexed_cacheAfter past
    rw [filedUnder_concat, ← ih, cacheAfter, after_concat, ← cacheAfter]
    cases known : getByName (cacheAfter past) entry.1.hostName entry.1.source with
    | some held =>
      -- a known host is filed under nothing new
      rw [indexed.getByIP_update_known known, Option.isSome_map]
      refine (or_iff_left ?_).symm
      rintro ⟨rfl, _, fresh⟩
      rw [getByName_is_last_update, fresh] at known
      cases known
    | none =>
      rw [indexed.getByIP_update_new known]
      rw [getByName_is_last_update, Option.map_eq_none_iff] at known
      by_cases own : HasAddress entry.1 address ∧ source = entry.1.source
      · obtain ⟨has, rfl⟩ := own
        simp [has, known]
      · rw [if_neg own]
        refine (or_iff_left ?_).symm
        rintro ⟨rfl, has, _⟩
        exact own ⟨has, rfl⟩

/-- The addresses of the state are as `net.ParseIP` gives them. -/
def Parsed (state : HostState) : Prop :=
  (∃ text, state.ip = NetIP.parseIP text) ∧ ∃ text, state.ip6 = NetIP.parseIP text

theorem Parsed.length (parsed : Parsed state) (has : HasAddress state address) :
    address.length = 16 := by
  obtain ⟨⟨text, ip⟩, ⟨text6, ip6⟩⟩ := parsed
  rcases has with own | own
  · exact NetIP.length_parseIP (ip.symm.trans own)
  · exact NetIP.length_parseIP (ip6.symm.trans own)

/-- An address of another length leads nowhere. -/
theorem getByIP_of_length (updates : List Update) (parsed : ∀ entry ∈ updates, Parsed entry.1)
    (source : String) (short : address.length ≠ 16) :
    getByIP (cacheAfter updates) (some address) source = none := by
  rw [← Option.not_isSome_iff_eq_none, getByIP_isSome_iff]
  rintro ⟨past, entry, within, _, has, _⟩
  have member := within.subset (List.mem_append_right past (List.mem_singleton_self entry))
  exact short ((parsed entry member).length has)

/-- The cache answers alike for both forms of an IPv4 address. -/
def FormsAgree (cache : MemoryStateCache) (source : String) (four : List UInt8) : Prop :=
  getByIP cache (some four) source = getByIP cache (NetIP.to16 (some four)) source

/-- **The two forms are two keys.** They agree exactly where no host was filed
under the address at all. -/
theorem forms_agree_iff (updates : List Update) (parsed : ∀ entry ∈ updates, Parsed entry.1)
    (source : String) (four : List UInt8) (ipv4 : four.length = 4) :
    FormsAgree (cacheAfter updates) source four ↔
      ¬ FiledUnder updates source (NetIP.v4InV6Prefix ++ four) := by
  have whole : NetIP.to16 (some four) = some (NetIP.v4InV6Prefix ++ four) := by
    simp [NetIP.to16, ipv4]
  have none : getByIP (cacheAfter updates) (some four) source = none :=
    getByIP_of_length updates parsed source (by omega)
  rw [FormsAgree, none, whole, ← getByIP_isSome_iff, Option.not_isSome_iff_eq_none, eq_comm]

/-- A host with one IPv4 address. -/
def core : HostState :=
  { source := "icinga", hostName := "core", ip := NetIP.parseIP "10.0.0.1" }

theorem core_parsed : Parsed core := ⟨⟨"10.0.0.1", rfl⟩, "", by decide +kernel⟩

/-- An address that no host has leads nowhere in either form. -/
theorem unknown_address_agrees :
    FormsAgree (cacheAfter [(core, 0)]) "icinga" [10, 0, 0, 2] := by
  refine (forms_agree_iff [(core, 0)] ?_ "icinga" [10, 0, 0, 2] rfl).mpr ?_
  · rw [List.forall_mem_singleton]
    exact core_parsed
  · rw [← getByIP_isSome_iff]
    decide +kernel

/-- The address of a host that is in the cache does not lead to it in four
bytes. -/
theorem short_form_misses_host : ¬ ∀ (updates : List Update) (source : String)
    (four : List UInt8), (∀ entry ∈ updates, Parsed entry.1) → four.length = 4 →
      FormsAgree (cacheAfter updates) source four := by
  intro claimed
  have agree := claimed [(core, 0)] "icinga" [10, 0, 0, 1] (by simpa using core_parsed) rfl
  revert agree
  unfold FormsAgree
  decide +kernel

end NetGraphz.AddressForms
