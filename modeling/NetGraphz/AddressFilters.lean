import NetGraphz.HostsTable

/-! The filter for hosts by address. It looks for an address of 16 bytes among
the IPv6 addresses, and an IPv4 address that was read from a text has 16 bytes;
and it looks for one spelling of an address, while a column may have another. -/
namespace NetGraphz.AddressFilters
open Livestatus StateCache IcingaSource HostDispatch HostsTable

/-- An address as `net.ParseIP` or `To4` gives it. -/
def Built (ip : NetIP) : Prop :=
  ip ≠ none ∧ ∃ text, ip = NetIP.parseIP text ∨ ip = (NetIP.parseIP text).to4

/-- An IPv4 address, in either form. -/
def IsIPv4 (ip : NetIP) : Prop := ip.to4 ≠ none

/-- The slice is as long as an IPv6 address. -/
def IsLong (ip : NetIP) : Prop := (ip.getD []).length = 16

instance : Decidable (IsIPv4 ip) := inferInstanceAs (Decidable (_ ≠ _))

instance : Decidable (IsLong ip) := inferInstanceAs (Decidable (_ = _))

/-- The address is in this column, in any spelling that `net.ParseIP` reads. -/
def HasAddress (row : Record) (column : String) (ip : NetIP) : Prop :=
  ∃ text, row.getString column = .ok text ∧ NetIP.parseIP text = ip.to16

/-- The column has the address as `net.IP.String` spells it; Livestatus compares
texts. -/
def HasText (row : Record) (column : String) (ip : NetIP) : Prop :=
  row.getString column = .ok ip.string

/-- The column has the address in another spelling. -/
def SpeltOtherwise (row : Record) (column : String) (ip : NetIP) : Prop :=
  HasAddress row column ip ∧ ¬HasText row column ip

/-- The row has one of the addresses, in the column that it belongs to. -/
def HasOneOf (ips : List NetIP) (row : Record) : Prop :=
  ∃ ip ∈ ips, (IsIPv4 ip ∧ HasAddress row "address" ip) ∨
    (¬ IsIPv4 ip ∧ HasAddress row "address6" ip)

/-- The query of `GetHostsStateByIP`. -/
def queryOfIPs (ips : List NetIP) : Query := queryOfRules (ips.map ruleOfIP)

/-- The filter selects the rows that have one of the addresses, and no others. -/
def SelectsExactly (ips : List NetIP) (table : List Record) : Prop :=
  ∀ row ∈ table, selects (queryOfIPs ips).headers row ↔ HasOneOf ips row

variable {ip : NetIP} {ips : List NetIP} {row : Record}

/-- A short address is an IPv4 address. -/
theorem Built.isIPv4_of_short (built : Built ip) (short : ¬ IsLong ip) : IsIPv4 ip := by
  obtain ⟨some, text, rfl | rfl⟩ := built
  · obtain ⟨bytes, parsed⟩ := Option.ne_none_iff_exists'.mp some
    rw [IsLong, parsed] at short
    exact absurd (NetIP.length_parseIP parsed) short
  · obtain ⟨bytes, four⟩ := Option.ne_none_iff_exists'.mp some
    rw [IsIPv4, four]
    simp [NetIP.to4, NetIP.length_to4 four]

theorem Built.valid (built : Built ip) : ip.to16 ≠ none := by
  obtain ⟨some, text, rfl | rfl⟩ := built
  · obtain ⟨bytes, parsed⟩ := Option.ne_none_iff_exists'.mp some
    simp [parsed, NetIP.to16, NetIP.length_parseIP parsed]
  · obtain ⟨bytes, four⟩ := Option.ne_none_iff_exists'.mp some
    simp [four, NetIP.to16, NetIP.length_to4 four]

/-- What `net.IP.String` spells is read again. -/
theorem hasAddress_of_hasText (valid : ip.to16 ≠ none) (has : HasText row column ip) :
    HasAddress row column ip :=
  ⟨ip.string, has, NetIP.parseIP_string valid⟩

/-- A column with the address has one of its spellings. -/
theorem hasAddress_iff (valid : ip.to16 ≠ none) (column : String) :
    HasAddress row column ip ↔ HasText row column ip ∨ SpeltOtherwise row column ip := by
  by_cases text : HasText row column ip
  · simp [text, hasAddress_of_hasText valid text]
  · simp [text, SpeltOtherwise]

/-! ## What the filter selects -/

theorem headers_queryOfRules (rules : List String) :
    (queryOfRules rules).headers =
      rules.map .filter ++ if 1 < rules.length then [.or rules.length] else [] := by
  have filters : ∀ q : Query, (rules.foldl Query.filter q).headers =
      q.headers ++ rules.map .filter := by
    induction rules with
    | nil => simp
    | cons rule rules ih => simp [ih, Query.filter]
  have base := filters getHostsTableStateQuery
  unfold queryOfRules
  dsimp only
  split
  · rw [Query.or, base]
    rfl
  · rw [base, List.append_nil]
    rfl

theorem columns_queryOfRules (rules : List String) :
    (queryOfRules rules).columns = getHostsTableStateQuery.columns := by
  have kept : ∀ q : Query, (rules.foldl Query.filter q).columns = q.columns := by
    induction rules with
    | nil => exact fun _ => rfl
    | cons rule rules ih => exact fun q => ih (q.filter rule)
  unfold queryOfRules
  dsimp only
  split
  · exact kept getHostsTableStateQuery
  · exact kept getHostsTableStateQuery

/-- The rule of an address holds of the rows that have it where it is looked
for. -/
theorem holds_ruleOfIP : holds (ruleOfIP ip) row ↔
    (IsLong ip ∧ HasText row "address6" ip) ∨ (¬ IsLong ip ∧ HasText row "address" ip) := by
  unfold ruleOfIP IsLong HasText
  split
  · rename_i long
    have rule : "address6 = " ++ ip.string = equals "address6" ip.string := rfl
    rw [rule, holds_equals (by decide)]
    simp [long]
  · rename_i short
    have rule : "address = " ++ ip.string = equals "address" ip.string := rfl
    rw [rule, holds_equals (by decide)]
    simp [short]

theorem selects_queryOfIPs (filled : ips ≠ []) : selects (queryOfIPs ips).headers row ↔
    ∃ ip ∈ ips,
      (IsLong ip ∧ HasText row "address6" ip) ∨ (¬ IsLong ip ∧ HasText row "address" ip) := by
  rw [queryOfIPs, headers_queryOfRules, selects_filters _ (by simpa using filled)]
  simp only [List.mem_map, exists_exists_and_eq_and, holds_ruleOfIP]

/-- A server with a table answers with the rows that the filter selects. -/
theorem getHostsStateByIP_serving (config : Config) (table : List HostRow) (ips : List NetIP) :
    let source : IcingaStateSource := ⟨config, serving (table.map HostRow.record)⟩
    getHostsStateByIP source ips =
      .ok ((table.filter fun row => ips ≠ [] ∧ selects (queryOfIPs ips).headers row.record).map
        fun row => stateOf (getFullName source) (offered row)) := by
  intro source
  by_cases empty : ips = []
  · simp [getHostsStateByIP, empty]
  · have asked : ¬ ips.length = 0 := fun none => empty (List.eq_nil_of_length_eq_zero none)
    rw [getHostsStateByIP, if_neg asked, statesOfQuery_serving, columns_queryOfRules,
      List.filter_map, List.map_map]
    simp only [ne_eq, empty, not_false_eq_true, true_and, Bool.decide_eq_true]
    rfl

/-! ## Addresses that are looked for where they belong, as they are spelt -/

/-- The row has an address that is looked for in the right column. -/
def FoundRightly (ips : List NetIP) (row : Record) : Prop :=
  ∃ ip ∈ ips, (IsIPv4 ip ∧ ¬ IsLong ip ∧ HasText row "address" ip) ∨
    (¬ IsIPv4 ip ∧ HasText row "address6" ip)

/-- The row has such an address in another spelling. -/
def MissedBySpelling (ips : List NetIP) (row : Record) : Prop :=
  ∃ ip ∈ ips, (IsIPv4 ip ∧ ¬ IsLong ip ∧ SpeltOtherwise row "address" ip) ∨
    (¬ IsIPv4 ip ∧ SpeltOtherwise row "address6" ip)

/-- The row has an address that is an IPv4 address in 16 bytes. -/
def MissedByColumn (ips : List NetIP) (row : Record) : Prop :=
  ∃ ip ∈ ips, IsIPv4 ip ∧ IsLong ip ∧ HasAddress row "address" ip

/-- The row has the text of an IPv4 address in 16 bytes where IPv6 addresses are. -/
def FoundWrongly (ips : List NetIP) (row : Record) : Prop :=
  ∃ ip ∈ ips, IsIPv4 ip ∧ IsLong ip ∧ HasText row "address6" ip

theorem hasOneOf_iff (built : ∀ ip ∈ ips, Built ip) : HasOneOf ips row ↔
    FoundRightly ips row ∨ MissedBySpelling ips row ∨ MissedByColumn ips row := by
  simp only [HasOneOf, FoundRightly, MissedBySpelling, MissedByColumn, ← exists_or,
    ← and_or_left]
  refine exists_congr fun ip => and_congr_right fun member => ?_
  have valid := (built ip member).valid
  by_cases four : IsIPv4 ip
  · by_cases long : IsLong ip
    · simp [four, long]
    · simp [four, long, hasAddress_iff valid]
  · simp [four, hasAddress_iff valid]

theorem selects_iff (filled : ips ≠ []) (built : ∀ ip ∈ ips, Built ip) :
    selects (queryOfIPs ips).headers row ↔ FoundRightly ips row ∨ FoundWrongly ips row := by
  rw [selects_queryOfIPs filled]
  simp only [FoundRightly, FoundWrongly, ← exists_or, ← and_or_left]
  refine exists_congr fun ip => and_congr_right fun member => ?_
  by_cases long : IsLong ip
  · by_cases four : IsIPv4 ip
    · simp [long, four]
    · simp [long, four]
  · have four := (built ip member).isIPv4_of_short long
    simp [long, four]

/-- **IPv4 addresses of 16 bytes are looked for in the wrong column**, and all
addresses in one spelling. The filter selects exactly the rows that have one of
the addresses, if and only if each row that is not found rightly has an address
that is missed, by its column or by its spelling, just when it is found wrongly. -/
theorem selects_exactly_iff (ips : List NetIP) (table : List Record) (filled : ips ≠ [])
    (built : ∀ ip ∈ ips, Built ip) :
    SelectsExactly ips table ↔ ∀ row ∈ table, FoundRightly ips row ∨
      (MissedBySpelling ips row ∨ MissedByColumn ips row ↔ FoundWrongly ips row) := by
  apply forall₂_congr
  intro row _
  rw [selects_iff filled built, hasOneOf_iff built]
  by_cases rightly : FoundRightly ips row
  · simp [rightly]
  · simp only [rightly, false_or]
    exact iff_comm

/-- An IPv4 address of four bytes finds its host. -/
theorem short_address_finds_host :
    SelectsExactly [some [10, 0, 0, 1]] [textRecord "address" "10.0.0.1"] := by
  have built : Built (some [10, 0, 0, 1]) :=
    ⟨by simp, "10.0.0.1", Or.inr (by decide +kernel)⟩
  have text : NetIP.string (some [10, 0, 0, 1]) = "10.0.0.1" := by decide +kernel
  apply (selects_exactly_iff _ _ (by simp) (by simpa using built)).mpr
  rw [List.forall_mem_singleton]
  refine Or.inl ⟨_, List.mem_singleton_self _, Or.inl ⟨by decide, by decide, ?_⟩⟩
  rw [HasText, text]
  rfl

/-! ## Refreshing a host by its stored address -/

/-- A stored IPv6 address finds its host again exactly if the host has it in the
spelling of `net.IP.String`. -/
theorem refresh_by_address6_iff (read : NetIP.parseIP text ≠ none)
    (six : ¬ IsIPv4 (NetIP.parseIP text)) (column : row.getString "address6" = .ok text) :
    selects (queryOfIPs [NetIP.parseIP text]).headers row ↔
      text = (NetIP.parseIP text).string := by
  have built : Built (NetIP.parseIP text) := ⟨read, text, Or.inl rfl⟩
  rw [selects_iff (by simp) (by simpa using built)]
  simp [FoundRightly, FoundWrongly, six, HasText, column]

/-- A stored `State.IP` finds its host again only if the host has the address as
its IPv6 address too. -/
theorem refresh_by_address_iff (valid : ip.to16 ≠ none) :
    selects (queryOfIPs [NetIP.parseIP ip.string]).headers row ↔
      HasText row "address6" ip.to16 := by
  have stored := NetIP.parseIP_string valid
  have long : IsLong ip.to16 := by
    obtain ⟨bytes, parsed⟩ := Option.ne_none_iff_exists'.mp valid
    rw [IsLong, parsed]
    exact NetIP.length_parseIP (stored.trans parsed)
  rw [stored, selects_queryOfIPs (by simp)]
  simp [long]

/-- So an expired host is not refreshed: its address is looked for among the
IPv6 addresses. -/
theorem parsed_address_misses_host : ¬ ∀ (ips : List NetIP) (table : List Record), ips ≠ [] →
    (∀ ip ∈ ips, Built ip) → SelectsExactly ips table := by
  intro claimed
  have read : NetIP.parseIP "10.0.0.1" = (NetIP.parseIP "10.0.0.1").to16 := by decide +kernel
  have long : IsLong (NetIP.parseIP "10.0.0.1") := by decide +kernel
  have built : Built (NetIP.parseIP "10.0.0.1") := ⟨by decide +kernel, _, Or.inl rfl⟩
  have exactly := claimed [NetIP.parseIP "10.0.0.1"] [textRecord "address" "10.0.0.1"] (by simp)
    (by simpa using built) _ (List.mem_singleton_self _)
  have wanted : HasOneOf [NetIP.parseIP "10.0.0.1"] (textRecord "address" "10.0.0.1") :=
    ⟨_, List.mem_singleton_self _, Or.inl ⟨by decide +kernel, "10.0.0.1", rfl, read⟩⟩
  obtain ⟨ip, member, found⟩ := (selects_queryOfIPs (by simp)).mp (exactly.mpr wanted)
  cases List.mem_singleton.mp member
  rcases found with ⟨_, six⟩ | ⟨short, _⟩
  · cases six
  · exact short long

/-- Nor is one whose IPv6 address is spelt with capitals and all its zeros. -/
theorem respelt_address_misses_host : ¬ SelectsExactly [NetIP.parseIP "2001:DB8:0:0::1"]
    [textRecord "address6" "2001:DB8:0:0::1"] := by
  intro exactly
  have read : NetIP.parseIP "2001:DB8:0:0::1" ≠ none := by decide +kernel
  have six : ¬ IsIPv4 (NetIP.parseIP "2001:DB8:0:0::1") := by decide +kernel
  have whole : NetIP.parseIP "2001:DB8:0:0::1" = (NetIP.parseIP "2001:DB8:0:0::1").to16 := by
    decide +kernel
  have spelt : ¬ "2001:DB8:0:0::1" = (NetIP.parseIP "2001:DB8:0:0::1").string := by decide +kernel
  have column : (textRecord "address6" "2001:DB8:0:0::1").getString "address6" =
      .ok "2001:DB8:0:0::1" := rfl
  have missed := mt (refresh_by_address6_iff read six column).mp spelt
  exact missed ((exactly _ (List.mem_singleton_self _)).mpr
    ⟨_, List.mem_singleton_self _, Or.inr ⟨six, _, rfl, whole⟩⟩)

end NetGraphz.AddressFilters
