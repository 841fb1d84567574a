import NetGraphz.Base.IPText

/-! The texts of addresses as the C library writes them: `inet_ntop` puts a dotted
tail behind the IPv4-mapped and the IPv4-compatible prefix. Go reads them all. -/
namespace NetGraphz.NetIP

/-- The last four bytes in dotted decimal, behind what stands for the others. -/
def writeTail (front : List Char) (bytes : List UInt8) : List Char :=
  front ++ dotted (bytes.drop 12)

/-- `inet_ntop` of sixteen bytes. -/
def inetNtop (bytes : List UInt8) : String :=
  let groups := groupsOf bytes
  let (start, length) := longestZeros groups
  String.ofList <|
    if start = 0 ∧ length = 6 then writeTail "::".toList bytes
    else if start = 0 ∧ length = 5 ∧ groups[5]? = some 0xffff then
      writeTail "::ffff:".toList bytes
    else writeIPv6 groups

variable {bytes : List UInt8}

/-- The first groups make the first bytes. -/
theorem bytes_of_groups (sixteen : bytes.length = 16) {front rest : List Nat} {first : List UInt8}
    (groups : groupsOf bytes = front ++ rest) (made : front.flatMap groupBytes = first) :
    bytes = first ++ bytes.drop first.length := by
  have whole := flatMap_groupsOf (n := 8) sixteen
  rw [groups, List.flatMap_append, made] at whole
  have later := congrArg (List.drop first.length) whole
  rw [List.drop_left] at later
  rw [← later, whole]

theorem colon_dotted (four : bytes.length = 4) : '.' ∈ dotted bytes ∧ ':' ∉ dotted bytes := by
  match bytes, four with
  | [a, b, c, d], _ =>
    have clear (byte : UInt8) := (decimal_clear byte).2
    simp [dotted, List.intercalate, clear]

theorem dotted_ne_nil (four : bytes.length = 4) : dotted bytes ≠ [] := by
  intro empty
  have dot := (colon_dotted four).1
  rw [empty] at dot
  cases dot

theorem readGroups_dotted (four : bytes.length = 4) : readGroups [dotted bytes] = some bytes := by
  have dot : (dotted bytes).contains '.' = true := List.contains_iff_mem.mpr (colon_dotted four).1
  simp only [readGroups, dot, if_true, parseIPv4_dotted four]

/-- An IPv4-compatible address: nothing but zeros in front. -/
theorem parseIPv6_compatible (four : bytes.length = 4) :
    parseIPv6 (':' :: ':' :: dotted bytes) = some (List.replicate 12 0 ++ bytes) := by
  have found : splitEllipsis (':' :: ':' :: dotted bytes) = some ([], dotted bytes) := by
    simp [splitEllipsis]
  have fields : fieldsOf (dotted bytes) = [dotted bytes] := by
    have single : [':'].intercalate [dotted bytes] = dotted bytes := by simp [List.intercalate]
    have split : ([':'].intercalate [dotted bytes]).splitOn ':' = [dotted bytes] := by
      apply List.splitOn_intercalate
      · intro field member
        exact List.mem_singleton.mp member ▸ (colon_dotted four).2
      · simp
    rw [single] at split
    rw [fieldsOf, if_neg (dotted_ne_nil four), split]
  have noFields : fieldsOf [] = [] := rfl
  simp only [parseIPv6, found, noFields, fields, readGroups_dotted four]
  simp [four]

/-- An IPv4-mapped address: a group of ones in front. -/
theorem parseIPv6_mapped (four : bytes.length = 4) :
    parseIPv6 ("::ffff:".toList ++ dotted bytes) = some (v4InV6Prefix ++ bytes) := by
  have found : splitEllipsis ("::ffff:".toList ++ dotted bytes) =
      some ([], "ffff:".toList ++ dotted bytes) := by
    simp [splitEllipsis]
  have fields : fieldsOf ("ffff:".toList ++ dotted bytes) = ["ffff".toList, dotted bytes] := by
    have pair : [':'].intercalate ["ffff".toList, dotted bytes] = "ffff:".toList ++ dotted bytes := by
      simp [List.intercalate]
    have split : ([':'].intercalate ["ffff".toList, dotted bytes]).splitOn ':' =
        ["ffff".toList, dotted bytes] := by
      apply List.splitOn_intercalate
      · intro field member
        rcases List.mem_cons.mp member with rfl | last
        · simp
        · exact List.mem_singleton.mp last ▸ (colon_dotted four).2
      · simp
    rw [pair] at split
    rw [fieldsOf, if_neg (by simp), split]
  have group : readGroup "ffff".toList = some 0xffff := rfl
  have groups : readGroups ["ffff".toList, dotted bytes] = some ([0xff, 0xff] ++ bytes) := by
    have step : readGroups ["ffff".toList, dotted bytes] =
        (readGroup "ffff".toList).bind fun group => (readGroups [dotted bytes]).bind fun later =>
          some (groupBytes group ++ later) := rfl
    rw [step, group, readGroups_dotted four]
    rfl
  have noFields : fieldsOf [] = [] := rfl
  simp only [parseIPv6, found, noFields, fields, groups]
  simp [four, v4InV6Prefix]

/-- Groups that begin with a run of zeros. -/
theorem groups_of_zeros {groups : List Nat} {length : Nat} (start : (longestZeros groups).1 = 0)
    (run : (longestZeros groups).2 = length) (some : length ≠ 0) :
    groups = List.replicate length 0 ++ groups.drop length := by
  have isRun := (longestZeros_zeros groups).resolve_left (run ▸ some)
  rw [start, run] at isRun
  have parts := split_zeros groups 0
  rwa [← isRun, List.take_zero, List.nil_append, Nat.zero_add] at parts

/-- **Every address reads back from its text.** -/
theorem parseIP_inetNtop (sixteen : bytes.length = 16) : parseIP (inetNtop bytes) = some bytes := by
  have four : (bytes.drop 12).length = 4 := by simp [sixteen]
  have colon (rest : List Char) : (':' :: rest).find? (fun c => c = '.' ∨ c = ':') = some ':' := by
    simp
  unfold inetNtop
  dsimp only
  split_ifs with compatible mapped
  · have groups := groups_of_zeros compatible.1 compatible.2 (by omega)
    have whole := bytes_of_groups sixteen groups rfl
    have text : writeTail "::".toList bytes = ':' :: ':' :: dotted (bytes.drop 12) := rfl
    rw [parseIP, String.toList_ofList, text, colon]
    rw [parseIPv6_compatible four]
    exact congrArg some whole.symm
  · have groups := groups_of_zeros mapped.1 mapped.2.1 (by omega)
    have next : (groupsOf bytes).drop 5 = 0xffff :: (groupsOf bytes).drop 6 := by
      obtain ⟨within, isOnes⟩ := List.getElem?_eq_some_iff.mp mapped.2.2
      rw [List.drop_eq_getElem_cons within, isOnes]
    rw [next, ← List.singleton_append, ← List.append_assoc] at groups
    have whole := bytes_of_groups sixteen groups rfl
    have text : writeTail "::ffff:".toList bytes =
        ':' :: (":ffff:".toList ++ dotted (bytes.drop 12)) := rfl
    have isMapped : ':' :: (":ffff:".toList ++ dotted (bytes.drop 12)) =
        "::ffff:".toList ++ dotted (bytes.drop 12) := rfl
    rw [parseIP, String.toList_ofList, text, colon]
    rw [isMapped, parseIPv6_mapped four]
    exact congrArg some whole.symm
  · exact parseIP_writeIPv6 sixteen

end NetGraphz.NetIP
