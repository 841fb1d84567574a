import Mathlib.Data.List.Induction
import Mathlib.Data.List.TakeWhile
import Mathlib.Tactic.Ring
import NetGraphz.Base.GoNet

/-! The texts of IP addresses, as Go's `net` package reads and writes them:
dotted decimal, hexadecimal groups with `::` for a run of zero groups, and an
IPv4 address in place of the last two groups. -/
namespace NetGraphz.NetIP

/-! ## Reading -/

/-- A decimal byte without a leading zero. -/
def readDecimal (field : List Char) : Option UInt8 :=
  let value := Nat.ofDigitChars 10 field 0
  if field = [] ∨ field.any (fun c => !c.isDigit) ∨ 255 < value ∨
      (field.head? = some '0' ∧ field ≠ ['0']) then none
  else some (UInt8.ofNat value)

/-- `parseIPv4`. -/
def parseIPv4 (text : List Char) : Option (List UInt8) :=
  let fields := text.splitOn '.'
  if fields.length = 4 then fields.mapM readDecimal else none

def readHexDigit (c : Char) : Option Nat :=
  if '0' ≤ c ∧ c ≤ '9' then some (c.toNat - 48)
  else if 'a' ≤ c ∧ c ≤ 'f' then some (c.toNat - 87)
  else if 'A' ≤ c ∧ c ≤ 'F' then some (c.toNat - 55)
  else none

/-- A group of up to four hexadecimal digits. -/
def readGroup (field : List Char) : Option Nat :=
  if field = [] ∨ 4 < field.length then none
  else field.foldlM (fun value c => (readHexDigit c).map (16 * value + ·)) 0

/-- The two bytes of a group. -/
def groupBytes (group : Nat) : List UInt8 := [UInt8.ofNat (group / 256), UInt8.ofNat group]

/-- Groups, of which the last may be an IPv4 address. -/
def readGroups : List (List Char) → Option (List UInt8)
  | [] => some []
  | [last] => if last.contains '.' then parseIPv4 last else (readGroup last).map groupBytes
  | field :: fields => do
    let group ← readGroup field
    let bytes ← readGroups fields
    return groupBytes group ++ bytes

/-- The texts before and after the first `::`. -/
def splitEllipsis : List Char → Option (List Char × List Char)
  | [] => none
  | c :: rest =>
    if c = ':' ∧ rest.head? = some ':' then some ([], rest.tail)
    else (splitEllipsis rest).map fun split => (c :: split.1, split.2)

/-- The fields between colons; there is none in no text. -/
def fieldsOf (text : List Char) : List (List Char) := if text = [] then [] else text.splitOn ':'

/-- `parseIPv6`. An ellipsis stands for at least one group of zeros. -/
def parseIPv6 (text : List Char) : Option (List UInt8) :=
  match splitEllipsis text with
  | none => (readGroups (text.splitOn ':')).filter fun bytes => bytes.length = 16
  | some (left, right) => do
    let groups ← (fieldsOf left).mapM readGroup
    let front := groups.flatMap groupBytes
    let back ← readGroups (fieldsOf right)
    if front.length + back.length < 16 then
      some (front ++ List.replicate (16 - (front.length + back.length)) 0 ++ back)
    else none

/-- `net.ParseIP`. The first dot or colon tells the form; an IPv4 address comes
in its 16-byte form. -/
def parseIP (text : String) : NetIP :=
  match text.toList.find? fun c => c = '.' ∨ c = ':' with
  | some '.' => (parseIPv4 text.toList).map (v4InV6Prefix ++ ·)
  | some ':' => parseIPv6 text.toList
  | _ => none

/-! ## Writing -/

def dotted (bytes : List UInt8) : List Char :=
  ['.'].intercalate (bytes.map fun byte => Nat.toDigits 10 byte.toNat)

/-- Two bytes a group. -/
def groupsOf : List UInt8 → List Nat
  | high :: low :: rest => (high.toNat * 256 + low.toNat) :: groupsOf rest
  | _ => []

/-- How many groups from this place on are zero. -/
def zeros (groups : List Nat) (start : Nat) : Nat :=
  ((groups.drop start).takeWhile (· = 0)).length

/-- The place and the length of the first of the longest runs of zeros. -/
def longestZeros (groups : List Nat) : Nat × Nat :=
  (List.range groups.length).foldl
    (fun longest start =>
      if longest.2 < zeros groups start then (start, zeros groups start) else longest)
    (0, 0)

def writeGroups (groups : List Nat) : List Char :=
  [':'].intercalate (groups.map (Nat.toDigits 16))

/-- Groups in hexadecimal, with `::` for a run of at least two zeros. -/
def writeIPv6 (groups : List Nat) : List Char :=
  let (start, length) := longestZeros groups
  if length < 2 then writeGroups groups
  else writeGroups (groups.take start) ++ ':' :: ':' :: writeGroups (groups.drop (start + length))

/-- `net.IP.String`. -/
def string (ip : NetIP) : String :=
  match ip.getD [] with
  | [] => "<nil>"
  | bytes =>
    match to4 (some bytes) with
    | some four => String.ofList (dotted four)
    | none =>
      if bytes.length = 16 then String.ofList (writeIPv6 (groupsOf bytes))
      else String.ofList ('?' :: bytes.flatMap fun byte =>
        [Nat.digitChar (byte.toNat / 16), Nat.digitChar (byte.toNat % 16)])

/-! ## What is read has its length -/

variable {text field : List Char} {groups : List Nat} {bytes : List UInt8}

theorem length_mapM {f : α → Option β} {items : List α} {values : List β}
    (read : items.mapM f = some values) : values.length = items.length := by
  induction items generalizing values with
  | nil =>
    cases read
    rfl
  | cons item items ih =>
    simp only [List.mapM_cons, Option.bind_eq_bind, Option.bind_eq_some_iff] at read
    obtain ⟨value, _, rest, others, read⟩ := read
    cases read
    rw [List.length_cons, List.length_cons, ih others]

theorem length_parseIPv4 (read : parseIPv4 text = some bytes) : bytes.length = 4 := by
  simp only [parseIPv4] at read
  split at read
  · rename_i four
    rw [length_mapM read, four]
  · cases read

theorem length_parseIPv6 (read : parseIPv6 text = some bytes) : bytes.length = 16 := by
  unfold parseIPv6 at read
  split at read
  · obtain ⟨_, whole⟩ := Option.filter_eq_some_iff.mp read
    simpa using whole
  · simp only [Option.bind_eq_bind, Option.bind_eq_some_iff] at read
    obtain ⟨groups, _, back, _, read⟩ := read
    split at read
    · rename_i short
      cases read
      simp only [List.length_append, List.length_replicate]
      omega
    · cases read

/-- A parsed address has 16 bytes. -/
theorem length_parseIP {text : String} (read : parseIP text = some bytes) : bytes.length = 16 := by
  unfold parseIP at read
  split at read
  · obtain ⟨four, parsed, rfl⟩ := Option.map_eq_some_iff.mp read
    rw [List.length_append, length_parseIPv4 parsed]
    rfl
  · exact length_parseIPv6 read
  · cases read

/-! ## Digits -/

theorem mem_toDigits {base n : Nat} {c : Char} (several : 1 < base)
    (member : c ∈ Nat.toDigits base n) :
    ∃ d, d < base ∧ c = d.digitChar := by
  induction n using Nat.base_induction base several with
  | single n low =>
    rw [Nat.toDigits_of_lt_base low, List.mem_singleton] at member
    exact ⟨n, low, member⟩
  | digit n d low positive ih =>
    rw [← Nat.toDigits_append_toDigits several positive low, List.mem_append,
      Nat.toDigits_of_lt_base low, List.mem_singleton] at member
    exact member.elim ih fun last => ⟨d, low, last⟩

/-- No digit is a dot or a colon. -/
theorem digit_ne_mark {base n : Nat} (several : 1 < base) (small : base ≤ 16) :
    '.' ∉ Nat.toDigits base n ∧ ':' ∉ Nat.toDigits base n := by
  have apart : ∀ d < 16, d.digitChar ≠ '.' ∧ d.digitChar ≠ ':' := by decide
  constructor
  · intro member
    obtain ⟨d, low, same⟩ := mem_toDigits several member
    exact (apart d (by omega)).1 same.symm
  · intro member
    obtain ⟨d, low, same⟩ := mem_toDigits several member
    exact (apart d (by omega)).2 same.symm

theorem decimal_clear (byte : UInt8) :
    '.' ∉ Nat.toDigits 10 byte.toNat ∧ ':' ∉ Nat.toDigits 10 byte.toNat :=
  digit_ne_mark (by decide) (by decide)

theorem readDecimal_toDigits (byte : UInt8) :
    readDecimal (Nat.toDigits 10 byte.toNat) = some byte := by
  have small := byte.toNat_lt
  have digits : (Nat.toDigits 10 byte.toNat).any (fun c => !c.isDigit) = false := by
    rw [List.any_eq_false]
    intro c member
    simp [Nat.isDigit_of_mem_toDigits (by decide) (by decide) member]
  have noZero : ¬ ((Nat.toDigits 10 byte.toNat).head? = some '0' ∧
      Nat.toDigits 10 byte.toNat ≠ ['0']) := by
    have all : ∀ n < 256, ¬ ((Nat.toDigits 10 n).head? = some '0' ∧ Nat.toDigits 10 n ≠ ['0']) := by
      decide +kernel
    exact all _ small
  simp only [readDecimal, Nat.ofDigitChars_ten_toDigits, digits]
  rw [if_neg, UInt8.ofNat_toNat]
  rintro (empty | bad | large | zero)
  · exact Nat.toDigits_ne_nil empty
  · cases bad
  · omega
  · exact noZero zero

theorem foldlM_toDigits (n start : Nat) :
    (Nat.toDigits 16 n).foldlM (fun value c => (readHexDigit c).map (16 * value + ·)) start =
      some (16 ^ (Nat.toDigits 16 n).length * start + n) := by
  have digit : ∀ d < 16, readHexDigit d.digitChar = some d := by decide
  induction n using Nat.base_induction 16 (by decide) with
  | single n low => simp [Nat.toDigits_of_lt_base low, digit n low]
  | digit n d low positive ih =>
    rw [← Nat.toDigits_append_toDigits (by decide) positive low, List.foldlM_append, ih,
      Nat.toDigits_of_lt_base low]
    simp only [Option.bind_eq_bind, Option.bind_some, List.foldlM_cons, digit d low,
      Option.map_some, List.foldlM_nil, List.length_append, List.length_singleton]
    simp only [Option.pure_def, Option.some.injEq, pow_succ]
    ring

theorem readGroup_toDigits {group : Nat} (small : group < 65536) :
    readGroup (Nat.toDigits 16 group) = some group := by
  have short : (Nat.toDigits 16 group).length ≤ 4 :=
    (Nat.length_toDigits_le_iff (by decide) (by decide)).mpr small
  rw [readGroup, if_neg, foldlM_toDigits, Nat.mul_zero, Nat.zero_add]
  rintro (empty | long)
  · exact Nat.toDigits_ne_nil empty
  · omega

/-! ## Dotted decimal -/

theorem parseIPv4_dotted (four : bytes.length = 4) : parseIPv4 (dotted bytes) = some bytes := by
  have split : (dotted bytes).splitOn '.' = bytes.map fun byte => Nat.toDigits 10 byte.toNat := by
    apply List.splitOn_intercalate
    · intro field member
      obtain ⟨byte, _, rfl⟩ := List.mem_map.mp member
      exact (decimal_clear byte).1
    · intro none
      rw [List.map_eq_nil_iff.mp none] at four
      cases four
  have read : bytes.mapM (fun byte => readDecimal (Nat.toDigits 10 byte.toNat)) = some bytes := by
    simp only [readDecimal_toDigits]
    exact (List.mapM_pure (m := Option)).trans (congrArg some (List.map_id bytes))
  rw [parseIPv4, split, List.mapM_map]
  simp only [List.length_map, four, if_true, Function.comp_def]
  exact read

/-! ## Groups -/

theorem group_clear (group : Nat) :
    '.' ∉ Nat.toDigits 16 group ∧ ':' ∉ Nat.toDigits 16 group :=
  digit_ne_mark (by decide) (by decide)

theorem length_groupsOf (twice : bytes.length = 2 * n) : (groupsOf bytes).length = n := by
  induction n generalizing bytes with
  | zero =>
    rw [List.length_eq_zero_iff.mp twice]
    rfl
  | succ n ih =>
    match bytes, twice with
    | high :: low :: rest, twice =>
      rw [groupsOf, List.length_cons, ih (by simpa [Nat.mul_succ] using twice)]

theorem groupsOf_lt : ∀ group ∈ groupsOf bytes, group < 65536 := by
  fun_induction groupsOf bytes with
  | case1 high low rest ih =>
    rw [List.forall_mem_cons]
    have := high.toNat_lt
    have := low.toNat_lt
    exact ⟨by omega, ih⟩
  | case2 bytes => simp

theorem flatMap_groupsOf (twice : bytes.length = 2 * n) :
    (groupsOf bytes).flatMap groupBytes = bytes := by
  induction n generalizing bytes with
  | zero =>
    rw [List.length_eq_zero_iff.mp twice]
    rfl
  | succ n ih =>
    match bytes, twice with
    | high :: low :: rest, twice =>
      have shorter : (groupsOf rest).flatMap groupBytes = rest :=
        ih (by simpa [Nat.mul_succ] using twice)
      have small := low.toNat_lt
      have first : (high.toNat * 256 + low.toNat) / 256 = high.toNat := by omega
      have second : UInt8.ofNat (high.toNat * 256 + low.toNat) = low := by
        apply UInt8.toNat_inj.mp
        rw [UInt8.toNat_ofNat']
        omega
      rw [groupsOf, List.flatMap_cons, shorter, groupBytes, first, second, UInt8.ofNat_toNat]
      rfl

theorem readGroups_texts (small : ∀ group ∈ groups, group < 65536) :
    readGroups (groups.map (Nat.toDigits 16)) = some (groups.flatMap groupBytes) := by
  induction groups with
  | nil => rfl
  | cons group groups ih =>
    obtain ⟨low, small⟩ := List.forall_mem_cons.mp small
    have rest := ih small
    have noDot : (Nat.toDigits 16 group).contains '.' = false := by
      simpa using (group_clear group).1
    cases groups with
    | nil =>
      simp only [List.map_cons, List.map_nil, readGroups, noDot, readGroup_toDigits low]
      simp
    | cons next groups =>
      rw [List.map_cons, List.map_cons, readGroups, ← List.map_cons, rest, readGroup_toDigits low]
      · simp
      · simp

theorem mapM_readGroup (small : ∀ group ∈ groups, group < 65536) :
    (groups.map (Nat.toDigits 16)).mapM readGroup = some groups := by
  induction groups with
  | nil => rfl
  | cons group groups ih =>
    obtain ⟨low, small⟩ := List.forall_mem_cons.mp small
    simp [readGroup_toDigits low, ih small]

/-! ## The ellipsis -/

/-- Text without a colon is passed over. -/
theorem splitEllipsis_append (clear : ':' ∉ field) :
    splitEllipsis (field ++ text) =
      (splitEllipsis text).map fun split => (field ++ split.1, split.2) := by
  induction field with
  | nil => simp
  | cons c field ih =>
    rw [List.mem_cons, not_or] at clear
    obtain ⟨apart, clear⟩ := clear
    rw [List.cons_append, splitEllipsis, if_neg (fun both => apart both.1.symm), ih clear,
      Option.map_map]
    rfl

/-- So is a colon on its own. -/
theorem splitEllipsis_colon (apart : text.head? ≠ some ':') :
    splitEllipsis (':' :: text) =
      (splitEllipsis text).map fun split => (':' :: split.1, split.2) := by
  rw [splitEllipsis, if_neg (fun both => apart both.2)]

theorem writeGroups_cons (group next : Nat) (groups : List Nat) :
    writeGroups (group :: next :: groups) =
      Nat.toDigits 16 group ++ ':' :: writeGroups (next :: groups) := by
  simp [writeGroups, List.intercalate_cons_cons]

theorem writeGroups_single (group : Nat) : writeGroups [group] = Nat.toDigits 16 group := by
  simp [writeGroups]

theorem head_writeGroups (group : Nat) (groups : List Nat) (text : List Char) :
    (writeGroups (group :: groups) ++ text).head? ≠ some ':' := by
  obtain ⟨c, digits, shape⟩ := List.exists_cons_of_ne_nil (Nat.toDigits_ne_nil (n := group) (b := 16))
  have noColon := (group_clear group).2
  rw [shape] at noColon
  have first : c ≠ ':' := fun same => noColon (same ▸ List.mem_cons_self)
  cases groups <;> simp [writeGroups, shape, first, List.intercalate]

/-- Between groups there is no ellipsis. -/
theorem splitEllipsis_writeGroups (groups : List Nat) (text : List Char) :
    splitEllipsis (writeGroups groups ++ text) =
      (splitEllipsis text).map fun split => (writeGroups groups ++ split.1, split.2) := by
  induction groups with
  | nil => simp [writeGroups]
  | cons group groups ih =>
    have clear := (group_clear group).2
    cases groups with
    | nil => rw [writeGroups_single, splitEllipsis_append clear]
    | cons next groups =>
      rw [writeGroups_cons, List.append_assoc, List.cons_append, splitEllipsis_append clear,
        splitEllipsis_colon (head_writeGroups next groups text), ih]
      simp [Option.map_map, Function.comp_def]

theorem fieldsOf_writeGroups (groups : List Nat) :
    fieldsOf (writeGroups groups) = groups.map (Nat.toDigits 16) := by
  cases groups with
  | nil => rfl
  | cons group groups =>
    have filled : writeGroups (group :: groups) ≠ [] := by
      intro empty
      cases groups <;> simp [writeGroups, List.intercalate, Nat.toDigits_ne_nil] at empty
    rw [fieldsOf, if_neg filled]
    apply List.splitOn_intercalate
    · intro field member
      obtain ⟨n, _, rfl⟩ := List.mem_map.mp member
      exact (group_clear n).2
    · simp

/-! ## The run of zeros -/

/-- What the longest run is, it is where it starts. -/
theorem longestZeros_zeros (groups : List Nat) :
    (longestZeros groups).2 = 0 ∨
      (longestZeros groups).2 = zeros groups (longestZeros groups).1 := by
  unfold longestZeros
  generalize List.range groups.length = starts
  induction starts using List.reverseRecOn with
  | nil => exact Or.inl rfl
  | append_singleton starts start ih =>
    rw [List.foldl_append, List.foldl_cons, List.foldl_nil]
    split
    · exact Or.inr rfl
    · exact ih

theorem takeWhile_zero (groups : List Nat) :
    groups.takeWhile (· = 0) = List.replicate (groups.takeWhile (· = 0)).length 0 := by
  apply List.eq_replicate_of_mem
  intro group member
  simpa using List.mem_takeWhile_imp member

/-- The groups are those before a run of zeros, the run, and those after it. -/
theorem split_zeros (groups : List Nat) (start : Nat) :
    groups = groups.take start ++ (List.replicate (zeros groups start) 0 ++
      groups.drop (start + zeros groups start)) := by
  have run := takeWhile_zero (groups.drop start)
  have whole := List.takeWhile_append_dropWhile (p := (· = 0)) (l := groups.drop start)
  have rest : (groups.drop start).dropWhile (· = 0) = groups.drop (start + zeros groups start) := by
    have skipped : ((groups.drop start).takeWhile (· = 0) ++
        (groups.drop start).dropWhile (· = 0)).drop (zeros groups start) = _ := List.drop_left
    rw [← skipped, whole, List.drop_drop]
  calc groups = groups.take start ++ groups.drop start := (List.take_append_drop start groups).symm
    _ = groups.take start ++ ((groups.drop start).takeWhile (· = 0) ++
          (groups.drop start).dropWhile (· = 0)) := by rw [whole]
    _ = _ := by rw [run, rest, zeros]

/-! ## Reading back what was written -/

theorem parseIPv6_writeIPv6 (small : ∀ group ∈ groups, group < 65536) (eight : groups.length = 8) :
    parseIPv6 (writeIPv6 groups) = some (groups.flatMap groupBytes) := by
  have width : ∀ groups : List Nat, (groups.flatMap groupBytes).length = 2 * groups.length := by
    intro groups
    induction groups with
    | nil => rfl
    | cons group groups ih => simp [groupBytes, ih, Nat.mul_succ]
  unfold writeIPv6
  dsimp only
  split
  · have plain := splitEllipsis_writeGroups groups []
    rw [List.append_nil] at plain
    have fields := fieldsOf_writeGroups groups
    have filled : writeGroups groups ≠ [] := by
      intro empty
      rw [empty, fieldsOf, if_pos rfl, eq_comm, List.map_eq_nil_iff] at fields
      rw [fields] at eight
      cases eight
    rw [fieldsOf, if_neg filled] at fields
    rw [parseIPv6, plain]
    simp [splitEllipsis, fields, readGroups_texts small, width, eight]
  · rename_i long
    have run := (longestZeros_zeros groups).resolve_left (by omega)
    generalize longestZeros groups = longest at run long
    obtain ⟨start, length⟩ := longest
    simp only at run long ⊢
    have parts := split_zeros groups start
    rw [← run] at parts
    have total : groups.length = _ := congrArg List.length parts
    rw [eight, List.length_append, List.length_append, List.length_replicate] at total
    have found : splitEllipsis (writeGroups (groups.take start) ++
        ':' :: ':' :: writeGroups (groups.drop (start + length))) =
          some (writeGroups (groups.take start), writeGroups (groups.drop (start + length))) := by
      rw [splitEllipsis_writeGroups]
      simp [splitEllipsis]
    have front : ((groups.take start).map (Nat.toDigits 16)).mapM readGroup = _ :=
      mapM_readGroup fun group member => small group (List.mem_of_mem_take member)
    have back : readGroups ((groups.drop (start + length)).map (Nat.toDigits 16)) = _ :=
      readGroups_texts fun group member => small group (List.mem_of_mem_drop member)
    rw [parseIPv6, found]
    simp only [fieldsOf_writeGroups, front, back, Option.bind_eq_bind, Option.bind_some, width]
    rw [if_pos (by omega)]
    have pair : groupBytes 0 = List.replicate 2 0 := rfl
    have middle : (List.replicate length 0).flatMap groupBytes = List.replicate (2 * length) 0 := by
      rw [List.flatMap_replicate, pair, List.flatten_replicate_replicate, Nat.mul_comm]
    have whole : groups.flatMap groupBytes = _ := congrArg (List.flatMap groupBytes) parts
    rw [List.flatMap_append, List.flatMap_append, middle, ← List.append_assoc] at whole
    have missing : 16 - (2 * (groups.take start).length +
        2 * (groups.drop (start + length)).length) = 2 * length := by omega
    rw [whole, missing]

/-- The first mark tells the form. -/
theorem find_mark {mark other : Char} (held : mark ∈ text) (absent : other ∉ text)
    (kinds : ∀ c, (c = '.' ∨ c = ':') ↔ c = mark ∨ c = other) :
    (text.find? fun c => c = '.' ∨ c = ':') = some mark := by
  simp only [kinds]
  induction text with
  | nil => cases held
  | cons c text ih =>
    rw [List.mem_cons, not_or] at absent
    rcases List.mem_cons.mp held with rfl | later
    · simp
    · by_cases same : c = mark
      · simp [same]
      · rw [List.find?_cons_of_neg (by simp [same, Ne.symm absent.1])]
        exact ih later absent.2

theorem parseIP_dotted (four : bytes.length = 4) :
    parseIP (String.ofList (dotted bytes)) = some (v4InV6Prefix ++ bytes) := by
  have marks : '.' ∈ dotted bytes ∧ ':' ∉ dotted bytes := by
    match bytes, four with
    | [a, b, c, d], _ =>
      have clear (byte : UInt8) := (decimal_clear byte).2
      simp [dotted, List.intercalate, clear]
  have dot := find_mark marks.1 marks.2 fun c => Iff.rfl
  simp only [parseIP, String.toList_ofList, dot, parseIPv4_dotted four, Option.map_some]

theorem dot_writeGroups (groups : List Nat) : '.' ∉ writeGroups groups := by
  induction groups with
  | nil => simp [writeGroups]
  | cons group groups ih =>
    cases groups with
    | nil =>
      rw [writeGroups_single]
      exact (group_clear group).1
    | cons next groups =>
      rw [writeGroups_cons, List.mem_append, List.mem_cons, not_or, not_or]
      exact ⟨(group_clear group).1, by decide, ih⟩

/-- An IPv6 address is written with colons and without dots. -/
theorem marks_writeIPv6 (several : 2 ≤ groups.length) :
    ':' ∈ writeIPv6 groups ∧ '.' ∉ writeIPv6 groups := by
  unfold writeIPv6
  dsimp only
  split
  · refine ⟨?_, dot_writeGroups groups⟩
    match groups, several with
    | group :: next :: groups, _ => simp [writeGroups_cons]
  · simp [dot_writeGroups]

theorem parseIP_writeIPv6 (sixteen : bytes.length = 16) :
    parseIP (String.ofList (writeIPv6 (groupsOf bytes))) = some bytes := by
  have eight := length_groupsOf (n := 8) sixteen
  have several : 2 ≤ (groupsOf bytes).length := by omega
  obtain ⟨colon, noDot⟩ := marks_writeIPv6 several
  have found := find_mark colon noDot fun c => or_comm
  simp only [parseIP, String.toList_ofList, found]
  rw [parseIPv6_writeIPv6 groupsOf_lt eight, flatMap_groupsOf (n := 8) sixteen]

/-- **An address reads back from its text**, in its 16-byte form. -/
theorem parseIP_string {ip : NetIP} (valid : ip.to16 ≠ none) : parseIP ip.string = ip.to16 := by
  cases ip with
  | none => exact absurd rfl valid
  | some bytes =>
    have filled : bytes ≠ [] := by
      rintro rfl
      exact valid rfl
    have text : string (some bytes) = match to4 (some bytes) with
        | some four => String.ofList (dotted four)
        | none =>
          if bytes.length = 16 then String.ofList (writeIPv6 (groupsOf bytes))
          else String.ofList ('?' :: bytes.flatMap fun byte =>
            [Nat.digitChar (byte.toNat / 16), Nat.digitChar (byte.toNat % 16)]) := by
      obtain ⟨first, rest, rfl⟩ := List.exists_cons_of_ne_nil filled
      rfl
    rw [text]
    by_cases four : bytes.length = 4
    · simp [to4, to16, four, parseIP_dotted four]
    · have sixteen : bytes.length = 16 := by
        by_contra other
        exact valid (by simp [to16, four, other])
      have whole : to16 (some bytes) = some bytes := by simp [to16, sixteen]
      rw [whole]
      by_cases mapped : bytes.take 12 = v4InV6Prefix
      · have tail : (bytes.drop 12).length = 4 := by simp [sixteen]
        have short : to4 (some bytes) = some (bytes.drop 12) := by simp [to4, sixteen, mapped]
        rw [short]
        simp only [parseIP_dotted tail]
        rw [← mapped, List.take_append_drop]
      · have none : to4 (some bytes) = none := by simp [to4, sixteen, mapped]
        rw [none]
        simp only [if_pos sixteen]
        exact parseIP_writeIPv6 sixteen

end NetGraphz.NetIP
