import NetGraphz.Base.GoIntegers
import NetGraphz.Base.ParseInt

/-! What Go reads texts with: `strconv.ParseInt` in base 10 for 64 bits, and
`net.SplitHostPort`. A text is the list of its characters. -/
namespace NetGraphz.GoText
open GoIntegers ParseInt

/-- `strconv.ErrSyntax` and `strconv.ErrRange`. -/
inductive NumError where
  | errSyntax
  | errRange
  deriving DecidableEq

/-- `strconv.ParseInt(s, 10, 64)`. -/
def parseInt64 (text : List Char) : Except NumError Int :=
  let (negative, digits) := takeSign text
  if digits = [] ∨ ¬ digits.all Char.isDigit then .error .errSyntax
  else
    let magnitude : Int := Nat.ofDigitChars 10 digits 0
    let n := if negative then -magnitude else magnitude
    if Signed 63 n then .ok n else .error .errRange

theorem parseInt64_digits {digits : List Char} (some : digits ≠ [])
    (all : ∀ c ∈ digits, c.isDigit = true) (fits : Signed 63 (Nat.ofDigitChars 10 digits 0)) :
    parseInt64 digits = .ok (Nat.ofDigitChars 10 digits 0 : Int) := by
  obtain ⟨first, rest, rfl⟩ := List.exists_cons_of_ne_nil some
  have every : (first :: rest).all Char.isDigit := List.all_eq_true.mpr all
  simp [parseInt64, takeSign_digit (all first List.mem_cons_self), every, fits]

theorem parseInt64_minus {digits : List Char} (some : digits ≠ [])
    (all : ∀ c ∈ digits, c.isDigit = true)
    (fits : Signed 63 (-(Nat.ofDigitChars 10 digits 0 : Int))) :
    parseInt64 ('-' :: digits) = .ok (-(Nat.ofDigitChars 10 digits 0 : Int)) := by
  have every : digits.all Char.isDigit := List.all_eq_true.mpr all
  simp [parseInt64, takeSign, some, every, fits]

/-- An int64's decimal text is read as the number. -/
theorem parseInt64_toString {n : Int} (fits : Signed 63 n) :
    parseInt64 (toString n).toList = .ok n := by
  cases n with
  | ofNat m =>
    have text : (toString (Int.ofNat m)).toList = Nat.toDigits 10 m := by
      simp [toString, Int.repr, Nat.repr]
    have value : ((Nat.ofDigitChars 10 (Nat.toDigits 10 m) 0 : Nat) : Int) = Int.ofNat m := by
      rw [Nat.ofDigitChars_ten_toDigits]
      rfl
    rw [text, parseInt64_digits Nat.toDigits_ne_nil (isDigit_of_toDigits m) (value ▸ fits), value]
  | negSucc m =>
    have text : (toString (Int.negSucc m)).toList = '-' :: Nat.toDigits 10 (m + 1) := by
      simp [toString, Int.repr, Nat.repr]
    have value : -((Nat.ofDigitChars 10 (Nat.toDigits 10 (m + 1)) 0 : Nat) : Int) =
        Int.negSucc m := by
      rw [Nat.ofDigitChars_ten_toDigits]
      rfl
    rw [text, parseInt64_minus Nat.toDigits_ne_nil (isDigit_of_toDigits _) (value ▸ fits), value]

/-- What is wrong with an address, as in `net.AddrError`. -/
inductive AddrError where
  | missingPort
  | tooManyColons
  | missingBracket
  | unexpectedOpening
  | unexpectedClosing
  deriving DecidableEq

/-- The place of the last one of a character. -/
def lastIdxOf (c : Char) (text : List Char) : Option Nat :=
  (text.reverse.idxOf? c).map fun behind => text.length - 1 - behind

/-- `net.SplitHostPort`: the host and the port. -/
def splitHostPort (hostport : List Char) : Except AddrError (List Char × List Char) :=
  match lastIdxOf ':' hostport with
  | none => .error .missingPort
  | some i => do
    let (host, j, k) ←
      if hostport.head? = some '[' then
        match hostport.idxOf? ']' with
        | none => .error .missingBracket
        | some last =>
          if last + 1 = hostport.length then .error .missingPort
          else if last + 1 = i then .ok ((hostport.take last).drop 1, 1, last + 1)
          else if hostport[last + 1]? = some ':' then .error .tooManyColons
          else .error .missingPort
      else if ':' ∈ hostport.take i then .error .tooManyColons
      else .ok (hostport.take i, 0, 0)
    if '[' ∈ hostport.drop j then .error .unexpectedOpening
    else if ']' ∈ hostport.drop k then .error .unexpectedClosing
    else .ok (host, hostport.drop (i + 1))

example : splitHostPort "[::1]:8083".toList = .ok ("::1".toList, "8083".toList) := by decide

end NetGraphz.GoText
