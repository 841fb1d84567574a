import Mathlib.Data.List.Basic

/-! `parseInt` of a string, without a radix: leading blanks are skipped, a sign
is taken, and the digits are read as far as they go. -/
namespace NetGraphz.ParseInt

/-- White space and line terminators of the language. -/
def isBlank (c : Char) : Bool :=
  let code := c.toNat
  (9 ≤ code && code ≤ 13) || code = 0x20 || code = 0xA0 || code = 0x1680 ||
    (0x2000 ≤ code && code ≤ 0x200A) || code = 0x2028 || code = 0x2029 || code = 0x202F ||
    code = 0x205F || code = 0x3000 || code = 0xFEFF

def digitValue (radix : Nat) (c : Char) : Option Nat :=
  let value :=
    if c.isDigit then c.toNat - '0'.toNat
    else if 'a' ≤ c ∧ c ≤ 'f' then c.toNat - 'a'.toNat + 10
    else if 'A' ≤ c ∧ c ≤ 'F' then c.toNat - 'A'.toNat + 10
    else radix
  if value < radix then some value else none

/-- The digits up to the first character that is none. -/
def digits (radix : Nat) : List Char → List Nat
  | [] => []
  | c :: rest =>
    match digitValue radix c with
    | none => []
    | some value => value :: digits radix rest

/-- The sign, and what follows it. -/
def takeSign : List Char → Bool × List Char
  | '-' :: rest => (true, rest)
  | '+' :: rest => (false, rest)
  | rest => (false, rest)

/-- The radix, and what follows its mark. -/
def takeRadix : List Char → Nat × List Char
  | '0' :: 'x' :: rest => (16, rest)
  | '0' :: 'X' :: rest => (16, rest)
  | rest => (10, rest)

/-- `parseInt(text)`; `none` is `NaN`. -/
def parseInt (text : List Char) : Option Int :=
  let (negative, unsigned) := takeSign (text.dropWhile isBlank)
  let (radix, marked) := takeRadix unsigned
  match digits radix marked with
  | [] => none
  | first :: rest =>
    let value : Nat := (first :: rest).foldl (fun sofar digit => radix * sofar + digit) 0
    some (if negative then -value else value)

/-! ## Reading a number back -/

variable {c : Char}

theorem digit_range (digit : c.isDigit = true) : 48 ≤ c.toNat ∧ c.toNat ≤ 57 :=
  Char.isDigit_iff_toNat.mp digit

theorem digitValue_digit (digit : c.isDigit = true) :
    digitValue 10 c = some (c.toNat - '0'.toNat) := by
  have range := digit_range digit
  simp only [digitValue, digit, if_true]
  rw [if_pos]
  change c.toNat - 48 < 10
  omega

theorem digits_of_isDigit {text : List Char} (all : ∀ c ∈ text, c.isDigit = true) :
    digits 10 text = text.map fun c => c.toNat - '0'.toNat := by
  induction text with
  | nil => rfl
  | cons c rest ih =>
    have own := digitValue_digit (all c List.mem_cons_self)
    simp only [digits, own, List.map_cons]
    rw [ih fun other held => all other (List.mem_cons_of_mem c held)]

/-- A digit is no blank and no sign. -/
theorem not_blank_of_isDigit (digit : c.isDigit = true) : isBlank c = false := by
  have range := digit_range digit
  simp only [isBlank, Bool.or_eq_false_iff, Bool.and_eq_false_iff, decide_eq_false_iff_not]
  omega

theorem takeSign_digit (digit : c.isDigit = true) (rest : List Char) :
    takeSign (c :: rest) = (false, c :: rest) := by
  unfold takeSign
  split
  · rename_i sign
    cases sign
    cases digit
  · rename_i sign
    cases sign
    cases digit
  · rfl

/-- In a decimal number no letter follows a zero. -/
theorem takeRadix_digits {text : List Char} (all : ∀ c ∈ text, c.isDigit = true) :
    takeRadix text = (10, text) := by
  unfold takeRadix
  split
  · exact absurd (all 'x' (by simp)) (by decide)
  · exact absurd (all 'X' (by simp)) (by decide)
  · rfl

theorem value_digits {text : List Char} (all : ∀ c ∈ text, c.isDigit = true) :
    (digits 10 text).foldl (fun sofar digit => 10 * sofar + digit) 0 = Nat.ofDigitChars 10 text 0 := by
  rw [digits_of_isDigit all, Nat.ofDigitChars_eq_foldl, List.foldl_map]

/-- A text of digits is read as the number it writes. -/
theorem parseInt_digits {text : List Char} (some : text ≠ [])
    (all : ∀ c ∈ text, c.isDigit = true) :
    parseInt text = Option.some (Nat.ofDigitChars 10 text 0 : Int) := by
  obtain ⟨first, rest, rfl⟩ := List.exists_cons_of_ne_nil some
  have digit := all first List.mem_cons_self
  have value := value_digits all
  rw [digits_of_isDigit all, List.map_cons] at value
  simp only [parseInt, List.dropWhile_cons, not_blank_of_isDigit digit, Bool.false_eq_true,
    if_false, takeSign_digit digit, takeRadix_digits all, digits_of_isDigit all, List.map_cons]
  rw [value]

theorem parseInt_minus {text : List Char} (some : text ≠ [])
    (all : ∀ c ∈ text, c.isDigit = true) :
    parseInt ('-' :: text) = Option.some (-(Nat.ofDigitChars 10 text 0 : Int)) := by
  obtain ⟨first, rest, rfl⟩ := List.exists_cons_of_ne_nil some
  have value := value_digits all
  have notBlank : isBlank '-' = false := rfl
  rw [digits_of_isDigit all, List.map_cons] at value
  simp only [parseInt, List.dropWhile_cons, notBlank, Bool.false_eq_true, if_false, takeSign,
    takeRadix_digits all, digits_of_isDigit all, List.map_cons, if_true]
  rw [value]

theorem isDigit_of_toDigits (n : Nat) : ∀ c ∈ Nat.toDigits 10 n, c.isDigit = true := fun _ held =>
  Nat.isDigit_of_mem_toDigits (by omega) (by omega) held

/-- A number's decimal text is read as the number. -/
theorem parseInt_toDigits (n : Nat) : parseInt (Nat.toDigits 10 n) = some (n : Int) := by
  rw [parseInt_digits Nat.toDigits_ne_nil (isDigit_of_toDigits n), Nat.ofDigitChars_ten_toDigits]

/-- So is the text of an integer. -/
theorem parseInt_toString (n : Int) : parseInt (toString n).toList = some n := by
  cases n with
  | ofNat m =>
    have text : (toString (Int.ofNat m)).toList = Nat.toDigits 10 m := by
      simp [toString, Int.repr, Nat.repr]
    rw [text, parseInt_toDigits]
    rfl
  | negSucc m =>
    have text : (toString (Int.negSucc m)).toList = '-' :: Nat.toDigits 10 (m + 1) := by
      simp [toString, Int.repr, Nat.repr]
    rw [text, parseInt_minus Nat.toDigits_ne_nil (isDigit_of_toDigits _),
      Nat.ofDigitChars_ten_toDigits]
    rfl

end NetGraphz.ParseInt
