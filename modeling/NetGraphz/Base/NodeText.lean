import Mathlib.Data.List.Basic

/-! The text operations of Node.js that request handling rests on: reading a
base64 string as bytes, reading bytes as UTF-8 text, and splitting text at a
separator. Text is a list of characters. -/
namespace NetGraphz.NodeText

/-- The value of a base64 digit; the URL-safe digits are accepted as well. -/
def base64Digit (c : Char) : Option Nat :=
  if 'A' ≤ c ∧ c ≤ 'Z' then some (c.toNat - 'A'.toNat)
  else if 'a' ≤ c ∧ c ≤ 'z' then some (c.toNat - 'a'.toNat + 26)
  else if '0' ≤ c ∧ c ≤ '9' then some (c.toNat - '0'.toNat + 52)
  else if c = '+' ∨ c = '-' then some 62
  else if c = '/' ∨ c = '_' then some 63
  else none

/-- Digits to bytes; `bits` pending bits stand in `pending`, and what is left
of them at the end is padding. -/
def base64Bytes (pending bits : Nat) : List Nat → List Nat
  | [] => []
  | digit :: rest =>
    let pending := pending * 64 + digit
    if bits + 6 < 8 then base64Bytes pending (bits + 6) rest
    else
      let spare := bits + 6 - 8
      pending / 2 ^ spare :: base64Bytes (pending % 2 ^ spare) spare rest

/-- `Buffer(text, 'base64')`: `=` ends the data, other strangers are skipped. -/
def base64Decode (text : List Char) : List Nat :=
  base64Bytes 0 0 ((text.takeWhile (· ≠ '=')).filterMap base64Digit)

/-- The decoder between two bytes: continuation bytes owed, the code point so
far, and the bounds of the next byte. -/
structure Utf8State where
  needed : Nat := 0
  point : Nat := 0
  lower : Nat := 0x80
  upper : Nat := 0xBF

def replacement : Char := Char.ofNat 0xFFFD

/-- A byte between characters: what is written at once, and what is awaited. -/
def utf8Lead (byte : Nat) : List Char × Utf8State :=
  if byte ≤ 0x7F then ([Char.ofNat byte], {})
  else if 0xC2 ≤ byte ∧ byte ≤ 0xDF then ([], { needed := 1, point := byte - 0xC0 })
  else if byte = 0xE0 then ([], { needed := 2, point := 0, lower := 0xA0 })
  else if byte = 0xED then ([], { needed := 2, point := 0xD, upper := 0x9F })
  else if 0xE1 ≤ byte ∧ byte ≤ 0xEF then ([], { needed := 2, point := byte - 0xE0 })
  else if byte = 0xF0 then ([], { needed := 3, point := 0, lower := 0x90 })
  else if byte = 0xF4 then ([], { needed := 3, point := 4, upper := 0x8F })
  else if 0xF1 ≤ byte ∧ byte ≤ 0xF3 then ([], { needed := 3, point := byte - 0xF0 })
  else ([replacement], {})

/-- `buffer.toString()`: malformed sequences become replacement characters. -/
def utf8Decode (state : Utf8State) : List Nat → List Char
  | [] => if state.needed = 0 then [] else [replacement]
  | byte :: rest =>
    if state.needed = 0 then
      let (written, next) := utf8Lead byte
      written ++ utf8Decode next rest
    else if state.lower ≤ byte ∧ byte ≤ state.upper then
      let point := state.point * 64 + (byte - 0x80)
      if state.needed = 1 then Char.ofNat point :: utf8Decode {} rest
      else utf8Decode { needed := state.needed - 1, point := point } rest
    else
      let (written, next) := utf8Lead byte
      replacement :: (written ++ utf8Decode next rest)

/-- `Buffer(text, 'base64').toString()`. -/
def base64Text (text : String) : List Char := utf8Decode {} (base64Decode text.toList)

example : base64Text "dTpw" = "u:p".toList := by decide
example : base64Text "w6k6eA==" = "é:x".toList := by decide

/-- `text.split(separator)` for a one-character separator. -/
def split (separator : Char) : List Char → List (List Char)
  | [] => [[]]
  | c :: rest =>
    if c = separator then [] :: split separator rest
    else
      match split separator rest with
      | [] => [[c]]
      | first :: parts => (c :: first) :: parts

theorem split_ne_nil (separator : Char) (text : List Char) : split separator text ≠ [] := by
  cases text with
  | nil => simp [split]
  | cons c rest =>
    unfold split
    split
    · simp
    · split <;> simp

/-- The first part is the text before the first separator. -/
theorem split_append (separator : Char) (before rest : List Char) (clear : separator ∉ before) :
    split separator (before ++ separator :: rest) = before :: split separator rest := by
  induction before with
  | nil => simp [split]
  | cons c before ih =>
    have apart : c ≠ separator := by
      rintro rfl
      exact clear List.mem_cons_self
    have tail := ih fun member => clear (List.mem_cons_of_mem c member)
    simp [split, apart, tail]

end NetGraphz.NodeText
