import Mathlib

/-! Go's conversions between integers of different widths, and which numbers they
leave as they are. -/
namespace NetGraphz.GoIntegers

/-- The numbers of a signed type of so many bits and a sign. -/
def Signed (bits : Nat) (n : Int) : Prop := -2 ^ bits ≤ n ∧ n < 2 ^ bits

/-- The numbers of an unsigned type of so many bits. -/
def Unsigned (bits : Nat) (n : Int) : Prop := 0 ≤ n ∧ n < 2 ^ bits

instance (bits : Nat) (n : Int) : Decidable (Signed bits n) := inferInstanceAs (Decidable (_ ∧ _))

instance (bits : Nat) (n : Int) : Decidable (Unsigned bits n) :=
  inferInstanceAs (Decidable (_ ∧ _))

theorem toInt32_exact_iff (v : Int64) : v.toInt32.toInt = v.toInt ↔ Signed 31 v.toInt := by
  rw [Int64.toInt_toInt32, Int.bmod, Signed]
  omega

theorem toInt16_exact_iff (v : Int64) : v.toInt16.toInt = v.toInt ↔ Signed 15 v.toInt := by
  rw [Int64.toInt_toInt16, Int.bmod, Signed]
  omega

/-- A conversion to sixteen bits without a sign leaves the remainder. -/
theorem toUInt16_eq (v : Int64) : (v.toInt16.toUInt16.toNat : Int) = v.toInt % 2 ^ 16 := by
  have bits : (v.toInt16.toUInt16.toNat : Int) = v.toInt16.toInt % 2 ^ 16 := by
    have bound := v.toInt16.toUInt16.toNat_lt
    have same : v.toInt16.toInt = v.toInt16.toUInt16.toBitVec.toInt := rfl
    rw [same, BitVec.toInt_eq_toNat_cond, UInt16.toNat_toBitVec]
    split <;> omega
  rw [bits, Int64.toInt_toInt16, Int.bmod]
  omega

theorem toUInt16_exact_iff (v : Int64) :
    (v.toInt16.toUInt16.toNat : Int) = v.toInt ↔ Unsigned 16 v.toInt := by
  rw [toUInt16_eq, Unsigned]
  omega

/-- Sixteen bits without a sign fit into 32 with one. -/
theorem widened_toInt (v : UInt16) : v.toUInt32.toInt32.toInt = v.toNat := by
  have same : v.toUInt32.toInt32.toInt = v.toUInt32.toBitVec.toInt := rfl
  have bound := v.toNat_lt
  rw [same, BitVec.toInt_eq_toNat_cond, UInt32.toNat_toBitVec, UInt16.toNat_toUInt32]
  omega

/-- And into 64, -/
theorem widened64_toInt (v : UInt16) : v.toUInt64.toInt64.toInt = v.toNat := by
  have same : v.toUInt64.toInt64.toInt = v.toUInt64.toBitVec.toInt := rfl
  have bound := v.toNat_lt
  rw [same, BitVec.toInt_eq_toNat_cond, UInt64.toNat_toBitVec, UInt16.toNat_toUInt64]
  omega

/-- from where they come back. -/
theorem narrowed_widened (v : UInt16) : v.toUInt64.toInt64.toInt16.toUInt16 = v := by
  have bound := v.toNat_lt
  apply UInt16.toNat_inj.mp
  have kept := toUInt16_eq v.toUInt64.toInt64
  rw [widened64_toInt] at kept
  omega

end NetGraphz.GoIntegers
