import Mathlib.Tactic.IntervalCases
import NetGraphz.Base.Binary64
import NetGraphz.Base.GoFloat

/-! What Go's conversions and `Duration.Seconds` come to in whole numbers. -/
namespace NetGraphz.GoFloat
open Float.Model Binary64

theorem unpack_pack (is : Is sign x magnitude) : (Float.Model.pack x).unpack = x :=
  unpack_pack_of_is is

/-! ## From and to integers -/

/-- A number cut to an int64 that it fits. -/
theorem int64OfFloat64_of_is (is : Is .positive x.unpack magnitude) (fits : magnitude < 2 ^ 63) :
    int64OfFloat64 x = Int64.ofInt ⌊magnitude⌋ := by
  have whole := toInt_of_is is (2 ^ 63) (2 ^ 63)
  have number : x.isNaN = false := by
    obtain ⟨mantissa, exponent, normal, shape, -⟩ := is
    rw [Float.Model.isNaN, shape]
    rfl
  have nonneg : 0 ≤ ⌊magnitude⌋ := by
    obtain ⟨mantissa, exponent, normal, -, rfl⟩ := is
    exact Int.floor_nonneg.mpr (by positivity)
  have below : ⌊magnitude⌋ < 2 ^ 63 := Int.floor_lt.mpr (by exact_mod_cast fits)
  rw [int64OfFloat64, whole, number, if_neg]
  rintro (nan | low | high)
  · cases nan
  · omega
  · omega

/-- One that does not fit it. -/
theorem int64OfFloat64_of_large (is : Is .positive x.unpack magnitude) (large : 2 ^ 63 ≤ magnitude) :
    int64OfFloat64 x = Int64.minValue := by
  have whole := toInt_of_is is (2 ^ 63) (2 ^ 63)
  have beyond : 2 ^ 63 ≤ ⌊magnitude⌋ := Int.le_floor.mpr (by exact_mod_cast large)
  rw [int64OfFloat64, whole, if_pos (.inr (.inr beyond))]

/-- An integer of at most 53 bits in units of its last place. -/
theorem exists_unit {k : Nat} (positive : 0 < k) (short : k < 2 ^ 53) : ∃ num : Nat, ∃ unit : Int,
    (k : ℚ) = num / (1 : Nat) * 2 ^ unit ∧ 2 ^ 52 * 1 ≤ num ∧ num < 2 ^ 53 * 1 ∧
      -52 ≤ unit ∧ unit ≤ 0 := by
  have bits : k.log2 < 53 := (Nat.log2_lt positive.ne').mpr short
  obtain ⟨s, shift⟩ : ∃ s, k.log2 + s = 52 := ⟨52 - k.log2, by omega⟩
  refine ⟨k * 2 ^ s, -s, ?_, ?_, ?_, by omega, by omega⟩
  · rw [zpow_neg, zpow_natCast]
    push_cast
    field_simp
  · calc 2 ^ 52 * 1 = 2 ^ k.log2 * 2 ^ s := by rw [← Nat.pow_add, shift, Nat.mul_one]
      _ ≤ k * 2 ^ s := Nat.mul_le_mul_right _ (Nat.log2_self_le positive.ne')
  · calc k * 2 ^ s < 2 ^ (k.log2 + 1) * 2 ^ s :=
          Nat.mul_lt_mul_of_pos_right Nat.lt_log2_self (Nat.two_pow_pos s)
      _ = 2 ^ 53 * 1 := by rw [← Nat.pow_add, Nat.add_right_comm, shift, Nat.mul_one]

/-- An integer of at most 53 bits converts as it is. -/
theorem ofInt_exact (nonzero : n ≠ 0) (short : n.natAbs < 2 ^ 53) :
    ∃ sign, (0 < n → sign = .positive) ∧ Is sign (Float.Model.ofInt n).unpack n.natAbs := by
  obtain ⟨num, unit, value, least, most, low, high⟩ :=
    exists_unit (Int.natAbs_pos.mpr nonzero) short
  obtain ⟨sign, positive, is⟩ := ofInt_is Nat.one_pos nonzero value least most (by omega) (by omega)
  refine ⟨sign, positive, ?_⟩
  have whole : nearest num 1 = num := by simpa using nearest_mul_self num Nat.one_pos
  rw [whole] at is
  rw [Float.Model.ofInt, unpack_pack is, value]
  simpa using is

theorem ofNat_exact {k : Nat} (positive : 0 < k) (short : k < 2 ^ 53) :
    Is .positive (Float.Model.ofInt k).unpack k := by
  obtain ⟨sign, sign_eq, is⟩ := ofInt_exact (n := (k : Int)) (by omega) (by omega)
  rw [sign_eq (by omega)] at is
  simpa using is

/-- Magnitudes survive `math.Abs`. -/
theorem abs_is_of_is {x : Float.Model} (is : Is sign x.unpack magnitude) : Is .positive x.abs.unpack magnitude := by
  rw [Float.Model.abs, unpack_pack (abs_is is)]
  exact abs_is is

/-- The distance of two numbers that convert to a whole number. -/
theorem int64_abs_of_is {x : Float.Model} {k : Nat} (is : Is sign x.unpack k) (fits : k < 2 ^ 63) :
    int64OfFloat64 x.abs = Int64.ofInt k := by
  rw [int64OfFloat64_of_is (abs_is_of_is is) (by exact_mod_cast fits), Int.floor_natCast]

/-- What a conversion makes of an integer of 54 bits: it loses the last one, to
the even neighbour. -/
def roundedTo53 (k : Nat) : Nat := if k < 2 ^ 53 then k else nearest k 2 * 2

theorem roundedTo53_le {k : Nat} (short : k < 2 ^ 54) : roundedTo53 k ≤ 2 ^ 54 := by
  have half : nearest k 2 ≤ 2 ^ 53 := nearest_le Nat.two_pos (by omega)
  unfold roundedTo53
  split <;> omega

theorem roundedTo53_lt_iff (short : bound ≤ 2 ^ 53) : roundedTo53 k < bound ↔ k < bound := by
  unfold roundedTo53
  split
  · rfl
  · rename_i long
    have half : 2 ^ 52 ≤ nearest k 2 := le_nearest Nat.two_pos (by omega)
    omega

theorem int64_abs_ofInt {n : Int} (short : n.natAbs < 2 ^ 54) :
    int64OfFloat64 (Float.Model.ofInt n).abs = Int64.ofInt (roundedTo53 n.natAbs) := by
  by_cases nonzero : n = 0
  · subst nonzero
    rfl
  unfold roundedTo53
  split
  · rename_i exact
    obtain ⟨sign, -, is⟩ := ofInt_exact nonzero exact
    exact int64_abs_of_is is (by omega)
  · rename_i long
    have value : (n.natAbs : ℚ) = n.natAbs / (2 : Nat) * 2 ^ (1 : Int) := by
      rw [zpow_one]
      push_cast
      field_simp
    obtain ⟨sign, -, is⟩ := ofInt_is Nat.two_pos nonzero value (by omega) (by omega) (by omega)
      (by omega)
    have bound := roundedTo53_le short
    rw [roundedTo53, if_neg long] at bound
    have is' : Is sign (Float.Model.ofInt n).unpack ((nearest n.natAbs 2 * 2 : Nat) : ℚ) := by
      rw [Float.Model.ofInt, unpack_pack is]
      simpa using is
    exact int64_abs_of_is is' (by omega)

/-- A wrapped difference does not fit an int64. -/
theorem int64_abs_ofInt_large {n : Int} (large : 2 ^ 63 ≤ n.natAbs) (fits : n.natAbs < 2 ^ 64) :
    int64OfFloat64 (Float.Model.ofInt n).abs = Int64.minValue := by
  have value : (n.natAbs : ℚ) = n.natAbs / (2 ^ 11 : Nat) * 2 ^ (11 : Int) := by
    push_cast
    field_simp
  obtain ⟨sign, -, is⟩ := ofInt_is (Nat.two_pow_pos 11) (by omega) value (by omega) (by omega)
    (by omega) (by omega)
  have least : 2 ^ 52 ≤ nearest n.natAbs (2 ^ 11) := le_nearest (Nat.two_pow_pos 11) (by omega)
  have is' : Is sign (Float.Model.ofInt n).unpack (nearest n.natAbs (2 ^ 11) * 2 ^ (11 : Int)) := by
    rw [Float.Model.ofInt, unpack_pack is]
    exact is
  apply int64OfFloat64_of_large (abs_is_of_is is')
  have least' : (2 ^ 52 : ℚ) ≤ nearest n.natAbs (2 ^ 11) := by exact_mod_cast least
  calc (2 ^ 63 : ℚ) = 2 ^ 52 * 2 ^ (11 : Int) := by norm_num
    _ ≤ nearest n.natAbs (2 ^ 11) * 2 ^ (11 : Int) := by gcongr

/-! ## Whole seconds of a duration -/

/-- The sum of whole seconds and a fraction rounds up to the next second: the
fraction lacks no more of it than half the last place of the seconds. -/
def RoundsUp (sec nsec : Nat) : Prop :=
  (1000000000 - nsec) * 2 ^ 53 ≤ 1000000000 * 2 ^ sec.log2

instance : Decidable (RoundsUp sec nsec) := inferInstanceAs (Decidable (_ ≤ _))

/-- What `int64` of `Seconds` leaves of a duration: its whole seconds, or one
more where the sum rounds up. -/
def wholeSeconds (sec nsec : Nat) : Nat := if RoundsUp sec nsec then sec + 1 else sec

/-- A whole second is rounded to itself. -/
theorem wholeSeconds_zero {sec : Nat} (short : sec.log2 < 34) : wholeSeconds sec 0 = sec := by
  have low : 2 ^ sec.log2 ≤ 2 ^ 33 := Nat.pow_le_pow_right Nat.two_pos (by omega)
  apply if_neg
  unfold RoundsUp
  omega

/-- A fraction of a second in units of its last place. -/
theorem exists_fraction_unit {nsec : Nat} (positive : 0 < nsec) (part : nsec < 1000000000) :
    ∃ j, 53 ≤ j ∧ j < 84 ∧ 2 ^ 52 * 1000000000 ≤ nsec * 2 ^ j ∧
      nsec * 2 ^ j < 2 ^ 53 * 1000000000 := by
  obtain ⟨j, least, most⟩ : ∃ j, 2 ^ 52 * 1000000000 ≤ nsec * 2 ^ j ∧
      nsec * 2 ^ j < 2 ^ 53 * 1000000000 := by
    obtain ⟨q, whole⟩ : ∃ q, q = (2 ^ 53 * 1000000000 - 1) / nsec := ⟨_, rfl⟩
    have room : q ≠ 0 := whole ▸ (Nat.div_pos (by omega) positive).ne'
    have low : 2 ^ q.log2 * nsec ≤ 2 ^ 53 * 1000000000 - 1 := by
      rw [← Nat.le_div_iff_mul_le positive, ← whole]
      exact Nat.log2_self_le room
    have high : 2 ^ 53 * 1000000000 - 1 < 2 ^ (q.log2 + 1) * nsec := by
      rw [← Nat.div_lt_iff_lt_mul positive, ← whole]
      exact Nat.lt_log2_self
    have doubled : 2 ^ (q.log2 + 1) * nsec = 2 * (2 ^ q.log2 * nsec) := by ring
    refine ⟨q.log2, ?_, ?_⟩ <;>
      rw [Nat.mul_comm nsec] <;> omega
  refine ⟨j, ?_, ?_, least, most⟩
  · by_contra short
    have : nsec * 2 ^ j ≤ 999999999 * 2 ^ 52 :=
      Nat.mul_le_mul (by omega) (Nat.pow_le_pow_right Nat.two_pos (by omega))
    omega
  · by_contra long
    have : 1 * 2 ^ 84 ≤ nsec * 2 ^ j :=
      Nat.mul_le_mul positive (Nat.pow_le_pow_right Nat.two_pos (by omega))
    omega

/-- Rounding the fraction first makes no difference: what it lacks is a multiple
of `2 ^ 54` billionths, and none falls in the gap. -/
theorem no_double_rounding {bits lack : Nat} (short : bits < 34)
    (near : lack * 2 ^ 54 ≤ 1000000000 * 2 ^ (bits + 1) + 1000000000) :
    lack * 2 ^ 54 ≤ 1000000000 * 2 ^ (bits + 1) := by
  interval_cases bits <;> omega

/-- The fraction as it is rounded, in units of its last place. -/
theorem fraction_roundsUp_iff {sec nsec j : Nat} (short : sec.log2 < 34) (some : 1 ≤ sec.log2)
    (part : nsec < 1000000000) (large : 53 ≤ j)
    (most : nsec * 2 ^ j < 2 ^ 53 * 1000000000) :
    (2 ^ j - nearest (nsec * 2 ^ j) 1000000000) * 2 ^ (53 - sec.log2) ≤ 2 ^ j ↔
      RoundsUp sec nsec := by
  unfold RoundsUp
  generalize sec.log2 = bits at short some ⊢
  have scale : 2 ^ bits * 2 ^ (53 - bits) = 2 ^ 53 := by
    rw [← Nat.pow_add]
    congr 1
    omega
  rcases Nat.eq_or_lt_of_le large with rfl | small
  · have below : 2 ^ bits ≤ 2 ^ 53 := Nat.pow_le_pow_right Nat.two_pos (by omega)
    have units : (2 ^ 53 - nearest (nsec * 2 ^ 53) 1000000000) * 2 ^ (53 - bits) ≤ 2 ^ 53 ↔
        2 ^ 53 - 2 ^ bits ≤ nearest (nsec * 2 ^ 53) 1000000000 := by
      have cancel := Nat.mul_le_mul_right_iff (Nat.two_pow_pos (53 - bits))
        (n := 2 ^ 53 - nearest (nsec * 2 ^ 53) 1000000000) (m := 2 ^ bits)
      rw [scale] at cancel
      rw [cancel]
      exact tsub_le_iff_tsub_le
    obtain ⟨b, rfl⟩ : ∃ b, bits = b + 1 := ⟨bits - 1, by omega⟩
    have even : (2 ^ 53 - 2 ^ (b + 1)) % 2 = 0 := by
      rw [Nat.pow_succ]
      omega
    rw [units, le_nearest_iff (by omega)]
    have gap := @no_double_rounding (b + 1) (1000000000 - nsec) short
    rw [Nat.pow_succ 2 (b + 1)] at gap
    omega
  · have half : 2 ^ 54 ≤ 2 ^ j := Nat.pow_le_pow_right Nat.two_pos small
    have few : nearest (nsec * 2 ^ j) 1000000000 ≤ 2 ^ 53 := nearest_le (by omega) most.le
    have less : nsec * 2 ^ 54 ≤ nsec * 2 ^ j := Nat.mul_le_mul_left nsec half
    have unlike : 2 ^ bits ≤ 2 ^ 33 := Nat.pow_le_pow_right Nat.two_pos (by omega)
    have wide : 2 ^ 20 ≤ 2 ^ (53 - bits) := Nat.pow_le_pow_right Nat.two_pos (by omega)
    have far : (2 ^ j - nearest (nsec * 2 ^ j) 1000000000) * 2 ^ 20 ≤
        (2 ^ j - nearest (nsec * 2 ^ j) 1000000000) * 2 ^ (53 - bits) := Nat.mul_le_mul_left _ wide
    have gap : 2 ^ j ≤ 2 * (2 ^ j - nearest (nsec * 2 ^ j) 1000000000) := by omega
    constructor
    · intro near
      have close := far.trans near
      linarith only [gap, close, half]
    · intro near
      have top : 1000000000 * 2 ^ bits ≤ 1000000000 * 2 ^ 33 := Nat.mul_le_mul_left _ unlike
      omega

/-- A fraction of a second, rounded. -/
theorem fraction_is {nsec j : Nat} (positive : 0 < nsec) (part : nsec < 1000000000) (small : j < 84)
    (least : 2 ^ 52 * 1000000000 ≤ nsec * 2 ^ j) (most : nsec * 2 ^ j < 2 ^ 53 * 1000000000) :
    Is .positive (Float.Model.ofInt nsec / Float.Model.ofNat 1000000000).unpack
      (nearest (nsec * 2 ^ j) 1000000000 * 2 ^ (-j : Int)) := by
  have value : (nsec : ℚ) / (1000000000 : Nat) =
      (nsec * 2 ^ j : Nat) / (1000000000 : Nat) * 2 ^ (-j : Int) := by
    rw [zpow_neg, zpow_natCast]
    push_cast
    field_simp
  have is := div_is (ofNat_exact positive (by omega))
    (ofNat_exact (k := 1000000000) (by omega) (by omega)) (by omega) value least most (by omega)
    (by omega)
  have packed := unpack_pack is
  rw [← packed] at is
  exact is

/-- The sum of whole seconds and a fraction of `r` in `2 ^ j`, rounded. -/
theorem sum_is {x : Float.Model} {r j : Nat} (sec : Nat) (some : 0 < sec) (short : sec < 2 ^ 52)
    (is : Is .positive x.unpack (r * 2 ^ (-j : Int))) (part : r < 2 ^ j) :
    Is .positive (Float.Model.ofInt sec + x).unpack
      (nearest ((sec * 2 ^ j + r) * 2 ^ (52 - sec.log2)) (2 ^ j) *
        2 ^ (-(52 - sec.log2 : Nat) : Int)) := by
  have bits : sec.log2 < 52 := (Nat.log2_lt some.ne').mpr short
  obtain ⟨u, shift⟩ : ∃ u, sec.log2 + u = 52 := ⟨52 - sec.log2, by omega⟩
  rw [show 52 - sec.log2 = u by omega]
  have low : 2 ^ 52 ≤ sec * 2 ^ u := by
    calc 2 ^ 52 = 2 ^ sec.log2 * 2 ^ u := by rw [← Nat.pow_add, shift]
      _ ≤ sec * 2 ^ u := Nat.mul_le_mul_right _ (Nat.log2_self_le some.ne')
  have high : (sec + 1) * 2 ^ u ≤ 2 ^ 53 := by
    calc (sec + 1) * 2 ^ u ≤ 2 ^ (sec.log2 + 1) * 2 ^ u :=
          Nat.mul_le_mul_right _ Nat.lt_log2_self
      _ = 2 ^ 53 := by rw [← Nat.pow_add, Nat.add_right_comm, shift]
  have value : (sec : ℚ) + r * 2 ^ (-j : Int) =
      ((sec * 2 ^ j + r) * 2 ^ u : Nat) / (2 ^ j : Nat) * 2 ^ (-u : Int) := by
    rw [zpow_neg, zpow_neg, zpow_natCast, zpow_natCast]
    push_cast
    field_simp
  have least : 2 ^ 52 * 2 ^ j ≤ (sec * 2 ^ j + r) * 2 ^ u := by
    calc 2 ^ 52 * 2 ^ j ≤ sec * 2 ^ u * 2 ^ j := Nat.mul_le_mul_right _ low
      _ = sec * 2 ^ j * 2 ^ u := Nat.mul_right_comm ..
      _ ≤ (sec * 2 ^ j + r) * 2 ^ u := Nat.mul_le_mul_right _ (Nat.le_add_right ..)
  have most : (sec * 2 ^ j + r) * 2 ^ u < 2 ^ 53 * 2 ^ j := by
    calc (sec * 2 ^ j + r) * 2 ^ u < (sec + 1) * 2 ^ j * 2 ^ u := by
          rw [Nat.succ_mul]
          exact Nat.mul_lt_mul_of_pos_right (by omega) (Nat.two_pow_pos u)
      _ = (sec + 1) * 2 ^ u * 2 ^ j := Nat.mul_right_comm ..
      _ ≤ 2 ^ 53 * 2 ^ j := Nat.mul_le_mul_right _ high
  have sum := add_is (ofNat_exact some (by omega)) is (Nat.two_pow_pos j) value least most (by omega)
    (by omega)
  have packed := unpack_pack sum
  rw [← packed] at sum
  exact sum

/-- The whole seconds of a sum that is rounded between two of them. -/
theorem floor_sum {r j : Nat} (sec : Nat) (short : sec.log2 < 52) (part : r < 2 ^ j) :
    ⌊(nearest ((sec * 2 ^ j + r) * 2 ^ (52 - sec.log2)) (2 ^ j) : ℚ) *
        2 ^ (-(52 - sec.log2 : Nat) : Int)⌋ =
      if (2 ^ j - r) * 2 ^ (53 - sec.log2) ≤ 2 ^ j then (sec + 1 : Int) else sec := by
  obtain ⟨u, shift⟩ : ∃ u, sec.log2 + (u + 1) = 52 := ⟨51 - sec.log2, by omega⟩
  have unit : 52 - sec.log2 = u + 1 := by omega
  have unit' : 53 - sec.log2 = u + 2 := by omega
  rw [unit, unit']
  have whole : ∀ R : Nat, ⌊(R : ℚ) * 2 ^ (-(u + 1 : Nat) : Int)⌋ = (R / 2 ^ (u + 1) : Nat) := by
    intro R
    have ratio : (R : ℚ) * 2 ^ (-(u + 1 : Nat) : Int) = R / (2 ^ (u + 1) : Nat) := by
      rw [zpow_neg, zpow_natCast, div_eq_mul_inv]
      push_cast
      rfl
    rw [ratio, Rat.floor_natCast_div_natCast]
    push_cast
    rfl
  have positive := Nat.two_pow_pos j
  have least : sec * 2 ^ (u + 1) ≤ nearest ((sec * 2 ^ j + r) * 2 ^ (u + 1)) (2 ^ j) := by
    apply le_nearest positive
    calc sec * 2 ^ (u + 1) * 2 ^ j = sec * 2 ^ j * 2 ^ (u + 1) := Nat.mul_right_comm ..
      _ ≤ (sec * 2 ^ j + r) * 2 ^ (u + 1) := Nat.mul_le_mul_right _ (Nat.le_add_right ..)
  have most : nearest ((sec * 2 ^ j + r) * 2 ^ (u + 1)) (2 ^ j) ≤ (sec + 1) * 2 ^ (u + 1) := by
    apply nearest_le positive
    calc (sec * 2 ^ j + r) * 2 ^ (u + 1) ≤ (sec + 1) * 2 ^ j * 2 ^ (u + 1) := by
          rw [Nat.succ_mul]
          exact Nat.mul_le_mul_right _ (by omega)
      _ = (sec + 1) * 2 ^ (u + 1) * 2 ^ j := Nat.mul_right_comm ..
  have next : (sec + 1) * 2 ^ (u + 1) ≤ nearest ((sec * 2 ^ j + r) * 2 ^ (u + 1)) (2 ^ j) ↔
      (2 ^ j - r) * 2 ^ (u + 2) ≤ 2 ^ j := by
    have even : (sec + 1) * 2 ^ (u + 1) % 2 = 0 := by
      rw [Nat.pow_succ, ← Nat.mul_assoc, Nat.mul_mod_left]
    have up : (sec + 1) * 2 ^ (u + 1) * 2 ^ j =
        sec * 2 ^ j * 2 ^ (u + 1) + 2 ^ j * 2 ^ (u + 1) := by ring
    have lack : (2 ^ j - r) * 2 ^ (u + 2) = 2 * (2 ^ j * 2 ^ (u + 1)) - 2 * (r * 2 ^ (u + 1)) := by
      rw [Nat.sub_mul]
      congr 1 <;> ring
    have less : r * 2 ^ (u + 1) ≤ 2 ^ j * 2 ^ (u + 1) := Nat.mul_le_mul_right _ part.le
    rw [le_nearest_iff positive, up, Nat.add_mul, lack]
    omega
  simp only [whole, ← next]
  generalize nearest ((sec * 2 ^ j + r) * 2 ^ (u + 1)) (2 ^ j) = R at least most ⊢
  split
  · rename_i reached
    rw [Nat.le_antisymm most reached, Nat.mul_div_cancel _ (Nat.two_pow_pos _)]
    push_cast
    rfl
  · rename_i short
    rw [Nat.div_eq_of_lt_le least (Nat.not_le.mp short)]

theorem seconds_eq (sec nsec : Nat) (part : nsec < 1000000000) :
    seconds (sec * 1000000000 + nsec) =
      Float.Model.ofInt sec + Float.Model.ofInt nsec / Float.Model.ofNat 1000000000 := by
  have whole : ((sec : Int) * 1000000000 + nsec).tdiv 1000000000 = sec := by
    rw [Int.tdiv_eq_ediv_of_nonneg (by omega)]
    omega
  have rest : ((sec : Int) * 1000000000 + nsec).tmod 1000000000 = nsec := by
    rw [Int.tmod_eq_emod_of_nonneg (by omega)]
    omega
  rw [seconds, whole, rest]

/-- **Whole seconds.** -/
theorem int64_seconds {sec nsec : Nat} (some : 2 ≤ sec) (short : sec < 2 ^ 34)
    (part : nsec < 1000000000) :
    int64OfFloat64 (seconds (sec * 1000000000 + nsec)) = Int64.ofInt (wholeSeconds sec nsec) := by
  have bits : sec.log2 < 34 := (Nat.log2_lt (by omega)).mpr short
  have several : 1 ≤ sec.log2 := (Nat.le_log2 (by omega)).mpr some
  rw [seconds_eq sec nsec part]
  rcases Nat.eq_zero_or_pos nsec with rfl | positive
  · have is := ofNat_exact (k := sec) (by omega) (by omega)
    have same : (Float.Model.ofInt sec + Float.Model.ofInt (0 : Nat) /
        Float.Model.ofNat 1000000000).unpack = (Float.Model.ofInt sec).unpack := by
      have zero : (Float.Model.ofInt (0 : Nat) / Float.Model.ofNat 1000000000).unpack =
          .zero .positive := by rfl
      have sum : (Float.Model.ofInt sec + Float.Model.ofInt (0 : Nat) /
          Float.Model.ofNat 1000000000) = Float.Model.pack (Float.Model.ofInt sec).unpack := by
        obtain ⟨mantissa, exponent, normal, shape, -⟩ := is
        change Float.Model.pack (UnpackedFloat.add .binary64 _ _) = _
        rw [zero, shape]
        rfl
      rw [sum, unpack_pack is]
    rw [← same] at is
    rw [int64OfFloat64_of_is is (by exact_mod_cast (by omega : sec < 2 ^ 63)),
      wholeSeconds_zero bits, Int.floor_natCast]
  · obtain ⟨j, large, small, least, most⟩ := exists_fraction_unit positive part
    have fraction := fraction_is positive part small least most
    have below : nearest (nsec * 2 ^ j) 1000000000 < 2 ^ j := by
      have units : 2 ^ 53 ≤ 2 ^ j := Nat.pow_le_pow_right Nat.two_pos large
      have lack : nsec * 2 ^ j ≤ 999999999 * 2 ^ j := Nat.mul_le_mul_right _ (by omega)
      apply Nat.lt_of_not_le
      rw [le_nearest_iff (by omega)]
      omega
    have sum := sum_is sec (by omega) (by omega) fraction below
    have whole := floor_sum sec (by omega) below
    simp only [fraction_roundsUp_iff bits several part large most] at whole
    have cast : (if RoundsUp sec nsec then (sec + 1 : Int) else sec) = wholeSeconds sec nsec := by
      unfold wholeSeconds
      split <;> rfl
    rw [cast] at whole
    have top : wholeSeconds sec nsec ≤ sec + 1 := by
      unfold wholeSeconds
      split <;> omega
    rw [int64OfFloat64_of_is sum ?_, whole]
    apply (Int.lt_floor_add_one _).trans
    rw [whole]
    exact_mod_cast (by omega : wholeSeconds sec nsec + 1 < 2 ^ 63)

/-- The seconds that `int64(d.Seconds())` makes of a duration. -/
def secondsOf (d : Int) : Nat :=
  wholeSeconds (d.toNat / 1000000000) (d.toNat % 1000000000)

theorem int64_seconds_eq {d : Int} (late : 2 * 1000000000 ≤ d) (fits : d < 2 ^ 63) :
    int64OfFloat64 (seconds d) = Int64.ofInt (secondsOf d) := by
  have parts : d = (d.toNat / 1000000000 : Nat) * 1000000000 + (d.toNat % 1000000000 : Nat) := by
    omega
  have whole := int64_seconds (by omega : 2 ≤ d.toNat / 1000000000) (by omega)
    (Nat.mod_lt d.toNat (by omega : 0 < 1000000000))
  rw [← parts] at whole
  exact whole

/-- They are at most one more than the true ones. -/
theorem secondsOf_bounds (d : Int) :
    d.toNat / 1000000000 ≤ secondsOf d ∧ secondsOf d ≤ d.toNat / 1000000000 + 1 := by
  unfold secondsOf wholeSeconds
  split <;> omega

/-- Within half a year they are the true ones. -/
theorem secondsOf_of_short {d : Int} (short : d < 2 ^ 24 * 1000000000) :
    secondsOf d = d.toNat / 1000000000 := by
  have bits : (d.toNat / 1000000000).log2 < 24 := by
    by_cases none : d.toNat / 1000000000 = 0
    · rw [none]
      exact Nat.succ_pos 23
    · exact (Nat.log2_lt none).mpr (by omega)
  have unit : 2 ^ (d.toNat / 1000000000).log2 ≤ 2 ^ 23 :=
    Nat.pow_le_pow_right Nat.two_pos (by omega)
  apply if_neg
  unfold RoundsUp
  omega

end NetGraphz.GoFloat
