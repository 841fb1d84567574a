import Mathlib

/-! What core Lean's model of double precision computes, for normal numbers:
conversions, sums and quotients are the nearest 53-bit mantissa in units of the
last place, and packing keeps them. A mantissa is rounded by the bits that are
shifted out of it, so what those stand for comes first. -/
namespace NetGraphz.Binary64
open Float.Model UnpackedFloat

/-! ## The nearest integer -/

/-- The integer nearest to a fraction, the even one of two. -/
def nearest (num den : Nat) : Nat :=
  (accuracyOfFraction (num % den) den).roundToNearestEven (num / den)

theorem round_accuracyOfFraction (whole : Nat) (rest den : Nat) :
    (accuracyOfFraction rest den).roundToNearestEven whole =
      if rest = 0 ∨ 2 * rest < den then whole
      else if 2 * rest = den then whole + whole % 2 else whole + 1 := by
  unfold accuracyOfFraction
  by_cases exact : rest = 0
  · simp [exact, Accuracy.roundToNearestEven]
  · rw [if_neg exact]
    rcases order : compare (2 * rest) den
    · rw [Nat.compare_eq_lt] at order
      rw [if_pos (.inr order), Accuracy.roundToNearestEven]
    · rw [Nat.compare_eq_eq] at order
      rw [if_neg (by omega), if_pos order, Accuracy.roundToNearestEven]
    · rw [Nat.compare_eq_gt] at order
      rw [if_neg (by omega), if_neg (by omega), Accuracy.roundToNearestEven]

theorem le_nearest_iff (positive : 0 < den) : k ≤ nearest num den ↔
    2 * (k * den) < 2 * num + den ∨ 2 * (k * den) = 2 * num + den ∧ k % 2 = 0 := by
  have small := Nat.mod_lt num positive
  have whole := Nat.div_add_mod' num den
  rw [nearest, round_accuracyOfFraction]
  generalize num / den = q at whole ⊢
  generalize num % den = r at small whole ⊢
  rcases (by omega : k ≤ q ∨ k = q + 1 ∨ q + 2 ≤ k) with below | rfl | above
  · have steps : k * den ≤ q * den := Nat.mul_le_mul_right den below
    split
    · omega
    · split <;> omega
  · have steps : (q + 1) * den = q * den + den := Nat.succ_mul q den
    split
    · omega
    · split <;> omega
  · have steps : (q + 2) * den ≤ k * den := Nat.mul_le_mul_right den above
    rw [Nat.add_mul] at steps
    split
    · omega
    · split <;> omega

/-- It depends on the fraction only. -/
theorem nearest_congr (positive : 0 < den) (positive' : 0 < den')
    (same : num * den' = num' * den) : nearest num den = nearest num' den' := by
  have scaled : ∀ {num den num' den' k : Nat}, 0 < den → 0 < den' → num * den' = num' * den →
      k ≤ nearest num den → k ≤ nearest num' den' := by
    intro num den num' den' k positive positive' same below
    rw [le_nearest_iff positive] at below
    rw [le_nearest_iff positive']
    rcases below with less | ⟨tie, even⟩
    · left
      apply Nat.lt_of_mul_lt_mul_left (a := den)
      have := Nat.mul_lt_mul_of_pos_right less positive'
      calc den * (2 * (k * den')) = 2 * (k * den) * den' := by ring
        _ < (2 * num + den) * den' := this
        _ = den * (2 * num' + den') := by rw [Nat.add_mul, Nat.mul_assoc, same]; ring
    · right
      refine ⟨Nat.eq_of_mul_eq_mul_left positive ?_, even⟩
      calc den * (2 * (k * den')) = 2 * (k * den) * den' := by ring
        _ = (2 * num + den) * den' := by rw [tie]
        _ = den * (2 * num' + den') := by rw [Nat.add_mul, Nat.mul_assoc, same]; ring
  exact Nat.le_antisymm (scaled positive positive' same (Nat.le_refl _))
    (scaled positive' positive same.symm (Nat.le_refl _))

@[simp] theorem nearest_mul_self (k : Nat) (positive : 0 < den) : nearest (k * den) den = k := by
  simp [nearest, accuracyOfFraction, Accuracy.roundToNearestEven, Nat.mul_div_cancel k positive]

theorem le_nearest (positive : 0 < den) (below : k * den ≤ num) : k ≤ nearest num den :=
  (le_nearest_iff positive).mpr (.inl (by omega))

theorem nearest_le (positive : 0 < den) (above : num ≤ k * den) : nearest num den ≤ k := by
  apply Nat.le_of_not_lt
  intro beyond
  have steps : (k + 1) * den = k * den + den := Nat.succ_mul k den
  have := (le_nearest_iff positive).mp (show k + 1 ≤ nearest num den from beyond)
  omega

/-! ## Cut mantissas -/

/-- A mantissa that `num / den` was cut to, with the two bits that tell how
much was cut off. -/
structure Truncates (cut : ExtendedMantissa) (num den : Nat) : Prop where
  mantissa : cut.mantissa = num / den
  roundBit : cut.roundBit = decide (den ≤ 2 * (num % den))
  stickyBit : cut.stickyBit = decide (2 * (num % den) % den ≠ 0)

theorem truncates_fraction (num : Nat) (positive : 0 < den) :
    Truncates (.ofMantissaAndAccuracy (num / den) (accuracyOfFraction (num % den) den)) num den := by
  have small := Nat.mod_lt num positive
  unfold accuracyOfFraction
  by_cases exact : num % den = 0
  · rw [if_pos exact]
    exact ⟨rfl, by simp [exact, ExtendedMantissa.ofMantissaAndAccuracy]; omega,
      by simp [exact, ExtendedMantissa.ofMantissaAndAccuracy]⟩
  · rw [if_neg exact]
    rcases order : compare (2 * (num % den)) den
    · rw [Nat.compare_eq_lt] at order
      have sticky : 2 * (num % den) % den ≠ 0 := by
        rw [Nat.mod_eq_of_lt order]
        omega
      exact ⟨rfl, (decide_eq_false (by omega)).symm, (decide_eq_true sticky).symm⟩
    · rw [Nat.compare_eq_eq] at order
      exact ⟨rfl, (decide_eq_true (by omega)).symm, (decide_eq_false (by simp [order])).symm⟩
    · rw [Nat.compare_eq_gt] at order
      have sticky : 2 * (num % den) % den ≠ 0 := by
        rw [Nat.mod_eq_sub_mod (by omega), Nat.mod_eq_of_lt (by omega)]
        omega
      exact ⟨rfl, (decide_eq_true (by omega)).symm, (decide_eq_true sticky).symm⟩

theorem Truncates.shiftRightOne (truncates : Truncates cut num den) (positive : 0 < den) :
    Truncates cut.shiftRightOne num (den * 2) := by
  obtain ⟨mantissa, roundBit, stickyBit⟩ := truncates
  have small := Nat.mod_lt num positive
  have rest : num % (den * 2) = num % den + den * (num / den % 2) := Nat.mod_mul
  refine ⟨?_, ?_, ?_⟩
  · rw [ExtendedMantissa.shiftRightOne, mantissa, Nat.div_div_eq_div_mul]
  · rw [ExtendedMantissa.shiftRightOne, mantissa, rest, Bool.eq_iff_iff, bne_iff_ne,
      decide_eq_true_iff]
    rcases Nat.mod_two_eq_zero_or_one (num / den) with even | odd
    · rw [even]
      omega
    · rw [odd]
      omega
  · have doubled : 2 * (num % (den * 2)) % (den * 2) = 2 * (num % den) := by
      rw [Nat.mul_comm den 2, Nat.mul_mod_mul_left, Nat.mod_mul_left_mod]
    rw [ExtendedMantissa.shiftRightOne, roundBit, stickyBit, doubled, ← Bool.decide_or,
      decide_eq_decide]
    constructor
    · rintro (half | more) none
      · omega
      · rw [none] at more
        exact more (Nat.zero_mod den)
    · intro some
      by_cases half : den ≤ 2 * (num % den)
      · exact .inl half
      · have kept : 2 * (num % den) % den = 2 * (num % den) := Nat.mod_eq_of_lt (by omega)
        exact .inr (by rwa [kept])

theorem Truncates.shiftRight (truncates : Truncates cut num den) (positive : 0 < den) (n : Nat) :
    Truncates (cut >>> n) num (den * 2 ^ n) := by
  induction n with
  | zero => simpa [HShiftRight.hShiftRight, Nat.repeat] using truncates
  | succ n ih =>
    rw [Nat.pow_succ, ← Nat.mul_assoc]
    exact ih.shiftRightOne (Nat.mul_pos positive (Nat.two_pow_pos n))

theorem Truncates.roundedMantissa (truncates : Truncates cut num den) (positive : 0 < den) :
    cut.roundedMantissa = nearest num den := by
  obtain ⟨mantissa, roundBit, stickyBit⟩ := cut
  obtain ⟨rfl, rfl, rfl⟩ := truncates
  have small := Nat.mod_lt num positive
  rw [nearest, round_accuracyOfFraction, ExtendedMantissa.roundedMantissa]
  by_cases half : den ≤ 2 * (num % den)
  · rw [decide_eq_true half]
    by_cases tie : 2 * (num % den) = den
    · rw [if_neg (by omega), if_pos tie, tie, Nat.mod_self]
      rfl
    · have sticky : 2 * (num % den) % den ≠ 0 := by
        rw [Nat.mod_eq_sub_mod half, Nat.mod_eq_of_lt (by omega)]
        omega
      rw [if_neg (by omega), if_neg tie, decide_eq_true sticky]
      rfl
  · rw [decide_eq_false half, if_pos (by omega)]
    cases decide (2 * (num % den) % den ≠ 0) <;> rfl

/-! ## Normal numbers -/

/-- Mantissa and exponent of a normal number. -/
structure Normal (mantissa : Nat) (exponent : Int) : Prop where
  bits : mantissa.log2 = 52
  low : -1074 ≤ exponent
  high : exponent ≤ 971

theorem Normal.pos (normal : Normal mantissa exponent) : 0 < mantissa := by
  apply Nat.pos_of_ne_zero
  rintro rfl
  cases normal.bits

theorem Normal.bounds (normal : Normal mantissa exponent) :
    2 ^ 52 ≤ mantissa ∧ mantissa < 2 ^ 53 :=
  (Nat.log2_eq_iff normal.pos.ne').mp normal.bits

/-- A normal number by its sign and magnitude. -/
def Is (sign : Sign) (x : UnpackedFloat) (magnitude : ℚ) : Prop :=
  ∃ mantissa exponent, ∃ normal : Normal mantissa exponent,
    x = .finite sign mantissa exponent normal.pos ∧ magnitude = mantissa * 2 ^ exponent

theorem shiftToTargetExponent_eq {s : Nat} {exponent : Int} (accuracy : Accuracy) (bits : mantissa.log2 = 52 + s)
    (low : -1074 ≤ exponent + s) :
    shiftToTargetExponent .binary64 mantissa exponent accuracy =
      (ExtendedMantissa.ofMantissaAndAccuracy mantissa accuracy >>> s, exponent + s) := by
  have target : Format.binary64.targetExponent (totalExponent mantissa exponent) = exponent + s := by
    simp only [Format.targetExponent, totalExponent, Format.mantissaBits, Format.minExponent, bits]
    omega
  have amount : (exponent + s - exponent).toNat = s := by omega
  rw [shiftToTargetExponent, target, shiftToExponent, amount]

/-- A whole mantissa loses its low bits. -/
theorem shiftRight_exact (mantissa n : Nat) :
    (ExtendedMantissa.ofMantissaAndAccuracy mantissa .exact >>> n).mantissa = mantissa / 2 ^ n := by
  have whole := (truncates_fraction mantissa Nat.one_pos).shiftRight Nat.one_pos n
  rw [Nat.div_one, Nat.mod_one, Nat.one_mul] at whole
  exact whole.mantissa

/-- Rounding to 53 bits: the nearest mantissa, carried if it has one bit more. -/
theorem roundWithAccuracy_is {s : Nat} {exponent : Int} (sign : Sign) (positive : 0 < den)
    (bits : (num / den).log2 = 52 + s) (low : -1074 ≤ exponent + s) (high : exponent + s ≤ 970) :
    Is sign (roundWithAccuracy .binary64 sign (num / den) exponent
        (accuracyOfFraction (num % den) den))
      (nearest num (den * 2 ^ s) * 2 ^ (exponent + s)) := by
  have cut := (truncates_fraction num positive).shiftRight positive s
  have scaled : 0 < den * 2 ^ s := Nat.mul_pos positive (Nat.two_pow_pos s)
  have rounded := cut.roundedMantissa scaled
  have nonzero : num / den ≠ 0 := by
    intro none
    rw [none] at bits
    cases s <;> cases bits
  obtain ⟨least, most⟩ := (Nat.log2_eq_iff nonzero).mp bits
  have below : 2 ^ 52 ≤ nearest num (den * 2 ^ s) := by
    apply le_nearest scaled
    calc 2 ^ 52 * (den * 2 ^ s) = 2 ^ (52 + s) * den := by ring
      _ ≤ num := (Nat.le_div_iff_mul_le positive).mp least
  have above : nearest num (den * 2 ^ s) ≤ 2 ^ 53 := by
    apply nearest_le scaled
    calc num ≤ 2 ^ (52 + s + 1) * den := ((Nat.div_lt_iff_lt_mul positive).mp most).le
      _ = 2 ^ 53 * (den * 2 ^ s) := by ring
  unfold roundWithAccuracy
  rw [shiftToTargetExponent_eq _ bits low]
  dsimp only
  rw [rounded]
  generalize nearest num (den * 2 ^ s) = r at below above ⊢
  rcases Nat.lt_or_eq_of_le above with small | carried
  · have bits' : r.log2 = 52 + 0 := (Nat.log2_eq_iff (by omega)).mpr ⟨below, small⟩
    rw [shiftToTargetExponent_eq _ bits' (by omega)]
    simp only [shiftRight_exact, Nat.pow_zero, Nat.div_one, Nat.cast_zero, Int.add_zero]
    rw [dif_neg (by omega)]
    exact ⟨r, exponent + s, ⟨bits', low, by omega⟩, rfl, rfl⟩
  · have bits' : r.log2 = 52 + 1 := by
      rw [carried, Nat.log2_two_pow]
    rw [shiftToTargetExponent_eq _ bits' (by omega)]
    simp only [shiftRight_exact]
    rw [dif_neg (by rw [carried]; decide)]
    refine ⟨_, _, ⟨?_, ?_, ?_⟩, rfl, ?_⟩
    · rw [carried, Nat.pow_div (by omega) Nat.two_pos]
      exact Nat.log2_two_pow
    · omega
    · omega
    · rw [carried]
      push_cast
      rw [zpow_add₀ two_ne_zero (exponent + s)]
      norm_num
      ring

/-- The same at the value: what is rounded is `num / den` in units of the last
place. -/
theorem rounded_is {num den num' den' : Nat} {exponent unit : Int} (sign : Sign)
    (positive : 0 < den) (positive' : 0 < den')
    (value : (num' / den' : ℚ) * 2 ^ exponent = num / den * 2 ^ unit) (fine : 2 ^ 52 ≤ num' / den')
    (least : 2 ^ 52 * den ≤ num) (most : num < 2 ^ 53 * den)
    (low : -1074 ≤ unit) (high : unit ≤ 970) :
    Is sign (roundWithAccuracy .binary64 sign (num' / den') exponent
        (accuracyOfFraction (num' % den') den'))
      (nearest num den * 2 ^ unit) := by
  have denPos : (0 : ℚ) < den := by exact_mod_cast positive
  have denPos' : (0 : ℚ) < den' := by exact_mod_cast positive'
  have fine' : (2 ^ 52 : ℚ) * den' ≤ num' := by
    exact_mod_cast (Nat.le_div_iff_mul_le positive').mp fine
  have most' : (num : ℚ) < 2 ^ 53 * den := by exact_mod_cast most
  obtain ⟨s, rfl⟩ : ∃ s : Nat, unit = exponent + s := by
    apply Int.exists_add_of_le
    by_contra coarse
    obtain ⟨n, rfl⟩ := Int.exists_add_of_le (Int.lt_iff_add_one_le.mp (Int.not_le.mp coarse))
    rw [add_assoc, zpow_add₀ two_ne_zero, mul_left_comm, mul_comm] at value
    have value := mul_right_cancel₀ (zpow_ne_zero unit two_ne_zero) value
    have two : (2 : ℚ) ≤ 2 ^ (1 + (n : Int)) := by
      calc (2 : ℚ) = 2 ^ (1 : Int) := (zpow_one 2).symm
        _ ≤ 2 ^ (1 + (n : Int)) := zpow_le_zpow_right₀ one_le_two (by omega)
    have most' : (num : ℚ) / den < 2 ^ 53 := (div_lt_iff₀ denPos).mpr most'
    have fine' : (2 ^ 52 : ℚ) ≤ num' / den' := (le_div_iff₀ denPos').mpr fine'
    have apart : (2 ^ 53 : ℚ) ≤ num' / den' * 2 ^ (1 + (n : Int)) := by
      calc (2 ^ 53 : ℚ) = 2 ^ 52 * 2 := by norm_num
        _ ≤ num' / den' * 2 ^ (1 + (n : Int)) := by gcongr
    exact absurd (value ▸ apart) (not_le.mpr most')
  rw [zpow_add₀ two_ne_zero, zpow_natCast, mul_comm (2 ^ exponent : ℚ), ← mul_assoc] at value
  have value := mul_right_cancel₀ (zpow_ne_zero exponent two_ne_zero) value
  have scaled : num' * den = num * (den' * 2 ^ s) := by
    field_simp at value
    exact_mod_cast (by linarith : (num' * den : ℚ) = num * (den' * 2 ^ s))
  rw [nearest_congr positive (Nat.mul_pos positive' (Nat.two_pow_pos s)) scaled.symm]
  refine roundWithAccuracy_is sign positive' ?_ low high
  have nonzero : num' / den' ≠ 0 := Nat.ne_of_gt ((Nat.two_pow_pos 52).trans_le fine)
  refine (Nat.log2_eq_iff nonzero).mpr ⟨?_, ?_⟩
  · rw [Nat.le_div_iff_mul_le positive']
    apply Nat.le_of_mul_le_mul_right _ positive
    calc 2 ^ (52 + s) * den' * den = 2 ^ 52 * den * (den' * 2 ^ s) := by ring
      _ ≤ num * (den' * 2 ^ s) := Nat.mul_le_mul_right _ least
      _ = num' * den := scaled.symm
  · rw [Nat.div_lt_iff_lt_mul positive']
    apply Nat.lt_of_mul_lt_mul_right (a := den)
    calc num' * den = num * (den' * 2 ^ s) := scaled
      _ < 2 ^ 53 * den * (den' * 2 ^ s) :=
        Nat.mul_lt_mul_of_pos_right most (Nat.mul_pos positive' (Nat.two_pow_pos s))
      _ = 2 ^ (52 + s + 1) * den' * den := by ring

/-! ## Packing -/

theorem unpackSign_packComponents {spec : Format} {sign exponent mantissa} :
    Sign.ofBitVec (unpackSign (packComponents spec sign exponent mantissa)) = sign := by
  have bit : unpackSign (packComponents spec sign exponent mantissa) = sign.toBitVec := by
    ext i first
    obtain rfl : i = 0 := by omega
    simp [unpackSign, packComponents, BitVec.getLsbD_append, BitVec.getElem_append]
  rw [bit]
  cases sign <;> rfl

/-- A normal number is what its bits are read as. -/
theorem unpack_pack_of_is (is : Is sign x magnitude) : unpack .binary64 (pack .binary64 x) = x := by
  obtain ⟨mantissa, exponent, normal, rfl, -⟩ := is
  obtain ⟨least, most⟩ := normal.bounds
  obtain ⟨bits, low, high⟩ := normal
  obtain ⟨biased, biasedEq⟩ : ∃ biased : Nat, (biased : Int) = exponent + 1075 :=
    ⟨(exponent + 1075).toNat, by omega⟩
  have field : (exponent + Format.binary64.exponentBias +
      Format.binary64.mantissaBitsWithoutImplicit).toNat = biased := by
    simp only [Format.exponentBias]
    omega
  have packed : pack .binary64 (.finite sign mantissa exponent (by omega)) =
      packComponents .binary64 sign (BitVec.ofNat 11 biased) (BitVec.ofNat 52 mantissa) := by
    simp only [UnpackedFloat.pack, field]
    rw [if_neg (by omega), if_pos (by rw [bits]; rfl)]
  have exponentBits : (BitVec.ofNat 11 biased).toNat = biased := by
    rw [BitVec.toNat_ofNat, Nat.mod_eq_of_lt (by omega)]
  have notFull : BitVec.ofNat 11 biased ≠ -1#11 := by
    intro full
    have full := congrArg BitVec.toNat full
    rw [exponentBits] at full
    have : (-1#11).toNat = 2047 := rfl
    omega
  have notEmpty : BitVec.ofNat 11 biased ≠ 0#11 := by
    intro empty
    have empty := congrArg BitVec.toNat empty
    rw [exponentBits] at empty
    have : (0#11).toNat = 0 := rfl
    omega
  have implicit : (1#1 ++ BitVec.ofNat 52 mantissa).toNat = mantissa := by
    rw [BitVec.toNat_append, ← Nat.shiftLeft_add_eq_or_of_lt (BitVec.isLt _), BitVec.toNat_ofNat]
    simp only [BitVec.toNat_ofNat, Nat.shiftLeft_eq]
    omega
  rw [packed]
  unfold UnpackedFloat.unpack
  simp only [unpackMantissa_packComponents, unpackExponent_packComponents,
    unpackSign_packComponents, exponentBits]
  rw [if_neg notFull, if_neg notEmpty]
  congr 1
  simp only [Format.exponentBias]
  omega

/-! ## Operations -/

theorem abs_is (is : Is sign x magnitude) : Is .positive x.abs magnitude := by
  obtain ⟨mantissa, exponent, normal, rfl, value⟩ := is
  exact ⟨mantissa, exponent, normal, rfl, value⟩

/-- Rounding an exact mantissa, however short. -/
theorem round_is {num den mantissa : Nat} {exponent unit : Int} (sign : Sign)
    (positive : 0 < den) (nonzero : mantissa ≠ 0)
    (value : (mantissa : ℚ) * 2 ^ exponent = num / den * 2 ^ unit)
    (room : -1074 ≤ exponent - (52 - mantissa.log2 : Nat))
    (least : 2 ^ 52 * den ≤ num) (most : num < 2 ^ 53 * den)
    (low : -1074 ≤ unit) (high : unit ≤ 970) :
    Is sign (UnpackedFloat.round .binary64 sign mantissa exponent) (nearest num den * 2 ^ unit) := by
  have amount : (exponent - Format.binary64.targetExponent (totalExponent mantissa exponent)).toNat =
      52 - mantissa.log2 := by
    simp only [Format.targetExponent, totalExponent, Format.mantissaBits, Format.minExponent]
    omega
  rw [UnpackedFloat.round, decreaseExponent, amount]
  generalize shift : 52 - mantissa.log2 = n at room ⊢
  have fine : 2 ^ 52 ≤ mantissa * 2 ^ n / 1 := by
    rw [Nat.div_one]
    calc 2 ^ 52 ≤ 2 ^ (mantissa.log2 + n) := Nat.pow_le_pow_right Nat.two_pos (by omega)
      _ = 2 ^ mantissa.log2 * 2 ^ n := Nat.pow_add 2 _ n
      _ ≤ mantissa * 2 ^ n := Nat.mul_le_mul_right _ (Nat.log2_self_le nonzero)
  have value' : ((mantissa * 2 ^ n : Nat) / (1 : Nat) : ℚ) * 2 ^ (exponent - n) =
      num / den * 2 ^ unit := by
    rw [← value, zpow_sub₀ two_ne_zero]
    push_cast
    rw [zpow_natCast]
    field_simp
  have rounded := rounded_is sign positive Nat.one_pos value' fine least most low high
  rwa [Nat.div_one, Nat.mod_one, ← Nat.shiftLeft_eq] at rounded

/-- `Float.ofInt` off zero. -/
theorem ofInt_is {num den : Nat} {n : Int} {unit : Int} (positive : 0 < den) (nonzero : n ≠ 0)
    (value : (n.natAbs : ℚ) = num / den * 2 ^ unit)
    (least : 2 ^ 52 * den ≤ num) (most : num < 2 ^ 53 * den)
    (low : -1074 ≤ unit) (high : unit ≤ 970) :
    ∃ sign, (0 < n → sign = .positive) ∧
      Is sign (UnpackedFloat.ofInt .binary64 n) (nearest num den * 2 ^ unit) := by
  have rounded : ∀ sign, Is sign (UnpackedFloat.round .binary64 sign n.natAbs 0)
      (nearest num den * 2 ^ unit) :=
    fun sign => round_is sign positive (Int.natAbs_ne_zero.mpr nonzero) (by simpa using value)
      (by omega) least most low high
  rcases Int.lt_or_gt_of_ne nonzero with negative | above
  · refine ⟨.negative, by omega, ?_⟩
    have magnitude : (-n).toNat = n.natAbs := by omega
    rw [UnpackedFloat.ofInt, UnpackedFloat.normalize, Int.compare_eq_lt.mpr negative, magnitude]
    exact rounded .negative
  · refine ⟨.positive, fun _ => rfl, ?_⟩
    have magnitude : n.toNat = n.natAbs := by omega
    rw [UnpackedFloat.ofInt, UnpackedFloat.normalize, Int.compare_eq_gt.mpr above, magnitude]
    exact rounded .positive

/-- The sum of two positive numbers. -/
theorem add_is {num den : Nat} {unit : Int} (is : Is .positive x v) (is' : Is .positive y w)
    (positive : 0 < den) (value : v + w = num / den * 2 ^ unit)
    (least : 2 ^ 52 * den ≤ num) (most : num < 2 ^ 53 * den)
    (low : -1074 ≤ unit) (high : unit ≤ 970) :
    Is .positive (UnpackedFloat.add .binary64 x y) (nearest num den * 2 ^ unit) := by
  obtain ⟨mantissa, exponent, normal, rfl, rfl⟩ := is
  obtain ⟨mantissa', exponent', normal', rfl, rfl⟩ := is'
  have sum : UnpackedFloat.add .binary64 (.finite .positive mantissa exponent normal.pos)
      (.finite .positive mantissa' exponent' normal'.pos) =
        UnpackedFloat.normalize .binary64
          (((mantissa <<< (exponent - min exponent exponent').toNat +
            mantissa' <<< (exponent' - min exponent exponent').toNat : Nat) : Int))
          (min exponent exponent') .positive := rfl
  obtain ⟨a, shift⟩ : ∃ a : Nat, exponent = min exponent exponent' + a :=
    ⟨(exponent - min exponent exponent').toNat, by omega⟩
  obtain ⟨b, shift'⟩ : ∃ b : Nat, exponent' = min exponent exponent' + b :=
    ⟨(exponent' - min exponent exponent').toNat, by omega⟩
  have lowest : -1074 ≤ min exponent exponent' := le_min normal.low normal'.low
  rw [sum]
  generalize min exponent exponent' = smaller at shift shift' lowest ⊢
  subst shift shift'
  have amount : (smaller + a - smaller).toNat = a := by omega
  have amount' : (smaller + b - smaller).toNat = b := by omega
  rw [amount, amount', Nat.shiftLeft_eq, Nat.shiftLeft_eq]
  have large : 2 ^ 52 ≤ mantissa * 2 ^ a + mantissa' * 2 ^ b :=
    (normal.bounds.1.trans (Nat.le_mul_of_pos_right _ (Nat.two_pow_pos a))).trans
      (Nat.le_add_right _ _)
  have value' : ((mantissa * 2 ^ a + mantissa' * 2 ^ b : Nat) : ℚ) * 2 ^ smaller =
      num / den * 2 ^ unit := by
    rw [← value, zpow_add₀ two_ne_zero, zpow_add₀ two_ne_zero]
    push_cast
    rw [zpow_natCast, zpow_natCast]
    ring
  generalize mantissa * 2 ^ a + mantissa' * 2 ^ b = total at large value' ⊢
  rw [UnpackedFloat.normalize, Int.compare_eq_gt.mpr (by omega), Int.toNat_natCast]
  have long : 52 ≤ total.log2 := (Nat.le_log2 (by omega)).mpr large
  exact round_is .positive positive (by omega) value' (by omega) least most low high

/-- The quotient of two positive numbers. -/
theorem div_is {num den : Nat} {unit : Int} (is : Is .positive x v) (is' : Is .positive y w)
    (positive : 0 < den) (value : v / w = num / den * 2 ^ unit)
    (least : 2 ^ 52 * den ≤ num) (most : num < 2 ^ 53 * den)
    (low : -1073 ≤ unit) (high : unit ≤ 970) :
    Is .positive (UnpackedFloat.div .binary64 x y) (nearest num den * 2 ^ unit) := by
  obtain ⟨mantissa, exponent, normal, rfl, rfl⟩ := is
  obtain ⟨mantissa', exponent', normal', rfl, rfl⟩ := is'
  obtain ⟨least₁, most₁⟩ := normal.bounds
  obtain ⟨least₂, most₂⟩ := normal'.bounds
  have denPos : (0 : ℚ) < den := by exact_mod_cast positive
  have denPos' : (0 : ℚ) < mantissa' := by exact_mod_cast normal'.pos
  have value' : ((mantissa * 2 ^ 53 : Nat) / mantissa' : ℚ) * 2 ^ (exponent - exponent' - 53) =
      num / den * 2 ^ unit := by
    rw [← value, zpow_sub₀ two_ne_zero, zpow_sub₀ two_ne_zero]
    push_cast
    field_simp
  have near : unit ≤ exponent - exponent' - 53 + 1 := by
    by_contra far
    have above : ((mantissa * 2 ^ 53 : Nat) / mantissa' : ℚ) < 2 ^ (54 : Int) := by
      rw [div_lt_iff₀ denPos']
      calc ((mantissa * 2 ^ 53 : Nat) : ℚ) < (2 ^ 53 * 2 ^ 53 : Nat) := by
            exact_mod_cast Nat.mul_lt_mul_of_pos_right most₁ (Nat.two_pow_pos 53)
        _ = 2 ^ (54 : Int) * ((2 ^ 52 : Nat) : ℚ) := by norm_num
        _ ≤ 2 ^ (54 : Int) * mantissa' := by gcongr
    have below : (2 : ℚ) ^ (52 : Int) ≤ num / den := by
      rw [le_div_iff₀ denPos]
      exact_mod_cast least
    have : (2 : ℚ) ^ (52 + unit) < 2 ^ (54 + (exponent - exponent' - 53)) := by
      calc (2 : ℚ) ^ (52 + unit) = 2 ^ (52 : Int) * 2 ^ unit := zpow_add₀ two_ne_zero ..
        _ ≤ num / den * 2 ^ unit := by gcongr
        _ = (mantissa * 2 ^ 53 : Nat) / mantissa' * 2 ^ (exponent - exponent' - 53) := value'.symm
        _ < 2 ^ (54 : Int) * 2 ^ (exponent - exponent' - 53) := by gcongr
        _ = 2 ^ (54 + (exponent - exponent' - 53)) := (zpow_add₀ two_ne_zero ..).symm
    have := (zpow_lt_zpow_iff_right₀ one_lt_two).mp this
    omega
  have core : divCore .binary64 mantissa exponent mantissa' exponent' =
      (mantissa * 2 ^ 53 / mantissa', exponent - exponent' - 53,
        accuracyOfFraction (mantissa * 2 ^ 53 % mantissa') mantissa') := by
    have target : min (exponent - exponent') (Format.binary64.targetExponent
        (totalExponent mantissa exponent - totalExponent mantissa' exponent')) =
          exponent - exponent' - 53 := by
      simp only [Format.targetExponent, totalExponent, Format.mantissaBits, Format.minExponent,
        normal.bits, normal'.bits]
      omega
    have amount : (exponent - exponent' - (exponent - exponent' - 53)).toNat = 53 := by omega
    rw [divCore, target, amount, Nat.shiftLeft_eq]
  rw [UnpackedFloat.div, core]
  refine rounded_is .positive positive normal'.pos value' ?_ least most (by omega) high
  rw [Nat.le_div_iff_mul_le normal'.pos]
  calc 2 ^ 52 * mantissa' ≤ 2 ^ 52 * 2 ^ 53 := Nat.mul_le_mul_left _ most₂.le
    _ ≤ mantissa * 2 ^ 53 := Nat.mul_le_mul_right _ least₁

/-- What truncation to an integer gives. -/
theorem toInt_of_is (is : Is .positive x magnitude) (least most : Int) :
    x.toInt least most = ⌊magnitude⌋ := by
  obtain ⟨mantissa, exponent, normal, rfl, rfl⟩ := is
  have whole : (UnpackedFloat.finite .positive mantissa exponent normal.pos).toInt least most =
      (mantissa * 2 ^ exponent.toNat / 2 ^ (-exponent).toNat : Nat) := by
    have unshifted : (0 - (exponent - exponent.toNat)).toNat = (-exponent).toNat := by omega
    simp only [toInt, roundToInt, decreaseExponent, shiftToExponent, shiftRight_exact,
      Nat.shiftLeft_eq, Int.sub_zero, unshifted]
    rfl
  rw [whole]
  rcases Int.le_total 0 exponent with up | down
  · obtain ⟨k, rfl⟩ := Int.eq_ofNat_of_zero_le up
    have still : (-(k : Int)).toNat = 0 := by omega
    rw [Int.toNat_natCast, still, Nat.pow_zero, Nat.div_one, zpow_natCast]
    exact_mod_cast (Int.floor_natCast (mantissa * 2 ^ k)).symm
  · obtain ⟨k, downBy⟩ := Int.eq_ofNat_of_zero_le (Int.neg_nonneg_of_nonpos down)
    obtain rfl : exponent = -k := by omega
    have still : (-(k : Int)).toNat = 0 := by omega
    have ratio : (mantissa : ℚ) * 2 ^ (-(k : Int)) = mantissa / (2 ^ k : Nat) := by
      rw [zpow_neg, zpow_natCast, div_eq_mul_inv]
      push_cast
      rfl
    rw [still, neg_neg, Int.toNat_natCast, Nat.pow_zero, Nat.mul_one, ratio,
      Rat.floor_natCast_div_natCast]
    push_cast
    rfl

end NetGraphz.Binary64
