import Mathlib.Algebra.Order.Round
import Mathlib.Data.Rat.Floor
import Mathlib.Tactic.IntervalCases
import Mathlib.Tactic.Linarith
import NetGraphz.GraphRenderer

/-! The colors of the load of a link, computed exactly: the renderer's conversion
against the standard one, in which a full turn of the hue is no turn. -/
namespace NetGraphz.HsvColors
open GraphRenderer JsNumber

/-- Exact arithmetic, where nothing is infinite or no number. -/
instance : JsNumber ℚ where
  ofWhole
    | .number value => value
    | _ => 0
  less x y := x < y
  equal x y := x = y
  isNaN _ := false
  floor x := .number ⌊x⌋
  round x := .number ⌊x + 1 / 2⌋

/-! ## The standard conversion -/

/-- How far a component is below the value, in parts of the saturation, at so
many sixths of a turn from where it starts to go down. -/
def depth (k : ℚ) : ℚ := Max.max 0 (Min.min k (Min.min (4 - k) 1))

/-- The sixths of a turn, without whole turns. -/
def turned (x : ℚ) : ℚ := Int.fract (x / 6) * 6

/-- The depth at so many sixths of a turn. -/
def dip (x : ℚ) : ℚ := depth (turned x)

/-- A component of the color, by where in its round it is at the hue 0. -/
def component (n h s v : ℚ) : ℚ := v - v * s * dip (n + h / 60)

/-- A part of one as one of the numbers up to 255. -/
def level (x : ℚ) : Whole := .number ⌊x * 255 + 1 / 2⌋

/-- The standard conversion, scaled and rounded. -/
def standardRgb (h s v : ℚ) : List Whole :=
  [level (component 5 h (s / 100) (v / 100)), level (component 3 h (s / 100) (v / 100)),
    level (component 1 h (s / 100) (v / 100))]

/-! ## The arithmetic -/

theorem turned_of_lt {x : ℚ} (low : 0 ≤ x) (high : x < 6) : turned x = x := by
  have inside : Int.fract (x / 6) = x / 6 := Int.fract_eq_self.mpr ⟨by linarith, by linarith⟩
  rw [turned, inside]
  ring

/-- A full turn is no turn. -/
theorem dip_turn (x : ℚ) : dip (x + 6) = dip x := by
  have once : (x + 6) / 6 = x / 6 + 1 := by ring
  rw [dip, turned, once, Int.fract_add_one]
  rfl

theorem dip_rising {x : ℚ} (low : 0 ≤ x) (high : x ≤ 1) : dip x = x := by
  rw [dip, turned_of_lt low (by linarith), depth,
    min_eq_right (by linarith : (1 : ℚ) ≤ 4 - x), min_eq_left high, max_eq_right low]

theorem dip_full {x : ℚ} (low : 1 ≤ x) (high : x ≤ 3) : dip x = 1 := by
  rw [dip, turned_of_lt (by linarith) (by linarith), depth,
    min_eq_right (by linarith : (1 : ℚ) ≤ 4 - x), min_eq_right low, max_eq_right zero_le_one]

theorem dip_falling {x : ℚ} (low : 3 ≤ x) (high : x ≤ 4) : dip x = 4 - x := by
  rw [dip, turned_of_lt (by linarith) (by linarith), depth,
    min_eq_left (by linarith : 4 - x ≤ 1), min_eq_right (by linarith : 4 - x ≤ x),
    max_eq_right (by linarith)]

theorem dip_none {x : ℚ} (low : 4 ≤ x) (high : x < 6) : dip x = 0 := by
  rw [dip, turned_of_lt (by linarith) high, depth, min_eq_left (by linarith : 4 - x ≤ 1),
    min_eq_right (by linarith : 4 - x ≤ x), max_eq_left (by linarith)]

/-! ## The renderer's conversion -/

theorem clamp_of_mem (top : Int) {x : ℚ} (low : 0 ≤ x) (high : x ≤ top) :
    JsNumber.max (lit 0 : ℚ) (JsNumber.min (lit top) x) = x := by
  have upper : JsNumber.min (lit top : ℚ) x = x := by
    change (if decide (x < (top : ℚ)) = true then x else (top : ℚ)) = x
    by_cases below : x < (top : ℚ)
    · exact if_pos (decide_eq_true below)
    · exact (if_neg (by simpa using below)).trans (le_antisymm (not_lt.mp below) high)
  have lower : JsNumber.max (lit 0 : ℚ) x = x := by
    change (if decide (((0 : Int) : ℚ) < x) = true then x else ((0 : Int) : ℚ)) = x
    by_cases above : ((0 : Int) : ℚ) < x
    · exact if_pos (decide_eq_true above)
    · rw [if_neg (by simpa using above)]
      exact le_antisymm (by exact_mod_cast low) (not_lt.mp above)
  rw [upper, lower]

/-- The components of the sector a hue is in, before they are rounded. -/
def sector (i : Int) (f s v : ℚ) : List ℚ :=
  let p := v * (1 - s)
  let q := v * (1 - s * f)
  let t := v * (1 - s * (1 - f))
  match i with
  | 0 => [v, t, p]
  | 1 => [q, v, p]
  | 2 => [p, v, t]
  | 3 => [p, q, v]
  | 4 => [t, p, v]
  | _ => [v, p, q]

variable {h s v : ℚ}

theorem sector_other {i : Int} (other : ∀ j : Int, 0 ≤ j → j < 5 → i ≠ j) (f : ℚ) :
    sector i f s v = [v, v * (1 - s), v * (1 - s * f)] := by
  unfold sector
  split
  · exact absurd rfl (other 0 (by decide) (by decide))
  · exact absurd rfl (other 1 (by decide) (by decide))
  · exact absurd rfl (other 2 (by decide) (by decide))
  · exact absurd rfl (other 3 (by decide) (by decide))
  · exact absurd rfl (other 4 (by decide) (by decide))
  · rfl

/-- What `hsvToRgb` gives for arguments in their ranges. -/
theorem hsvToRgb_eq (hue : 0 ≤ h ∧ h ≤ 360) (saturation : 0 ≤ s ∧ s ≤ 100)
    (value : 0 ≤ v ∧ v ≤ 100) :
    hsvToRgb h s v =
      if s = 0 then [level (v / 100), level (v / 100), level (v / 100)]
      else (sector ⌊h / 60⌋ (h / 60 - ⌊h / 60⌋) (s / 100) (v / 100)).map level := by
  unfold hsvToRgb
  rw [clamp_of_mem 360 hue.1 (by exact_mod_cast hue.2),
    clamp_of_mem 100 saturation.1 (by exact_mod_cast saturation.2),
    clamp_of_mem 100 value.1 (by exact_mod_cast value.2)]
  have test : equal (s / lit 100) (lit 0 : ℚ) = decide (s = 0) := by
    change decide (s / ((100 : Int) : ℚ) = ((0 : Int) : ℚ)) = decide (s = 0)
    simp
  simp only [test, decide_eq_true_eq]
  by_cases grey : s = 0
  · rw [if_pos grey, if_pos grey]
    rfl
  · rw [if_neg grey, if_neg grey]
    have index {i : Int} (is : Whole.number ⌊h / ((60 : Int) : ℚ)⌋ = .number i) :
        sector ⌊h / 60⌋ = sector i := by
      injection is with same
      exact congrArg sector same
    have floors : JsNumber.floor (h / lit 60) = Whole.number ⌊h / ((60 : Int) : ℚ)⌋ := rfl
    simp only [floors]
    split
    · rw [index ‹_›]
      rfl
    · rw [index ‹_›]
      rfl
    · rw [index ‹_›]
      rfl
    · rw [index ‹_›]
      rfl
    · rw [index ‹_›]
      rfl
    · rename_i not0 not1 not2 not3 not4
      rw [sector_other]
      · rfl
      · intro j low high same
        interval_cases j
        · exact not0 (congrArg Whole.number same)
        · exact not1 (congrArg Whole.number same)
        · exact not2 (congrArg Whole.number same)
        · exact not3 (congrArg Whole.number same)
        · exact not4 (congrArg Whole.number same)

/-! ## Sector by sector -/

/-- How far a component is down after so many sixths of a turn and a part of one. -/
theorem dip_table {f : ℚ} (start : 0 ≤ f) (stop : f < 1) :
    dip (1 + f) = 1 ∧ dip (2 + f) = 1 ∧ dip (3 + f) = 1 - f ∧ dip (4 + f) = 0 ∧
      dip (5 + f) = 0 ∧ dip (6 + f) = f ∧ dip (7 + f) = 1 ∧ dip (8 + f) = 1 ∧
      dip (9 + f) = 1 - f ∧ dip (10 + f) = 0 := by
  have again (n : ℚ) : dip (n + 6 + f) = dip (n + f) := by
    rw [← dip_turn (n + f)]
    ring_nf
  have first : dip (1 + f) = 1 := dip_full (by linarith) (by linarith)
  have second : dip (2 + f) = 1 := dip_full (by linarith) (by linarith)
  have third : dip (3 + f) = 1 - f := by
    rw [dip_falling (by linarith) (by linarith)]
    ring
  have fourth : dip (4 + f) = 0 := dip_none (by linarith) (by linarith)
  have fifth : dip (5 + f) = 0 := dip_none (by linarith) (by linarith)
  have sixth : dip (6 + f) = f := by
    have turn := again 0
    norm_num at turn
    rw [turn, dip_rising start stop.le]
  have one := again 1
  have two := again 2
  have three := again 3
  have four := again 4
  norm_num at one two three four
  rw [one, two, three, four]
  exact ⟨first, second, third, fourth, fifth, sixth, first, second, third, fourth⟩

/-- In each sector the renderer has the standard components. -/
theorem sector_eq {i : Int} (low : 0 ≤ i) (high : i < 6) {f : ℚ} (start : 0 ≤ f)
    (stop : f < 1) (s v : ℚ) :
    sector i f s v = [5, 3, 1].map fun n : ℚ => v - v * s * dip (n + (i + f)) := by
  obtain ⟨one, two, three, four, five, six, seven, eight, nine, ten⟩ := dip_table start stop
  simp only [List.map_cons, List.map_nil, ← add_assoc]
  interval_cases i <;> norm_num [sector, one, two, three, four, five, six, seven, eight, nine, ten]
  all_goals exact ⟨by ring, by ring⟩

/-- The largest and the smallest component of the color round to one number. -/
def Dull (s v : ℚ) : Prop := level (v / 100) = level (v / 100 * (1 - s / 100))

/-- Of the hues short of a full turn. -/
theorem standard_of_lt (hue : 0 ≤ h ∧ h < 360) (saturation : 0 ≤ s ∧ s ≤ 100)
    (value : 0 ≤ v ∧ v ≤ 100) : hsvToRgb h s v = standardRgb h s v := by
  rw [hsvToRgb_eq ⟨hue.1, hue.2.le⟩ saturation value]
  by_cases grey : s = 0
  · simp [grey, standardRgb, component]
  · have low : 0 ≤ ⌊h / 60⌋ := Int.floor_nonneg.mpr (by linarith)
    have high : ⌊h / 60⌋ < 6 := Int.floor_lt.mpr (by norm_num; linarith)
    have start : 0 ≤ h / 60 - ⌊h / 60⌋ := sub_nonneg.mpr (Int.floor_le _)
    have stop : h / 60 - ⌊h / 60⌋ < 1 := by linarith [Int.lt_floor_add_one (h / 60)]
    rw [if_neg grey, sector_eq low high start stop]
    simp [standardRgb, component]

/-- Of a full turn. -/
theorem fullTurn_eq (saturation : 0 ≤ s ∧ s ≤ 100) (value : 0 ≤ v ∧ v ≤ 100) :
    hsvToRgb 360 s v = [level (v / 100), level (v / 100 * (1 - s / 100)), level (v / 100)] := by
  rw [hsvToRgb_eq ⟨by norm_num, le_refl _⟩ saturation value]
  by_cases grey : s = 0
  · simp [grey]
  · have six : ⌊(360 : ℚ) / 60⌋ = 6 := by norm_num
    rw [if_neg grey, six, sector_other (fun j _ below => by omega)]
    norm_num

/-- A full turn is no turn to the standard conversion. -/
theorem standard_fullTurn (s v : ℚ) : standardRgb 360 s v = standardRgb 0 s v := by
  have turn (n : ℚ) : component n 360 (s / 100) (v / 100) = component n 0 (s / 100) (v / 100) := by
    have once : n + 360 / 60 = n + 0 / 60 + 6 := by ring
    rw [component, once, dip_turn, component]
  rw [standardRgb, turn, turn, turn, standardRgb]

theorem standard_start (s v : ℚ) :
    standardRgb 0 s v = [level (v / 100), level (v / 100 * (1 - s / 100)),
      level (v / 100 * (1 - s / 100))] := by
  have red : dip 5 = 0 := dip_none (by norm_num) (by norm_num)
  have green : dip 3 = 1 := dip_full (by norm_num) le_rfl
  have blue : dip 1 = 1 := dip_full le_rfl (by norm_num)
  simp [standardRgb, component, red, green, blue, mul_sub]

/-- The ends of the circle agree on dull colors alone. -/
theorem ends_agree_iff (saturation : 0 ≤ s ∧ s ≤ 100) (value : 0 ≤ v ∧ v ≤ 100) :
    hsvToRgb 360 s v = hsvToRgb 0 s v ↔ Dull s v := by
  rw [fullTurn_eq saturation value, standard_of_lt ⟨le_rfl, by norm_num⟩ saturation value,
    standard_start]
  simp [Dull]

/-- The color is the standard one unless the turn is full and the color not dull. -/
theorem standard_iff (hue : 0 ≤ h ∧ h ≤ 360) (saturation : 0 ≤ s ∧ s ≤ 100)
    (value : 0 ≤ v ∧ v ≤ 100) :
    hsvToRgb h s v = standardRgb h s v ↔ h < 360 ∨ Dull s v := by
  rcases hue.2.lt_or_eq with short | full
  · simp [standard_of_lt ⟨hue.1, short⟩ saturation value, short]
  · subst full
    rw [standard_fullTurn, ← standard_of_lt ⟨le_rfl, by norm_num⟩ saturation value,
      ends_agree_iff saturation value]
    simp

/-! ## The range of the components -/

/-- The numbers of a component. -/
def InRange (c : Whole) : Prop := ∃ n : Int, c = .number n ∧ 0 ≤ n ∧ n ≤ 255

theorem level_inRange {x : ℚ} (low : 0 ≤ x) (high : x ≤ 1) : InRange (level x) := by
  refine ⟨_, rfl, Int.floor_nonneg.mpr (by linarith), ?_⟩
  exact Int.lt_add_one_iff.mp (Int.floor_lt.mpr (by push_cast; linarith))

theorem sector_mem {i : Int} {f : ℚ} (start : 0 ≤ f) (stop : f ≤ 1) (saturation : 0 ≤ s ∧ s ≤ 1)
    (value : 0 ≤ v ∧ v ≤ 1) : ∀ x ∈ sector i f s v, 0 ≤ x ∧ x ≤ 1 := by
  have part {d : ℚ} (low : 0 ≤ d) (high : d ≤ 1) : 0 ≤ v * (1 - s * d) ∧ v * (1 - s * d) ≤ 1 := by
    have product : s * d ≤ 1 := mul_le_one₀ saturation.2 low high
    have positive : 0 ≤ s * d := mul_nonneg saturation.1 low
    exact ⟨mul_nonneg value.1 (by linarith), mul_le_one₀ value.2 (by linarith) (by linarith)⟩
  have p := part zero_le_one le_rfl
  have q := part start stop
  have t := part (by linarith : 0 ≤ 1 - f) (by linarith)
  rw [mul_one] at p
  unfold sector
  split <;> simp [p, q, t, value]

theorem hsvToRgb_inRange (hue : 0 ≤ h ∧ h ≤ 360) (saturation : 0 ≤ s ∧ s ≤ 100)
    (value : 0 ≤ v ∧ v ≤ 100) : ∀ c ∈ hsvToRgb h s v, InRange c := by
  have part : 0 ≤ v / 100 ∧ v / 100 ≤ 1 := ⟨by linarith, by linarith⟩
  rw [hsvToRgb_eq hue saturation value]
  intro c member
  split at member
  · simp only [List.mem_cons, List.not_mem_nil, or_false, or_self] at member
    rw [member]
    exact level_inRange part.1 part.2
  · obtain ⟨x, inside, rfl⟩ := List.mem_map.mp member
    have start : 0 ≤ h / 60 - ⌊h / 60⌋ := sub_nonneg.mpr (Int.floor_le _)
    have stop : h / 60 - ⌊h / 60⌋ ≤ 1 := by linarith [Int.lt_floor_add_one (h / 60)]
    obtain ⟨low, high⟩ := sector_mem start stop ⟨by linarith, by linarith⟩ part x inside
    exact level_inRange low high

/-- The conversion is the standard one, into the numbers of a component, exactly
for a hue of less than a full turn or a dull color; and it has the same color at
both ends of the circle exactly if that is a dull one. -/
theorem conversion_iff (hue : 0 ≤ h ∧ h ≤ 360) (saturation : 0 ≤ s ∧ s ≤ 100)
    (value : 0 ≤ v ∧ v ≤ 100) :
    ((hsvToRgb h s v = standardRgb h s v ∧ ∀ c ∈ hsvToRgb h s v, InRange c) ↔
      h < 360 ∨ Dull s v) ∧
    (hsvToRgb 360 s v = hsvToRgb 0 s v ↔ Dull s v) := by
  refine ⟨?_, ends_agree_iff saturation value⟩
  rw [← standard_iff hue saturation value]
  exact and_iff_left (hsvToRgb_inRange hue saturation value)

/-- Violet converts as it should. -/
theorem violet_converted :
    hsvToRgb (300 : ℚ) 100 100 = standardRgb 300 100 100 ∧
      ∀ c ∈ hsvToRgb (300 : ℚ) 100 100, InRange c :=
  (conversion_iff (by norm_num) (by norm_num) (by norm_num)).1.mpr (Or.inl (by norm_num))

/-- A full turn makes magenta of red. -/
theorem red_turns_magenta :
    hsvToRgb (0 : ℚ) 100 100 = [.number 255, .number 0, .number 0] ∧
      hsvToRgb (360 : ℚ) 100 100 = [.number 255, .number 0, .number 255] ∧
      hsvToRgb (360 : ℚ) 100 100 ≠ standardRgb 360 100 100 := by
  have full : hsvToRgb (360 : ℚ) 100 100 = [.number 255, .number 0, .number 255] := by
    rw [fullTurn_eq (by norm_num) (by norm_num)]
    norm_num [level]
  have start : standardRgb 0 100 100 = [.number 255, .number 0, .number 0] := by
    rw [standard_start]
    norm_num [level]
  refine ⟨?_, full, ?_⟩
  · rw [standard_of_lt (by norm_num) (by norm_num) (by norm_num), start]
  · rw [full, standard_fullTurn, start]
    decide

end NetGraphz.HsvColors
