import Mathlib

/-! The numbers of JavaScript, as far as pictures are computed with them: the
doubles, and any other arithmetic a formula is to be read over. -/
namespace NetGraphz

/-- What rounding gives: a whole number, or what there is no rounding of. -/
inductive Whole where
  | number (value : Int)
  | nan
  | infinity (negative : Bool)
  deriving DecidableEq

/-- The text of a rounded number, below the size at which exponents appear. -/
def Whole.text : Whole → String
  | .number value => toString value
  | .nan => "NaN"
  | .infinity negative => if negative then "-Infinity" else "Infinity"

/-- An arithmetic. `less` and `equal` are the operators, false for NaN. -/
class JsNumber (R : Type u) extends Add R, Sub R, Mul R, Div R where
  ofWhole : Whole → R
  less : R → R → Bool
  equal : R → R → Bool
  isNaN : R → Bool
  floor : R → Whole
  round : R → Whole

namespace JsNumber
variable [JsNumber R]

/-- A whole literal. -/
def lit (value : Int) : R := ofWhole (.number value)

/-- The number counts as true. -/
def truthy (x : R) : Bool := !(isNaN x || equal x (lit 0))

/-- `Math.min`. -/
def min (x y : R) : R := if isNaN x then x else if isNaN y then y else if less y x then y else x

/-- `Math.max`. -/
def max (x y : R) : R := if isNaN x then x else if isNaN y then y else if less x y then y else x

end JsNumber

open Float.Model UnpackedFloat in
/-- The whole number at or below `±mantissa · 2 ^ exponent`, to which none or one
half is added first. -/
def floorOfFinite (sign : Sign) (mantissa : Nat) (exponent : Int) (halves : Int) : Int :=
  if 0 ≤ exponent then sign.apply mantissa * 2 ^ exponent.toNat
  else
    let unit : Int := 2 ^ (-exponent).toNat
    (2 * sign.apply mantissa + halves * unit) / (2 * unit)

open Float.Model UnpackedFloat in
/-- `Math.floor`, or with one half `Math.round`. -/
def floorAfter (halves : Int) (x : Float.Model) : Whole :=
  match x.unpack with
  | .infinity sign => .infinity (sign.apply 1 < 0)
  | .notANumber => .nan
  | .zero _ => .number 0
  | .finite sign mantissa exponent _ => .number (floorOfFinite sign mantissa exponent halves)

instance : JsNumber Float.Model where
  ofWhole
    | .number value => .ofInt value
    | .nan => .ofInt 0 / .ofInt 0
    | .infinity negative => .ofInt (if negative then -1 else 1) / .ofInt 0
  less := Float.Model.lt
  equal := Float.Model.beq
  isNaN := Float.Model.isNaN
  floor := floorAfter 0
  round := floorAfter 1

end NetGraphz
