import NetGraphz.Base.GoTime

/-! Go's float conversions, over the IEEE formats that core Lean computes
with. Samples keep floats as bits, so each operation starts from them. -/
namespace NetGraphz.GoFloat
open Float.Model

/-- A number read in one format and rounded to another. -/
def reround (format : Format) : UnpackedFloat → UnpackedFloat
  | .finite sign mantissa exponent _ => .round format sign mantissa exponent
  | other => other

/-- `float64(x)` of a float32. -/
def float64OfFloat32 (x : Float32.Model) : Float.Model := pack (reround .binary64 x.unpack)

/-- `float32(x)` of a float64. -/
def float32OfFloat64 (x : Float.Model) : Float32.Model :=
  Float32.Model.pack (reround .binary32 x.unpack)

/-- `int64(x)` of a float64: towards zero, and what amd64 gives where the
result would not fit. -/
def int64OfFloat64 (x : Float.Model) : Int64 :=
  let whole := x.unpack.toInt (2 ^ 63) (2 ^ 63)
  if x.isNaN ∨ whole < -2 ^ 63 ∨ 2 ^ 63 ≤ whole then Int64.minValue else Int64.ofInt whole

/-- `time.Duration.Seconds`. -/
def seconds (d : Duration) : Float.Model :=
  let sec := d.tdiv 1000000000
  let nsec := d.tmod 1000000000
  Float.Model.ofInt sec + Float.Model.ofInt nsec / Float.Model.ofNat 1000000000

/-- `strconv.ParseFloat` to 32 bits, of digits with perhaps a point among them:
the float32 next to the number, and an error where there is none. -/
def parseFloat32 (text : List Char) : Except String Float32.Model :=
  let whole := text.takeWhile (· ≠ '.')
  let fraction := (text.dropWhile (· ≠ '.')).drop 1
  let value := Float32.Model.ofScientific (Nat.ofDigitChars 10 (whole ++ fraction) 0)
    (-fraction.length)
  if value.isInf then .error "value out of range" else .ok value

end NetGraphz.GoFloat
