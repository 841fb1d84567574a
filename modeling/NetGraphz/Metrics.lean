import Mathlib.Data.List.Sort
import NetGraphz.Base.GoFloat

/-! Metrics and their sampled values, the string that names a series in the
metric storage, and the rates derived from the values of a series. -/
namespace NetGraphz.Metrics
open GoFloat

/-- `MetricDataType`. -/
abbrev MetricDataType := Int16

def METRIC_GAUGE : MetricDataType := 0
def METRIC_DERIVE : MetricDataType := 1
def METRIC_COUNTER : MetricDataType := 2
def METRIC_ABSOLUTE : MetricDataType := 3

/-- What the getters of a `Metric` return. The criterias map is listed in the
order the loop over it happens to meet its entries. -/
structure Metric where
  getAppName : String
  getHost : String
  getCriterias : List (String × String)
  getMeasurementName : String
  getType : MetricDataType
  getDuration : Duration
  deriving DecidableEq

/-- The dynamic value of a sample; floats are their IEEE bits. -/
inductive Value where
  | int (v : Int64)
  | float32 (bits : UInt32)
  | float64 (bits : UInt64)
  | int32 (v : Int32)
  | int64 (v : Int64)
  | uint (v : UInt64)
  | uint32 (v : UInt32)
  | uint64 (v : UInt64)
  /-- a value of any other dynamic type: the type's name, and the bytes that
  `binary.Write` makes of it when the type has a fixed size -/
  | other (goType : String) (bytes : Option (List UInt8))
  deriving DecidableEq

/-- `reflect.TypeOf`, as the name `%T` prints. -/
def Value.typeOf : Value → String
  | .int _ => "int"
  | .float32 _ => "float32"
  | .float64 _ => "float64"
  | .int32 _ => "int32"
  | .int64 _ => "int64"
  | .uint _ => "uint"
  | .uint32 _ => "uint32"
  | .uint64 _ => "uint64"
  | .other goType _ => goType

/-- `MetricValue`; `ValueType` is the name of the reflected type. -/
structure MetricValue where
  name : String := ""
  time : Time := 0
  kind : MetricDataType := 0
  valueType : String := ""
  value : Value
  deriving DecidableEq

/-- `criterias[key]`. -/
def criteria (criterias : List (String × String)) (key : String) : String :=
  (criterias.lookup key).getD ""

/-- `GetMetricString`: application and series name, then the criterias by
sorted key. -/
def getMetricString (metric : Metric) : String :=
  let criterias := metric.getCriterias
  let criteriasKeys := (criterias.map Prod.fst).insertionSort (· ≤ ·)
  let appName := metric.getAppName
  let name := metric.getMeasurementName
  let tokens := (appName ++ "/" ++ name) ::
    criteriasKeys.map fun key => key ++ "=" ++ criteria criterias key
  String.intercalate ";" tokens

/-- The type switch of `DeriveMetricValues`: the distance of two samples,
subtracted in their own type. Samples of two types, or of a type without a
case, have none. -/
def deltaVal (curr prev : Value) : Option Float.Model :=
  match curr, prev with
  | .int curr, .int prev => some (Float.Model.ofInt64 (curr - prev)).abs
  | .float32 curr, .float32 prev =>
    some (float64OfFloat32 (Float32.Model.ofBits curr - Float32.Model.ofBits prev)).abs
  | .float64 curr, .float64 prev =>
    some (Float.Model.ofBits curr - Float.Model.ofBits prev).abs
  | .int32 curr, .int32 prev => some (Float.Model.ofInt32 (curr - prev)).abs
  | .int64 curr, .int64 prev => some (Float.Model.ofInt64 (curr - prev)).abs
  | .uint curr, .uint prev => some (Float.Model.ofUInt64 (curr - prev)).abs
  | .uint32 curr, .uint32 prev => some (Float.Model.ofUInt32 (curr - prev)).abs
  | .uint64 curr, .uint64 prev => some (Float.Model.ofUInt64 (curr - prev)).abs
  | _, _ => none

/-- One turn of its loop: the rate between a sample and the one before it. -/
def deriveStep (nonNegative : Bool) (prev curr : MetricValue) : Except String MetricValue :=
  let deltaT := prev.time.sub curr.time
  if prev.name ≠ curr.name then
    .error s!"Cannot dervie metric from different series. {prev.name} != {curr.name}"
  else if prev.value.typeOf ≠ curr.value.typeOf then .error "Inconsistant types detected"
  else
    match deltaVal curr.value prev.value with
    | none => .error s!"Unsupported value type for derivation {prev.value.typeOf}"
    | some deltaVal =>
      if deltaT < 5 * 1000000000 then .error "Time delta should be at least 5 seconds"
      else
        let value := int64OfFloat64 deltaVal / int64OfFloat64 (seconds deltaT)
        let value := if nonNegative ∧ value < 0 then 0 else value
        .ok { kind := METRIC_DERIVE, time := curr.time, value := .int64 value, valueType := "int64" }

/-- That loop, over the samples after the first. -/
def deriveLoop (nonNegative : Bool) (prev : MetricValue) :
    List MetricValue → Except String (List MetricValue)
  | [] => .ok []
  | curr :: rest => do
    let mval ← deriveStep nonNegative prev curr
    let derives ← deriveLoop nonNegative curr rest
    return mval :: derives

/-- `DeriveMetricValues`. An error comes with the slice as far as it is filled,
which the caller drops. -/
def deriveMetricValues (values : List MetricValue) (nonNegative : Bool) :
    Except String (List MetricValue) :=
  match values with
  | [] | [_] => .error "Size of values vector should be at least 2"
  | prev :: rest => deriveLoop nonNegative prev rest

end NetGraphz.Metrics
