import Mathlib.Data.Finmap
import NetGraphz.Base.GoMap
import NetGraphz.Base.GoSlice
import NetGraphz.Base.Heap
import NetGraphz.Base.Ring
import NetGraphz.Metrics

/-! The in-memory metric storage: one ring per metric string, reached through
the storage-wide map and through the map of the metric's host. -/
namespace NetGraphz.MemoryStorage
open Metrics

/-- `MemoryMetricRing`. -/
structure MemoryMetricRing where
  r : Ring MetricValue
  m : Metric

/-- `map[string]*MemoryMetricRing`. -/
abbrev RingMap := Finmap (fun _ : String => Ref)

/-- `MemoryMetricStorage`. Rings and the per-host maps are shared by
reference, so both live in heaps. -/
structure MemoryMetricStorage where
  capacity : Nat
  ringCells : Heap MemoryMetricRing
  hostMaps : Heap RingMap
  rings : RingMap
  hostRings : Finmap (fun _ : String => Ref)

/-- `newMemoryMetricRing`. -/
def newMemoryMetricRing (metric : Metric) (capacity : Nat) : MemoryMetricRing :=
  ⟨Ring.new capacity, metric⟩

/-- `NewMemoryStorage`. -/
def newMemoryStorage (capacity : Nat) : MemoryMetricStorage := ⟨capacity, {}, {}, ∅, ∅⟩

/-- The first locked section of `AddMetricValue`: the ring of an unknown
metric string is created and entered. -/
def enterRing (self : MemoryMetricStorage) (m : Metric) (found : Option Ref) :
    MemoryMetricStorage × Ref :=
  match found with
  | some mr => (self, mr)
  | none =>
    let (cells, mr) := self.ringCells.alloc (newMemoryMetricRing m self.capacity)
    ({ self with ringCells := cells, rings := self.rings.insert (getMetricString m) mr }, mr)

/-- The second one: the ring is entered under the host, in a new map when the
host had none. -/
def enterHost (self : MemoryMetricStorage) (m : Metric) (hostFound : Option Ref) (mr : Ref) :
    MemoryMetricStorage :=
  match hostFound with
  | none =>
    let (maps, hostEntry) := self.hostMaps.alloc ((∅ : RingMap).insert (getMetricString m) mr)
    { self with hostMaps := maps, hostRings := self.hostRings.insert m.getHost hostEntry }
  | some hr =>
    { self with hostMaps := self.hostMaps.modify hr (·.insert (getMetricString m) mr) }

/-- The section under the ring's own lock: a ring that was there already moves
on before the value is written. -/
def storeValue (self : MemoryMetricStorage) (found : Bool) (mr : Ref) (val : MetricValue) :
    MemoryMetricStorage :=
  { self with ringCells := self.ringCells.modify mr fun ring =>
      { ring with r := (if found then ring.r.next else ring.r).setValue val } }

/-- `AddMetricValue`, its sections run one after the other. -/
def addMetricValue (self : MemoryMetricStorage) (m : Metric) (val : MetricValue) :
    MemoryMetricStorage :=
  let found := self.rings.lookup (getMetricString m)
  let hostFound := self.hostRings.lookup m.getHost
  let (self, mr) := enterRing self m found
  let self := enterHost self m hostFound mr
  storeValue self found.isSome mr val

/-- `self.rings[GetMetricString(m)]`, dereferenced. -/
def ringOf (self : MemoryMetricStorage) (m : Metric) : Option MemoryMetricRing :=
  (self.rings.lookup (getMetricString m)).bind self.ringCells.read

/-- `CountValues`. -/
def countValues (self : MemoryMetricStorage) (m : Metric) : Except String Nat :=
  match ringOf self m with
  | none => .error "Cannot find metric"
  | some mr => .ok (mr.r.countBack self.capacity)

/-- The reading loop of `GetLastMetricValues`: it ends at an empty slot, or at
a value newer than the one before it. -/
def lastValuesLoop : (nGet : Nat) → Ring MetricValue → (lastTime : Time) → List MetricValue
  | 0, _, _ => []
  | nGet + 1, r, lastTime =>
    match r.value with
    | none => []
    | some value =>
      if lastTime < value.time then [] else value :: lastValuesLoop nGet r.prev value.time

/-- `GetLastMetricValues`, the clock reading `now` and no count negative. -/
def getLastMetricValues (now : Time) (self : MemoryMetricStorage) (m : Metric)
    (nSkip nGet : Nat) : Except String (List MetricValue) :=
  match ringOf self m with
  | none => .ok []
  | some mr =>
    let r := Ring.prev^[nSkip] mr.r
    let lastTime := match r.value with
      | some value => value.time
      | none => now
    .ok (lastValuesLoop nGet r lastTime)

/-- `GetLastMetricValue`; `none` is the zero `MetricValue` returned when there
is no value. -/
def getLastMetricValue (now : Time) (self : MemoryMetricStorage) (m : Metric) :
    Except String (Option MetricValue) := do
  let metrics ← getLastMetricValues now self m 0 1
  return metrics.head?

/-- The walk of `GetMetricValueByTimeRange`, `i` slots of `turns + i` visited.
At an empty slot the result is cut to that many elements; `none` if it cannot. -/
def timeRangeLoop (grow : Nat → Nat) (since stop : Time) : (turns i : Nat) → Ring MetricValue →
    GoSlice MetricValue → Option (GoSlice MetricValue)
  | 0, _, _, res => some res
  | turns + 1, i, r, res =>
    match r.value with
    | none => res.reslice i
    | some metricValue =>
      if metricValue.time < since then some res
      else
        let res :=
          if since < metricValue.time ∧ metricValue.time < stop then res.append grow metricValue
          else res
        timeRangeLoop grow since stop turns (i + 1) r.prev res

/-- What `GetMetricValueByTimeRange` comes to. An element of the values that was
never written is the zero `MetricValue`. -/
inductive RangeOutcome where
  | values (res : List (Option MetricValue))
  | error (message : String)
  /-- the runtime stops it: slice bounds out of range -/
  | outOfRange
  deriving DecidableEq

/-- `GetMetricValueByTimeRange`, the clock reading `now`; `grow` is how the
runtime enlarges slices. -/
def getMetricValueByTimeRange (grow : Nat → Nat) (now : Time) (self : MemoryMetricStorage)
    (m : Metric) (since : Time) (duration : Duration) : RangeOutcome :=
  let stop := since + duration
  if since < now then .error "Time start should be before current time"
  else
    match ringOf self m with
    | none => .values []
    | some mr =>
      match timeRangeLoop grow since stop self.capacity 0 mr.r .empty with
      | none => .outOfRange
      | some res => .values res.toList

/-! ## Which metrics there are -/

/-- The order in which a loop meets the entries of a map of rings. -/
abbrev RingOrder := GoMap.Order (fun _ : String => Ref)

/-- The metrics of the rings that a loop over a map meets. -/
def metricsOf (cells : Heap MemoryMetricRing) (entries : List (Sigma fun _ : String => Ref)) :
    List Metric :=
  entries.filterMap fun entry => (cells.read entry.2).map MemoryMetricRing.m

/-- `GetAllMetrics`. -/
def getAllMetrics (order : RingOrder) (self : MemoryMetricStorage) : List Metric :=
  metricsOf self.ringCells (order.entries self.rings)

/-- `CountMetrics`. -/
def countMetrics (self : MemoryMetricStorage) : Int32 := Int32.ofNat self.rings.entries.card

/-- `self.host_rings[host_name]`, dereferenced. -/
def hostMap (self : MemoryMetricStorage) (hostName : String) : Option RingMap :=
  (self.hostRings.lookup hostName).bind self.hostMaps.read

/-- `GetMetricsByHost`. -/
def getMetricsByHost (order : RingOrder) (self : MemoryMetricStorage) (hostName : String) :
    List Metric :=
  match hostMap self hostName with
  | none => []
  | some hostMap => metricsOf self.ringCells (order.entries hostMap)

end NetGraphz.MemoryStorage
