import Metering.Exemplar
import Metering.Scope

/-!
# Collected data

What a collection hands to an exporter: a batch of metrics, each with the points of its series.
-/

namespace Metering

/-- Whether points cover everything since the start, or the time since the last collection. -/
inductive Temporality where
  | cumulative
  | delta
  deriving DecidableEq, Repr, Inhabited

/-- The name of the temporality. -/
def Temporality.name : Temporality → String
  | .cumulative => "Cumulative"
  | .delta => "Delta"

/-- A series summarised by one number. -/
structure NumberPoint (α : Type) where
  attributes : Attributes
  start : Time
  time : Time
  value : α
  exemplars : List (Exemplar α)
  deriving DecidableEq

/-- A series summarised by a histogram. -/
structure HistogramPoint (α : Type) where
  attributes : Attributes
  start : Time
  time : Time
  count : Nat
  sum : α
  min : Option α
  max : Option α
  buckets : List Nat
  bounds : List α
  exemplars : List (Exemplar α)
  deriving DecidableEq

/-- The points of one metric. -/
inductive Data (α : Type) where
  | sum (points : List (NumberPoint α)) (temporality : Temporality) (monotonic : Bool)
  | histogram (points : List (HistogramPoint α)) (temporality : Temporality)
  | gauge (points : List (NumberPoint α))
  deriving DecidableEq

namespace Data

variable {α : Type}

/-- How many points there are. -/
def length : Data α → Nat
  | sum points _ _ => points.length
  | histogram points _ => points.length
  | gauge points => points.length

/-- Whether there is no point at all. -/
def isEmpty (d : Data α) : Bool := d.length == 0

/-- The points in the order of their attribute sets; points with equal sets keep their order. -/
def sorted : Data α → Data α
  | sum points t m => sum (points.mergeSort fun a b => compare a.attributes b.attributes != .gt) t m
  | histogram points t => histogram (points.mergeSort fun a b => compare a.attributes b.attributes != .gt) t
  | gauge points => gauge (points.mergeSort fun a b => compare a.attributes b.attributes != .gt)

end Data

/-- An exported stream with its data. -/
structure Metric (α : Type) where
  scope : Scope
  resource : Resource
  name : String
  unit : Option String
  description : Option String
  data : Data α

end Metering
