import Metering.Aggregation.Histogram
import Metering.Aggregation.LastValue
import Metering.Data

/-!
# Aggregators

The algorithms that turn the measurements of a series into a summary. An aggregator starts from an empty summary,
records measurements one at a time, merges the summaries of two sets of measurements, and takes the difference of a
summary and an earlier one of the same series. Each has summaries of a type of its own.
-/

namespace Metering

/-- An aggregation algorithm. -/
inductive Aggregator (α : Type) where
  | sum (monotonic : Bool)
  | lastValue
  | histogram (h : Histogram α)
  deriving DecidableEq

namespace Aggregator

variable {α : Type}

/-- What the algorithm knows of a series. -/
@[reducible]
def Summary : Aggregator α → Type
  | sum _ => α
  | lastValue => LastValue.Summary α
  | histogram _ => Histogram.Summary α

variable [Quantity α]

/-- The summary of no measurement. -/
def empty : (a : Aggregator α) → a.Summary
  | sum _ => (0 : α)
  | lastValue => none
  | histogram h => h.empty

/-- Adds one measurement to a summary. -/
def record : (a : Aggregator α) → a.Summary → α → Time → a.Summary
  | sum _, s, v, _ => (s + v : α)
  | lastValue, s, v, time => LastValue.record s v time
  | histogram h, s, v, _ => h.record s v

/-- The summary of the measurements of two summaries, the left one's first. -/
def merge : (a : Aggregator α) → a.Summary → a.Summary → a.Summary
  | sum _, s, t => (s + t : α)
  | lastValue, s, t => LastValue.merge s t
  | histogram _, s, t => Histogram.merge s t

/-- The summary of the window between an earlier summary and the current one. A last value has no difference: it is
reported as it is. -/
def diff : (a : Aggregator α) → a.Summary → a.Summary → a.Summary
  | sum _, current, previous => (current - previous : α)
  | lastValue, current, _ => current
  | histogram _, current, previous => Histogram.diff current previous

/-! ## Points -/

/-- The summary of one series, ready to become a point. -/
structure Accumulation (α σ : Type) where
  attributes : Attributes
  summary : σ
  exemplars : List (Exemplar α)

/-- The point of a series that is summarised by one number. -/
def numberPoint {σ : Type} (start time : Time) (acc : Accumulation α σ) (value : α) : NumberPoint α :=
  { attributes := acc.attributes, start, time, value, exemplars := acc.exemplars }

/-- The point of a histogram series, which shows its extremes if the histogram says so. -/
def histogramPoint (h : Histogram α) (start time : Time) (acc : Accumulation α (Histogram.Summary α)) :
    HistogramPoint α :=
  { attributes := acc.attributes
    start, time
    count := acc.summary.count
    sum := acc.summary.sum
    min := if h.extremes then acc.summary.min else none
    max := if h.extremes then acc.summary.max else none
    buckets := acc.summary.buckets
    bounds := h.bounds
    exemplars := acc.exemplars }

/-- The points of the series, in their order. A histogram that counted nothing and a last value that is missing give
no point. -/
def toData : (a : Aggregator α) → List (Accumulation α a.Summary) → (start time : Time) → Temporality → Data α
  | sum monotonic, accs, start, time, temporality =>
    .sum (accs.map fun acc => numberPoint start time acc acc.summary) temporality monotonic
  | lastValue, accs, start, time, _ =>
    .gauge (accs.filterMap fun acc => acc.summary.map fun sample => numberPoint start time acc sample.1)
  | histogram h, accs, start, time, temporality =>
    .histogram ((accs.filter fun acc => 0 < acc.summary.count).map (histogramPoint h start time)) temporality

end Aggregator

end Metering
