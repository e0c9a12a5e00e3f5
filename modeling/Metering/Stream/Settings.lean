import Metering.Aggregation.Aggregator
import Metering.Table

/-!
# Stream settings

What is fixed when a stream is opened: how it aggregates, which attributes it keeps, what it samples, what its points
cover, and when it began.
-/

namespace Metering

/-- The settings of a stream. -/
structure StreamSettings (α : Type) where
  aggregator : Aggregator α
  filter : Option AttributeFilter
  /-- The size of each series' exemplar reservoir, if exemplars are sampled. -/
  reservoir : Option Nat
  temporality : Temporality
  start : Time

/-- The summaries of a stream's series. -/
abbrev StreamSettings.Summary {α : Type} (c : StreamSettings α) : Type := c.aggregator.Summary

/-- The beginning of the window that a collection reports. -/
def StreamSettings.windowStart {α : Type} (c : StreamSettings α) (lastCollect : Time) : Time :=
  match c.temporality with
  | .cumulative => c.start
  | .delta => lastCollect

/-- The difference of a summary and the one that the baseline has for the same series, if it has one. -/
def StreamSettings.since {α : Type} [Quantity α] (c : StreamSettings α) (baseline : Table Attributes c.Summary)
    (attributes : Attributes) (current : c.Summary) : c.Summary :=
  match baseline.find? attributes with
  | some previous => c.aggregator.diff current previous
  | none => current

end Metering
