import Metering.Stream.Settings

/-!
# Asynchronous streams

A stream that is handed the observations of each collection pass. Observations are totals already, so a cumulative
stream reports them as they are, and a delta stream reports what changed since the pass before; a series that the
pass before did not see counts from nothing.
-/

namespace Metering

/-- What callbacks observed on one instrument in one pass, by attribute set. -/
abbrev Observations (α : Type) := Table Attributes α

/-- An asynchronous stream. -/
structure AsynchronousStream (α : Type) where
  settings : StreamSettings α
  /-- The summaries of the last pass. -/
  baseline : Table Attributes settings.Summary
  lastCollect : Time

namespace AsynchronousStream

variable {α : Type}

/-- A stream that has seen no pass. -/
def opened (c : StreamSettings α) : AsynchronousStream α :=
  { settings := c, baseline := Table.empty, lastCollect := c.start }

variable [Quantity α]

/-- The summaries of a pass: observations whose kept attributes coincide are recorded into one series. -/
def aggregate (c : StreamSettings α) (observations : Observations α) (time : Time) : Table Attributes c.Summary :=
  observations.entries.foldl
    (fun summaries e =>
      summaries.update (AttributeFilter.applyOptional c.filter e.1).1 fun found =>
        c.aggregator.record (found.getD c.aggregator.empty) e.2 time)
    Table.empty

/-- What a collection says about one series. -/
def accumulation (s : AsynchronousStream α) (e : Attributes × s.settings.Summary) :
    Aggregator.Accumulation α s.settings.Summary :=
  { attributes := e.1
    summary := match s.settings.temporality with
      | .cumulative => e.2
      | .delta => s.settings.since s.baseline e.1 e.2
    exemplars := [] }

/-- The data of the stream for a pass. -/
def data (s : AsynchronousStream α) (observations : Observations α) (time : Time) : Data α :=
  s.settings.aggregator.toData ((aggregate s.settings observations time).entries.map s.accumulation)
    (s.settings.windowStart s.lastCollect) time s.settings.temporality

/-- The stream after a pass: series that the pass did not see leave the baseline. -/
def collected (s : AsynchronousStream α) (observations : Observations α) (time : Time) : AsynchronousStream α :=
  { s with
    baseline := match s.settings.temporality with
      | .cumulative => s.baseline
      | .delta => aggregate s.settings observations time
    lastCollect := time }

end AsynchronousStream

end Metering
