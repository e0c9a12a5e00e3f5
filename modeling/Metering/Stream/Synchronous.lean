import Metering.Stream.Settings

/-!
# Synchronous streams

A stream that measurements are written to. Its series accumulate from the start of the stream whatever its
temporality; a delta collection reports what each series gained since the summary it left in the baseline, for the
series that were written to in between.
-/

namespace Metering

/-- One series: its summary so far, its reservoir, and whether it was written to since the last collection. -/
structure Series (α σ : Type) where
  summary : σ
  reservoir : Option (Reservoir α)
  touched : Bool

/-- A synchronous stream. -/
structure SynchronousStream (α : Type) where
  settings : StreamSettings α
  series : Table Attributes (Series α settings.Summary)
  /-- The summaries as of the last delta collection that reported them. -/
  baseline : Table Attributes settings.Summary
  lastCollect : Time

namespace Series

variable {α : Type}

/-- A series that nothing has been written to. -/
def empty [Quantity α] (c : StreamSettings α) : Series α c.Summary :=
  { summary := c.aggregator.empty, reservoir := c.reservoir.map Reservoir.empty, touched := false }

/-- The series after one more measurement, which is also offered to the reservoir. -/
def record [Quantity α] (c : StreamSettings α) (s : Series α c.Summary) (draw : Nat) (value : α)
    (dropped : List Attribute) (time : Time) : Series α c.Summary :=
  { summary := c.aggregator.record s.summary value time
    reservoir := s.reservoir.map (·.offer draw ⟨value, time, dropped⟩)
    touched := true }

/-- The exemplars sampled since the last collection. -/
def exemplars {σ : Type} (s : Series α σ) : List (Exemplar α) :=
  match s.reservoir with
  | some r => r.collect.1
  | none => []

/-- The series after a collection that reported it. -/
def collected {σ : Type} (s : Series α σ) : Series α σ :=
  { s with reservoir := s.reservoir.map (·.collect.2), touched := false }

end Series

namespace SynchronousStream

variable {α : Type}

/-- A stream that nothing has been written to. -/
def opened (c : StreamSettings α) : SynchronousStream α :=
  { settings := c, series := Table.empty, baseline := Table.empty, lastCollect := c.start }

variable [Quantity α]

/-- Writes a measurement to the series of the attributes that the stream keeps. -/
def record (s : SynchronousStream α) (draw : Nat) (value : α) (attributes : Attributes) (time : Time) :
    SynchronousStream α :=
  let split := AttributeFilter.applyOptional s.settings.filter attributes
  { s with
    series := s.series.update split.1 fun found =>
      (found.getD (Series.empty s.settings)).record s.settings draw value split.2 time }

/-- Whether a collection reports the series. -/
def reports (s : SynchronousStream α) (e : Series α s.settings.Summary) : Bool :=
  match s.settings.temporality with
  | .cumulative => true
  | .delta => e.touched

/-- What a collection says about one series. -/
def accumulation (s : SynchronousStream α) (e : Attributes × Series α s.settings.Summary) :
    Aggregator.Accumulation α s.settings.Summary :=
  { attributes := e.1
    summary := match s.settings.temporality with
      | .cumulative => e.2.summary
      | .delta => s.settings.since s.baseline e.1 e.2.summary
    exemplars := e.2.exemplars }

/-- The series that a collection reports, in the order in which they began. -/
def reported (s : SynchronousStream α) : List (Attributes × Series α s.settings.Summary) :=
  s.series.entries.filter fun e => s.reports e.2

/-- The data of the stream at a time. -/
def data (s : SynchronousStream α) (time : Time) : Data α :=
  s.settings.aggregator.toData (s.reported.map s.accumulation) (s.settings.windowStart s.lastCollect) time
    s.settings.temporality

/-- The stream after a collection. -/
def collected (s : SynchronousStream α) (time : Time) : SynchronousStream α :=
  { s with
    series := s.series.mapValues fun e => if s.reports e then e.collected else e
    baseline := match s.settings.temporality with
      | .cumulative => s.baseline
      -- A series that is not reported keeps its place and its summary there.
      | .delta => s.baseline.insertAll (s.reported.map fun e => (e.1, e.2.summary))
    lastCollect := time }

end SynchronousStream

end Metering
