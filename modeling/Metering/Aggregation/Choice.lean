import Metering.Aggregation.Aggregator
import Metering.Instrument.Basic

/-!
# Choosing an aggregation

What a view or an exporter asks for, and the algorithm it comes down to for a given instrument.
-/

namespace Metering

/-- A requested aggregation. -/
inductive Aggregation (α : Type) where
  /-- Whatever suits the kind of instrument. -/
  | suited
  /-- No stream at all. -/
  | drop
  | sum
  | lastValue
  | histogram (bounds : List α) (extremes : Bool)

namespace Aggregation

variable {α : Type} [Quantity α]

/-- The bounds of a histogram for which nobody gave any. -/
def standardBounds : List α :=
  [0, 5, 10, 25, 50, 75, 100, 250, 500, 750, 1000, 2500, 5000, 7500, 10000].map Quantity.ofNat

/-- Refuses a histogram with invalid bounds. -/
def check : Aggregation α → Except (Error α) Unit
  | histogram bounds _ => Instrument.checkBounds bounds
  | _ => .ok ()

/-- The aggregator that suits an instrument's kind; a histogram takes the advised bounds. -/
def suitedTo (i : Instrument α) : Aggregator α :=
  match i.identity.kind with
  | .counter | .asynchronousCounter => .sum true
  | .upDownCounter | .asynchronousUpDownCounter => .sum false
  | .histogram => .histogram { bounds := i.advice.bounds.getD standardBounds, extremes := true }
  | .gauge | .asynchronousGauge => .lastValue

/-- The aggregator a request comes down to, or none when measurements are to be dropped. Observations are already
totals, so asynchronous instruments take no explicit histogram. -/
def resolve (i : Instrument α) : Aggregation α → Except (Error α) (Option (Aggregator α))
  | suited => .ok (some (suitedTo i))
  | drop => .ok none
  | sum => .ok (some (.sum i.identity.kind.isMonotonic))
  | lastValue => .ok (some .lastValue)
  | histogram bounds extremes =>
    if i.identity.kind.isAsynchronous then
      .error (.incompatibleKind "explicit_bucket_histogram" i.identity.kind)
    else .ok (some (.histogram { bounds, extremes }))

end Aggregation

end Metering
