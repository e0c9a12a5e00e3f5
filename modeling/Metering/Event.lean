import Metering.Data
import Metering.Decimal.Layout

/-!
# Events

What is written to the log: measurements and observations that are dropped, callbacks and exports that fail, and,
from a logging exporter, every exported point.
-/

namespace Metering

/-! ## Causes -/

/-- Something worth a line in the log. -/
inductive Event (α : Type) where
  | droppedNaN (metric : String)
  | droppedDecrement (metric : String) (value : α)
  /-- An observation on an instrument that its callback was not registered for. -/
  | droppedOutsider (instrument : Nat)
  /-- A callback registered for instruments of which some are gone. -/
  | registeredStale (callback stale : Nat)
  | callbackPanicked (callback : Nat) (message : String)
  | callbackTimedOut (callback : Nat) (milliseconds : Nat)
  | exportFailed (metrics : Nat)
  | callbacksFailed (failures : Nat)

/-! ## Lines -/

/-- How much a line matters. -/
inductive LogLevel where
  | info
  | warn
  | error
  deriving DecidableEq

/-- The name of the level. -/
def LogLevel.name : LogLevel → String
  | .info => "INFO"
  | .warn => "WARN"
  | .error => "ERROR"

/-- The content of a field. -/
inductive LogField where
  | text (s : String)
  | natural (n : Nat)
  | real (x : Float)
  | boolean (b : Bool)

/-- A line of the log. -/
structure LogLine where
  level : LogLevel
  message : String
  fields : List (String × LogField)

namespace Event

/-- The line of an event. -/
def line : Event Float → LogLine
  | droppedNaN metric => ⟨.warn, "dropped NaN measurement", [("metric_name", .text metric)]⟩
  | droppedDecrement metric value =>
    ⟨.warn, "dropped negative counter increment", [("metric_name", .text metric), ("value", .real value)]⟩
  | droppedOutsider instrument =>
    ⟨.warn, "dropped observation for an instrument outside of the batch registration",
      [("instrument_id", .natural instrument)]⟩
  | registeredStale callback stale =>
    ⟨.warn, "registered observable callback against instruments that are already torn down",
      [("callback_id", .natural callback), ("stale", .natural stale)]⟩
  | callbackPanicked callback message =>
    ⟨.error, "observable callback panicked, its observations were discarded",
      [("callback_id", .natural callback), ("error", .text message)]⟩
  | callbackTimedOut callback milliseconds =>
    ⟨.error, "observable callback timed out, its observations were discarded",
      [("callback_id", .natural callback), ("timeout_ms", .natural milliseconds)]⟩
  | exportFailed metrics => ⟨.error, "failed to export metrics", [("metrics", .natural metrics)]⟩
  | callbacksFailed failures =>
    ⟨.error, "observable callbacks failed during collection", [("failures", .natural failures)]⟩

end Event

/-! ## Points as lines -/

namespace Metric

/-- The fields that every point of a metric shows. -/
def commonFields {α : Type} (m : Metric α) (attributes : Attributes) : List (String × LogField) :=
  [("metric_name", .text m.name), ("scope", .text m.scope.plain), ("unit", .text (m.unit.getD "")),
   ("attributes", .text attributes.plain)]

/-- An extreme as text. -/
def extremeText (x : Option Float) : String := Text.optional (x.map Decimal.Layout.literal.text)

/-- One line for every point. -/
def lines (m : Metric Float) : List LogLine :=
  match m.data with
  | .sum points temporality monotonic =>
    points.map fun p => ⟨.info, "sum", m.commonFields p.attributes ++
      [("temporality", .text temporality.name), ("monotonic", .boolean monotonic), ("value", .real p.value)]⟩
  | .gauge points =>
    points.map fun p => ⟨.info, "gauge", m.commonFields p.attributes ++ [("value", .real p.value)]⟩
  | .histogram points temporality =>
    points.map fun p => ⟨.info, "histogram", m.commonFields p.attributes ++
      [("temporality", .text temporality.name), ("count", .natural p.count), ("sum", .real p.sum),
       ("min", .text (extremeText p.min)), ("max", .text (extremeText p.max)),
       ("buckets", .text (Text.list (p.buckets.map toString)))]⟩

end Metric

end Metering
