/-!
# Kinds of instruments

Synchronous instruments are written to by the program as it runs; asynchronous ones are read by callbacks when a
reader collects.
-/

namespace Metering

/-- The kind of an instrument. -/
inductive Kind where
  | counter
  | upDownCounter
  | histogram
  | gauge
  | asynchronousCounter
  | asynchronousUpDownCounter
  | asynchronousGauge
  deriving DecidableEq, Repr, Inhabited

namespace Kind

/-- Whether callbacks supply the measurements. -/
def isAsynchronous : Kind → Bool
  | counter | upDownCounter | histogram | gauge => false
  | asynchronousCounter | asynchronousUpDownCounter | asynchronousGauge => true

/-- Whether a sum over the measurements is taken to grow only. -/
def isMonotonic : Kind → Bool
  | counter | histogram | asynchronousCounter => true
  | upDownCounter | gauge | asynchronousUpDownCounter | asynchronousGauge => false

/-- Every kind. -/
def all : List Kind :=
  [counter, upDownCounter, histogram, gauge,
   asynchronousCounter, asynchronousUpDownCounter, asynchronousGauge]

/-- The name of the kind. -/
def name : Kind → String
  | counter => "Counter"
  | upDownCounter => "UpDownCounter"
  | histogram => "Histogram"
  | gauge => "Gauge"
  | asynchronousCounter => "AsynchronousCounter"
  | asynchronousUpDownCounter => "AsynchronousUpDownCounter"
  | asynchronousGauge => "AsynchronousGauge"

/-- The name of a handle on an instrument of the kind. -/
def handleName : Kind → String
  | asynchronousCounter => "ObservableCounter"
  | asynchronousUpDownCounter => "ObservableUpDownCounter"
  | asynchronousGauge => "ObservableGauge"
  | k => k.name

end Kind

end Metering
