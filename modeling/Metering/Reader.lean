import Metering.Callback
import Metering.Exporter
import Metering.Stream.Synchronous

/-!
# Readers

A reader owns streams, in the order in which they were registered, and the exporter that their data goes to. Once a
reader is closed it takes no further stream.
-/

namespace Metering

/-- Where the data of a stream comes from. -/
inductive Source (α : Type) where
  | synchronous (stream : SynchronousStream α)
  | asynchronous (stream : AsynchronousStream α) (observer : ObserverRef)

/-- A stream with what it is exported as. -/
structure RegisteredStream (α : Type) where
  scope : Scope
  resource : Resource
  name : String
  unit : Option String
  description : Option String
  source : Source α

/-- A reader. -/
structure Reader (α : Type) where
  exporter : Exporter α
  /-- How long a callback may take, in milliseconds. -/
  timeout : Nat
  streams : Table Nat (RegisteredStream α)
  nextStream : Nat
  closed : Bool
  /-- Whether the program still holds the reader itself. -/
  held : Bool

namespace RegisteredStream

variable {α : Type}

/-- The asynchronous instrument whose observations feed the stream, if they do. -/
def observer? (s : RegisteredStream α) : Option ObserverRef :=
  match s.source with
  | .synchronous _ => none
  | .asynchronous _ o => some o

/-- The stream with one more measurement; a stream that callbacks feed takes none. -/
def record [Quantity α] (s : RegisteredStream α) (draw : Nat) (value : α) (attributes : Attributes) (time : Time) :
    RegisteredStream α :=
  match s.source with
  | .synchronous stream => { s with source := .synchronous (stream.record draw value attributes time) }
  | .asynchronous _ _ => s

variable [Quantity α]

/-- The data of the stream at a time, given what was observed on each instrument. -/
def data (s : RegisteredStream α) (observed : Table Nat (Observations α)) (time : Time) : Data α :=
  match s.source with
  | .synchronous stream => stream.data time
  | .asynchronous stream observer => stream.data ((observed.find? observer.number).getD Table.empty) time

/-- The stream after a collection. -/
def collected (s : RegisteredStream α) (observed : Table Nat (Observations α)) (time : Time) : RegisteredStream α :=
  match s.source with
  | .synchronous stream => { s with source := .synchronous (stream.collected time) }
  | .asynchronous stream observer =>
    { s with
      source := .asynchronous
        (stream.collected ((observed.find? observer.number).getD Table.empty) time) observer }

/-- The metric that a collection exports for the stream, unless there is no data. -/
def metric? (s : RegisteredStream α) (observed : Table Nat (Observations α)) (time : Time) : Option (Metric α) :=
  let data := s.data observed time
  if data.isEmpty then none
  else some
    { scope := s.scope
      resource := s.resource
      name := s.name
      unit := s.unit
      description := s.description
      data }

end RegisteredStream

namespace Reader

variable {α : Type}

/-- A reader without streams. -/
def opened (exporter : Exporter α) (timeout : Nat) : Reader α :=
  { exporter, timeout, streams := Table.empty, nextStream := 0, closed := false, held := true }

/-- Takes a stream under the next number, unless the reader is closed. -/
def register (r : Reader α) (s : RegisteredStream α) : Option Nat × Reader α :=
  if r.closed then (none, r)
  else (some r.nextStream,
    { r with streams := r.streams.insert r.nextStream s, nextStream := r.nextStream + 1 })

/-- Lets go of a stream. -/
def unregister (r : Reader α) (stream : Nat) : Reader α := { r with streams := r.streams.erase stream }

/-- The reader with one more measurement in a stream. -/
def record [Quantity α] (r : Reader α) (stream draw : Nat) (value : α) (attributes : Attributes) (time : Time) :
    Reader α :=
  { r with streams := r.streams.modify stream fun s => s.record draw value attributes time }

/-- The asynchronous instruments that streams of the reader wait for, by provider; providers are in the order of
their first such stream. -/
def wanted (r : Reader α) : Table Nat (List Nat) :=
  (r.streams.values.filterMap (·.observer?)).foldl
    (fun t o => t.update o.provider fun found => (found.getD []) ++ [o.number]) Table.empty

variable [Quantity α]

/-- The batch of a collection: the metrics of all streams that have data, in the order of registration. -/
def batch (r : Reader α) (observed : Table Nat (Observations α)) (time : Time) : List (Metric α) :=
  r.streams.values.filterMap fun s => s.metric? observed time

/-- The reader after a collection. -/
def collected (r : Reader α) (observed : Table Nat (Observations α)) (time : Time) : Reader α :=
  { r with streams := r.streams.mapValues fun s => s.collected observed time }

end Reader

end Metering
