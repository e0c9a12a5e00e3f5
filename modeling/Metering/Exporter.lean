import Metering.Aggregation.Choice

/-!
# Exporters

What a reader hands its batches to. When a stream is to be opened the exporter is asked which temporality it wants
for the instrument, if any, and which aggregation suits the kind; afterwards it takes batches, flushes and shuts
down, and says each time whether that went well.
-/

namespace Metering

/-- How an exporter treats the batches it accepts. -/
inductive ExporterForm where
  /-- Batches are kept. -/
  | memory
  /-- Every point is written to the log. -/
  | logging
  /-- Answers follow a script. -/
  | scripted
  deriving DecidableEq

/-- An exporter: how it answers, and what it has taken so far. An export is answered by its number; every other question
has one answer, whenever it is put. -/
structure Exporter (α : Type) where
  form : ExporterForm
  temporality : InstrumentKey → Option Temporality
  aggregation : Kind → Aggregation α
  /-- Whether the export with this number, counted from zero, is accepted. -/
  accepts : Nat → Bool
  flushes : Bool
  shutsDown : Bool
  /-- How many batches it has been handed. -/
  exports : Nat
  /-- The batches kept in memory. -/
  kept : List (List (Metric α))

/-- A call made to an exporter. -/
inductive ExporterCall (α : Type) where
  | temporality (key : InstrumentKey)
  | aggregation (kind : Kind)
  | deliver (batch : List (Metric α))
  | flush
  | shutdown

namespace Exporter

variable {α : Type}

/-- An exporter that wants one temporality for every instrument, leaves aggregations to the kinds, and never
fails. -/
def reliable (form : ExporterForm) (t : Temporality) : Exporter α :=
  { form
    temporality := fun _ => some t
    aggregation := fun _ => .suited
    accepts := fun _ => true
    flushes := true
    shutsDown := true
    exports := 0
    kept := [] }

/-- An exporter that keeps its batches. -/
def memory (t : Temporality) : Exporter α := reliable .memory t

/-- An exporter that writes every point to the log. -/
def logging (t : Temporality) : Exporter α := reliable .logging t

/-! ## Scripts -/

/-- The answers of a scripted exporter. -/
structure Script (α : Type) where
  /-- Temporalities by instrument name, which come before those by kind. -/
  byName : List (String × Option Temporality)
  byKind : List (Kind × Option Temporality)
  otherwise : Option Temporality
  aggregations : List (Kind × Aggregation α)
  /-- Answers to exports in turn; the last one repeats. -/
  accepts : List Bool
  flushes : Bool
  shutsDown : Bool

/-- An exporter that answers as its script says: an export that the script has no answer for is accepted. -/
def scripted (s : Script α) : Exporter α :=
  { form := .scripted
    temporality := fun key =>
      ((s.byName.lookup key.identity.name).or (s.byKind.lookup key.identity.kind)).getD s.otherwise
    aggregation := fun kind => (s.aggregations.lookup kind).getD .suited
    accepts := fun n => (s.accepts[n]?.or s.accepts.getLast?).getD true
    flushes := s.flushes
    shutsDown := s.shutsDown
    exports := 0
    kept := [] }

/-! ## Taking batches -/

/-- The exporter after taking a batch, with its answer. -/
def deliver (e : Exporter α) (batch : List (Metric α)) : Bool × Exporter α :=
  (e.accepts e.exports,
   { e with
     exports := e.exports + 1
     kept := match e.form with
       | .memory => e.kept ++ [batch]
       | .logging | .scripted => e.kept })

/-- The exporter with nothing kept. -/
def emptied (e : Exporter α) : Exporter α := { e with kept := [] }

/-- The length of the last batch kept. -/
def lastLength (e : Exporter α) : Option Nat := e.kept.getLast?.map (·.length)

end Exporter

end Metering
