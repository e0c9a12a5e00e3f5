import Metering.Aggregation.Aggregator
import Metering.Table

/-!
# Worksheets

Calculations with the summaries of one aggregator, held in named registers.
-/

namespace Metering

/-- A line of a worksheet. The results of most lines go into a register; the last kind turns registers into data. -/
inductive WorksheetLine {α : Type} (a : Aggregator α) where
  | empty (target : String)
  | put (target : String) (summary : a.Summary)
  | record (target : String) (values : List α) (time : Time)
  | merge (target left right : String)
  | diff (target current previous : String)
  | data (rows : List (Aggregator.Accumulation α String)) (start time : Time) (temporality : Temporality)

/-- The result of a line. -/
inductive WorksheetResult {α : Type} (a : Aggregator α) where
  | summary (s : a.Summary)
  | data (d : Data α)

namespace Worksheet

variable {α : Type} [Quantity α] {a : Aggregator α}

/-- The summary in a register; a register that was never written is empty. -/
def read (registers : Table String a.Summary) (name : String) : a.Summary :=
  (registers.find? name).getD a.empty

/-- The register a line writes, with its new summary, or the data it gives. -/
def evaluate (registers : Table String a.Summary) : WorksheetLine a → (String × a.Summary) ⊕ Data α
  | .empty target => .inl (target, a.empty)
  | .put target summary => .inl (target, summary)
  | .record target values time =>
    .inl (target, values.foldl (fun s v => a.record s v time) (read registers target))
  | .merge target left right => .inl (target, a.merge (read registers left) (read registers right))
  | .diff target current previous => .inl (target, a.diff (read registers current) (read registers previous))
  | .data rows start time temporality =>
    .inr (a.toData (rows.map fun row => { row with summary := read registers row.summary }) start time temporality)

/-- The results of a list of lines. -/
def run (registers : Table String a.Summary) : List (WorksheetLine a) → List (WorksheetResult a)
  | [] => []
  | line :: rest =>
    match evaluate registers line with
    | .inl (target, summary) => .summary summary :: run (registers.insert target summary) rest
    | .inr data => .data data :: run registers rest

end Worksheet

end Metering
