import Metering.Decimal.Layout
import Metering.Instrument.Kind
import Metering.Text.Shape

/-!
# Errors

Why an instrument or a view is refused.
-/

namespace Metering

/-- The cause of a refusal. -/
inductive Error (α : Type) where
  | invalidName (name : String)
  | invalidUnit (unit : String)
  /-- Histogram bounds that are not finite and strictly ascending. -/
  | invalidBounds (bounds : List α)
  /-- A view that would select every instrument. -/
  | emptySelection
  /-- A view that would give one name to many instruments. -/
  | wildcardRename (pattern : String)
  /-- An aggregation that instruments of the kind do not support. -/
  | incompatibleKind (aggregation : String) (kind : Kind)

/-- The text of a refusal. -/
def Error.message : Error Float → String
  | invalidName name =>
    "invalid instrument name `" ++ name ++
      "`: must start with a letter, contain only `[A-Za-z0-9_./-]`, and be at most 255 characters"
  | invalidUnit unit => "invalid unit `" ++ unit ++ "`: must be ASCII and at most 63 characters"
  | invalidBounds bounds =>
    "invalid histogram boundaries " ++ Text.list (bounds.map Decimal.Layout.literal.text) ++
      ": must be finite and strictly ascending"
  | emptySelection => "view must select on at least one criterion"
  | wildcardRename pattern =>
    "view cannot rename instruments selected by the wildcard pattern `" ++ pattern ++ "`"
  | incompatibleKind aggregation kind =>
    "aggregation `" ++ aggregation ++ "` is not compatible with " ++ kind.name ++ " instruments"

end Metering
