import Metering.Attribute.Set
import Metering.Decimal.Layout
import Metering.Text.Shape

/-!
# Attributes as text

Two texts of attribute values and sets: a plain one for people, and a descriptive one that also shows the kind of
each value and quotes its text.
-/

namespace Metering

open Decimal

namespace Value

/-- The value by itself. -/
def plain : Value → String
  | boolean b => toString b
  | integer n => toString n
  | real x => Layout.plain.text x
  | text s => s

/-- The value with its kind. -/
def described : Value → String
  | boolean b => "Bool(" ++ toString b ++ ")"
  | integer n => "I64(" ++ toString n ++ ")"
  | real x => "F64(" ++ Layout.literal.text x ++ ")"
  | text s => "String(" ++ Text.quoted s ++ ")"

end Value

namespace Attributes

/-- The pairs of a set between braces, as key and value with an equals sign between them. -/
def plain (a : Attributes) : String :=
  "\x7b" ++ String.intercalate ", " (a.entries.map fun e => e.1 ++ "=" ++ e.2.plain) ++ "\x7d"

/-- The set as a map from quoted keys to described values. -/
def described (a : Attributes) : String :=
  Text.map (a.entries.map fun e => (Text.quoted e.1, e.2.described))

end Attributes

end Metering
