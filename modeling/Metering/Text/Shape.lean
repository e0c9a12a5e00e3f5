import Metering.Text.Quoted

/-!
# Shapes of descriptive text

The shapes in which values describe themselves: lists, maps, optional values and records with named fields.
-/

namespace Metering.Text

/-- Items in brackets, separated by commas. -/
def list (items : List String) : String := "[" ++ String.intercalate ", " items ++ "]"

/-- Keys with values in braces, separated by commas. -/
def map (items : List (String × String)) : String :=
  "\x7b" ++ String.intercalate ", " (items.map fun e => e.1 ++ ": " ++ e.2) ++ "\x7d"

/-- A value that may be missing. -/
def optional : Option String → String
  | some s => "Some(" ++ s ++ ")"
  | none => "None"

/-- A record with its fields by name. -/
def record (name : String) (fields : List (String × String)) : String :=
  name ++ " \x7b " ++ String.intercalate ", " (fields.map fun e => e.1 ++ ": " ++ e.2) ++ " \x7d"

/-- A record that also has fields it does not show. -/
def partialRecord (name : String) (fields : List (String × String)) : String :=
  name ++ " \x7b " ++ String.join (fields.map fun e => e.1 ++ ": " ++ e.2 ++ ", ") ++ ".. \x7d"

end Metering.Text
