import Metering.View.Glob

/-!
# Name patterns

A name, or a glob over the bytes of names.
-/

namespace Metering

/-- A pattern for instrument names. -/
inductive NamePattern where
  | exact (name : String)
  | wildcard (glob : String)
  deriving DecidableEq

namespace NamePattern

/-- A text with a star or a question mark in it is a glob; any other is a name. -/
def ofString (s : String) : NamePattern :=
  if s.toList.any fun c => c == '*' || c == '?' then wildcard s else exact s

/-- Whether a name fits the pattern. -/
def accepts : NamePattern → String → Bool
  | exact s, name => s == name
  | wildcard s, name => Glob.accepts s.toUTF8.data.toList name.toUTF8.data.toList

/-- The text of the pattern. -/
def text : NamePattern → String
  | exact s | wildcard s => s

end NamePattern

end Metering
