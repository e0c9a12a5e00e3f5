import Metering.Text.Unprintable

/-!
# Quoted text

A text between double quotes, in which every character shows: the quote and the backslash are escaped, tab, line
feed, carriage return and NUL have short names, and any other character that does not show is written by its code
point.
-/

namespace Metering.Text

/-- The lower-case hexadecimal digits of a number. -/
def hex (n : Nat) : String := String.ofList (Nat.toDigits 16 n)

/-- How one character is written between quotes. -/
def escape (c : Char) : String :=
  match c with
  | '\x00' => "\\0"
  | '\t' => "\\t"
  | '\n' => "\\n"
  | '\r' => "\\r"
  | '\\' => "\\\\"
  | '"' => "\\\""
  | c => if unprintable c then "\\u\x7b" ++ hex c.toNat ++ "\x7d" else c.toString

/-- The text between double quotes. -/
def quoted (s : String) : String := "\"" ++ String.join (s.toList.map escape) ++ "\""

example : quoted "a\tb" = "\"a\\tb\"" ∧ quoted "\x01" = "\"\\u\x7b1\x7d\"" := by decide +kernel

end Metering.Text
