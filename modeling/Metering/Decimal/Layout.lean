import Metering.Decimal.Shortest

/-!
# Float text

How floats are written: the shortest digits that read back, laid out either with a point alone or, for very large
and very small numbers, with a power of ten.
-/

namespace Metering.Decimal

/-- Which numbers are written with a point alone, and what a whole number looks like. -/
structure Layout where
  /-- The positions of the first digit for which no power of ten is written, when there is a limit. -/
  positional : Option (Int × Int)
  /-- What follows the digits of a whole number. -/
  whole : String

/-- Numbers as people read them: never a power of ten, and whole numbers without a point. -/
def Layout.plain : Layout := { positional := none, whole := "" }

/-- Numbers as configuration writes them: from `0.0001` up to `10 ^ 16` with a point, a power of ten elsewhere. -/
def Layout.literal : Layout := { positional := some (-3, 16), whole := ".0" }

/-- A run of zeros. -/
def zeros (n : Nat) : String := "".pushn '0' n

/-- Digits with a point `position` places after their start. -/
def pointed (whole digits : String) (position : Int) : String :=
  if position ≤ 0 then "0." ++ zeros (-position).toNat ++ digits
  else if (digits.length : Int) ≤ position then digits ++ zeros (position.toNat - digits.length) ++ whole
  else (digits.take position.toNat).toString ++ "." ++ (digits.drop position.toNat).toString

/-- Digits with a point after the first one and a power of ten. -/
def scaled (digits : String) (position : Int) : String :=
  let rest := (digits.drop 1).toString
  (digits.take 1).toString ++ (if rest.isEmpty then "" else "." ++ rest) ++ "e" ++ toString (position - 1)

/-- The text of the digits under a layout. -/
def Layout.digits (l : Layout) (d : Digits) : String :=
  let text := toString d.digits
  match l.positional with
  | none => pointed l.whole text d.position
  | some (lowest, highest) =>
    if lowest ≤ d.position && d.position ≤ highest then pointed l.whole text d.position
    else scaled text d.position

/-- The text of a float. A zero keeps its sign, what is not a number has none. -/
def Layout.text (l : Layout) (x : Float) : String :=
  let signBit := Nat.pow 2 63
  let sign := if x.toBits.toNat < signBit then "" else "-"
  let magnitude := x.toBits.toNat % signBit
  if x.isNaN then "NaN"
  else if magnitude = 0x7ff0000000000000 then sign ++ "inf"
  else if magnitude = 0 then sign ++ "0" ++ l.whole
  else sign ++ l.digits (shortest (Binary.ofBits magnitude))

/-! ## Examples -/

example : Layout.plain.text 100 = "100" ∧ Layout.literal.text 100 = "100.0" := by decide +kernel

example : Layout.plain.text 1e16 = "10000000000000000" ∧ Layout.literal.text 1e16 = "1e16" := by decide +kernel

example : Layout.literal.text 1e15 = "1000000000000000.0" ∧ Layout.literal.text 1.5e-5 = "1.5e-5" := by
  decide +kernel

example : Layout.literal.text 5e-324 = "5e-324" ∧ Layout.literal.text (-0.0) = "-0.0" := by decide +kernel

end Metering.Decimal
