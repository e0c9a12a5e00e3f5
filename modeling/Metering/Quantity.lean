/-!
# Quantities

The arithmetic that measured values take part in. Everything that adds, subtracts or compares measurements is written
over this class, so one definition serves floats, as programs measure, and exact numbers, in which sums do not
round.
-/

namespace Metering

/-- A type of measured values. -/
class Quantity (α : Type) extends Zero α, Add α, Sub α where
  /-- The value of a whole number. -/
  ofNat : Nat → α
  /-- Whether one value is below another. -/
  below : α → α → Bool
  /-- Whether the value is no number at all, which no sum recovers from. -/
  isNaN : α → Bool
  /-- Whether the value is a number and not an infinity. -/
  isFinite : α → Bool

namespace Quantity

variable {α : Type} [Quantity α]

/-- The lesser of two values, the second one when neither is below the other. A value that is not a number yields to
the other. -/
def least (a b : α) : α :=
  if isNaN a then b else if isNaN b then a else if below a b then a else b

/-- The greater of two values, the second one when neither is below the other. A value that is not a number yields to
the other. -/
def greatest (a b : α) : α :=
  if isNaN a then b else if isNaN b then a else if below b a then a else b

/-- Whether every value is finite and each is below the next. -/
def strictlyAscending : List α → Bool
  | [] => true
  | [a] => isFinite a
  | a :: b :: rest => isFinite a && below a b && strictlyAscending (b :: rest)

end Quantity

/-- Floats round every sum, and have infinities and values that are not numbers. -/
instance : Quantity Float where
  zero := 0
  ofNat := Float.ofNat
  below a b := decide (a < b)
  isNaN := Float.isNaN
  isFinite := Float.isFinite

/-- Whole numbers measure exactly. -/
instance : Quantity Int where
  zero := 0
  ofNat := Int.ofNat
  below a b := decide (a < b)
  isNaN _ := false
  isFinite _ := true

end Metering
