/-!
# Shortest decimals

The fewest decimal digits that read back as a given binary fraction. A fraction `m * 2 ^ q` stands for every real
nearer to it than to its neighbours (an end of that interval belongs to it when `m` is even). For one digit, two
digits and so on, the two multiples of the last place around the value are tried: the first grid that meets the
interval gives the digits, the nearer point wins, and of two equally near points the larger.
-/

namespace Metering.Decimal

/-! ## Binary fractions -/

/-- The magnitude of a finite float, `mantissa * 2 ^ exponent`. The gap to the float below is half the gap to the
float above when `edge` is set. -/
structure Binary where
  mantissa : Nat
  exponent : Int
  edge : Bool

/-- The lowest bit of the exponent in a float's pattern. -/
def exponentBit : Nat := Nat.pow 2 52

/-- The magnitude held by 63 bits: 11 of exponent, 52 of fraction. -/
def Binary.ofBits (bits : Nat) : Binary :=
  let fraction := bits % exponentBit
  let field := bits / exponentBit
  -- Floats with the lowest exponent field have no implied bit.
  if field = 0 then ⟨fraction, -1074, false⟩
  else ⟨fraction + exponentBit, field - 1075, fraction = 0 && 1 < field⟩

/-! ## Decimal digits -/

/-- A decimal `0.d₁d₂… * 10 ^ position`, given by its digits as one number. -/
structure Digits where
  digits : Nat
  position : Int
  deriving DecidableEq, Repr

/-- How many decimal digits a number has. -/
def length (n : Nat) : Nat := (Nat.toDigits 10 n).length

/-- The number of zeros between the point and the first digit of `num / den`, a positive fraction below 1,
counting at most `fuel` of them. -/
def leadingZeros (num den : Nat) : Nat → Nat
  | 0 => 0
  | fuel + 1 => if den ≤ num * 10 then 0 else leadingZeros (num * 10) den fuel + 1

/-- The `k` with `10 ^ (k - 1) ≤ num / den < 10 ^ k`. -/
def position (num den : Nat) : Int :=
  if den ≤ num then length (num / den) else -(leadingZeros num den (length den) : Int)

/-- Takes the zeros off the end of a number, at most `fuel` of them. -/
def dropZeros (n : Nat) : Nat → Nat
  | 0 => n
  | fuel + 1 => if n % 10 = 0 then dropZeros (n / 10) fuel else n

/-- The rounding interval of a binary fraction, over a common denominator. -/
structure Interval where
  low : Nat
  value : Nat
  high : Nat
  den : Nat
  closed : Bool

/-- The interval of reals that read back as the fraction. -/
def Binary.interval (b : Binary) : Interval :=
  -- In quarters of the last place, half of either gap is a whole number.
  let up := Nat.pow 2 (b.exponent - 2).toNat
  { low := (4 * b.mantissa - if b.edge then 1 else 2) * up
    value := 4 * b.mantissa * up
    high := (4 * b.mantissa + 2) * up
    den := Nat.pow 2 (2 - b.exponent).toNat
    closed := b.mantissa % 2 = 0 }

/-- Whether `c / unit` lies in the interval whose ends have been scaled by `scale`. -/
def Interval.holds (i : Interval) (scale c : Nat) : Bool :=
  if i.closed then i.low * scale ≤ c && c ≤ i.high * scale
  else i.low * scale < c && c < i.high * scale

/-- The point of the grid with `n` digits that reads back and lies nearest, if one reads back at all. -/
def Interval.onGrid (i : Interval) (place : Int) (n : Nat) : Option Nat :=
  let scale := Nat.pow 10 ((n : Int) - place).toNat
  let unit := Nat.pow 10 (place - n).toNat * i.den
  let below := i.value * scale / unit
  let rest := i.value * scale % unit
  -- The grid points next to the value, below and above it.
  match i.holds scale (below * unit), i.holds scale ((below + 1) * unit) with
  | true, true => some (if 2 * rest < unit then below else below + 1)
  | true, false => some below
  | false, true => some (below + 1)
  | false, false => none

/-- The shortest digits of a positive binary fraction; seventeen always suffice. -/
def shortest (b : Binary) : Digits :=
  let i := b.interval
  let place := position i.value i.den
  let (n, c) := ((List.range 17).findSome? fun k => (i.onGrid place (k + 1)).map (k + 1, ·)).getD (1, 0)
  -- Rounding up may have reached the next power of ten.
  { digits := dropZeros c n, position := if c < Nat.pow 10 n then place else place + 1 }

end Metering.Decimal
