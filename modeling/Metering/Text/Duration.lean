/-!
# Durations as text

A duration is written in the largest of seconds, milliseconds, microseconds and nanoseconds that it fills, with as
many decimals as it needs.
-/

namespace Metering.Text

/-- The digits after the point of `rest / unit`, where `unit` is a power of ten: none when `rest` is zero, and no
zero at the end. -/
def decimals (rest unit : Nat) : String :=
  if rest = 0 then ""
  else
    let digits := (Nat.toDigits 10 (unit + rest)).drop 1
    "." ++ String.ofList (digits.reverse.dropWhile (· = '0')).reverse

/-- A number of nanoseconds as text. -/
def duration (nanos : Nat) : String :=
  let written (unit : Nat) (symbol : String) :=
    toString (nanos / unit) ++ decimals (nanos % unit) unit ++ symbol
  if 1000000000 ≤ nanos then written 1000000000 "s"
  else if 1000000 ≤ nanos then written 1000000 "ms"
  else if 1000 ≤ nanos then written 1000 "µs"
  else written 1 "ns"

example : duration 0 = "0ns" ∧ duration 1500 = "1.5µs" ∧ duration 60000000001 = "60.000000001s" := by
  decide +kernel

end Metering.Text
