/-!
# Time

Instants are nanoseconds on a clock that is moved by hand. The clock has 64 bits and wraps around at both ends.
-/

namespace Metering

/-- An instant, in nanoseconds since the clock's start. -/
abbrev Time := Nat

namespace Clock

/-- How many instants the clock tells apart. -/
def span : Nat := Nat.pow 2 64

/-- The instant some nanoseconds later. -/
def advance (now : Time) (nanos : Nat) : Time := (now + nanos) % span

/-- The instant some nanoseconds earlier. -/
def rewind (now : Time) (nanos : Nat) : Time := (now + (span - nanos % span)) % span

/-- A move of the clock. -/
inductive Move where
  | advance (nanos : Nat)
  | rewind (nanos : Nat)

/-- The instant after a move. -/
def Move.apply (now : Time) : Move → Time
  | .advance nanos => Clock.advance now nanos
  | .rewind nanos => Clock.rewind now nanos

/-- The instants shown from the given one on: it, then the instant after each move. -/
def instants (now : Time) : List Move → List Time
  | [] => [now]
  | m :: rest => now :: instants (m.apply now) rest

end Clock

end Metering
