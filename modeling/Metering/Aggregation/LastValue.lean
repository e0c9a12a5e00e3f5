import Metering.Clock

/-!
# Last values

The most recent measurement of a series. A later arrival replaces what is there unless it is strictly older.
-/

namespace Metering.LastValue

/-- The latest measurement with its time, once there is one. -/
abbrev Summary (α : Type) := Option (α × Time)

variable {α : Type}

/-- Takes a measurement in, unless the one there is newer. -/
def record (s : Summary α) (v : α) (time : Time) : Summary α :=
  match s with
  | some (old, last) => if time < last then some (old, last) else some (v, time)
  | none => some (v, time)

/-- The later of two samples, the right one of two at the same time. -/
def merge (a b : Summary α) : Summary α :=
  match a, b with
  | some (v, s), some (w, t) => if t < s then some (v, s) else some (w, t)
  | none, some (w, t) => some (w, t)
  | a, none => a

end Metering.LastValue
