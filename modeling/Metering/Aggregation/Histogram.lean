import Metering.Quantity
import Metering.Search

/-!
# Histograms

Counts of values by bucket. Bucket `i` takes the values above bound `i - 1` and not above bound `i`; one more bucket
takes what lies above the last bound. A summary also has the count, the sum and the extremes of its values.
-/

namespace Metering

/-- A histogram aggregation: the upper bounds of its buckets, and whether points show the extremes. -/
structure Histogram (α : Type) where
  bounds : List α
  extremes : Bool
  deriving DecidableEq

namespace Histogram

/-- What a histogram knows of a series. -/
structure Summary (α : Type) where
  count : Nat
  sum : α
  min : Option α
  max : Option α
  buckets : List Nat

variable {α : Type} [Quantity α]

/-- The bucket of a value: the bounds below it are skipped by binary search. -/
def bucket (h : Histogram α) (v : α) : Nat := Search.leading (fun b => Quantity.below b v) h.bounds

/-- The summary of no value. -/
def empty (h : Histogram α) : Summary α :=
  { count := 0, sum := 0, min := none, max := none, buckets := List.replicate (h.bounds.length + 1) 0 }

/-- Of two values that may be missing, the one `pick` chooses, or the one there is. -/
def either (pick : α → α → α) : Option α → Option α → Option α
  | some a, some b => some (pick a b)
  | a, none => a
  | none, b => b

/-- Adds one value to a summary. -/
def record (h : Histogram α) (s : Summary α) (v : α) : Summary α :=
  { count := s.count + 1
    sum := s.sum + v
    min := either Quantity.least s.min (some v)
    max := either Quantity.greatest s.max (some v)
    buckets := s.buckets.modify (h.bucket v) (· + 1) }

/-- The summary of the values of two summaries. -/
def merge (a b : Summary α) : Summary α :=
  { count := a.count + b.count
    sum := a.sum + b.sum
    min := either Quantity.least a.min b.min
    max := either Quantity.greatest a.max b.max
    buckets := a.buckets.zipWith (· + ·) b.buckets }

/-- The extreme of the window between two summaries. It is known only when the extreme moved, or when there was
none before. -/
def moved (past : α → α → Bool) : Option α → Option α → Option α
  | some c, some p => if past c p then some c else none
  | some c, none => some c
  | none, _ => none

/-- The summary of the window that ends with `current` and starts after `previous`. Counts stop at zero. -/
def diff (current previous : Summary α) : Summary α :=
  { count := current.count - previous.count
    sum := current.sum - previous.sum
    min := moved Quantity.below current.min previous.min
    max := moved (fun c p => Quantity.below p c) current.max previous.max
    buckets := current.buckets.zipWith (· - ·) previous.buckets }

end Histogram

end Metering
