import Metering.Attribute.Set
import Metering.Clock

/-!
# Exemplars

Measurements kept next to an aggregate as samples of it. A reservoir of fixed size keeps the first measurements it is
offered; from then on each further one takes a random slot, if the slot drawn is one of the reservoir's.
The draw is an argument, so a reservoir is a function of its offers and draws.
-/

namespace Metering

/-- A sampled measurement, with the attributes that its series does not show. -/
structure Exemplar (α : Type) where
  value : α
  time : Time
  dropped : List Attribute
  deriving DecidableEq

/-- A reservoir of at most `size` exemplars. -/
structure Reservoir (α : Type) where
  size : Nat
  /-- How many measurements have been offered since the reservoir was last emptied. -/
  seen : Nat
  held : List (Exemplar α)

namespace Reservoir

variable {α : Type}

/-- A reservoir that has been offered nothing. -/
def empty (size : Nat) : Reservoir α := ⟨size, 0, []⟩

/-- Offers a measurement. While there is room it is kept; after that it replaces the exemplar in a slot drawn from as
many slots as there have been offers, this one included, if the reservoir has that slot. A reservoir without slots
looks at nothing. -/
def offer (r : Reservoir α) (draw : Nat) (e : Exemplar α) : Reservoir α :=
  if r.size = 0 then r
  else if r.seen < r.size then { r with seen := r.seen + 1, held := r.held ++ [e] }
  else { r with seen := r.seen + 1, held := r.held.set (draw % (r.seen + 1)) e }

/-- Takes everything out of the reservoir. -/
def collect (r : Reservoir α) : List (Exemplar α) × Reservoir α :=
  (r.held, { r with seen := 0, held := [] })

/-! ## Histories -/

/-- What is done to a reservoir: offers, each with the slot drawn for it, and collections. -/
inductive Step (α : Type) where
  | offer (draw : Nat) (e : Exemplar α)
  | collect

/-- What a collection takes out, and the reservoir after a step. -/
def Step.apply (r : Reservoir α) : Step α → Option (List (Exemplar α)) × Reservoir α
  | offer draw e => (none, r.offer draw e)
  | collect => (some r.collect.1, r.collect.2)

/-- What the collections of a history take out, and the reservoir after it. -/
def run (r : Reservoir α) : List (Step α) → List (List (Exemplar α)) × Reservoir α
  | [] => ([], r)
  | s :: rest =>
    let (taken, r) := s.apply r
    let (more, r) := run r rest
    (taken.toList ++ more, r)

end Reservoir

end Metering
