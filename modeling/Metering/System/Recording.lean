import Metering.System.Basic

/-!
# Taking measurements

A measurement made through a handle goes to every stream of the instrument, at the present time. What is not a number
is dropped, and so is a negative amount added to a counter; both leave a line in the log.
-/

namespace Metering.System

variable {α : Type} [Quantity α]

/-- Why a measurement is dropped, if it is. -/
def objection (key : InstrumentKey) (value : α) : Option (Event α) :=
  if key.identity.kind = .counter ∧ Quantity.below value 0 then
    some (.droppedDecrement key.identity.name value)
  else if Quantity.isNaN value then some (.droppedNaN key.identity.name)
  else none

/-- Writes an accepted measurement to streams, each with a draw of its own for its reservoir. -/
def writeTo (sys : System α) (value : α) (attributes : Attributes) (draw : Nat → Nat) (streams : List (Nat × Nat)) :
    System α :=
  streams.zipIdx.foldl
    (fun sys s => sys.modifyReader s.1.1 fun r => r.record s.1.2 (draw s.2) value attributes sys.now) sys

/-- Makes a measurement through a handle. -/
def record (sys : System α) (handle : Nat) (value : α) (attributes : List Attribute) (draw : Nat → Nat) :
    System α :=
  match sys.instrument? handle with
  | none => sys
  | some (_, b) =>
    match objection b.key value with
    | some e => sys.write [.event e]
    | none => sys.writeTo value (KeyMap.ofList attributes) draw b.streams

end Metering.System
