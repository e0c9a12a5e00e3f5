import Metering.Error
import Metering.Quantity
import Metering.Scope

/-!
# Instruments

What an instrument is asked for with, and when the request is valid. Two requests with one kind, name, unit and
description within one scope mean the same instrument; the advice does not tell instruments apart.
-/

namespace Metering

/-- What tells the instruments of one scope apart. -/
structure Identity where
  kind : Kind
  name : String
  unit : Option String
  description : Option String
  deriving DecidableEq, Inhabited

/-- What a program advises about the streams of an instrument. -/
structure Advice (α : Type) where
  bounds : Option (List α)
  keys : Option (List String)

/-- A requested instrument. -/
structure Instrument (α : Type) where
  identity : Identity
  advice : Advice α

namespace Instrument

/-! ## Validity -/

/-- Whether a character may follow the first letter of a name. -/
def isNameChar (c : Char) : Bool :=
  c.isAlphanum || c == '_' || c == '.' || c == '/' || c == '-'

/-- Names have at most 255 bytes, start with an ASCII letter, and go on with ASCII letters, digits,
underscores, points, slashes and hyphens. -/
def isValidName (name : String) : Bool :=
  match name.toList with
  | c :: rest => name.utf8ByteSize ≤ 255 && c.isAlpha && rest.all isNameChar
  | [] => false

/-- Units have at most 63 characters, all of them ASCII. -/
def isValidUnit (unit : String) : Bool :=
  unit.toList.all (fun c => c.toNat < 128) && unit.utf8ByteSize ≤ 63

variable {α : Type} [Quantity α]

/-- Refuses bounds that are not finite and strictly ascending. -/
def checkBounds (bounds : List α) : Except (Error α) Unit :=
  if Quantity.strictlyAscending bounds then .ok () else .error (.invalidBounds bounds)

/-- Refuses a request with an invalid name, unit or bounds; of several faults the first in this order counts. -/
def check (i : Instrument α) : Except (Error α) Unit := do
  if !isValidName i.identity.name then throw (.invalidName i.identity.name)
  if let some unit := i.identity.unit then
    if !isValidUnit unit then throw (.invalidUnit unit)
  if let some bounds := i.advice.bounds then checkBounds bounds

end Instrument

/-! ## Keys -/

/-- What tells the instruments of one provider apart. -/
structure InstrumentKey where
  scope : Scope
  identity : Identity
  deriving Inhabited

instance : BEq InstrumentKey := ⟨fun a b => a.scope == b.scope && decide (a.identity = b.identity)⟩

/-- Keys are equal when the scopes are and the identities are the same. -/
theorem InstrumentKey.beq_iff {a b : InstrumentKey} :
    (a == b) = true ↔ (a.scope == b.scope) = true ∧ a.identity = b.identity := by
  show (a.scope == b.scope && decide (a.identity = b.identity)) = true ↔ _
  simp

instance : EquivBEq InstrumentKey where
  rfl := InstrumentKey.beq_iff.2 ⟨BEq.rfl, rfl⟩
  symm h :=
    have ⟨scope, identity⟩ := InstrumentKey.beq_iff.1 h
    InstrumentKey.beq_iff.2 ⟨BEq.symm scope, identity.symm⟩
  trans h k :=
    have ⟨scope, identity⟩ := InstrumentKey.beq_iff.1 h
    have ⟨scope', identity'⟩ := InstrumentKey.beq_iff.1 k
    InstrumentKey.beq_iff.2 ⟨BEq.trans scope scope', identity.trans identity'⟩

end Metering
