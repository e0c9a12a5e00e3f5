import Metering.Attribute.Value
import Metering.KeyMap

/-!
# Attribute sets

The attributes of a measurement, a scope or a resource: a map from key to value, built from pairs in any order of
which the last with a key counts. An attribute set names a series, so sets have an order, an equality and a hash
that agree with each other.

Main statements: the order is transitive and total (`TransOrd Attributes`), equality means to have the same keys with
equal values (`beq_iff_place_eq`), and equal sets hash alike (`LawfulHashable Attributes`).
-/

namespace Metering

/-- A normalised attribute set. -/
abbrev Attributes := KeyMap Value

/-- A key with its value. -/
abbrev Attribute := String × Value

namespace Attributes

/-- The keys of a set with the places of their values. -/
def place (a : Attributes) : List (String × Nat × Int × String) := a.entries.map fun e => (e.1, e.2.place)

/-- The total order of attribute sets: the first entry that differs decides, by key and then by value. -/
def order (a b : Attributes) : Ordering := a.compareBy compare b

instance : Ord Attributes := ⟨order⟩

instance : BEq Attributes := ⟨fun a b => compare a b == .eq⟩

instance : Hashable Attributes := ⟨fun a => hash a.place⟩

instance : Std.TransOrd Attributes := KeyMap.transCmp_compareBy compare

/-- Sets that the order does not tell apart have the same keys, with values that have the same places. -/
theorem compare_eq_eq_iff {a b : Attributes} : compare a b = .eq ↔ a.place = b.place :=
  KeyMap.compareBy_eq_eq_iff (fun v w => Value.compare_eq_eq_iff (v := v) (w := w)) a b

theorem beq_iff_place_eq {a b : Attributes} : (a == b) = true ↔ a.place = b.place := by
  rw [← compare_eq_eq_iff]
  exact beq_iff_eq (a := compare a b)

instance : EquivBEq Attributes where
  rfl := beq_iff_place_eq.2 rfl
  symm h := beq_iff_place_eq.2 (beq_iff_place_eq.1 h).symm
  trans h k := beq_iff_place_eq.2 ((beq_iff_place_eq.1 h).trans (beq_iff_place_eq.1 k))

instance : LawfulHashable Attributes where
  hash_eq _ _ h := congrArg (fun place : List (String × Nat × Int × String) => hash place) (beq_iff_place_eq.1 h)

end Attributes

/-! ## Allow-lists -/

/-- The keys a stream keeps. -/
structure AttributeFilter where
  keys : KeyMap Unit
  deriving DecidableEq

namespace AttributeFilter

/-- The filter that allows the listed keys, given in any order and with repetitions. -/
def ofList (keys : List String) : AttributeFilter :=
  ⟨KeyMap.ofList (keys.map fun k => (k, ()))⟩

/-- Whether the filter keeps the key. -/
def allows (f : AttributeFilter) (key : String) : Bool := f.keys.contains key

/-- Splits a set into what is kept, a set again, and the attributes that are dropped, in key order. -/
def apply (f : AttributeFilter) (a : Attributes) : Attributes × List Attribute :=
  (a.filter f.allows, a.entries.filter fun e => !f.allows e.1)

/-- What an optional filter keeps and drops; without a filter everything is kept. -/
def applyOptional : Option AttributeFilter → Attributes → Attributes × List Attribute
  | some f, a => f.apply a
  | none, a => (a, [])

end AttributeFilter

end Metering
