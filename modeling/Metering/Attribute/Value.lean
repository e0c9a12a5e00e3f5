/-!
# Attribute values

What an attribute can hold, with a total order on it. Floats take part in the order although they are not ordered
as numbers: every not-a-number is one value, above all others, and the two zeros are one value.

Each value has a place, and values are compared by their places. Main statements: the order is transitive and total
(`TransOrd Value`), equality means to have the same place (`beq_iff_place_eq`), and equal values hash alike
(`LawfulHashable Value`).
-/

namespace Metering

/-- The value of an attribute. -/
inductive Value where
  | boolean (b : Bool)
  | integer (n : Int)
  | real (x : Float)
  | text (s : String)
  deriving DecidableEq, Inhabited

namespace Value

/-! ## Order -/

/-- The bit of a float's pattern that holds its sign. -/
def signBit : Nat := Nat.pow 2 63

/-- The place of a float among floats. Positive floats are ordered as their bit patterns and negative ones in
reverse, so the patterns of the two zeros both give 0; the infinities have the patterns farthest out, and one more
place above them is for what is not a number. -/
def realRank (x : Float) : Int :=
  if x.isNaN then signBit
  else if x.toBits.toNat < signBit then x.toBits.toNat
  else (signBit : Int) - x.toBits.toNat

/-- The place of a value in the order: that of its kind among booleans, integers, floats and texts, then that of its
content among numbers or among texts. -/
def place : Value → Nat × Int × String
  | boolean b => (0, b.toNat, "")
  | integer n => (1, n, "")
  | real x => (2, realRank x, "")
  | text s => (3, 0, s)

/-- The order of values, the first difference of their places deciding. -/
def order : Value → Value → Ordering :=
  compareLex (compareOn (·.place.1)) (compareLex (compareOn (·.place.2.1)) (compareOn (·.place.2.2)))

instance : Ord Value := ⟨order⟩

instance : BEq Value := ⟨fun v w => compare v w == .eq⟩

instance : Hashable Value := ⟨fun v => hash v.place⟩

/-! ## Laws -/

instance : Std.TransOrd Value :=
  inferInstanceAs (Std.TransCmp (compareLex _ (compareLex _ _)))

/-- Values that the order does not tell apart have one place. -/
theorem compare_eq_eq_iff {v w : Value} : compare v w = .eq ↔ v.place = w.place := by
  have (a b : Nat × Int × String) : a = b ↔ a.1 = b.1 ∧ a.2.1 = b.2.1 ∧ a.2.2 = b.2.2 := by
    rw [Prod.ext_iff, Prod.ext_iff]
  show order v w = .eq ↔ _
  simp [this, order, compareLex, compareOn]

theorem beq_iff_place_eq {v w : Value} : (v == w) = true ↔ v.place = w.place := by
  rw [← compare_eq_eq_iff]
  exact beq_iff_eq (a := compare v w)

instance : EquivBEq Value where
  rfl := beq_iff_place_eq.2 rfl
  symm h := beq_iff_place_eq.2 (beq_iff_place_eq.1 h).symm
  trans h k := beq_iff_place_eq.2 ((beq_iff_place_eq.1 h).trans (beq_iff_place_eq.1 k))

instance : LawfulHashable Value where
  hash_eq _ _ h := congrArg (fun place : Nat × Int × String => hash place) (beq_iff_place_eq.1 h)

end Value

end Metering
