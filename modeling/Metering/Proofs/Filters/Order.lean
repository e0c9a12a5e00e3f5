import Metering.Proofs.Monotonic.Floats

/-!
# Numbers in a Line

Of two numbers one is at most the other, and two that are at most each other are the same, unless
they are zeros of either sign. For floats this says that the parts that they are unpacked into, by
which they are compared, determine their bits.
-/

namespace Metering

namespace Quantity

variable {α : Type} [Quantity α]

/-- Whether a value is zero, of either sign. -/
def IsZero (a : α) : Prop := AtMost a 0 ∧ AtMost 0 a

/-- Whether values are the same up to the sign of zero. -/
def Same (a b : α) : Prop := a = b ∨ IsZero a ∧ IsZero b

/-- An order in which any two numbers compare, and none but zeros are not told apart. -/
class Linear (α : Type) [Quantity α] : Prop extends Ordered α where
  total : ∀ a b : α, isNaN a = false → isNaN b = false → AtMost a b ∨ AtMost b a
  antisymm : ∀ a b : α, AtMost a b → AtMost b a → Same a b

instance : Linear Int where
  total a b _ _ := by
    simp only [AtMost, isNaN, below, true_and, decide_eq_false_iff_not]
    omega
  antisymm a b := by
    simp only [AtMost, isNaN, below, true_and, decide_eq_false_iff_not]
    intro hab hba
    exact .inl (by omega)

end Quantity

/-! ## Bits and their parts -/

namespace Unpacked

open Float.Model Float.Model.UnpackedFloat

/-- A packed float is put together of its sign, its exponent and its mantissa. -/
theorem packComponents_parts (b : BitVec Format.binary64.numBits) :
    packComponents .binary64 (Sign.ofBitVec (unpackSign b)) (unpackExponent b) (unpackMantissa b) =
      b := by
  have hsign (v : BitVec 1) : (Sign.ofBitVec v).toBitVec = v := by
    revert v
    decide
  simp only [packComponents, hsign, unpackSign, unpackExponent, unpackMantissa, BitVec.extractLsb]
  ext i hi
  grind

/-- The sign, the exponent and the mantissa in the bits of a number, from the parts that it is
unpacked into. -/
def bitParts : UnpackedFloat → Sign × Nat × Nat
  | .infinity s => (s, 2047, 0)
  | .zero s => (s, 0, 0)
  | .notANumber => (.positive, 0, 0)
  | .finite s m e _ => (s, if 2 ^ 52 ≤ m then (e + 1075).toNat else 0, m % 2 ^ 52)

theorem bitParts_unpack {b : BitVec Format.binary64.numBits}
    (h : (unpack .binary64 b).isNaN = false) :
    bitParts (unpack .binary64 b) =
      (Sign.ofBitVec (unpackSign b), (unpackExponent b).toNat, (unpackMantissa b).toNat) := by
  have hmantissa : (unpackMantissa b).toNat < 2 ^ 52 := (unpackMantissa b).isLt
  have hbias : (Format.binary64.exponentBias : ℤ) = 1023 := rfl
  have hbits : (Format.binary64.mantissaBitsWithoutImplicit : ℤ) = 52 := rfl
  have happend := toNat_one_append (unpackMantissa b)
  rw [UnpackedFloat.unpack] at h ⊢
  -- The exponent tells infinities from zeros and subnormal numbers, and these from the others.
  by_cases hones : unpackExponent b = -1#11
  · by_cases hzero : unpackMantissa b = 0#52
    · simp [bitParts, hones, hzero]
    · rw [if_pos hones, if_neg hzero] at h
      cases h
  · rw [if_neg hones]
    by_cases hexponent : unpackExponent b = 0#11
    · by_cases hzero : unpackMantissa b = 0#52
      · simp [bitParts, hexponent, hzero]
      · -- The mantissa is short of the least full one.
        rw [if_pos hexponent, dif_neg hzero, bitParts, if_neg (by omega), hexponent,
          Nat.mod_eq_of_lt hmantissa]
        rfl
    · have hpositive : (unpackExponent b).toNat ≠ 0 :=
        fun h => hexponent (BitVec.eq_of_toNat_eq h)
      rw [if_neg hexponent, bitParts, happend, if_pos (by omega), hbias, hbits]
      simp only [Prod.mk.injEq, true_and]
      omega

/-- Bits are found again from what a number is unpacked into. -/
theorem eq_of_unpack_eq {b b' : BitVec Format.binary64.numBits}
    (h : (unpack .binary64 b).isNaN = false) (heq : unpack .binary64 b = unpack .binary64 b') :
    b = b' := by
  have hparts := bitParts_unpack h
  rw [heq, bitParts_unpack (heq ▸ h)] at hparts
  simp only [Prod.mk.injEq] at hparts
  obtain ⟨hsign, hexponent, hmantissa⟩ := hparts
  rw [← packComponents_parts b, ← packComponents_parts b', hsign, BitVec.eq_of_toNat_eq hexponent,
    BitVec.eq_of_toNat_eq hmantissa]

/-- Only zeros share a rank. -/
theorem eq_of_rank_eq {a b : UnpackedFloat} (ha : a.isNaN = false) (hb : b.isNaN = false)
    (h : rank a = rank b) : a = b ∨ rank a = rank (.zero .positive) := by
  rcases a with (_ | _) | _ | _ | ⟨_ | _, m, e, _⟩ <;>
    rcases b with (_ | _) | _ | _ | ⟨_ | _, m', e', _⟩ <;>
    simp_all [rank, UnpackedFloat.isNaN]

end Unpacked

namespace Quantity

open Unpacked

theorem eq_of_unpack {a b : Float} (ha : isNaN a = false)
    (h : a.toModel.unpack = b.toModel.unpack) : a = b := by
  have hbits : a.toModel.toBits.toBitVec = b.toModel.toBits.toBitVec := eq_of_unpack_eq ha h
  obtain ⟨⟨a, _⟩⟩ := a
  obtain ⟨⟨b, _⟩⟩ := b
  obtain rfl : a = b := UInt64.toBitVec_inj.mp hbits
  rfl

/-- Floats stand in a line, the two infinities at its ends. -/
instance : Linear Float where
  total a b ha hb := by
    rw [atMost_iff_rank_le, atMost_iff_rank_le]
    exact (le_total _ _).imp (⟨ha, hb, ·⟩) (⟨hb, ha, ·⟩)
  antisymm a b hab hba := by
    have hrank := le_antisymm (atMost_iff_rank_le.mp hab).2.2 (atMost_iff_rank_le.mp hba).2.2
    have hzero (x : Float) (hx : isNaN x = false)
        (h : rank x.toModel.unpack = rank (.zero .positive)) : IsZero x := by
      rw [IsZero, atMost_iff_rank_le, atMost_iff_rank_le, unpack_zero]
      exact ⟨⟨hx, rfl, h.le⟩, rfl, hx, h.ge⟩
    -- Numbers of one rank are unpacked into the same, unless the rank is that of zeros.
    rcases eq_of_rank_eq hab.1 hab.2.1 hrank with hsame | hnothing
    · exact .inl (eq_of_unpack hab.1 hsame)
    · exact .inr ⟨hzero a hab.1 hnothing, hzero b hab.2.1 (hrank ▸ hnothing)⟩

end Quantity

end Metering
