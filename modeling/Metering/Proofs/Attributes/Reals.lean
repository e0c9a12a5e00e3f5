import Metering.Attribute.Value
import Metering.Proofs.Filters.Order

/-!
# The Order of Floats among Values

Floats take part in the order of values by their bits. Read as numbers, the bits of a positive float
count the floats between it and zero, and those of a negative one do so below the sign. So the order of
the counts is the order of the numbers, with the two zeros at one place, and what is not a number has
the one place above all others.
-/

namespace Metering

namespace Unpacked

open Float.Model Float.Model.UnpackedFloat

/-! ## Counting floats -/

/-- How many floats there are from zero to a number, below zero if the number is. -/
def steps : UnpackedFloat → ℤ
  | .infinity s => s.apply (2047 * 2 ^ 52)
  | .finite s m e _ => s.apply ((e + 1074) * 2 ^ 52 + m)
  | .zero _ | .notANumber => 0

/-- Mantissas and exponents within the bounds of what comes out of bits. -/
def Canonical : UnpackedFloat → Prop
  | .finite _ m e _ => m < 2 ^ 53 ∧ -1074 ≤ e ∧ e ≤ 971 ∧ (2 ^ 52 ≤ m ∨ e = -1074)
  | _ => True

theorem canonical_unpack (b : BitVec Format.binary64.numBits) : Canonical (unpack .binary64 b) := by
  have hfull := full_unpack b
  have hbias : (Format.binary64.exponentBias : ℤ) = 1023 := rfl
  have hbits : (Format.binary64.mantissaBitsWithoutImplicit : ℤ) = 52 := rfl
  have hlt : (unpackExponent b).toNat < 2048 := (unpackExponent b).isLt
  rw [UnpackedFloat.unpack] at hfull ⊢
  split
  · split <;> trivial
  · -- The greatest exponent is set apart for infinities.
    rename_i hones
    have hne : (unpackExponent b).toNat ≠ 2047 := fun heq => hones (BitVec.eq_of_toNat_eq heq)
    rw [if_neg hones] at hfull
    split
    · rename_i hzero
      have hexponent : (unpackExponent b).toNat = 0 := by rw [hzero]; rfl
      rw [if_pos hzero] at hfull
      split
      · trivial
      · rename_i hnonzero
        rw [dif_neg hnonzero] at hfull
        refine ⟨hfull.1, hfull.2.1, ?_, hfull.2.2⟩
        omega
    · rename_i hnonzero
      rw [if_neg hnonzero] at hfull
      refine ⟨hfull.1, hfull.2.1, ?_, hfull.2.2⟩
      omega

theorem steps_lt_signBit {a : UnpackedFloat} (ha : Canonical a) : steps a < 2 ^ 63 := by
  rcases a with (_ | _) | _ | _ | ⟨_ | _, m, e, hm⟩ <;>
    simp only [steps, Sign.apply, Canonical] at ha ⊢ <;> omega

/-- The order of numbers is that of the counts. -/
theorem rank_lt_iff_steps_lt {a b : UnpackedFloat} (ha : Canonical a) (hb : Canonical b) :
    rank a < rank b ↔ steps a < steps b := by
  rcases a with (_ | _) | _ | _ | ⟨_ | _, m, e, hm⟩ <;>
    rcases b with (_ | _) | _ | _ | ⟨_ | _, m', e', hm'⟩ <;>
    simp only [rank, steps, Sign.apply, Prod.Lex.lt_iff, Canonical, ofLex_toLex, true_and] at ha hb ⊢ <;>
    omega

theorem rank_eq_iff_steps_eq {a b : UnpackedFloat} (ha : Canonical a) (hb : Canonical b) :
    rank a = rank b ↔ steps a = steps b := by
  have hab := rank_lt_iff_steps_lt ha hb
  have hba := rank_lt_iff_steps_lt hb ha
  rw [eq_iff_le_not_lt, eq_iff_le_not_lt, ← not_lt, ← not_lt, hab, hba]

/-! ## Comparing numbers -/

theorem beq_iff_rank_eq {a b : UnpackedFloat} (ha : a.isNaN = false) (hb : b.isNaN = false) :
    a.beq b = true ↔ rank a = rank b := by
  have hsigns : compare Sign.negative Sign.positive = .lt ∧
      compare Sign.positive Sign.negative = .gt ∧ compare Sign.negative Sign.negative = .eq ∧
        compare Sign.positive Sign.positive = .eq := ⟨rfl, rfl, rfl, rfl⟩
  rcases a with (_ | _) | _ | _ | ⟨_ | _, m, e, _⟩ <;>
    rcases b with (_ | _) | _ | _ | ⟨_ | _, m', e', _⟩ <;>
    simp_all [UnpackedFloat.beq, UnpackedFloat.compare, rank, UnpackedFloat.isNaN]

/-- What is not a number is neither equal to anything nor below it or above. -/
theorem not_compared {a b : UnpackedFloat} (h : a.isNaN = true ∨ b.isNaN = true) :
    a.beq b = false ∧ a.lt b = false := by
  cases a <;> cases b <;>
    simp_all [UnpackedFloat.beq, UnpackedFloat.lt, UnpackedFloat.compare, UnpackedFloat.isNaN]

/-! ## Reading bits -/

theorem toNat_packComponents (s : Sign) (e : BitVec 11) (m : BitVec 52) :
    (packComponents .binary64 s e m).toNat =
      s.toBitVec.toNat * 2 ^ 63 + e.toNat * 2 ^ 52 + m.toNat := by
  have hmantissa (x : BitVec 12) : (x ++ m).toNat = x.toNat * 2 ^ 52 + m.toNat := by
    rw [BitVec.toNat_append, ← Nat.shiftLeft_add_eq_or_of_lt m.isLt, Nat.shiftLeft_eq]
  have hexponent : (s.toBitVec ++ e).toNat = s.toBitVec.toNat * 2 ^ 11 + e.toNat := by
    rw [BitVec.toNat_append, ← Nat.shiftLeft_add_eq_or_of_lt e.isLt, Nat.shiftLeft_eq]
  refine (hmantissa (s.toBitVec ++ e)).trans ?_
  rw [hexponent]
  omega

/-- Bits read as a number, below their sign. -/
def reading (b : BitVec Format.binary64.numBits) : ℤ :=
  if b.toNat < 2 ^ 63 then b.toNat else 2 ^ 63 - b.toNat

theorem reading_eq_apply (b : BitVec Format.binary64.numBits) :
    reading b = (Sign.ofBitVec (unpackSign b)).apply
      ((unpackExponent b).toNat * 2 ^ 52 + (unpackMantissa b).toNat) := by
  have hexponent : (unpackExponent b).toNat < 2 ^ 11 := (unpackExponent b).isLt
  have hmantissa : (unpackMantissa b).toNat < 2 ^ 52 := (unpackMantissa b).isLt
  have hbits := toNat_packComponents (Sign.ofBitVec (unpackSign b)) (unpackExponent b)
    (unpackMantissa b)
  rw [packComponents_parts] at hbits
  rw [reading, hbits]
  cases Sign.ofBitVec (unpackSign b) with
  | negative =>
    have hsign : Sign.negative.toBitVec.toNat = 1 := rfl
    rw [hsign, if_neg (by omega), Sign.apply]
    omega
  | positive =>
    have hsign : Sign.positive.toBitVec.toNat = 0 := rfl
    rw [hsign, if_pos (by omega), Sign.apply]
    omega

/-- The bits of a number are read as its count. -/
theorem reading_eq_steps {b : BitVec Format.binary64.numBits} (h : (unpack .binary64 b).isNaN = false) :
    reading b = steps (unpack .binary64 b) := by
  have hcanonical := canonical_unpack b
  have hparts := bitParts_unpack h
  rw [reading_eq_apply]
  generalize unpackExponent b = exponent at hparts
  generalize unpackMantissa b = mantissa at hparts
  generalize Sign.ofBitVec (unpackSign b) = sign at hparts
  generalize unpack .binary64 b = a at h hparts hcanonical
  rcases a with s | _ | s | ⟨s, m, e, hm⟩
  · obtain ⟨rfl, hexponent, hmantissa⟩ := by simpa only [bitParts, Prod.mk.injEq] using hparts
    rw [← hexponent, ← hmantissa, steps]
    rfl
  · cases h
  · obtain ⟨rfl, hexponent, hmantissa⟩ := by simpa only [bitParts, Prod.mk.injEq] using hparts
    rw [← hexponent, ← hmantissa, steps]
    cases s <;> rfl
  · obtain ⟨rfl, hexponent, hmantissa⟩ := by simpa only [bitParts, Prod.mk.injEq] using hparts
    obtain ⟨hlt, hleast, -, hfull⟩ := hcanonical
    rw [← hexponent, ← hmantissa, steps]
    refine congrArg s.apply ?_
    -- A full mantissa has a bit above those that are stored, which counts as one more exponent.
    split <;> omega

end Unpacked

namespace Value

open Unpacked

/-! ## Places of floats -/

theorem realRank_of_number {x : Float} (h : x.isNaN = false) :
    realRank x = steps x.toModel.unpack := by
  rw [realRank, h]
  exact reading_eq_steps h

theorem realRank_of_isNaN {x : Float} (h : x.isNaN = true) : realRank x = 2 ^ 63 := by
  rw [realRank, h]
  rfl

theorem lt_iff_unpack_lt {x y : Float} : x < y ↔ x.toModel.unpack.lt y.toModel.unpack = true := by
  rw [← Quantity.below_eq_lt]
  exact decide_eq_true_iff.symm

theorem beq_eq_unpack_beq (x y : Float) : (x == y) = x.toModel.unpack.beq y.toModel.unpack := rfl

/-- Equal floats are numbers, and one and the same unless they are zeros. -/
theorem eq_or_zeros_of_beq {x y : Float} (h : (x == y) = true) :
    x.isNaN = false ∧ y.isNaN = false ∧ (x = y ∨ (x == 0) = true ∧ (y == 0) = true) := by
  rw [beq_eq_unpack_beq] at h
  have hnumber {z : Float} (hz : ¬z.isNaN = true) : z.isNaN = false := Bool.eq_false_iff.mpr hz
  have hx : x.isNaN = false := hnumber fun hx =>
    Bool.noConfusion (h.symm.trans (not_compared (.inl hx)).1)
  have hy : y.isNaN = false := hnumber fun hy =>
    Bool.noConfusion (h.symm.trans (not_compared (.inr hy)).1)
  have hzero {z : Float} (hz : z.isNaN = false) (h : Quantity.IsZero z) : (z == 0) = true := by
    rw [beq_eq_unpack_beq, beq_iff_rank_eq hz rfl]
    exact le_antisymm (Quantity.atMost_iff_rank_le.mp h.1).2.2 (Quantity.atMost_iff_rank_le.mp h.2).2.2
  rw [beq_iff_rank_eq hx hy] at h
  have hxy : Quantity.AtMost x y := Quantity.atMost_iff_rank_le.mpr ⟨hx, hy, h.le⟩
  have hyx : Quantity.AtMost y x := Quantity.atMost_iff_rank_le.mpr ⟨hy, hx, h.ge⟩
  refine ⟨hx, hy, (Quantity.Linear.antisymm x y hxy hyx).imp_right fun hzeros => ?_⟩
  exact ⟨hzero hx hzeros.1, hzero hy hzeros.2⟩

/-- Floats take places in the order of numbers, and below what is not a number. -/
theorem realRank_lt_iff {x y : Float} :
    realRank x < realRank y ↔ x < y ∨ x.isNaN = false ∧ y.isNaN = true := by
  have hx : Canonical x.toModel.unpack := canonical_unpack _
  have hy : Canonical y.toModel.unpack := canonical_unpack _
  rw [lt_iff_unpack_lt]
  cases hxn : x.isNaN <;> cases hyn : y.isNaN
  · rw [realRank_of_number hxn, realRank_of_number hyn, lt_iff_rank_lt hxn hyn]
    simpa using (rank_lt_iff_steps_lt hx hy).symm
  · rw [realRank_of_number hxn, realRank_of_isNaN hyn]
    simpa using steps_lt_signBit hx
  · rw [realRank_of_isNaN hxn, realRank_of_number hyn, (not_compared (.inl hxn)).2]
    simpa using (steps_lt_signBit hy).le
  · rw [realRank_of_isNaN hxn, realRank_of_isNaN hyn, (not_compared (.inl hxn)).2]
    simp

/-- Floats have one place if they are equal numbers, or if neither is a number. -/
theorem realRank_eq_iff {x y : Float} :
    realRank x = realRank y ↔ (x == y) = true ∨ x.isNaN = true ∧ y.isNaN = true := by
  have hx : Canonical x.toModel.unpack := canonical_unpack _
  have hy : Canonical y.toModel.unpack := canonical_unpack _
  rw [beq_eq_unpack_beq]
  cases hxn : x.isNaN <;> cases hyn : y.isNaN
  · rw [realRank_of_number hxn, realRank_of_number hyn, beq_iff_rank_eq hxn hyn]
    simpa using (rank_eq_iff_steps_eq hx hy).symm
  · rw [realRank_of_number hxn, realRank_of_isNaN hyn, (not_compared (.inr hyn)).1]
    simpa using (steps_lt_signBit hx).ne
  · rw [realRank_of_isNaN hxn, realRank_of_number hyn, (not_compared (.inl hxn)).1]
    simpa using (steps_lt_signBit hy).ne'
  · rw [realRank_of_isNaN hxn, realRank_of_isNaN hyn]
    simp

end Value

end Metering
