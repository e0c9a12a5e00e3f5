import Mathlib
import Metering.Proofs.Monotonic.Totals

/-!
# Floats Respect their Order

A float is packed into bits, and arithmetic unpacks its arguments into signs, mantissas and
exponents, computes there, rounds to a mantissa of 53 bits, and packs the result, or an infinity
for what is too large. No step leads below a number that was not above: so sums of floats that are
not negative only grow, rounding and infinities included.
-/

namespace Metering

open Float.Model Float.Model.UnpackedFloat

namespace Unpacked

/-! ## Order -/

/-- The place of a number among the others: by sign, infinities outermost, then by exponent and
mantissa. -/
def rank : UnpackedFloat → ℤ ×ₗ ℤ ×ₗ ℤ
  | .infinity .positive => toLex (2, toLex (0, 0))
  | .finite .positive m e _ => toLex (1, toLex (e, m))
  | .zero _ | .notANumber => toLex (0, toLex (0, 0))
  | .finite .negative m e _ => toLex (-1, toLex (-e, -m))
  | .infinity .negative => toLex (-2, toLex (0, 0))

theorem lt_iff_rank_lt {a b : UnpackedFloat} (ha : a.isNaN = false) (hb : b.isNaN = false) :
    a.lt b = true ↔ rank a < rank b := by
  have hsigns : compare Sign.negative Sign.positive = .lt ∧
      compare Sign.positive Sign.negative = .gt ∧ compare Sign.negative Sign.negative = .eq ∧
        compare Sign.positive Sign.positive = .eq := ⟨rfl, rfl, rfl, rfl⟩
  rcases a with (_ | _) | _ | _ | ⟨_ | _, m, e, _⟩ <;>
    rcases b with (_ | _) | _ | _ | ⟨_ | _, m', e', _⟩ <;>
    simp_all [UnpackedFloat.lt, UnpackedFloat.compare, rank, Prod.Lex.lt_iff, UnpackedFloat.isNaN,
      Ordering.then_eq_lt, Ordering.then_eq_gt, compare_lt_iff_lt, compare_gt_iff_gt]

theorem rank_finite_le_iff {m m' : Nat} {e e' : ℤ} {hm : 0 < m} {hm' : 0 < m'} :
    rank (.finite .positive m e hm) ≤ rank (.finite .positive m' e' hm') ↔
      e < e' ∨ e = e' ∧ m ≤ m' := by
  simp [rank, Prod.Lex.le_iff]

/-- Neither negative nor minus infinity. -/
def Unsigned : UnpackedFloat → Prop
  | .infinity .negative | .finite .negative .. => False
  | _ => True

theorem lt_zero_eq_false_iff {a : UnpackedFloat} {s : Sign} :
    a.lt (.zero s) = false ↔ Unsigned a := by
  rcases a with (_ | _) | _ | _ | ⟨_ | _, m, e, _⟩ <;>
    simp [UnpackedFloat.lt, UnpackedFloat.compare, Unsigned]

theorem unsigned_iff_rank_le {a : UnpackedFloat} (ha : a.isNaN = false) :
    Unsigned a ↔ rank (.zero .positive) ≤ rank a := by
  rw [← lt_zero_eq_false_iff (s := .positive), ← Bool.not_eq_true, lt_iff_rank_lt ha rfl, not_lt]

/-! ## Packing -/

/-- Mantissas fill their bits, except at the least exponent. -/
def Full : UnpackedFloat → Prop
  | .finite _ m e _ => m < 2 ^ 53 ∧ -1074 ≤ e ∧ (2 ^ 52 ≤ m ∨ e = -1074)
  | _ => True

theorem toNat_one_append (m : BitVec 52) : (1#1 ++ m).toNat = 2 ^ 52 + m.toNat := by
  rw [BitVec.toNat_append, ← Nat.shiftLeft_add_eq_or_of_lt m.isLt]
  rfl

/-- What comes out of bits has a full mantissa. -/
theorem full_unpack (b : BitVec Format.binary64.numBits) : Full (unpack .binary64 b) := by
  have hmantissa : (unpackMantissa b).toNat < 2 ^ 52 := (unpackMantissa b).isLt
  have hbias : (Format.binary64.exponentBias : ℤ) = 1023 := rfl
  have hbits : (Format.binary64.mantissaBitsWithoutImplicit : ℤ) = 52 := rfl
  rw [UnpackedFloat.unpack]
  split
  · split <;> trivial
  · split
    · rename_i hzero
      split
      · trivial
      · have hexponent : (unpackExponent b).toNat = 0 := by rw [hzero]; rfl
        refine ⟨by omega, ?_, .inr ?_⟩ <;> rw [hexponent, hbias] <;> rfl
    · rename_i hnonzero
      have hexponent : (unpackExponent b).toNat ≠ 0 := fun h => hnonzero (BitVec.eq_of_toNat_eq h)
      have happend := toNat_one_append (unpackMantissa b)
      refine ⟨by omega, ?_, .inl (by omega)⟩
      rw [hbias, hbits]
      omega

theorem sign_packComponents (s : Sign) (e : BitVec 11) (m : BitVec 52) :
    Sign.ofBitVec (unpackSign (packComponents .binary64 s e m)) = s := by
  simp only [unpackSign, packComponents, BitVec.extractLsb]
  rw [BitVec.extractLsb'_append_eq_of_le (by decide),
    BitVec.extractLsb'_append_eq_of_le (by decide)]
  cases s <;> rfl

/-- Components with an exponent other than the two special ones make a number with a full
mantissa. -/
theorem unpack_packComponents_normal (s : Sign) (e : BitVec 11) (m : BitVec 52) (hzero : e ≠ 0#11)
    (hones : e ≠ -1#11) :
    ∃ hm, UnpackedFloat.unpack .binary64 (packComponents .binary64 s e m) =
      .finite s (2 ^ 52 + m.toNat) (e.toNat - 1075) hm := by
  rw [UnpackedFloat.unpack]
  simp only [unpackMantissa_packComponents, unpackExponent_packComponents, sign_packComponents,
    if_neg hzero, if_neg hones, toNat_one_append]
  exact ⟨by omega, rfl⟩

/-- Components with the exponent zero make a number with the least exponent. -/
theorem unpack_packComponents_subnormal (s : Sign) (m : BitVec 52) (h : m ≠ 0#52) :
    ∃ hm, UnpackedFloat.unpack .binary64 (packComponents .binary64 s (0#11) m) =
      .finite s m.toNat (-1074) hm := by
  have hones : (0#11) ≠ -1#11 := by decide
  rw [UnpackedFloat.unpack]
  simp only [unpackMantissa_packComponents, unpackExponent_packComponents, sign_packComponents,
    if_neg hones, if_true, dif_neg h]
  exact ⟨Nat.pos_of_ne_zero fun hm => h (BitVec.eq_of_toNat_eq hm), rfl⟩

theorem log2_eq_iff_of_full {s : Sign} {m : Nat} {e : ℤ} {hm : 0 < m}
    (h : Full (.finite s m e hm)) : m.log2 + 1 = 53 ↔ 2 ^ 52 ≤ m := by
  have hlow : m.log2 < 53 := (Nat.log2_lt hm.ne').mpr h.1
  have hhigh : 52 ≤ m.log2 ↔ 2 ^ 52 ≤ m := Nat.le_log2 hm.ne'
  omega

/-- Packing makes an infinity of what is too large, and loses nothing of what is not. -/
theorem unpack_pack_finite {s : Sign} {m : Nat} {e : ℤ} {hm : 0 < m} (h : Full (.finite s m e hm)) :
    (Float.Model.pack (.finite s m e hm)).unpack =
      if e ≤ 971 then .finite s m e hm else .infinity s := by
  have hlog := log2_eq_iff_of_full h
  obtain ⟨hmantissa, hleast, hfull⟩ := h
  have hbiased : (e + (Format.binary64.exponentBias : ℤ) +
      (Format.binary64.mantissaBitsWithoutImplicit : ℤ)).toNat = (e + 1075).toNat :=
    congrArg Int.toNat (Int.add_assoc e 1023 52)
  show UnpackedFloat.unpack .binary64 (UnpackedFloat.pack .binary64 (.finite s m e hm)) = _
  simp only [UnpackedFloat.pack, hbiased, show Format.binary64.mantissaBits = 53 from rfl, hlog]
  by_cases hsmall : e ≤ 971
  · rw [if_pos hsmall, if_neg (by omega)]
    by_cases hnormal : 2 ^ 52 ≤ m
    · have hexponent : (BitVec.ofNat 11 (e + 1075).toNat).toNat = (e + 1075).toNat := by
        rw [BitVec.toNat_ofNat]
        omega
      rw [if_pos hnormal]
      obtain ⟨hm', heq⟩ := unpack_packComponents_normal s (.ofNat 11 (e + 1075).toNat) (.ofNat 52 m)
        (fun h => by simp [h] at hexponent; omega)
        (fun h => by simp [h] at hexponent; omega)
      rw [heq]
      simp only [UnpackedFloat.finite.injEq, hexponent, BitVec.toNat_ofNat, true_and]
      omega
    · obtain rfl := hfull.resolve_left hnormal
      rw [if_neg hnormal]
      have hkept : (BitVec.ofNat 52 m).toNat = m := by
        rw [BitVec.toNat_ofNat]
        omega
      obtain ⟨hm', heq⟩ := unpack_packComponents_subnormal s (.ofNat 52 m)
        (fun h => by simp [h] at hkept; omega)
      rw [heq]
      simp only [hkept]
  · rw [if_neg hsmall, if_pos (by omega)]
    cases s <;> rfl

/-! ## Rounding -/

theorem mantissa_shiftRight (em : ExtendedMantissa) (n : Nat) :
    (em >>> n).mantissa = em.mantissa / 2 ^ n := by
  show (Nat.repeat ExtendedMantissa.shiftRightOne n em).mantissa = _
  induction n with
  | zero => exact (Nat.div_one _).symm
  | succ n ih =>
    rw [Nat.repeat, ExtendedMantissa.shiftRightOne, ih, Nat.div_div_eq_div_mul, Nat.pow_succ]

/-- Rounding keeps a mantissa or makes it one more. -/
theorem roundedMantissa_bounds (em : ExtendedMantissa) :
    em.mantissa ≤ em.roundedMantissa ∧ em.roundedMantissa ≤ em.mantissa + 1 := by
  rcases em with ⟨m, _ | _, _ | _⟩ <;>
    simp only [ExtendedMantissa.roundedMantissa, ExtendedMantissa.accuracy,
      Accuracy.roundToNearestEven] <;>
    omega

/-- A number that is shifted and rounded is the quotient or one more. -/
theorem rounded_bounds (n k : Nat) :
    n / 2 ^ k ≤ ((ExtendedMantissa.mk n false false) >>> k).roundedMantissa ∧
      ((ExtendedMantissa.mk n false false) >>> k).roundedMantissa ≤ n / 2 ^ k + 1 := by
  have hbounds := roundedMantissa_bounds ((ExtendedMantissa.mk n false false) >>> k)
  rwa [mantissa_shiftRight] at hbounds

/-- The exponent to which a number is rounded. -/
theorem target_eq (m : Nat) (e : ℤ) :
    Format.binary64.targetExponent (totalExponent m e) = max (m.log2 + e - 52) (-1074) := by
  have htarget (x : ℤ) : Format.binary64.targetExponent x = max (x - 53) (-1074) := rfl
  rw [htarget, totalExponent]
  omega

/-- A mantissa that is shifted to where it is rounded fits, and is full. -/
theorem shifted_full {m : Nat} {e t : ℤ} (hm : 0 < m) (hleast : -1074 ≤ e) (he : e ≤ t)
    (ht : t = max (m.log2 + e - 52) (-1074)) :
    m / 2 ^ (t - e).toNat < 2 ^ 53 ∧ (2 ^ 52 ≤ m / 2 ^ (t - e).toNat ∨ t = -1074) ∧
      0 < m / 2 ^ (t - e).toNat := by
  have hpow : 0 < 2 ^ (t - e).toNat := Nat.two_pow_pos _
  have hhigh : m / 2 ^ (t - e).toNat < 2 ^ 53 := by
    rw [Nat.div_lt_iff_lt_mul hpow, ← Nat.pow_add]
    exact Nat.lt_of_lt_of_le Nat.lt_log2_self (Nat.pow_le_pow_right (by omega) (by omega))
  by_cases hmin : t = -1074
  · have hzero : (t - e).toNat = 0 := by omega
    refine ⟨hhigh, .inr hmin, ?_⟩
    rw [hzero, Nat.pow_zero, Nat.div_one]
    exact hm
  · have hlow : 2 ^ 52 ≤ m / 2 ^ (t - e).toNat := by
      rw [Nat.le_div_iff_mul_le hpow, ← Nat.pow_add]
      exact Nat.le_trans (Nat.pow_le_pow_right (by omega) (by omega)) (Nat.log2_self_le hm.ne')
    exact ⟨hhigh, .inl hlow, by omega⟩

/-- A rounded mantissa is shifted once more if it is no longer full. -/
theorem shiftToTarget_rounded {r : Nat} {t : ℤ} (hr : 0 < r) (hfits : r ≤ 2 ^ 53)
    (hleast : -1074 ≤ t) :
    let shifted := shiftToTargetExponent .binary64 r t .exact
    (r < 2 ^ 53 ∧ shifted.1.mantissa = r ∧ shifted.2 = t) ∨
      (r = 2 ^ 53 ∧ shifted.1.mantissa = 2 ^ 52 ∧ shifted.2 = t + 1) := by
  simp only [shiftToTargetExponent, shiftToExponent, target_eq, mantissa_shiftRight,
    ExtendedMantissa.ofMantissaAndAccuracy]
  rcases Nat.lt_or_eq_of_le hfits with hlt | rfl
  · have hlog : r.log2 < 53 := (Nat.log2_lt hr.ne').mpr hlt
    have hzero : (max (r.log2 + t - 52) (-1074) - t).toNat = 0 := by omega
    refine .inl ⟨hlt, ?_, ?_⟩
    · rw [hzero, Nat.pow_zero, Nat.div_one]
    · rw [hzero]
      exact Int.add_zero t
  · have hone : (max (((2 ^ 53).log2 : Nat) + t - 52) (-1074) - t).toNat = 1 := by
      rw [Nat.log2_two_pow]
      omega
    refine .inr ⟨rfl, ?_, ?_⟩
    · rw [hone]
      exact Nat.pow_div (by omega) (by omega)
    · rw [hone]
      rfl

/-- A number is rounded to its exponent at least if it is no less than one with a full mantissa. -/
theorem le_target_of_full {s : Sign} {m n : Nat} {e l : ℤ} {hm : 0 < m}
    (h : Full (.finite s m e hm)) (hl : l ≤ e) (hn : m * 2 ^ (e - l).toNat ≤ n) :
    e ≤ max (n.log2 + l - 52) (-1074) := by
  rcases h.2.2 with hfull | hmin
  · have hpow : 2 ^ (52 + (e - l).toNat) ≤ n := by
      rw [Nat.pow_add]
      exact Nat.le_trans (Nat.mul_le_mul_right _ hfull) hn
    have hn0 : n ≠ 0 := by
      have := Nat.two_pow_pos (52 + (e - l).toNat)
      omega
    have hlog := (Nat.le_log2 hn0).mpr hpow
    omega
  · omega

/-- A number whose bits do not end above where it is rounded is shifted there and rounded, and if
the mantissa no longer fits, shifted once more. -/
theorem exists_round_eq {n : Nat} {l t : ℤ} (hn : 0 < n) (hleast : -1074 ≤ l) (hl : l ≤ t)
    (ht : t = max (n.log2 + l - 52) (-1074)) :
    ∃ r, n / 2 ^ (t - l).toNat ≤ r ∧
      ((r < 2 ^ 53 ∧
          ∃ hr, UnpackedFloat.round .binary64 .positive n l = .finite .positive r t hr) ∨
        (r = 2 ^ 53 ∧ ∃ hr,
          UnpackedFloat.round .binary64 .positive n l = .finite .positive (2 ^ 52) (t + 1) hr)) := by
  obtain ⟨hlow, hhigh⟩ := rounded_bounds n (t - l).toNat
  obtain ⟨hfits, -, hpos⟩ := shifted_full hn hleast hl ht
  obtain ⟨shifted, hshifted⟩ :
      ∃ shifted, (ExtendedMantissa.mk n false false) >>> (t - l).toNat = shifted := ⟨_, rfl⟩
  rw [hshifted] at hlow hhigh
  have hkept : decreaseExponent n l t = (n, l) := by
    have hzero : (l - t).toNat = 0 := by omega
    simp only [decreaseExponent, hzero]
    exact Prod.ext rfl (Int.sub_zero l)
  have hfirst : shiftToTargetExponent .binary64 n l .exact = (shifted, t) := by
    have hsum : l + ((t - l).toNat : ℤ) = t := by omega
    simp only [shiftToTargetExponent, shiftToExponent, target_eq, ← ht]
    exact Prod.ext hshifted hsum
  have hlast := shiftToTarget_rounded (r := shifted.roundedMantissa) (t := t) (by omega) (by omega)
    (by omega)
  rcases hsecond : shiftToTargetExponent .binary64 shifted.roundedMantissa t .exact with ⟨last, e'⟩
  simp only [hsecond] at hlast
  simp only [UnpackedFloat.round, target_eq, ← ht, hkept, roundWithAccuracy, hfirst, hsecond]
  refine ⟨shifted.roundedMantissa, hlow, ?_⟩
  rcases hlast with ⟨hlt, hmantissa, rfl⟩ | ⟨hr, hmantissa, rfl⟩
  · refine .inl ⟨hlt, by omega, ?_⟩
    rw [dif_neg (by omega)]
    simp only [hmantissa]
  · refine .inr ⟨hr, by omega, ?_⟩
    rw [dif_neg (by omega)]
    simp only [hmantissa]

/-- What is no less than a number with a full mantissa is rounded to such a number, and to no lesser
one. -/
theorem exists_round {m n : Nat} {e l : ℤ} {hm : 0 < m} (h : Full (.finite .positive m e hm))
    (hleast : -1074 ≤ l) (hl : l ≤ e) (hn : m * 2 ^ (e - l).toNat ≤ n) :
    ∃ m' e' hm', UnpackedFloat.round .binary64 .positive n l = .finite .positive m' e' hm' ∧
      Full (.finite .positive m' e' hm') ∧ (e < e' ∨ e = e' ∧ m ≤ m') := by
  obtain ⟨t, ht⟩ : ∃ t, t = max (n.log2 + l - 52 : ℤ) (-1074) := ⟨_, rfl⟩
  have htarget : e ≤ t := ht ▸ le_target_of_full h hl hn
  have hn0 : 0 < n := Nat.lt_of_lt_of_le (Nat.mul_pos hm (Nat.two_pow_pos _)) hn
  obtain ⟨-, hfull, -⟩ := shifted_full hn0 hleast (Int.le_trans hl htarget) ht
  -- If the bits of both end at the same place, the mantissa is no less.
  have hreached : e = t → m ≤ n / 2 ^ (t - l).toNat := fun heq => by
    rwa [Nat.le_div_iff_mul_le (Nat.two_pow_pos _), ← heq]
  obtain ⟨r, hlow, ⟨hfits, hr, hround⟩ | ⟨-, hr, hround⟩⟩ :=
    exists_round_eq hn0 hleast (Int.le_trans hl htarget) ht
  · exact ⟨r, t, hr, hround, ⟨hfits, by omega, by omega⟩, by omega⟩
  · exact ⟨2 ^ 52, t + 1, hr, hround, ⟨by omega, by omega, by omega⟩, by omega⟩

/-! ## Sums -/

/-- A positive number and another make one that is no less than the first. -/
theorem exists_add_finite {m m' : Nat} {e e' : ℤ} {hm : 0 < m} {hm' : 0 < m'}
    (h : Full (.finite .positive m e hm)) (h' : Full (.finite .positive m' e' hm')) :
    ∃ n l hn,
      UnpackedFloat.add .binary64 (.finite .positive m e hm) (.finite .positive m' e' hm') =
        .finite .positive n l hn ∧ Full (.finite .positive n l hn) ∧ (e < l ∨ e = l ∧ m ≤ n) := by
  obtain ⟨l, hl⟩ : ∃ l, l = min e e' := ⟨_, rfl⟩
  have hreached : m * 2 ^ (e - l).toNat ≤ m <<< (e - l).toNat + m' <<< (e' - l).toNat := by
    rw [Nat.shiftLeft_eq]
    exact Nat.le_add_right ..
  have hpos : 0 < m <<< (e - l).toNat + m' <<< (e' - l).toNat :=
    Nat.lt_of_lt_of_le (Nat.mul_pos hm (Nat.two_pow_pos _)) hreached
  obtain ⟨n, l', hn, hround, hfull, hle⟩ :=
    exists_round h (l := l) (by have := h.2.1; have := h'.2.1; omega) (by omega) hreached
  refine ⟨n, l', hn, ?_, hfull, hle⟩
  rw [← hround]
  have hcompare :
      compare ((m <<< (e - l).toNat : Nat) + (m' <<< (e' - l).toNat : Nat) : ℤ) 0 = .gt :=
    Int.compare_eq_gt.mpr (by omega)
  simp only [UnpackedFloat.add, decreaseExponent, ← hl, Sign.apply, UnpackedFloat.normalize, hcompare]
  rfl

/-- Adding a number that is not negative to another gives no lesser one. -/
theorem rank_le_add {a b : UnpackedFloat} (ha : a.isNaN = false) (hb : b.isNaN = false)
    (hfull : Full a) (hfull' : Full b) (hunsigned : Unsigned a) (hunsigned' : Unsigned b) :
    let sum := UnpackedFloat.add .binary64 a b
    sum.isNaN = false ∧ Full sum ∧ rank a ≤ rank sum := by
  rcases a with (_ | _) | _ | s | ⟨_ | _, m, e, hm⟩
  · cases hunsigned
  · -- An infinity stays, as the other one is not the negative one.
    rcases b with (_ | _) | _ | _ | _
    · cases hunsigned'
    · exact ⟨rfl, trivial, le_rfl⟩
    · cases hb
    · exact ⟨rfl, trivial, le_rfl⟩
    · exact ⟨rfl, trivial, le_rfl⟩
  · cases ha
  · rcases b with (_ | _) | _ | s' | ⟨_ | _, m', e', hm'⟩
    · cases hunsigned'
    · exact ⟨rfl, trivial, by simp [UnpackedFloat.add, rank, Prod.Lex.le_iff]⟩
    · cases hb
    · rcases s with _ | _ <;> rcases s' with _ | _ <;> exact ⟨rfl, trivial, le_rfl⟩
    · cases hunsigned'
    · exact ⟨rfl, hfull', by simp [UnpackedFloat.add, rank, Prod.Lex.le_iff]⟩
  · cases hunsigned
  · rcases b with (_ | _) | _ | _ | ⟨_ | _, m', e', hm'⟩
    · cases hunsigned'
    · exact ⟨rfl, trivial, by simp [UnpackedFloat.add, rank, Prod.Lex.le_iff]⟩
    · cases hb
    · exact ⟨rfl, hfull, le_rfl⟩
    · cases hunsigned'
    · obtain ⟨n, l, hn, hsum, hfits, hle⟩ := exists_add_finite hfull hfull'
      simp only [hsum]
      exact ⟨rfl, hfits, rank_finite_le_iff.mpr hle⟩

/-- Packing makes a number that is not negative no lesser. -/
theorem rank_le_unpack_pack {a : UnpackedFloat} (h : a.isNaN = false) (hfull : Full a)
    (hunsigned : Unsigned a) :
    (Float.Model.pack a).unpack.isNaN = false ∧ rank a ≤ rank (Float.Model.pack a).unpack := by
  rcases a with (_ | _) | _ | (_ | _) | ⟨_ | _, m, e, hm⟩
  · cases hunsigned
  · exact ⟨rfl, le_rfl⟩
  · cases h
  · exact ⟨rfl, le_rfl⟩
  · exact ⟨rfl, le_rfl⟩
  · cases hunsigned
  · rw [unpack_pack_finite hfull]
    split
    · exact ⟨rfl, le_rfl⟩
    · exact ⟨rfl, by simp [rank, Prod.Lex.le_iff]⟩

/-! ## Differences -/

theorem unsigned_round (n : Nat) (l : ℤ) :
    Unsigned (UnpackedFloat.round .binary64 .positive n l) := by
  simp only [UnpackedFloat.round, roundWithAccuracy]
  split <;> trivial

theorem unsigned_unpack_packComponents (e : BitVec 11) (m : BitVec 52) :
    Unsigned (UnpackedFloat.unpack .binary64 (packComponents .binary64 .positive e m)) := by
  rw [UnpackedFloat.unpack]
  simp only [sign_packComponents]
  split
  · split <;> trivial
  · split
    · split <;> trivial
    · trivial

theorem unsigned_unpack_pack {a : UnpackedFloat} (h : Unsigned a) :
    Unsigned (Float.Model.pack a).unpack := by
  rcases a with (_ | _) | _ | (_ | _) | ⟨_ | _, m, e, hm⟩
  · cases h
  · trivial
  · trivial
  · trivial
  · trivial
  · cases h
  · show Unsigned (UnpackedFloat.unpack .binary64 (UnpackedFloat.pack .binary64 _))
    simp only [UnpackedFloat.pack]
    split
    · exact unsigned_unpack_packComponents ..
    · split <;> exact unsigned_unpack_packComponents ..

/-- Of numbers with full mantissas, the lesser one has the lesser mantissa at any exponent below. -/
theorem shifted_le {m m' : Nat} {e e' l : ℤ} {hm : 0 < m} {hm' : 0 < m'}
    (h : Full (.finite .positive m e hm)) (h' : Full (.finite .positive m' e' hm'))
    (hl : l = min e e') (hle : e < e' ∨ e = e' ∧ m ≤ m') :
    m <<< (e - l).toNat ≤ m' <<< (e' - l).toNat := by
  rw [Nat.shiftLeft_eq, Nat.shiftLeft_eq]
  rcases hle with hlt | ⟨rfl, hle⟩
  · have hzero : (e - l).toNat = 0 := by omega
    obtain ⟨k, hk⟩ : ∃ k, (e' - l).toNat = k + 1 := ⟨(e' - l).toNat - 1, by omega⟩
    have hnormal : 2 ^ 52 ≤ m' := h'.2.2.resolve_right (by have := h.2.1; omega)
    have hpow : 0 < 2 ^ k := Nat.two_pow_pos k
    rw [hzero, hk, Nat.pow_succ, Nat.pow_zero, Nat.mul_one]
    calc m ≤ 2 ^ 52 * 2 := h.1.le
      _ ≤ m' * (2 ^ k * 2) := Nat.mul_le_mul hnormal (by omega)
  · exact Nat.mul_le_mul_right _ hle

theorem unsigned_sub_finite {m m' : Nat} {e e' : ℤ} {hm : 0 < m} {hm' : 0 < m'}
    (h : Full (.finite .positive m e hm)) (h' : Full (.finite .positive m' e' hm'))
    (hle : e < e' ∨ e = e' ∧ m ≤ m') :
    Unsigned
      (UnpackedFloat.sub .binary64 (.finite .positive m' e' hm') (.finite .positive m e hm)) := by
  obtain ⟨l, hl⟩ : ∃ l, l = min e' e := ⟨_, rfl⟩
  have hshifted := shifted_le h h' (hl.trans (min_comm ..)) hle
  simp only [UnpackedFloat.sub, decreaseExponent, ← hl, Sign.apply, UnpackedFloat.normalize]
  split
  · rename_i hneg
    have hneg := Int.compare_eq_lt.mp hneg
    omega
  · trivial
  · exact unsigned_round ..

/-- Taking a number that is not negative from one that is no lesser leaves nothing negative. -/
theorem unsigned_sub {a b : UnpackedFloat} (ha : a.isNaN = false) (hb : b.isNaN = false)
    (hfull : Full a) (hfull' : Full b) (hunsigned : Unsigned a) (hle : rank a ≤ rank b) :
    Unsigned (UnpackedFloat.sub .binary64 b a) := by
  rcases a with (_ | _) | _ | s | ⟨_ | _, m, e, hm⟩
  · cases hunsigned
  · -- From an infinity, a difference is an infinity or not a number.
    rcases b with (_ | _) | _ | _ | ⟨_ | _, m', e', hm'⟩ <;> trivial
  · cases ha
  · rcases b with (_ | _) | _ | s' | ⟨_ | _, m', e', hm'⟩
    · simp [rank, Prod.Lex.le_iff] at hle
    · trivial
    · cases hb
    · rcases s with _ | _ <;> rcases s' with _ | _ <;> trivial
    · simp [rank, Prod.Lex.le_iff] at hle
    · trivial
  · cases hunsigned
  · rcases b with (_ | _) | _ | _ | ⟨_ | _, m', e', hm'⟩
    · simp [rank, Prod.Lex.le_iff] at hle
    · trivial
    · cases hb
    · simp [rank, Prod.Lex.le_iff] at hle
    · simp [rank, Prod.Lex.le_iff] at hle
    · exact unsigned_sub_finite hfull hfull' (rank_finite_le_iff.mp hle)

end Unpacked

/-! ## Floats -/

namespace Quantity

open Unpacked

theorem below_eq_lt (a b : Float) : below a b = a.toModel.unpack.lt b.toModel.unpack := by
  show decide (Float.lt a b = true) = _
  rw [Bool.decide_eq_true]
  show decide (Float.Model.lt _ _ = true) = _
  rw [Bool.decide_eq_true]
  rfl

theorem isNaN_eq_unpack (a : Float) : isNaN a = a.toModel.unpack.isNaN := rfl

theorem unpack_zero : (0 : Float).toModel.unpack = .zero .positive := rfl

/-- One float is at most another if neither is not a number and they are ranked so. -/
theorem atMost_iff_rank_le {a b : Float} :
    AtMost a b ↔ a.toModel.unpack.isNaN = false ∧ b.toModel.unpack.isNaN = false ∧
      rank a.toModel.unpack ≤ rank b.toModel.unpack := by
  unfold AtMost
  rw [below_eq_lt, isNaN_eq_unpack, isNaN_eq_unpack]
  refine and_congr_right fun ha => and_congr_right fun hb => ?_
  rw [← Bool.not_eq_true, lt_iff_rank_lt hb ha, not_lt]

theorem unsigned_of_atMost {a : Float} (h : AtMost 0 a) : Unsigned a.toModel.unpack := by
  have hbelow := h.2.2
  rwa [below_eq_lt, unpack_zero, lt_zero_eq_false_iff] at hbelow

/-- Floats respect their order, although they round. -/
instance : Ordered Float where
  zero_number := rfl
  refl a ha := atMost_iff_rank_le.mpr ⟨ha, ha, le_rfl⟩
  trans a b c hab hbc := by
    rw [atMost_iff_rank_le] at hab hbc ⊢
    exact ⟨hab.1, hbc.2.1, hab.2.2.trans hbc.2.2⟩
  add a b ha hb := by
    obtain ⟨hnumber, hfull, hsum⟩ := rank_le_add ha.2.1 hb.2.1 (full_unpack _) (full_unpack _)
      (unsigned_of_atMost ha) (unsigned_of_atMost hb)
    have hunsigned := (unsigned_iff_rank_le ha.2.1).mp (unsigned_of_atMost ha)
    obtain ⟨hpacked, hle⟩ := rank_le_unpack_pack hnumber hfull
      ((unsigned_iff_rank_le hnumber).mpr (hunsigned.trans hsum))
    exact atMost_iff_rank_le.mpr ⟨ha.2.1, hpacked, hsum.trans hle⟩
  sub a b ha hab := by
    rw [below_eq_lt, unpack_zero, lt_zero_eq_false_iff]
    have hle := (atMost_iff_rank_le.mp hab).2.2
    exact unsigned_unpack_pack (unsigned_sub hab.1 hab.2.1 (full_unpack _) (full_unpack _)
      (unsigned_of_atMost ha) hle)

end Quantity

end Metering
