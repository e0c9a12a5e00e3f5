import Metering.Proofs.Histograms.Algebra

/-!
# Buckets of Valid Bounds

Bounds are checked pair by pair. If they are valid then each is below all that follow, so the bounds
below a number come first, the binary search counts them, and each number is in the one bucket whose
bounds enclose it.
-/

namespace Metering

open Quantity

variable {α : Type} [Quantity α]

/-! ## Valid bounds -/

namespace Quantity

instance (a b : α) : Decidable (AtMost a b) := inferInstanceAs (Decidable (_ ∧ _ ∧ _))

/-- An order in which finite values are numbers, and the standard bounds ascend. -/
class Scaled (α : Type) [Quantity α] : Prop extends Linear α where
  number : ∀ a : α, isFinite a = true → isNaN a = false
  standard : strictlyAscending (Aggregation.standardBounds : List α) = true

instance : Scaled Int where
  number _ _ := rfl
  standard := by decide +kernel

instance : Scaled Float where
  number a h := by
    have h : a.toModel.unpack.isFinite = true := h
    rw [isNaN_eq_unpack]
    revert h
    cases a.toModel.unpack <;>
      simp [Float.Model.UnpackedFloat.isFinite, Float.Model.UnpackedFloat.isNaN]
  standard := by decide +kernel

variable [Scaled α] {bounds : List α}

omit [Scaled α] in
theorem isFinite_of_strictlyAscending (h : strictlyAscending bounds = true) :
    ∀ b ∈ bounds, isFinite b = true := by
  induction bounds with
  | nil => nofun
  | cons a rest ih =>
    cases rest with
    | nil => simpa [strictlyAscending] using h
    | cons b rest =>
      obtain ⟨hfirst, hrest⟩ := (Bool.and_eq_true ..).mp h
      exact List.forall_mem_cons.mpr ⟨((Bool.and_eq_true ..).mp hfirst).1, ih hrest⟩

/-- To compare neighbours is to compare all. -/
theorem pairwise_of_strictlyAscending (h : strictlyAscending bounds = true) :
    bounds.Pairwise fun a b => below a b = true := by
  have hnumber : ∀ b ∈ bounds, isNaN b = false :=
    fun b hb => Scaled.number b (isFinite_of_strictlyAscending h b hb)
  induction bounds with
  | nil => exact .nil
  | cons a rest ih =>
    cases rest with
    | nil => exact List.pairwise_singleton ..
    | cons b rest =>
      obtain ⟨hfirst, hrest⟩ := (Bool.and_eq_true ..).mp h
      have hab : below a b = true := ((Bool.and_eq_true ..).mp hfirst).2
      obtain ⟨ha, hothers⟩ := List.forall_mem_cons.mp hnumber
      have hpairwise := ih hrest hothers
      refine List.pairwise_cons.mpr ⟨fun c hc => ?_, hpairwise⟩
      rcases List.mem_cons.mp hc with rfl | hc
      · exact hab
      · -- The next bound is below all that come after it.
        exact contest_below.trans ha (hothers b (List.mem_cons_self ..))
          (hothers c (List.mem_cons_of_mem _ hc)) hab ((List.pairwise_cons.mp hpairwise).1 c hc)

end Quantity

/-! ## The bucket of a value -/

namespace Histogram

/-- Whether a value belongs in the bucket with a number: it is above the bound before the bucket, if
there is one, and at most the bound of the bucket, if there is one. -/
def belongs (bounds : List α) (i : Nat) (v : α) : Bool :=
  (i == 0 || bounds[i - 1]?.any (below · v)) && bounds[i]?.all fun b => decide (AtMost v b)

variable [Scaled α] {h : Histogram α} {v : α}

/-- A number is put in the bucket that it belongs in. -/
theorem belongs_eq (hbounds : strictlyAscending h.bounds = true) (hv : isNaN v = false) (i : Nat) :
    belongs h.bounds i v = decide (h.bucket v = i) := by
  have hnumber : ∀ b ∈ h.bounds, isNaN b = false :=
    fun b hb => Scaled.number b (isFinite_of_strictlyAscending hbounds b hb)
  -- The bounds below a number come first.
  have hfirst : h.bounds.Pairwise fun a b => below b v = true → below a v = true :=
    (pairwise_of_strictlyAscending hbounds).imp_of_mem fun ha hb hab hbv =>
      contest_below.trans (hnumber _ ha) (hnumber _ hb) hv hab hbv
  have hbucket : h.bucket v = (h.bounds.takeWhile (below · v)).length :=
    Search.leading_eq_takeWhile _ _ hfirst
  have hle := (List.takeWhile_sublist (below · v) (l := h.bounds)).length_le
  have hbefore : h.bounds[i - 1]?.any (below · v) =
      decide (i - 1 < (h.bounds.takeWhile (below · v)).length) := by
    by_cases hi : i - 1 < h.bounds.length
    · exact Search.any_getElem?_eq _ _ hfirst _ hi
    · rw [List.getElem?_eq_none (Nat.le_of_not_lt hi), Option.any_none]
      exact (decide_eq_false (by omega)).symm
  have hat : h.bounds[i]?.all (fun b => decide (AtMost v b)) =
      decide (¬ i < (h.bounds.takeWhile (below · v)).length) := by
    by_cases hi : i < h.bounds.length
    · have hany := Search.any_getElem?_eq _ _ hfirst _ hi
      have hb := hnumber _ (List.getElem_mem hi)
      rw [List.getElem?_eq_getElem hi] at hany ⊢
      rw [Option.any_some] at hany
      simp only [Option.all_some, AtMost, hv, hb, true_and, hany]
      simp
    · rw [List.getElem?_eq_none (Nat.le_of_not_lt hi), Option.all_none]
      exact (decide_eq_true (by omega)).symm
  rw [belongs, hbefore, hat, hbucket, Bool.eq_iff_iff]
  simp only [Bool.and_eq_true, Bool.or_eq_true, beq_iff_eq, decide_eq_true_eq]
  omega

/-- Each bucket counts the numbers that belong in it. -/
theorem getD_buckets_summarize (hbounds : strictlyAscending h.bounds = true) {values : List α}
    (hvalues : ∀ v ∈ values, isNaN v = false) {i : Nat} (hi : i < h.bounds.length + 1) :
    (h.summarize values).buckets.getD i 0 = values.countP (belongs h.bounds i) := by
  have hcount : (values.map fun v => if h.bucket v = i then 1 else 0).sum =
      values.countP (belongs h.bounds i) := by
    induction values with
    | nil => rfl
    | cons v rest ih =>
      obtain ⟨hv, hrest⟩ := List.forall_mem_cons.mp hvalues
      rw [List.map_cons, List.sum_cons, ih hrest, List.countP_cons, belongs_eq hbounds hv, Nat.add_comm]
      simp
  rw [summarize_eq_recordAll, ← hcount]
  refine ((Aggregator.adds_bucket h hi).recordAll _).2.trans ?_
  rw [List.map_map]
  rfl

end Histogram

end Metering
