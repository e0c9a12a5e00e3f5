import Metering.Exemplar
import Mathlib.Data.List.Perm.Subperm

/-!
# Reservoirs Sample what they are Offered

Whatever is drawn, a reservoir holds exemplars of some of the measurements that it was offered since it
was last emptied: as many as it has room for, none of them twice, and all of them in their order while
there is room. The invariant is stated of anything that an exemplar can be made of, so measurements of
which the exemplars are the same can still be told apart.
-/

namespace Metering.Reservoir

variable {α β : Type} {exemplar : β → Exemplar α}

/-- Whether some of what was offered, listed slot by slot, is what a reservoir of a size may hold. -/
structure Picks (size : Nat) (offered picks : List β) : Prop where
  subperm : picks.Subperm offered
  length : picks.length = min size offered.length
  all : offered.length ≤ size → picks = offered

/-- Whether a reservoir, of some size, has seen what was offered and holds exemplars of picks. -/
structure Samples (exemplar : β → Exemplar α) (size : Nat) (offered : List β) (r : Reservoir α) : Prop where
  size_eq : r.size = size
  seen : size ≠ 0 → r.seen = offered.length
  held : ∃ picks, Picks size offered picks ∧ r.held = picks.map exemplar

namespace Picks

variable {size : Nat} {offered picks : List β}

theorem nil (size : Nat) : Picks size ([] : List β) [] :=
  ⟨.refl _, (Nat.min_zero size).symm, fun _ => rfl⟩

theorem nodup (h : Picks size offered picks) (hoffered : offered.Nodup) : picks.Nodup := by
  obtain ⟨some, hperm, hsublist⟩ := h.subperm
  exact hperm.nodup_iff.mp (hoffered.sublist hsublist)

/-- Without room nothing is picked. -/
theorem of_zero (offered : List β) : Picks 0 offered [] :=
  ⟨List.nil_subperm, (Nat.zero_min _).symm,
    fun h => (List.length_eq_zero_iff.mp (Nat.le_zero.mp h)).symm⟩

/-- While there is room, everything is picked. -/
theorem append (h : Picks size offered picks) (hroom : offered.length < size) (x : β) :
    Picks size (offered ++ [x]) (picks ++ [x]) := by
  obtain rfl : picks = offered := h.all (Nat.le_of_lt hroom)
  refine ⟨.refl _, (Nat.min_eq_right ?_).symm, fun _ => rfl⟩
  rw [List.length_append]
  exact hroom

/-- Without room for all, an offer takes one of the slots or none. -/
theorem set (h : Picks size offered picks) (hfull : size ≤ offered.length) (slot : Nat) (x : β) :
    Picks size (offered ++ [x]) (picks.set slot x) := by
  have hlength : (offered ++ [x]).length = offered.length + 1 := List.length_append
  refine ⟨?_, ?_, fun hle => ?_⟩
  · by_cases hslot : slot < picks.length
    · -- The offer stands in for what was in the slot.
      have hrest : (picks.eraseIdx slot).Subperm offered :=
        (picks.eraseIdx_sublist slot).subperm.trans h.subperm
      exact ((List.set_perm_cons_eraseIdx hslot x).subperm.trans ((List.subperm_cons x).mpr hrest)).trans
        (List.perm_append_singleton x offered).symm.subperm
    · rw [List.set_eq_of_length_le (Nat.le_of_not_lt hslot)]
      exact h.subperm.trans (List.sublist_append_left ..).subperm
  · have hbefore := h.length
    rw [List.length_set, hlength]
    omega
  · omega

end Picks

namespace Samples

variable {size : Nat} {offered : List β} {r : Reservoir α}

theorem empty (exemplar : β → Exemplar α) (size : Nat) : Samples exemplar size [] (.empty size) :=
  ⟨rfl, fun _ => rfl, [], .nil size, rfl⟩

/-- An offer is sampled, whatever is drawn. -/
theorem offer (h : Samples exemplar size offered r) (draw : Nat) (x : β) :
    Samples exemplar size (offered ++ [x]) (r.offer draw (exemplar x)) := by
  obtain ⟨rfl, hseen, picks, hpicks, hheld⟩ := h
  have hlength : (offered ++ [x]).length = offered.length + 1 := List.length_append
  unfold Reservoir.offer
  split
  · rename_i hzero
    -- Without slots nothing was picked, and nothing is.
    refine ⟨rfl, fun hne => absurd hzero hne, [], hzero ▸ .of_zero _, ?_⟩
    have hnothing : picks.length = 0 := by
      rw [hpicks.length, hzero]
      exact Nat.zero_min _
    rw [hheld, List.length_eq_zero_iff.mp hnothing]
  · rename_i hne
    have hseen := hseen hne
    split
    · rename_i hroom
      refine ⟨rfl, fun _ => hlength ▸ congrArg (· + 1) hseen, picks ++ [x],
        hpicks.append (hseen ▸ hroom) x, ?_⟩
      rw [hheld, List.map_append, List.map_singleton]
    · rename_i hfull
      refine ⟨rfl, fun _ => hlength ▸ congrArg (· + 1) hseen, _,
        hpicks.set (hseen ▸ Nat.le_of_not_lt hfull) (draw % (r.seen + 1)) x, ?_⟩
      rw [hheld, List.map_set]

/-- After a collection nothing was offered. -/
theorem collect (h : Samples exemplar size offered r) : Samples exemplar size [] r.collect.2 :=
  ⟨h.size_eq, fun _ => rfl, [], .nil size, rfl⟩

end Samples

end Metering.Reservoir
