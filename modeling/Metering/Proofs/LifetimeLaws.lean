import Metering.Lifetime.Basic

/-!
# Laws of Lifetimes

What the counts of a lifetime are after one of them was written, and what the operations on a
lifetime come to while it lasts and once it is over.
-/

namespace Metering.Lifetime

variable {τ : Type}

/-! ## Counts -/

@[simp]
theorem count_withCount_self (l : Lifetime τ) (n : Nat) (f : Flavour) :
    (l.withCount n f).count f = n := by
  cases f <;> rfl

theorem count_withCount_of_ne (l : Lifetime τ) (n : Nat) {f g : Flavour} (h : g ≠ f) :
    (l.withCount n f).count g = l.count g := by
  cases f <;> cases g <;> first | rfl | exact absurd rfl h

@[simp]
theorem stale_withCount (l : Lifetime τ) (n : Nat) (f : Flavour) :
    (l.withCount n f).stale = l.stale := by
  cases f <;> rfl

@[simp]
theorem pending_withCount (l : Lifetime τ) (n : Nat) (f : Flavour) :
    (l.withCount n f).pending = l.pending := by
  cases f <;> rfl

theorem isUnreferenced_iff (l : Lifetime τ) : l.isUnreferenced = true ↔ ∀ f, l.count f = 0 := by
  simp only [isUnreferenced, Bool.and_eq_true, beq_iff_eq]
  constructor
  · rintro ⟨ht, hp⟩ f
    cases f
    · exact ht
    · exact hp
  · intro h
    exact ⟨h .transient, h .persistent⟩

/-! ## The end -/

/-- A lifetime that is over: nothing is held and nothing waits any more. -/
def expired : Lifetime τ := ⟨0, 0, true, []⟩

@[simp]
theorem stale_expired : (expired : Lifetime τ).stale = true := rfl

@[simp]
theorem count_expired (f : Flavour) : (expired : Lifetime τ).count f = 0 := by
  cases f <;> rfl

theorem count_settle (l : Lifetime τ) (f : Flavour) : l.settle.2.count f = l.count f := by
  unfold settle
  split
  · cases f <;> rfl
  · rfl

/-- Settling a lifetime changes nothing, unless it lasts and nothing is held: then it ends, and all
that waited is handed out. -/
theorem settle_cases (l : Lifetime τ) :
    (l.settle = ([], l) ∧ ¬ (l.stale = false ∧ ∀ f, l.count f = 0)) ∨
      (l.settle = (l.pending, expired) ∧ l.stale = false ∧ ∀ f, l.count f = 0) := by
  by_cases hends : l.stale = false ∧ ∀ f, l.count f = 0
  · refine .inr ⟨?_, hends⟩
    obtain ⟨hlasts, hcount⟩ := hends
    have ht : l.transient = 0 := hcount .transient
    have hp : l.persistent = 0 := hcount .persistent
    simp [settle, hlasts, (isUnreferenced_iff l).mpr hcount, expired, ht, hp]
  · refine .inl ⟨if_neg fun h => hends ?_, hends⟩
    simpa [isUnreferenced_iff] using h

theorem release_of_eq_zero {l : Lifetime τ} {f : Flavour} (h : l.count f = 0) :
    l.release f = (false, [], l) :=
  if_pos h

theorem release_of_ne_zero {l : Lifetime τ} {f : Flavour} (h : l.count f ≠ 0) :
    l.release f = (true, (l.withCount (l.count f - 1) f).settle) :=
  if_neg h

/-- A release either hands nothing out and leaves open whether the lifetime is over, or it ends a
lifetime and hands out all that was waiting for that. -/
theorem release_cases (l : Lifetime τ) (f : Flavour) :
    ((l.release f).2.1 = [] ∧ (l.release f).2.2.stale = l.stale ∧
        (l.release f).2.2.pending = l.pending) ∨
      (l.stale = false ∧ (l.release f).2.1 = l.pending ∧ (l.release f).2.2.stale = true) := by
  by_cases hheld : l.count f = 0
  · rw [release_of_eq_zero hheld]
    exact .inl ⟨rfl, rfl, rfl⟩
  · rw [release_of_ne_zero hheld]
    -- With the count one lower, it is settled whether that was the last reference.
    rcases settle_cases (l.withCount (l.count f - 1) f) with ⟨hsettle, -⟩ | ⟨hsettle, hlasts, -⟩
    · rw [hsettle]
      exact .inl ⟨rfl, stale_withCount .., pending_withCount ..⟩
    · rw [hsettle]
      exact .inr ⟨(stale_withCount ..).symm.trans hlasts, pending_withCount .., rfl⟩

@[simp]
theorem acquire_expired (f : Flavour) : (expired : Lifetime τ).acquire f = (false, expired) := rfl

@[simp]
theorem release_expired (f : Flavour) : (expired : Lifetime τ).release f = (false, [], expired) := by
  cases f <;> rfl

@[simp]
theorem settle_expired : (expired : Lifetime τ).settle = ([], expired) := rfl

@[simp]
theorem await_expired (task : τ) : (expired : Lifetime τ).await task = ([task], expired) := rfl

end Metering.Lifetime
