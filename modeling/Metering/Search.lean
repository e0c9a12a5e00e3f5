/-!
# Binary search

Halving search for the place where a yes-or-no question about positions turns from yes to no.

Main statements: the answer never exceeds the number of positions (`boundary_le`), whatever the question, and it
is exactly the turning point when there is one (`boundary_eq`). On a list whose elements that pass a test come
first, the search finds how many they are (`leading_eq_takeWhile`).
-/

namespace Metering.Search

/-- Halves the `size` candidate positions from `base` on: the upper half is kept when its first position answers
yes, and the last candidate left decides between itself and the position after it. -/
def narrow (yes : Nat → Bool) (base size : Nat) : Nat :=
  if size ≤ 1 then
    if yes base then base + 1 else base
  else if yes (base + size / 2) then
    narrow yes (base + size / 2) (size - size / 2)
  else
    narrow yes base (size - size / 2)
termination_by size
decreasing_by all_goals omega

/-- How many of the first `n` positions answer yes, when the yes answers come before the no answers. -/
def boundary (yes : Nat → Bool) (n : Nat) : Nat :=
  if n = 0 then 0 else narrow yes 0 n

/-- How many leading elements satisfy the test, when those that do come first. -/
def leading {β : Type} (test : β → Bool) (xs : List β) : Nat :=
  boundary (fun i => xs[i]?.any test) xs.length

/-! ## Range and turning point -/

theorem narrow_le (yes : Nat → Bool) (base size : Nat) (h : 0 < size) :
    narrow yes base size ≤ base + size := by
  fun_induction narrow yes base size with
  | case1 base size hs hy => omega
  | case2 base size hs hy => omega
  | case3 base size hs hy ih =>
    have := ih (by omega)
    omega
  | case4 base size hs hy ih =>
    have := ih (by omega)
    omega

/-- The answer is one of the `n + 1` gaps between positions. -/
theorem boundary_le (yes : Nat → Bool) (n : Nat) : boundary yes n ≤ n := by
  unfold boundary
  split
  · omega
  · have := narrow_le yes 0 n (by omega)
    omega

theorem leading_le_length {β : Type} (test : β → Bool) (xs : List β) :
    leading test xs ≤ xs.length :=
  boundary_le _ _

theorem narrow_eq (yes : Nat → Bool) (k base size : Nat) (hs : 0 < size) (hb : base ≤ k)
    (hk : k ≤ base + size) (h : ∀ i, i < base + size → yes i = decide (i < k)) :
    narrow yes base size = k := by
  fun_induction narrow yes base size with
  | case1 base size hs' hy =>
    have := h base (by omega)
    simp [hy] at this
    omega
  | case2 base size hs' hy =>
    have := h base (by omega)
    simp [hy] at this
    omega
  | case3 base size hs' hy ih =>
    -- The turning point is above the middle.
    have hlt : base + size / 2 < k := by
      have := h (base + size / 2) (by omega)
      simpa [hy] using this
    exact ih (by omega) (by omega) (by omega) fun i hi => h i (by omega)
  | case4 base size hs' hy ih =>
    -- The turning point is not above the middle.
    have hle : k ≤ base + size / 2 := by
      have := h (base + size / 2) (by omega)
      simpa [hy] using this
    exact ih (by omega) hb (by omega) fun i hi => h i (by omega)

/-- A question that says yes exactly below `k` is answered by `k`. -/
theorem boundary_eq (yes : Nat → Bool) (k n : Nat) (hk : k ≤ n)
    (h : ∀ i, i < n → yes i = decide (i < k)) : boundary yes n = k := by
  unfold boundary
  split
  · omega
  · exact narrow_eq yes k 0 n (by omega) (by omega) (by omega) fun i hi => h i (by omega)

/-! ## Lists -/

theorem any_getElem?_eq {β : Type} (test : β → Bool) (xs : List β)
    (h : xs.Pairwise fun a b => test b = true → test a = true) (i : Nat) (hi : i < xs.length) :
    xs[i]?.any test = decide (i < (xs.takeWhile test).length) := by
  induction xs generalizing i with
  | nil => simp at hi
  | cons a rest ih =>
    obtain ⟨ha, hrest⟩ := List.pairwise_cons.1 h
    cases hta : test a with
    | true =>
      cases i with
      | zero => simp [hta]
      | succ i =>
        have := ih hrest i (by simpa using hi)
        simpa [hta] using this
    | false =>
      -- Nothing after an element that fails can pass.
      have none_passes : ∀ b ∈ a :: rest, test b = false := by
        intro b hb
        rcases List.mem_cons.1 hb with rfl | hb
        · exact hta
        · cases htb : test b with
          | false => rfl
          | true => rw [ha b hb htb] at hta; cases hta
      have hmem := none_passes _ (List.getElem_mem hi)
      rw [List.getElem?_eq_getElem hi]
      simp [hta, hmem]

/-- When the elements that pass a test come first, the search counts them. -/
theorem leading_eq_takeWhile {β : Type} (test : β → Bool) (xs : List β)
    (h : xs.Pairwise fun a b => test b = true → test a = true) :
    leading test xs = (xs.takeWhile test).length :=
  boundary_eq _ _ _ (List.takeWhile_sublist _).length_le fun i hi => any_getElem?_eq test xs h i hi

end Metering.Search
