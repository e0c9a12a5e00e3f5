import Metering.Proofs.Filters.Merging

/-!
# The Algebra of Last Values

The measurement that a last value keeps, said without running through the measurements: of those that
no other is later than, the one that arrived last. Clocks may run backwards and may stand still.
Summaries of last values are a monoid, and taking measurements in is a homomorphism into it: whether a
series records them all, or several series record parts of them and are merged in order, the same
sample is left.
-/

namespace Metering

namespace LastValue

variable {α : Type}

/-- Of the measurements that no other is later than, the last one. -/
def newest (ms : List (Measurement α)) : Option (Measurement α) :=
  (ms.filter fun m => ms.all fun x => decide (x.time ≤ m.time)).getLast?

/-- Nothing that arrived earlier is later, and all that arrived afterwards is earlier. -/
theorem newest_eq_some_iff {ms : List (Measurement α)} {m : Measurement α} :
    newest ms = some m ↔ ∃ before after, ms = before ++ m :: after ∧
      (∀ x ∈ before, x.time ≤ m.time) ∧ ∀ x ∈ after, x.time < m.time := by
  have hnewest {before after : List (Measurement α)} {m : Measurement α}
      (hbefore : ∀ x ∈ before, x.time ≤ m.time) (hafter : ∀ x ∈ after, x.time < m.time) :
      newest (before ++ m :: after) = some m := by
    let ahead (y : Measurement α) : Bool :=
      (before ++ m :: after).all fun x => decide (x.time ≤ y.time)
    have hm : ahead m = true := by
      simp only [ahead, List.all_append, List.all_cons, Bool.and_eq_true, List.all_eq_true,
        decide_eq_true_eq]
      exact ⟨hbefore, Nat.le_refl _, fun x hx => Nat.le_of_lt (hafter x hx)⟩
    -- What arrived afterwards is not kept, because `m` is later.
    have hrest : after.filter ahead = [] := by
      refine List.filter_eq_nil_iff.mpr fun y hy hall => ?_
      have hle := of_decide_eq_true (List.all_eq_true.mp hall m (by simp))
      exact absurd (hafter y hy) (Nat.not_lt.mpr hle)
    show ((before ++ m :: after).filter ahead).getLast? = some m
    rw [List.filter_append, List.filter_cons_of_pos hm, hrest, List.getLast?_concat]
  refine ⟨fun h => ?_, fun ⟨before, after, hms, hbefore, hafter⟩ => hms ▸ hnewest hbefore hafter⟩
  have hnil : ms ≠ [] := by
    rintro rfl
    cases h
  obtain ⟨before, x, after, rfl, hbefore, hafter⟩ := exists_latest hnil
  obtain rfl := Option.some.inj ((hnewest hbefore hafter).symm.trans h)
  exact ⟨before, after, rfl, hbefore, hafter⟩

theorem exists_newest {ms : List (Measurement α)} (h : ms ≠ []) : ∃ m, newest ms = some m := by
  obtain ⟨before, m, after, hms, hbefore, hafter⟩ := exists_latest h
  exact ⟨m, newest_eq_some_iff.mpr ⟨before, after, hms, hbefore, hafter⟩⟩

/-- What is kept is the value and the time of the newest measurement. -/
theorem recordAll_eq_newest [Quantity α] (ms : List (Measurement α)) :
    Aggregator.lastValue.recordAll none ms = (newest ms).map fun m => (m.value, m.time) := by
  by_cases hnil : ms = []
  · subst hnil
    rfl
  · obtain ⟨m, hm⟩ := exists_newest hnil
    obtain ⟨before, after, rfl, hbefore, hafter⟩ := newest_eq_some_iff.mp hm
    rw [hm, recordAll_of_latest hbefore hafter, Option.map_some]

/-! ## Merges -/

theorem merge_none_right (s : Summary α) : merge s none = s := by cases s <;> rfl

/-- Which of three samples is left does not depend on which two are compared first: of two at the same
time both ways take the right one. -/
theorem merge_assoc (s t u : Summary α) : merge (merge s t) u = merge s (merge t u) := by
  cases t with
  | none => rw [merge_none_right, merge_none_left]
  | some y =>
    cases s with
    | none => rw [merge_none_left, merge_none_left]
    | some x =>
      cases u with
      | none => rw [merge_none_right, merge_none_right]
      | some z =>
        obtain ⟨v, a⟩ := x
        obtain ⟨w, b⟩ := y
        obtain ⟨r, c⟩ := z
        by_cases hba : b < a <;> by_cases hcb : c < b
        · -- The first is later than the second, and that is later than the third.
          simp [merge, hba, hcb, Nat.lt_trans hcb hba]
        · simp [merge, hba, hcb]
        · simp [merge, hba, hcb]
        · -- The third is no earlier than the second, and that is no earlier than the first.
          have hca : ¬c < a := fun hca => hcb (Nat.lt_of_lt_of_le hca (Nat.le_of_not_lt hba))
          simp [merge, hba, hcb, hca]

theorem foldl_merge (s : Summary α) (summaries : List (Summary α)) :
    summaries.foldl merge s = merge s (lastOf summaries) := by
  induction summaries generalizing s with
  | nil => exact (merge_none_right s).symm
  | cons t rest ih =>
    have hrest : lastOf (t :: rest) = merge t (lastOf rest) := by
      rw [lastOf, List.foldl_cons, ih, merge_none_left]
    rw [List.foldl_cons, ih, hrest, merge_assoc]

theorem lastOf_append (xs ys : List (Summary α)) :
    lastOf (xs ++ ys) = merge (lastOf xs) (lastOf ys) := by
  rw [lastOf, List.foldl_append, foldl_merge]
  rfl

variable [Quantity α]

/-- What is kept of two parts is the merge of what is kept of each. -/
theorem recordAll_append (xs ys : List (Measurement α)) :
    Aggregator.lastValue.recordAll none (xs ++ ys) =
      merge (Aggregator.lastValue.recordAll none xs) (Aggregator.lastValue.recordAll none ys) := by
  rw [recordAll_eq, recordAll_eq, recordAll_eq, List.map_append, lastOf_append]

/-- What is kept of many parts is the merge of what is kept of each, in order. -/
theorem recordAll_flatten (parts : List (List (Measurement α))) :
    Aggregator.lastValue.recordAll none parts.flatten =
      Aggregator.lastValue.mergeAll (parts.map (Aggregator.lastValue.recordAll none)) := by
  rw [mergeAll_eq]
  induction parts using List.reverseRecOn with
  | nil => rfl
  | append_singleton parts part ih =>
    have hlast : lastOf [Aggregator.lastValue.recordAll none part] =
        (Aggregator.lastValue.recordAll none part : Summary α) := merge_none_left _
    rw [List.flatten_append, List.flatten_singleton, recordAll_append, ih, List.map_append,
      List.map_singleton, lastOf_append, hlast]

end LastValue

/-- Last values are a maximum that prefers the right one. Whatever the times, taking measurements in
from the start keeps the last of those at the greatest time, and nothing if there are none. Merging is
associative, and the summary of no measurement is neutral on both sides. Wherever measurements are
split, into two parts or into many, the merge of what the parts keep is what is kept of them all. -/
theorem lastValue_laws (α : Type) [Quantity α] :
    let a : Aggregator α := .lastValue
    (∀ ms : List (Measurement α),
      a.recordAll a.empty ms = (LastValue.newest ms).map (fun m => (m.value, m.time)) ∧
      (a.recordAll a.empty ms = a.empty ↔ ms = [])) ∧
    (∀ s t u, a.merge (a.merge s t) u = a.merge s (a.merge t u)) ∧
    (∀ s, a.merge a.empty s = s ∧ a.merge s a.empty = s) ∧
    (∀ xs ys, a.recordAll a.empty (xs ++ ys) =
      a.merge (a.recordAll a.empty xs) (a.recordAll a.empty ys)) ∧
    ∀ parts : List (List (Measurement α)),
      a.recordAll a.empty parts.flatten = a.mergeAll (parts.map (a.recordAll a.empty)) := by
  refine ⟨fun ms => ⟨LastValue.recordAll_eq_newest ms, fun h => ?_, ?_⟩, LastValue.merge_assoc,
    fun s => ⟨LastValue.merge_none_left s, LastValue.merge_none_right s⟩,
    LastValue.recordAll_append, LastValue.recordAll_flatten⟩
  · -- If there is a measurement, then one of them is kept.
    by_contra hnil
    obtain ⟨m, hm⟩ := LastValue.exists_newest hnil
    have hkept := (LastValue.recordAll_eq_newest ms).symm.trans h
    rw [hm] at hkept
    cases hkept
  · rintro rfl
    rfl

end Metering
