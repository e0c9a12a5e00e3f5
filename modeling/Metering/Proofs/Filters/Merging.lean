import Metering.Proofs.Filters.Order
import Metering.Proofs.Deltas.Additive

/-!
# Summaries of Shuffled Measurements

Measurements that were summarised group by group, and the groups merged, against the same
measurements in one go, in the order in which they were made. Counts do not depend on order and
grouping, nor do sums that are exact. The extremes of numbers are the same up to the sign of zero,
which is all that distinguishes the order of comparisons. The last value is the same if no two groups
end at the same time, for then the group with the latest measurement is known.
-/

namespace Metering

variable {α : Type} [Quantity α]

/-- Arithmetic in which sums depend on no order and no grouping. -/
class Quantity.Unrounded (α : Type) [Quantity α] : Prop where
  zero_add : ∀ a : α, 0 + a = a
  add_comm : ∀ a b : α, a + b = b + a
  add_assoc : ∀ a b c : α, a + b + c = a + (b + c)

instance : Quantity.Unrounded Int := ⟨Int.zero_add, Int.add_comm, Int.add_assoc⟩

/-! ## Merges -/

/-- What two summaries of a histogram have in common if they are of the same measurements, taken in
another order. -/
structure Histogram.Agrees (s t : Summary α) : Prop where
  count : s.count = t.count
  buckets : s.buckets = t.buckets
  min : Option.Rel Quantity.Same s.min t.min
  max : Option.Rel Quantity.Same s.max t.max
  sum : Quantity.Unrounded α → s.sum = t.sum

namespace Aggregator

/-- The merge of summaries, one after the other. -/
def mergeAll (a : Aggregator α) : List a.Summary → a.Summary
  | [] => a.empty
  | s :: rest => rest.foldl a.merge s

/-- Whether summaries are the same as far as that can be when measurements are shuffled. -/
def Agrees : (a : Aggregator α) → a.Summary → a.Summary → Prop
  | sum _, s, t => Quantity.Unrounded α → s = t
  | lastValue, s, t => s = t
  | histogram _, s, t => Histogram.Agrees s t

omit [Quantity α] in
/-- Whether it is settled which of some summaries is the last one: of last values the times differ. -/
def Apart : (a : Aggregator α) → List a.Summary → Prop
  | lastValue, summaries => ((summaries.filterMap id).map (·.2)).Nodup
  | sum _, _ | histogram _, _ => True

/-- Whether a summary is the merge of others, in whatever order they are merged. -/
def MergeOf (a : Aggregator α) (summaries : List a.Summary) (s : a.Summary) : Prop :=
  a.Apart summaries → ∀ order, order.Perm summaries → a.Agrees (a.mergeAll order) s

variable {a : Aggregator α}

theorem mergeAll_concat {summaries : List a.Summary} (h : summaries ≠ []) (s : a.Summary) :
    a.mergeAll (summaries ++ [s]) = a.merge (a.mergeAll summaries) s := by
  cases summaries with
  | nil => exact absurd rfl h
  | cons first rest => simp [mergeAll, List.foldl_append]

theorem recordAll_concat (s : a.Summary) (ms : List (Measurement α)) (m : Measurement α) :
    a.recordAll s (ms ++ [m]) = a.record (a.recordAll s ms) m.value m.time := by
  simp [recordAll, List.foldl_append]

/-! ## What adds up -/

/-- A part of summaries to which each measurement adds its share, and which adds up when summaries are
merged that fit together. -/
structure Adds {β : Type} [AddCommMonoid β] (a : Aggregator α) (fits : a.Summary → Prop)
    (part : a.Summary → β) (share : α → β) : Prop where
  fits_empty : fits a.empty
  fits_record : ∀ s value time, fits s → fits (a.record s value time)
  fits_merge : ∀ s t, fits s → fits t → fits (a.merge s t)
  empty : part a.empty = 0
  record : ∀ s value time, fits s → part (a.record s value time) = part s + share value
  merge : ∀ s t, fits s → fits t → part (a.merge s t) = part s + part t

namespace Adds

variable {β : Type} [AddCommMonoid β] {fits : a.Summary → Prop} {part : a.Summary → β}
  {share : α → β}

theorem recordAll (h : Adds a fits part share) (ms : List (Measurement α)) :
    fits (a.recordAll a.empty ms) ∧
      part (a.recordAll a.empty ms) = (ms.map fun m => share m.value).sum := by
  induction ms using List.reverseRecOn with
  | nil => exact ⟨h.fits_empty, h.empty⟩
  | append_singleton ms m ih =>
    rw [recordAll_concat]
    refine ⟨h.fits_record _ _ _ ih.1, ?_⟩
    rw [h.record _ _ _ ih.1, ih.2, List.map_append, List.sum_append]
    simp

theorem mergeAll (h : Adds a fits part share) {summaries : List a.Summary}
    (hfits : ∀ s ∈ summaries, fits s) :
    fits (a.mergeAll summaries) ∧ part (a.mergeAll summaries) = (summaries.map part).sum := by
  induction summaries using List.reverseRecOn with
  | nil => exact ⟨h.fits_empty, h.empty⟩
  | append_singleton summaries s ih =>
    have hs : fits s := hfits s (List.mem_append_right _ (List.mem_singleton_self s))
    obtain ⟨hbefore, hsum⟩ := ih fun t ht => hfits t (List.mem_append_left _ ht)
    by_cases hnil : summaries = []
    · subst hnil
      exact ⟨hs, by simp [Aggregator.mergeAll]⟩
    · rw [mergeAll_concat hnil]
      refine ⟨h.fits_merge _ _ hbefore hs, ?_⟩
      rw [h.merge _ _ hbefore hs, hsum, List.map_append, List.sum_append]
      simp

theorem fits_groups (h : Adds a fits part share) {groups : List (List (Measurement α))} :
    ∀ s ∈ groups.map (a.recordAll a.empty), fits s := by
  intro s hs
  obtain ⟨g, -, rfl⟩ := List.mem_map.mp hs
  exact (h.recordAll g).1

/-- Group by group or in one go, the shares are the same. -/
theorem mergeAll_eq (h : Adds a fits part share) {groups : List (List (Measurement α))}
    {ms : List (Measurement α)} (hperm : groups.flatten.Perm ms) :
    part (a.mergeAll (groups.map (a.recordAll a.empty))) = part (a.recordAll a.empty ms) := by
  have hshares : (groups.map (a.recordAll a.empty)).map part =
      groups.map fun g => (g.map fun m => share m.value).sum := by
    rw [List.map_map]
    exact List.map_congr_left fun g _ => (h.recordAll g).2
  rw [(h.mergeAll h.fits_groups).2, hshares, (h.recordAll ms).2, ← (hperm.map _).sum_eq, List.map_flatten,
    List.sum_flatten, List.map_map]
  rfl

end Adds

/-- Exact numbers add up. -/
abbrev exactSums (h : Quantity.Unrounded α) : AddCommMonoid α where
  add_assoc := h.add_assoc
  zero_add := h.zero_add
  add_zero x := (h.add_comm x 0).trans (h.zero_add x)
  add_comm := h.add_comm
  nsmul := nsmulRec

theorem adds_sum (h : Quantity.Unrounded α) (monotonic : Bool) :
    letI := exactSums h
    Adds (sum monotonic : Aggregator α) (fun _ => True) (id : α → α) id :=
  letI := exactSums h
  ⟨trivial, fun _ _ _ _ => trivial, fun _ _ _ _ => trivial, rfl, fun _ _ _ _ => rfl,
    fun _ _ _ _ => rfl⟩

/-- Whether a summary has as many buckets as the histogram. -/
abbrev Bucketed (h : Histogram α) (s : Histogram.Summary α) : Prop :=
  s.buckets.length = h.bounds.length + 1

/-- Parts of histograms add up where their buckets fit. -/
theorem Adds.of_bucketed {β : Type} [AddCommMonoid β] {h : Histogram α}
    {part : Histogram.Summary α → β} {share : α → β} (hempty : part h.empty = 0)
    (hrecord : ∀ s value, Bucketed h s → part (h.record s value) = part s + share value)
    (hmerge : ∀ s t, Bucketed h s → Bucketed h t → part (Histogram.merge s t) = part s + part t) :
    Adds (.histogram h) (Bucketed h) part share where
  fits_empty := List.length_replicate ..
  fits_record s value time hs := (List.length_modify ..).trans hs
  fits_merge s t hs ht := by
    show (s.buckets.zipWith _ t.buckets).length = _
    rw [List.length_zipWith, hs, ht, Nat.min_self]
  empty := hempty
  record s value _ := hrecord s value
  merge := hmerge

theorem adds_count (h : Histogram α) :
    Adds (.histogram h) (Bucketed h) Histogram.Summary.count fun _ => 1 :=
  .of_bucketed rfl (fun _ _ _ => rfl) fun _ _ _ _ => rfl

theorem adds_bucket (h : Histogram α) {i : Nat} (hi : i < h.bounds.length + 1) :
    Adds (.histogram h) (Bucketed h) (fun s : Histogram.Summary α => s.buckets.getD i 0)
      fun value => if h.bucket value = i then 1 else 0 := by
  refine .of_bucketed ?_ (fun s value hs => ?_) fun s t hs ht => ?_
  · simp [Histogram.empty]
  · have his : i < s.buckets.length := hs ▸ hi
    simp only [Histogram.record, List.getD_eq_getElem?_getD, List.getElem?_modify,
      List.getElem?_eq_getElem his]
    split <;> simp_all
  · have his : i < s.buckets.length := hs ▸ hi
    have hit : i < t.buckets.length := ht ▸ hi
    simp [Histogram.merge, List.getD_eq_getElem?_getD, his, hit]

theorem adds_histogramSum (hexact : Quantity.Unrounded α) (h : Histogram α) :
    letI := exactSums hexact
    Adds (.histogram h) (Bucketed h) Histogram.Summary.sum id :=
  letI := exactSums hexact
  .of_bucketed rfl (fun _ _ _ => rfl) fun _ _ _ _ => rfl

end Aggregator

/-! ## Extremes -/

open Quantity

/-- A choice between two numbers, of the one that comes first in an order. -/
structure Chooses (le : α → α → Prop) (pick : α → α → α) : Prop where
  trans : ∀ a b c, le a b → le b c → le a c
  refl : ∀ a, isNaN a = false → le a a
  cases : ∀ a b, pick a b = a ∨ pick a b = b
  first : ∀ a b, isNaN a = false → isNaN b = false → le (pick a b) a ∧ le (pick a b) b

theorem atMost_of_below [Linear α] {a b : α} (ha : isNaN a = false) (hb : isNaN b = false)
    (h : below a b = true) : AtMost a b := by
  refine (Linear.total a b ha hb).resolve_right fun hba => ?_
  rw [hba.2.2] at h
  cases h

theorem chooses_least [Linear α] : Chooses (α := α) AtMost least where
  trans := Ordered.trans
  refl := Ordered.refl
  cases a b := by
    unfold least
    split_ifs <;> simp
  first a b ha hb := by
    simp only [least, ha, hb, Bool.false_eq_true, if_false]
    split
    · rename_i hbelow
      exact ⟨Ordered.refl a ha, atMost_of_below ha hb hbelow⟩
    · rename_i hbelow
      exact ⟨⟨hb, ha, Bool.not_eq_true _ ▸ hbelow⟩, Ordered.refl b hb⟩

theorem chooses_greatest [Linear α] : Chooses (α := α) (fun a b => AtMost b a) greatest where
  trans a b c hab hbc := Ordered.trans c b a hbc hab
  refl := Ordered.refl
  cases a b := by
    unfold greatest
    split_ifs <;> simp
  first a b ha hb := by
    simp only [greatest, ha, hb, Bool.false_eq_true, if_false]
    split
    · rename_i hbelow
      exact ⟨Ordered.refl a ha, atMost_of_below hb ha hbelow⟩
    · rename_i hbelow
      exact ⟨⟨ha, hb, Bool.not_eq_true _ ▸ hbelow⟩, Ordered.refl b hb⟩

omit [Quantity α] in
/-- Whether a value is one of some values and comes first among them; there is none of no values. -/
def Foremost (le : α → α → Prop) (values : List α) : Option α → Prop
  | none => values = []
  | some v => v ∈ values ∧ ∀ w ∈ values, le v w

namespace Foremost

variable {le : α → α → Prop} {pick : α → α → α} {xs ys : List α} {o o' : Option α}

/-- The first of all values is the first of the first ones. -/
theorem append (hpick : Chooses le pick) (hxs : ∀ x ∈ xs, isNaN x = false)
    (hys : ∀ y ∈ ys, isNaN y = false) (h : Foremost le xs o) (h' : Foremost le ys o') :
    Foremost le (xs ++ ys) (Histogram.either pick o o') := by
  cases o with
  | none =>
    obtain rfl : xs = [] := h
    cases o' <;> exact h'
  | some x =>
    cases o' with
    | none =>
      obtain rfl : ys = [] := h'
      rw [List.append_nil]
      exact h
    | some y =>
      obtain ⟨hx, hfirst⟩ := h
      obtain ⟨hy, hfirst'⟩ := h'
      obtain ⟨hlex, hley⟩ := hpick.first x y (hxs x hx) (hys y hy)
      refine ⟨?_, fun z hz => ?_⟩
      · rcases hpick.cases x y with hpicked | hpicked <;> rw [hpicked]
        · exact List.mem_append_left _ hx
        · exact List.mem_append_right _ hy
      · rcases List.mem_append.mp hz with hz | hz
        · exact hpick.trans _ _ _ hlex (hfirst z hz)
        · exact hpick.trans _ _ _ hley (hfirst' z hz)

omit [Quantity α] in
/-- Of the same values, those that come first come before each other. -/
theorem rel (h : Foremost le xs o) (h' : Foremost le ys o') (hsame : ∀ x, x ∈ xs ↔ x ∈ ys) :
    Option.Rel (fun x y => le x y ∧ le y x) o o' := by
  cases o with
  | none =>
    obtain rfl : xs = [] := h
    cases o' with
    | none => exact .none
    | some y => cases (hsame y).mpr h'.1
  | some x =>
    cases o' with
    | none =>
      obtain rfl : ys = [] := h'
      cases (hsame x).mp h.1
    | some y => exact .some ⟨h.2 y ((hsame y).mpr h'.1), h'.2 x ((hsame x).mp h.1)⟩

end Foremost

namespace Aggregator

variable {a : Aggregator α} {le : α → α → Prop} {pick : α → α → α}

/-- Whether a part of summaries is the extreme of what was measured. -/
structure Keeps (a : Aggregator α) (pick : α → α → α) (part : a.Summary → Option α) : Prop where
  empty : part a.empty = none
  record : ∀ s value time, part (a.record s value time) = Histogram.either pick (part s) (some value)
  merge : ∀ s t, part (a.merge s t) = Histogram.either pick (part s) (part t)

theorem keeps_min (h : Histogram α) : Keeps (.histogram h) least Histogram.Summary.min :=
  ⟨rfl, fun _ _ _ => rfl, fun _ _ => rfl⟩

theorem keeps_max (h : Histogram α) : Keeps (.histogram h) greatest Histogram.Summary.max :=
  ⟨rfl, fun _ _ _ => rfl, fun _ _ => rfl⟩

namespace Keeps

variable {part : a.Summary → Option α}

theorem foremost (h : Keeps a pick part) (hpick : Chooses le pick) {ms : List (Measurement α)}
    (hms : ∀ m ∈ ms, isNaN m.value = false) :
    Foremost le (ms.map (·.value)) (part (a.recordAll a.empty ms)) := by
  induction ms using List.reverseRecOn with
  | nil =>
    show Foremost le [] (part a.empty)
    rw [h.empty]
    rfl
  | append_singleton ms m ih =>
    have hm : isNaN m.value = false := hms m (List.mem_append_right _ (List.mem_singleton_self m))
    have hbefore : ∀ m' ∈ ms, isNaN m'.value = false :=
      fun m' hm' => hms m' (List.mem_append_left _ hm')
    have hone : Foremost le [m.value] (some m.value) := by
      refine ⟨List.mem_singleton_self _, fun w hw => ?_⟩
      obtain rfl := List.mem_singleton.mp hw
      exact hpick.refl _ hm
    rw [recordAll_concat, h.record, List.map_append]
    exact (ih hbefore).append hpick (by simpa using hbefore) (by simpa using hm) hone

theorem foremost_mergeAll (h : Keeps a pick part) (hpick : Chooses le pick)
    {groups : List (List (Measurement α))} (hms : ∀ g ∈ groups, ∀ m ∈ g, isNaN m.value = false) :
    Foremost le (groups.flatten.map (·.value))
      (part (a.mergeAll (groups.map (a.recordAll a.empty)))) := by
  induction groups using List.reverseRecOn with
  | nil =>
    show Foremost le [] (part a.empty)
    rw [h.empty]
    rfl
  | append_singleton groups g ih =>
    have hg := hms g (List.mem_append_right _ (List.mem_singleton_self g))
    have hbefore : ∀ g' ∈ groups, ∀ m ∈ g', isNaN m.value = false :=
      fun g' hg' => hms g' (List.mem_append_left _ hg')
    have hlast := h.foremost hpick hg
    by_cases hnil : groups = []
    · subst hnil
      simpa [mergeAll] using hlast
    · rw [List.map_append, List.map_singleton, mergeAll_concat (by simpa using hnil), h.merge,
        List.flatten_append, List.flatten_singleton, List.map_append]
      refine (ih hbefore).append hpick (fun x hx => ?_) (by simpa using hg) hlast
      obtain ⟨m, hm, rfl⟩ := List.mem_map.mp hx
      obtain ⟨g', hg', hm⟩ := List.mem_flatten.mp hm
      exact hbefore g' hg' m hm

/-- Group by group or in one go, the extremes come before each other. -/
theorem rel_mergeAll (h : Keeps a pick part) (hpick : Chooses le pick)
    {groups : List (List (Measurement α))} {ms : List (Measurement α)}
    (hperm : groups.flatten.Perm ms) (hms : ∀ m ∈ ms, isNaN m.value = false) :
    Option.Rel (fun x y => le x y ∧ le y x)
      (part (a.mergeAll (groups.map (a.recordAll a.empty)))) (part (a.recordAll a.empty ms)) := by
  have hgroups : ∀ g ∈ groups, ∀ m ∈ g, isNaN m.value = false :=
    fun g hg m hm => hms m (hperm.subset (List.mem_flatten_of_mem hg hm))
  exact (h.foremost_mergeAll hpick hgroups).rel (h.foremost hpick hms)
    fun x => (hperm.map (·.value)).mem_iff

end Keeps

end Aggregator

/-! ## Last values -/

namespace LastValue

omit [Quantity α] in
theorem merge_none_left (s : Summary α) : merge none s = s := by cases s <;> rfl

omit [Quantity α] in
theorem merge_choice (s t : Summary α) : merge s t = s ∨ merge s t = t := by
  unfold merge
  split
  · split <;> simp
  · simp
  · simp

/-- The last of several summaries. -/
def lastOf (summaries : List (Summary α)) : Summary α := summaries.foldl merge none

omit [Quantity α] in
theorem lastOf_mem {summaries : List (Summary α)} {e : α × Time}
    (h : lastOf summaries = some e) : some e ∈ summaries := by
  induction summaries using List.reverseRecOn with
  | nil => cases h
  | append_singleton summaries s ih =>
    rw [lastOf, List.foldl_append] at h
    have h : merge (lastOf summaries) s = some e := h
    rcases merge_choice (lastOf summaries) s with hchosen | hchosen
    · exact List.mem_append_left _ (ih (hchosen ▸ h))
    · exact List.mem_append_right _ (List.mem_singleton.mpr (h.symm.trans hchosen))

omit [Quantity α] in
/-- What is later than all that follow, and no earlier than all before, is left. -/
theorem lastOf_eq {before after : List (Summary α)} {last : α × Time}
    (hbefore : ∀ e, some e ∈ before → e.2 ≤ last.2) (hafter : ∀ e, some e ∈ after → e.2 < last.2) :
    lastOf (before ++ some last :: after) = some last := by
  have htaken : merge (lastOf before) (some last) = some last := by
    cases hlast : lastOf before with
    | none => exact merge_none_left _
    | some e =>
      have hle := hbefore e (lastOf_mem hlast)
      exact if_neg (Nat.not_lt.mpr hle)
  have hkept : after.foldl merge (some last) = some last := by
    induction after with
    | nil => rfl
    | cons s rest ih =>
      have hstep : merge (some last) s = some last := by
        cases s with
        | none => rfl
        | some e => exact if_pos (hafter e (List.mem_cons_self ..))
      rw [List.foldl_cons, hstep]
      exact ih fun e he => hafter e (List.mem_cons_of_mem _ he)
  rw [lastOf, List.foldl_append, List.foldl_cons]
  exact (congrArg (after.foldl merge) htaken).trans hkept

omit [Quantity α] in
/-- Of summaries that end at different times the latest is left. -/
theorem lastOf_eq_of_nodup {summaries : List (Summary α)} {last : α × Time}
    (hlast : some last ∈ summaries) (hle : ∀ e, some e ∈ summaries → e.2 ≤ last.2)
    (hapart : ((summaries.filterMap id).map (·.2)).Nodup) : lastOf summaries = some last := by
  obtain ⟨before, after, rfl⟩ := List.append_of_mem hlast
  have hcons : (some last :: after).filterMap id = last :: after.filterMap id := rfl
  rw [List.filterMap_append, List.map_append, hcons, List.map_cons] at hapart
  obtain ⟨-, hafter, -⟩ := List.nodup_append.mp hapart
  refine lastOf_eq (fun e he => hle e (List.mem_append_left _ he)) fun e he => ?_
  have hmem : some e ∈ before ++ some last :: after :=
    List.mem_append_right _ (List.mem_cons_of_mem _ he)
  -- It is not as late, because no other ends at the same time.
  refine Nat.lt_of_le_of_ne (hle e hmem) fun heq => (List.nodup_cons.mp hafter).1 ?_
  rw [← heq]
  exact List.mem_map_of_mem (List.mem_filterMap.mpr ⟨some e, he, rfl⟩)

/-- A measurement is taken in like the summary of it alone. -/
theorem recordAll_eq (ms : List (Measurement α)) :
    Aggregator.lastValue.recordAll none ms = lastOf (ms.map fun m => some (m.value, m.time)) := by
  have hrecord (s : Summary α) (m : Measurement α) :
      record s m.value m.time = merge s (some (m.value, m.time)) := by cases s <;> rfl
  rw [lastOf, List.foldl_map, Aggregator.recordAll]
  exact congrArg (fun f => ms.foldl f none) (funext fun s => funext fun m => hrecord s m)

theorem mergeAll_eq (summaries : List (Summary α)) :
    Aggregator.lastValue.mergeAll summaries = lastOf summaries := by
  cases summaries with
  | nil => rfl
  | cons s rest => exact congrArg (rest.foldl merge) (merge_none_left s).symm

variable {ms before after : List (Measurement α)} {m : Measurement α}

omit [Quantity α] in
/-- Of some measurements there is a latest one, and a last one of these. -/
theorem exists_latest (h : ms ≠ []) : ∃ before m after, ms = before ++ m :: after ∧
    (∀ x ∈ before, x.time ≤ m.time) ∧ ∀ x ∈ after, x.time < m.time := by
  induction ms using List.reverseRecOn with
  | nil => exact absurd rfl h
  | append_singleton ms y ih =>
    by_cases hnil : ms = []
    · subst hnil
      exact ⟨[], y, [], rfl, nofun, nofun⟩
    · obtain ⟨before, m, after, rfl, hbefore, hafter⟩ := ih hnil
      by_cases hlater : y.time < m.time
      · refine ⟨before, m, after ++ [y], by simp, hbefore, fun x hx => ?_⟩
        rcases List.mem_append.mp hx with hx | hx
        · exact hafter x hx
        · obtain rfl := List.mem_singleton.mp hx
          exact hlater
      · -- The new one is no earlier than any other.
        have hle : m.time ≤ y.time := Nat.le_of_not_lt hlater
        refine ⟨before ++ m :: after, y, [], rfl, fun x hx => ?_, nofun⟩
        rcases List.mem_append.mp hx with hx | hx
        · exact Nat.le_trans (hbefore x hx) hle
        · rcases List.mem_cons.mp hx with rfl | hx
          · exact hle
          · exact Nat.le_trans (Nat.le_of_lt (hafter x hx)) hle

/-- The latest measurement is what is left, the last one of several. -/
theorem recordAll_of_latest (hbefore : ∀ x ∈ before, x.time ≤ m.time)
    (hafter : ∀ x ∈ after, x.time < m.time) :
    Aggregator.lastValue.recordAll none (before ++ m :: after) = some (m.value, m.time) := by
  rw [recordAll_eq, List.map_append, List.map_cons]
  refine lastOf_eq (fun e he => ?_) fun e he => ?_
  · obtain ⟨x, hx, heq⟩ := List.mem_map.mp he
    obtain rfl := Option.some.inj heq
    exact hbefore x hx
  · obtain ⟨x, hx, heq⟩ := List.mem_map.mp he
    obtain rfl := Option.some.inj heq
    exact hafter x hx

theorem exists_of_recordAll {e : α × Time} (h : Aggregator.lastValue.recordAll none ms = some e) :
    ∃ x ∈ ms, x.time = e.2 := by
  rw [recordAll_eq] at h
  obtain ⟨x, hx, heq⟩ := List.mem_map.mp (lastOf_mem h)
  exact ⟨x, hx, congrArg Prod.snd (Option.some.inj heq)⟩

/-- Group by group, if no two groups end at the same time, what is left is what is left in one go: the
group of the latest measurement ends with it, and all others end earlier. -/
theorem mergeAll_recordAll {κ : Type} {keys : List κ} {test : κ → Measurement α → Bool}
    (hcover : ∀ m ∈ ms, ∃ k ∈ keys, test k m = true)
    (hapart : Aggregator.lastValue.Apart
      (keys.map fun k => (Aggregator.lastValue.recordAll none (ms.filter (test k)) : Summary α))) :
    Aggregator.lastValue.mergeAll
        (keys.map fun k => Aggregator.lastValue.recordAll none (ms.filter (test k))) =
      Aggregator.lastValue.recordAll none ms := by
  let ending (k : κ) : Summary α := Aggregator.lastValue.recordAll none (ms.filter (test k))
  rw [mergeAll_eq]
  have hending {k : κ} {e : α × Time} (h : ending k = some e) : ∃ x ∈ ms, x.time = e.2 := by
    obtain ⟨x, hx, htime⟩ := exists_of_recordAll h
    exact ⟨x, (List.mem_filter.mp hx).1, htime⟩
  by_cases hnil : ms = []
  · subst hnil
    cases hlast : lastOf (keys.map ending) with
    | none => exact hlast.symm ▸ rfl
    | some e =>
      obtain ⟨k, -, hk⟩ := List.mem_map.mp (lastOf_mem hlast)
      obtain ⟨x, hx, -⟩ := hending hk
      cases hx
  · obtain ⟨before, m, after, hms, hbefore, hafter⟩ := exists_latest hnil
    have hlast : Aggregator.lastValue.recordAll none ms = some (m.value, m.time) := by
      rw [hms]
      exact recordAll_of_latest hbefore hafter
    -- The group of the latest measurement has it at the same place.
    obtain ⟨k, hk, htest⟩ := hcover m (hms ▸ List.mem_append_right _ (List.mem_cons_self ..))
    have hgroup : ending k = some (m.value, m.time) := by
      show Aggregator.lastValue.recordAll none (ms.filter (test k)) = _
      rw [hms, List.filter_append, List.filter_cons_of_pos htest]
      exact recordAll_of_latest (fun x hx => hbefore x (List.mem_filter.mp hx).1)
        fun x hx => hafter x (List.mem_filter.mp hx).1
    rw [hlast]
    refine lastOf_eq_of_nodup (hgroup ▸ List.mem_map_of_mem hk) (fun e he => ?_) hapart
    obtain ⟨k', -, hk'⟩ := List.mem_map.mp he
    obtain ⟨x, hx, htime⟩ := hending hk'
    rw [← htime]
    rw [hms] at hx
    rcases List.mem_append.mp hx with hx | hx
    · exact hbefore x hx
    · rcases List.mem_cons.mp hx with rfl | hx
      · exact Nat.le_refl _
      · exact Nat.le_of_lt (hafter x hx)

end LastValue

namespace Aggregator

variable [Linear α] {κ : Type} {keys : List κ} {test : κ → Measurement α → Bool}
  {ms : List (Measurement α)}

/-- Histograms of groups and of all measurements in one go. -/
theorem agrees_histogram (h : Histogram α) {groups : List (List (Measurement α))}
    {ms : List (Measurement α)} (hperm : groups.flatten.Perm ms)
    (hnumbers : ∀ m ∈ ms, isNaN m.value = false) :
    Histogram.Agrees
      ((histogram h).mergeAll (groups.map ((histogram h).recordAll (histogram h).empty)))
      ((histogram h).recordAll (histogram h).empty ms) := by
  have hsame {le : α → α → Prop} {o o' : Option α} (hle : ∀ x y, le x y → le y x → Same x y)
      (h : Option.Rel (fun x y => le x y ∧ le y x) o o') : Option.Rel Same o o' := by
    cases h with
    | some h => exact .some (hle _ _ h.1 h.2)
    | none => exact .none
  have hfits : Bucketed h
      ((histogram h).mergeAll (groups.map ((histogram h).recordAll (histogram h).empty))) :=
    ((adds_count h).mergeAll (adds_count h).fits_groups).1
  have hfits' : Bucketed h ((histogram h).recordAll (histogram h).empty ms) :=
    ((adds_count h).recordAll ms).1
  refine ⟨(adds_count h).mergeAll_eq hperm, ?_, ?_, ?_, fun hexact => ?_⟩
  · -- Each bucket adds up on its own.
    refine List.ext_getElem (hfits.trans hfits'.symm) fun i hi hi' => ?_
    have hbucket := (adds_bucket h (hfits ▸ hi)).mergeAll_eq hperm
    rwa [List.getD_eq_getElem _ _ hi, List.getD_eq_getElem _ _ hi'] at hbucket
  · exact hsame Linear.antisymm ((keeps_min h).rel_mergeAll chooses_least hperm hnumbers)
  · exact hsame (fun x y hxy hyx => Linear.antisymm x y hyx hxy)
      ((keeps_max h).rel_mergeAll chooses_greatest hperm hnumbers)
  · let _ := exactSums hexact
    exact (adds_histogramSum hexact h).mergeAll_eq hperm

/-- The summary of measurements is the merge of the summaries of groups that they fall into. -/
theorem mergeOf_recordAll (a : Aggregator α)
    (hperm : (keys.flatMap fun k => ms.filter (test k)).Perm ms)
    (hnumbers : ∀ m ∈ ms, isNaN m.value = false) :
    a.MergeOf (keys.map fun k => a.recordAll a.empty (ms.filter (test k)))
      (a.recordAll a.empty ms) := by
  intro hapart order horder
  -- An order of the summaries comes from one of the groups.
  obtain ⟨keys', rfl, hkeys⟩ : ∃ keys' : List κ, order =
      keys'.map (fun k => a.recordAll a.empty (ms.filter (test k))) ∧ keys'.Perm keys := by
    have hcomp := congrFun (congrFun (List.eq_map_comp_perm
      fun k => a.recordAll a.empty (ms.filter (test k))) order) keys
    exact hcomp.mpr horder
  have hperm' : (keys'.map fun k => ms.filter (test k)).flatten.Perm ms :=
    (hkeys.flatMap_right _).trans hperm
  have hmap (a : Aggregator α) : keys'.map (fun k => a.recordAll a.empty (ms.filter (test k))) =
      (keys'.map fun k => ms.filter (test k)).map (a.recordAll a.empty) := List.map_map.symm
  -- What the aggregations have in common is the grouping, and that each takes it in its own way.
  cases a with
  | sum monotonic =>
    intro hexact
    let _ := exactSums hexact
    rw [hmap]
    exact (adds_sum hexact monotonic).mergeAll_eq hperm'
  | lastValue =>
    refine LastValue.mergeAll_recordAll (fun m hm => ?_) ?_
    · obtain ⟨k, hk, hmk⟩ := List.mem_flatMap.mp (hperm'.symm.subset hm)
      exact ⟨k, hk, (List.mem_filter.mp hmk).2⟩
    · exact ((horder.filterMap id).map _).nodup_iff.mpr hapart
  | histogram h =>
    rw [hmap]
    exact agrees_histogram h hperm' hnumbers

end Aggregator

end Metering
