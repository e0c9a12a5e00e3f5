import Metering.Proofs.Filters.Merging

/-!
# The Algebra of Histograms

Apart from sums, which round, the summaries of a histogram form a commutative monoid under merging,
and to summarise values is a homomorphism into it: values that follow others are merged with them.
A difference takes the earlier values away again. Counts are found again exactly; an extreme is found
if it is strictly beyond the earlier one, and otherwise it is known not to be beyond it. Nothing of
this depends on the bounds, which may be in any order.
-/

namespace Metering

open Quantity

variable {α : Type} [Quantity α]

/-! ## Values that win a comparison -/

namespace Quantity

/-- Whether values are the same up to the sign of zero, or neither of them is a number. -/
def Alike (a b : α) : Prop := Same a b ∨ isNaN a = true ∧ isNaN b = true

/-- Of two numbers the one that wins against the other, or else the second; a value that is not a
number yields to the other. -/
def winner (wins : α → α → Bool) (a b : α) : α :=
  if isNaN a then b else if isNaN b then a else if wins a b then a else b

theorem least_eq_winner : (least : α → α → α) = winner below := rfl

theorem greatest_eq_winner : (greatest : α → α → α) = winner fun a b => below b a := rfl

/-- A comparison of numbers by which no two beat each other, and of which only numbers that are alike
are left undecided. -/
structure Contest (wins : α → α → Bool) : Prop where
  asymm : ∀ a b : α, isNaN a = false → isNaN b = false → wins a b = true → wins b a = false
  chain : ∀ a b c : α, isNaN a = false → isNaN b = false → isNaN c = false →
    wins a b = false → wins b c = false → wins a c = false
  alike : ∀ a b : α, isNaN a = false → isNaN b = false → wins a b = false → wins b a = false →
    Same a b

theorem contest_below [Linear α] : Contest (below : α → α → Bool) where
  asymm _ _ ha hb h := (atMost_of_below ha hb h).2.2
  chain a b c ha hb hc hab hbc := (Ordered.trans c b a ⟨hc, hb, hbc⟩ ⟨hb, ha, hab⟩).2.2
  alike a b ha hb hab hba := Linear.antisymm a b ⟨ha, hb, hba⟩ ⟨hb, ha, hab⟩

theorem Contest.flip {wins : α → α → Bool} (h : Contest wins) : Contest fun a b => wins b a where
  asymm a b ha hb hba := h.asymm b a hb ha hba
  chain a b c ha hb hc hba hcb := h.chain c b a hc hb ha hcb hba
  alike a b ha hb hba hab := h.alike a b ha hb hab hba

namespace Contest

variable {wins : α → α → Bool} {a b c : α}

theorem irrefl (h : Contest wins) (ha : isNaN a = false) : wins a a = false := by
  cases haa : wins a a with
  | false => rfl
  | true => exact haa.symm.trans (h.asymm a a ha ha haa)

theorem trans (h : Contest wins) (ha : isNaN a = false) (hb : isNaN b = false)
    (hc : isNaN c = false) (hab : wins a b = true) (hbc : wins b c = true) : wins a c = true := by
  cases hac : wins a c with
  | true => rfl
  | false =>
    -- A number that does not win against what another beats does not win against the other either.
    have hcb := h.asymm b c hb hc hbc
    rw [h.chain a c b ha hc hb hac hcb] at hab
    cases hab

theorem winner_assoc (h : Contest wins) (a b c : α) :
    winner wins (winner wins a b) c = winner wins a (winner wins b c) := by
  cases ha : isNaN a with
  | true => simp [winner, ha]
  | false =>
    cases hb : isNaN b with
    | true => simp [winner, ha, hb]
    | false =>
      cases hc : isNaN c with
      | true => cases hab : wins a b <;> simp [winner, ha, hb, hc, hab]
      | false =>
        -- Among numbers the last of those that nothing wins against is left, wherever one begins.
        cases hab : wins a b with
        | true =>
          cases hbc : wins b c with
          | true => simp [winner, ha, hb, hc, hab, hbc, h.trans ha hb hc hab hbc]
          | false => simp [winner, ha, hb, hc, hab, hbc]
        | false =>
          cases hbc : wins b c with
          | true => simp [winner, ha, hb, hc, hab, hbc]
          | false => simp [winner, ha, hb, hc, hab, hbc, h.chain a b c ha hb hc hab hbc]

theorem winner_comm (h : Contest wins) (a b : α) : Alike (winner wins a b) (winner wins b a) := by
  have hrefl (x : α) : Alike x x := .inl (.inl rfl)
  cases ha : isNaN a with
  | true =>
    cases hb : isNaN b with
    | true => exact .inr (by simp [winner, ha, hb])
    | false => simpa [winner, ha, hb] using hrefl b
  | false =>
    cases hb : isNaN b with
    | true => simpa [winner, ha, hb] using hrefl a
    | false =>
      cases hab : wins a b with
      | true => simpa [winner, ha, hb, hab, h.asymm a b ha hb hab] using hrefl a
      | false =>
        cases hba : wins b a with
        | true => simpa [winner, ha, hb, hab, hba] using hrefl b
        | false => exact .inl (by simpa [winner, ha, hb, hab, hba] using h.alike b a hb ha hba hab)

end Contest

/-- In exact arithmetic a difference is what was added. -/
theorem add_sub_self (hadd : Unrounded α) (hsub : Exact α) (a b : α) : a + b - a = b := by
  have hcancel (x y : α) (hxy : a + x = a + y) : x = y := by
    have hzero : (0 - a) + a = 0 := (hadd.add_comm ..).trans (hsub.add_sub a 0)
    have hsum := congrArg ((0 - a) + ·) hxy
    simp only [← hadd.add_assoc, hzero, hadd.zero_add] at hsum
    exact hsum
  exact hcancel _ _ (hsub.add_sub a (a + b))

end Quantity

namespace Histogram

/-! ## Tallies -/

/-- All that a summary says but the sum. -/
structure Tally (α : Type) where
  count : Nat
  min : Option α
  max : Option α
  buckets : List Nat

omit [Quantity α] in
/-- The summary without the sum. -/
def Summary.tally (s : Summary α) : Tally α := ⟨s.count, s.min, s.max, s.buckets⟩

namespace Tally

/-- The tally of the values of two tallies. -/
def merge (s t : Tally α) : Tally α :=
  ⟨s.count + t.count, either least s.min t.min, either greatest s.max t.max,
    s.buckets.zipWith (· + ·) t.buckets⟩

/-- Whether tallies have the same counts, and extremes that are alike. -/
structure Matches (s t : Tally α) : Prop where
  count : s.count = t.count
  buckets : s.buckets = t.buckets
  min : Option.Rel Alike s.min t.min
  max : Option.Rel Alike s.max t.max

end Tally

section Either

variable {pick : α → α → α}

omit [Quantity α] in
theorem either_none_left (o : Option α) : either pick none o = o := by cases o <;> rfl

omit [Quantity α] in
theorem either_none_right (o : Option α) : either pick o none = o := by cases o <;> rfl

omit [Quantity α] in
theorem either_assoc (h : ∀ a b c, pick (pick a b) c = pick a (pick b c)) (o o' o'' : Option α) :
    either pick (either pick o o') o'' = either pick o (either pick o' o'') := by
  cases o with
  | none => rw [either_none_left, either_none_left]
  | some a =>
    cases o' with
    | none => rw [either_none_left, either_none_right]
    | some b =>
      cases o'' with
      | none => rfl
      | some c => exact congrArg some (h a b c)

theorem either_comm (h : ∀ a b, Alike (pick a b) (pick b a)) (o o' : Option α) :
    Option.Rel Alike (either pick o o') (either pick o' o) := by
  have hrefl (o : Option α) : Option.Rel Alike o o := by
    cases o with
    | none => exact .none
    | some a => exact .some (.inl (.inl rfl))
  cases o with
  | none => rw [either_none_left, either_none_right]; exact hrefl o'
  | some a =>
    cases o' with
    | none => exact hrefl _
    | some b => exact .some (h a b)

end Either

/-! ## A commutative monoid -/

theorem tally_merge (s t : Summary α) : (merge s t).tally = s.tally.merge t.tally := rfl

theorem Tally.merge_assoc [Linear α] (s t u : Tally α) : (s.merge t).merge u = s.merge (t.merge u) := by
  have hbuckets (xs ys zs : List Nat) : (xs.zipWith (· + ·) ys).zipWith (· + ·) zs =
      xs.zipWith (· + ·) (ys.zipWith (· + ·) zs) := by
    induction xs generalizing ys zs with
    | nil => rfl
    | cons x xs ih =>
      cases ys with
      | nil => rfl
      | cons y ys =>
        cases zs with
        | nil => rfl
        | cons z zs => exact congrArg₂ List.cons (Nat.add_assoc ..) (ih ys zs)
  simp only [merge, hbuckets, Nat.add_assoc, either_assoc contest_below.winner_assoc,
    either_assoc contest_below.flip.winner_assoc, least_eq_winner, greatest_eq_winner]

theorem Tally.merge_comm [Linear α] (s t : Tally α) : (s.merge t).Matches (t.merge s) where
  count := Nat.add_comm ..
  buckets := List.zipWith_comm_of_comm Nat.add_comm
  min := either_comm contest_below.winner_comm ..
  max := either_comm contest_below.flip.winner_comm ..

variable (h : Histogram α)

theorem merge_empty {s : Summary α} (hs : s.buckets.length = h.bounds.length + 1) :
    (merge h.empty s).tally = s.tally ∧ (merge s h.empty).tally = s.tally := by
  have hzeros (xs : List Nat) : (List.replicate xs.length 0).zipWith (· + ·) xs = xs ∧
      xs.zipWith (· + ·) (List.replicate xs.length 0) = xs := by
    induction xs with
    | nil => exact ⟨rfl, rfl⟩
    | cons x xs ih => simp [List.replicate_succ, ih.1, ih.2]
  have hzeros := hzeros s.buckets
  rw [hs] at hzeros
  simp only [Summary.tally, merge, empty, hzeros.1, hzeros.2, either_none_left, either_none_right,
    Nat.zero_add, Nat.add_zero, and_self]

/-! ## Summaries of values -/

/-- The summary of values, recorded one after the other. -/
def summarize (values : List α) : Summary α := values.foldl h.record h.empty

theorem recordAll_eq_summarize (ms : List (Measurement α)) :
    (Aggregator.histogram h).recordAll h.empty ms = h.summarize (ms.map (·.value)) := by
  rw [summarize, List.foldl_map]
  rfl

/-- Values can be taken as measurements of one series at one time. -/
theorem summarize_eq_recordAll (values : List α) : h.summarize values =
    (Aggregator.histogram h).recordAll h.empty (values.map (⟨·, KeyMap.empty, 0⟩)) := by
  rw [recordAll_eq_summarize, List.map_map]
  exact congrArg h.summarize (List.map_id values).symm

theorem length_buckets_summarize (values : List α) :
    (h.summarize values).buckets.length = h.bounds.length + 1 := by
  rw [summarize_eq_recordAll, length_buckets_recordAll]
  exact List.length_replicate

theorem count_summarize (values : List α) : (h.summarize values).count = values.length := by
  rw [summarize_eq_recordAll, count_recordAll, List.length_map]
  exact Nat.zero_add _

/-- The search for a bucket ends at one of the bounds, or after the last, in whatever order they are. -/
theorem bucket_lt (value : α) : h.bucket value < h.bounds.length + 1 :=
  Nat.lt_succ_of_le (Search.leading_le_length ..)

/-- The buckets add up as the values do: each value is in one of them. -/
theorem adds_buckets :
    Aggregator.Adds (.histogram h) (Aggregator.Bucketed h)
      (fun s : Summary α => s.buckets.sum) fun _ => 1 := by
  refine .of_bucketed ?_ (fun s value hs => ?_) fun s t hs ht => ?_
  · simp [empty]
  · have hvalue : h.bucket value < s.buckets.length := hs ▸ h.bucket_lt value
    have hmodify (xs : List Nat) (i : Nat) (hi : i < xs.length) :
        (xs.modify i (· + 1)).sum = xs.sum + 1 := by
      induction xs generalizing i with
      | nil => cases hi
      | cons x xs ih =>
        cases i with
        | zero =>
          simp only [List.modify_zero_cons, List.sum_cons]
          omega
        | succ i =>
          have hrest := ih i (Nat.lt_of_succ_lt_succ hi)
          simp only [List.modify_succ_cons, List.sum_cons, hrest]
          omega
    exact hmodify s.buckets _ hvalue
  · have hzip (xs ys : List Nat) (hlength : xs.length = ys.length) :
        (xs.zipWith (· + ·) ys).sum = xs.sum + ys.sum := by
      induction xs generalizing ys with
      | nil =>
        obtain rfl := List.length_eq_zero_iff.mp hlength.symm
        rfl
      | cons x xs ih =>
        cases ys with
        | nil => cases hlength
        | cons y ys =>
          have hrest := ih ys (Nat.succ.inj hlength)
          simp only [List.zipWith_cons_cons, List.sum_cons, hrest]
          omega
    exact hzip s.buckets t.buckets (hs.trans ht.symm)

theorem sum_buckets_summarize (values : List α) :
    (h.summarize values).buckets.sum = (h.summarize values).count := by
  rw [summarize_eq_recordAll]
  exact ((h.adds_buckets).recordAll _).2.trans ((Aggregator.adds_count h).recordAll _).2.symm

/-! ## Values that follow others -/

theorem summarize_append (xs ys : List α) :
    h.summarize (xs ++ ys) = ys.foldl h.record (h.summarize xs) := List.foldl_append

/-- To record a value is to merge with it. -/
theorem tally_record {s : Summary α} (hs : s.buckets.length = h.bounds.length + 1) (value : α) :
    (h.record s value).tally = (merge s (h.summarize [value])).tally := by
  have hbuckets (xs : List Nat) (i : Nat) : xs.modify i (· + 1) =
      xs.zipWith (· + ·) ((List.replicate xs.length 0).modify i (· + 1)) := by
    refine List.ext_getElem (by simp) fun j hj _ => ?_
    simp only [List.getElem_modify, List.getElem_zipWith, List.getElem_replicate]
    split <;> rfl
  have hmodified := hbuckets s.buckets (h.bucket value)
  rw [hs] at hmodified
  have hone {pick : α → α → α} : either pick none (some value) = some value := rfl
  simp only [summarize, List.foldl_cons, List.foldl_nil, Summary.tally, record, merge, empty, hmodified,
    Nat.zero_add, hone]

/-- Values that follow others are merged with them. -/
theorem tally_append [Linear α] (xs ys : List α) :
    (merge (h.summarize xs) (h.summarize ys)).tally = (h.summarize (xs ++ ys)).tally := by
  induction ys using List.reverseRecOn with
  | nil =>
    rw [List.append_nil]
    exact (h.merge_empty (h.length_buckets_summarize xs)).2
  | append_singleton ys y ih =>
    have hlast (zs : List α) : (h.summarize (zs ++ [y])).tally =
        (h.summarize zs).tally.merge (h.summarize [y]).tally := by
      rw [summarize_append]
      exact h.tally_record (h.length_buckets_summarize zs) y
    calc (merge (h.summarize xs) (h.summarize (ys ++ [y]))).tally
      _ = (h.summarize xs).tally.merge ((h.summarize ys).tally.merge (h.summarize [y]).tally) := by
        rw [tally_merge, hlast]
      _ = ((h.summarize xs).tally.merge (h.summarize ys).tally).merge (h.summarize [y]).tally :=
        (Tally.merge_assoc ..).symm
      _ = (h.summarize (xs ++ ys)).tally.merge (h.summarize [y]).tally := by rw [← tally_merge, ih]
      _ = (h.summarize (xs ++ (ys ++ [y]))).tally := by rw [← List.append_assoc, hlast]

/-! ## Differences -/

theorem diff_count (xs ys : List α) :
    (diff (h.summarize (xs ++ ys)) (h.summarize xs)).count = (h.summarize ys).count := by
  show (h.summarize (xs ++ ys)).count - (h.summarize xs).count = _
  rw [count_summarize, count_summarize, count_summarize, List.length_append, Nat.add_sub_cancel_left]

/-- What is taken away was there, so no bucket is cut off at zero. -/
theorem diff_buckets [Linear α] (xs ys : List α) :
    (diff (h.summarize (xs ++ ys)) (h.summarize xs)).buckets = (h.summarize ys).buckets := by
  have hmerged : (h.summarize (xs ++ ys)).buckets =
      (h.summarize xs).buckets.zipWith (· + ·) (h.summarize ys).buckets :=
    congrArg Tally.buckets (h.tally_append xs ys).symm
  have hcancel (ns ms : List Nat) (hlength : ns.length = ms.length) :
      (ns.zipWith (· + ·) ms).zipWith (· - ·) ns = ms := by
    refine List.ext_getElem (by simp [hlength]) fun i _ _ => ?_
    simp
  show (h.summarize (xs ++ ys)).buckets.zipWith (· - ·) (h.summarize xs).buckets = _
  rw [hmerged]
  exact hcancel _ _ ((h.length_buckets_summarize xs).trans (h.length_buckets_summarize ys).symm)

theorem diff_sum (hadd : Unrounded α) (hsub : Exact α) (xs ys : List α) :
    (diff (h.summarize (xs ++ ys)) (h.summarize xs)).sum = (h.summarize ys).sum := by
  have hfold (s : Summary α) : (ys.foldl h.record s).sum = s.sum + (h.summarize ys).sum := by
    induction ys using List.reverseRecOn with
    | nil => exact (hsub.add_zero s.sum).symm
    | append_singleton ys y ih =>
      rw [summarize_append, List.foldl_append]
      show (ys.foldl h.record s).sum + y = s.sum + ((h.summarize ys).sum + y)
      rw [ih, hadd.add_assoc]
  show (h.summarize (xs ++ ys)).sum - (h.summarize xs).sum = _
  rw [summarize_append, hfold]
  exact add_sub_self hadd hsub ..

/-! ## Extremes of a window -/

section Moved

variable {wins : α → α → Bool} {o o' : Option α}

/-- An extreme that moved is that of the window. -/
theorem moved_eq_some (hcontest : Contest wins) (ho : ∀ a, o = some a → isNaN a = false)
    (ho' : ∀ b, o' = some b → isNaN b = false) {m : α}
    (hm : moved wins (either (winner wins) o o') o = some m) : o' = some m := by
  cases o with
  | none =>
    cases o' with
    | none => cases hm
    | some b => exact hm
  | some a =>
    have ha := ho a rfl
    -- An earlier extreme that is still the extreme did not move.
    have hstill : moved wins (some a) (some a) = none := by simp [moved, hcontest.irrefl ha]
    cases o' with
    | none =>
      rw [either_none_right, hstill] at hm
      cases hm
    | some b =>
      have hb := ho' b rfl
      cases hab : wins a b with
      | true =>
        have hpick : either (winner wins) (some a) (some b) = some a := by
          simp [either, winner, ha, hb, hab]
        rw [hpick, hstill] at hm
        cases hm
      | false =>
        simp only [either, winner, ha, hb, hab, moved, Bool.false_eq_true, if_false] at hm
        split at hm
        · exact hm
        · cases hm

/-- If an extreme did not move, then that of the window is not beyond the earlier one. -/
theorem exists_of_moved_eq_none (hcontest : Contest wins) (ho : ∀ a, o = some a → isNaN a = false)
    (ho' : ∀ b, o' = some b → isNaN b = false)
    (hm : moved wins (either (winner wins) o o') o = none) (hne : o' ≠ none) :
    ∃ a b, o = some a ∧ o' = some b ∧ wins b a = false := by
  obtain ⟨b, rfl⟩ := Option.ne_none_iff_exists'.mp hne
  cases o with
  | none => cases hm
  | some a =>
    have ha := ho a rfl
    have hb := ho' b rfl
    refine ⟨a, b, rfl, rfl, ?_⟩
    cases hab : wins a b with
    | true => exact hcontest.asymm a b ha hb hab
    | false =>
      simp only [either, winner, ha, hb, hab, moved, Bool.false_eq_true, if_false] at hm
      split at hm
      · cases hm
      · rename_i hba
        exact Bool.not_eq_true _ ▸ hba

end Moved

/-- What the extreme of a window says about the values before it and in it: an extreme that is shown is
that of the window, and if none is shown, though there are values, then theirs is not beyond the earlier
one. -/
def WindowExtreme (le : α → α → Prop) (before window : List α) (shown : Option α) : Prop :=
  (∀ m, shown = some m → Foremost le window (some m)) ∧
    (shown = none → window ≠ [] →
      ∃ a b, Foremost le before (some a) ∧ Foremost le window (some b) ∧ le a b)

theorem Foremost.isNaN_eq_false {le : α → α → Prop} {values : List α} {o : Option α}
    (hvalues : ∀ v ∈ values, isNaN v = false) (ho : Foremost le values o) (a : α) (ha : o = some a) :
    isNaN a = false := by
  subst ha
  exact hvalues a ho.1

theorem windowExtreme_moved {wins : α → α → Bool} {le : α → α → Prop} (hcontest : Contest wins)
    (hle : ∀ a b, isNaN a = false → isNaN b = false → wins b a = false → le a b)
    {before window : List α} {o o' : Option α} (hbefore : ∀ v ∈ before, isNaN v = false)
    (hwindow : ∀ v ∈ window, isNaN v = false) (ho : Foremost le before o)
    (ho' : Foremost le window o') :
    WindowExtreme le before window (moved wins (either (winner wins) o o') o) := by
  have hnumber := Foremost.isNaN_eq_false hbefore ho
  have hnumber' := Foremost.isNaN_eq_false hwindow ho'
  refine ⟨fun m hm => ?_, fun hm hne => ?_⟩
  · exact moved_eq_some hcontest hnumber hnumber' hm ▸ ho'
  · have hsome : o' ≠ none := by
      rintro rfl
      exact hne ho'
    obtain ⟨a, b, rfl, rfl, hba⟩ := exists_of_moved_eq_none hcontest hnumber hnumber' hm hsome
    exact ⟨a, b, ho, ho', hle a b (hnumber a rfl) (hnumber' b rfl) hba⟩

theorem foremost_summarize {le : α → α → Prop} {pick : α → α → α} {part : Summary α → Option α}
    (hkeeps : Aggregator.Keeps (.histogram h) pick part) (hpick : Chooses le pick) {values : List α}
    (hvalues : ∀ v ∈ values, isNaN v = false) : Foremost le values (part (h.summarize values)) := by
  let ms : List (Measurement α) := values.map (⟨·, KeyMap.empty, 0⟩)
  have hms : ∀ m ∈ ms, isNaN m.value = false := by simpa [ms] using hvalues
  have hback : ms.map (·.value) = values := List.map_map.trans (List.map_id values)
  have hforemost := hkeeps.foremost hpick hms
  rw [hback] at hforemost
  rw [summarize_eq_recordAll]
  exact hforemost

theorem windowExtreme_min [Linear α] {xs ys : List α} (hxs : ∀ v ∈ xs, isNaN v = false)
    (hys : ∀ v ∈ ys, isNaN v = false) :
    WindowExtreme AtMost xs ys (diff (h.summarize (xs ++ ys)) (h.summarize xs)).min := by
  have hmerged : (h.summarize (xs ++ ys)).min =
      either (winner below) (h.summarize xs).min (h.summarize ys).min :=
    congrArg Tally.min (h.tally_append xs ys).symm
  show WindowExtreme _ _ _ (moved below (h.summarize (xs ++ ys)).min (h.summarize xs).min)
  rw [hmerged]
  exact windowExtreme_moved contest_below (fun a b ha hb hba => ⟨ha, hb, hba⟩) hxs hys
    (h.foremost_summarize (Aggregator.keeps_min h) chooses_least hxs)
    (h.foremost_summarize (Aggregator.keeps_min h) chooses_least hys)

theorem windowExtreme_max [Linear α] {xs ys : List α} (hxs : ∀ v ∈ xs, isNaN v = false)
    (hys : ∀ v ∈ ys, isNaN v = false) :
    WindowExtreme (fun a b => AtMost b a) xs ys
      (diff (h.summarize (xs ++ ys)) (h.summarize xs)).max := by
  have hmerged : (h.summarize (xs ++ ys)).max =
      either (winner fun a b => below b a) (h.summarize xs).max (h.summarize ys).max :=
    congrArg Tally.max (h.tally_append xs ys).symm
  show WindowExtreme _ _ _ (moved (fun c p => below p c) (h.summarize (xs ++ ys)).max
    (h.summarize xs).max)
  rw [hmerged]
  exact windowExtreme_moved contest_below.flip (fun a b ha hb hab => ⟨hb, ha, hab⟩) hxs hys
    (h.foremost_summarize (Aggregator.keeps_max h) chooses_greatest hxs)
    (h.foremost_summarize (Aggregator.keeps_max h) chooses_greatest hys)

/-! ## The algebra -/

/-- Whatever the bounds, no value is put outside of the buckets, of which there is one more than there
are bounds, and which add up to the count. Sums aside, the summary of values that follow others is the
merge of the two summaries, to merge is associative, commutative up to the signs of zeros, and the
summary of nothing is neutral for all summaries with as many buckets. The difference of a summary and
an earlier one has the counts of the values in between, and in exact arithmetic their sum; of numbers,
it shows an extreme only if that is theirs, and otherwise theirs is not beyond the earlier one. -/
theorem algebra_of_summaries [Linear α] (h : Histogram α) :
    (∀ values, let s := h.summarize values
      (∀ v, h.bucket v < s.buckets.length) ∧ s.buckets.length = h.bounds.length + 1 ∧
        s.buckets.sum = s.count ∧ s.count = values.length) ∧
      (∀ xs ys,
        (merge (h.summarize xs) (h.summarize ys)).tally = (h.summarize (xs ++ ys)).tally) ∧
      (∀ s t u : Summary α, (merge (merge s t) u).tally = (merge s (merge t u)).tally ∧
        (merge s t).tally.Matches (merge t s).tally) ∧
      (∀ s : Summary α, s.buckets.length = h.bounds.length + 1 →
        (merge h.empty s).tally = s.tally ∧ (merge s h.empty).tally = s.tally) ∧
      ∀ xs ys, let d := diff (h.summarize (xs ++ ys)) (h.summarize xs)
        d.count = (h.summarize ys).count ∧ d.buckets = (h.summarize ys).buckets ∧
          (Unrounded α → Exact α → d.sum = (h.summarize ys).sum) ∧
          ((∀ v ∈ xs, isNaN v = false) → (∀ v ∈ ys, isNaN v = false) →
            WindowExtreme AtMost xs ys d.min ∧
              WindowExtreme (fun a b => AtMost b a) xs ys d.max) := by
  refine ⟨fun values => ⟨fun v => ?_, h.length_buckets_summarize values,
      h.sum_buckets_summarize values, h.count_summarize values⟩, h.tally_append,
    fun s t u => ⟨?_, ?_⟩, fun s hs => h.merge_empty hs, fun xs ys => ?_⟩
  · rw [length_buckets_summarize]
    exact h.bucket_lt v
  · simp only [tally_merge, Tally.merge_assoc]
  · rw [tally_merge, tally_merge]
    exact Tally.merge_comm ..
  · exact ⟨h.diff_count xs ys, h.diff_buckets xs ys, fun hadd hsub => h.diff_sum hadd hsub xs ys,
      fun hxs hys => ⟨h.windowExtreme_min hxs hys, h.windowExtreme_max hxs hys⟩⟩

/-- A window within the extremes of two earlier floats and one beyond them, by bounds that are out of
order; and windows of whole numbers, whose sums are found again. -/
theorem algebra_of_summaries_windows :
    (let h : Histogram Float := ⟨[10, 0, 100], true⟩
      let d (ys : List Float) := diff (h.summarize ([5, 50] ++ ys)) (h.summarize [5, 50])
      (d [20]).min = none ∧ (d [20]).max = none ∧
        WindowExtreme AtMost [5, 50] [20] (d [20]).min ∧
        (d [1, 60]).min = some 1 ∧ (d [1, 60]).max = some 60 ∧
        Foremost AtMost [1, 60] (some (1 : Float)) ∧
        (d [1, 60]).buckets = (h.summarize [1, 60]).buckets) ∧
      let h : Histogram Int := ⟨[0, 10], false⟩
      (diff (h.summarize ([3, 25] ++ [-4])) (h.summarize [3, 25])).sum = -4 ∧
        (h.summarize [-4]).sum = -4 := by
  refine ⟨?_, ?_⟩
  · intro h d
    have hnumbers : (∀ v ∈ [(5 : Float), 50], isNaN v = false) ∧
        (∀ v ∈ [(20 : Float)], isNaN v = false) ∧ ∀ v ∈ [(1 : Float), 60], isNaN v = false := by
      decide +kernel
    have hwithin := (h.algebra_of_summaries.2.2.2.2 [5, 50] [20]).2.2.2 hnumbers.1 hnumbers.2.1
    have hbeyond := h.algebra_of_summaries.2.2.2.2 [5, 50] [1, 60]
    have hmin : (d [1, 60]).min = some 1 := by decide +kernel
    exact ⟨by decide +kernel, by decide +kernel, hwithin.1, hmin, by decide +kernel,
      (hbeyond.2.2.2 hnumbers.1 hnumbers.2.2).1.1 1 hmin, hbeyond.2.1⟩
  · intro h
    have hsum := (h.algebra_of_summaries.2.2.2.2 [3, 25] [-4]).2.2.1 inferInstance inferInstance
    have hlast : (h.summarize [-4]).sum = -4 := by decide +kernel
    exact ⟨hsum.trans hlast, hlast⟩

end Histogram

end Metering
