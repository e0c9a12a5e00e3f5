import Metering.Proofs.Filters.Merging

/-!
# Series that a Filter Condenses

A filter makes one series of all series that keep the same attributes under it. The measurements of
that series are those of the others, each of them once, though in the order in which they were made;
so its summary is the merge of their summaries.
-/

namespace Metering

variable {α : Type}

/-! ## Groups -/

/-- Sets that are equal keep equal parts. -/
theorem AttributeFilter.apply_congr (filter : AttributeFilter) {a b : Attributes} (h : (a == b) = true) :
    ((filter.apply a).1 == (filter.apply b).1) = true := by
  have hplace (a : Attributes) : Attributes.place (filter.apply a).1 =
      (Attributes.place a).filter fun e => filter.allows e.1 := by
    simp only [apply, KeyMap.filter, Attributes.place, List.filter_map]
    rfl
  rw [Attributes.beq_iff_place_eq] at h ⊢
  rw [hplace, hplace, h]

section

variable {γ κ : Type} [BEq κ] [EquivBEq κ] {keys : List κ}

/-- Elements of a list with one of several keys, taken key by key. -/
theorem perm_flatMap_filter (key : γ → κ)
    (hdistinct : keys.Pairwise fun j k => (j == k) = false) (xs : List γ) :
    (keys.flatMap fun k => xs.filter fun x => key x == k).Perm
      (xs.filter fun x => keys.any (key x == ·)) := by
  induction keys with
  | nil => simp
  | cons k rest ih =>
    obtain ⟨hk, hrest⟩ := List.pairwise_cons.mp hdistinct
    have hfirst : (xs.filter fun x => (k :: rest).any (key x == ·)).filter (key · == k) =
        xs.filter fun x => key x == k := by
      rw [List.filter_filter]
      exact List.filter_congr fun x _ => by cases hxk : key x == k <;> simp [hxk]
    have hothers : (xs.filter fun x => (k :: rest).any (key x == ·)).filter (fun x => !(key x == k)) =
        xs.filter fun x => rest.any (key x == ·) := by
      rw [List.filter_filter]
      refine List.filter_congr fun x _ => ?_
      cases hxk : key x == k with
      | false => simp [hxk]
      | true =>
        -- The other keys are not equal to the first one.
        have hnone : rest.any (key x == ·) = false := by
          refine List.any_eq_false.mpr fun j hj hxj => ?_
          have hkj := BEq.trans (BEq.symm hxk) hxj
          rw [hk j hj] at hkj
          cases hkj
        simp [hxk, hnone]
    rw [List.flatMap_cons]
    refine ((ih hrest).append_left _).trans ?_
    rw [← hfirst, ← hothers]
    exact List.filter_append_perm ..

end

/-! ## Condensed summaries -/

/-- Summaries by series, with the way in which they are made. -/
abbrev SeriesSummaries (α : Type) : Type := (a : Aggregator α) × List (Attributes × a.Summary)

/-- How summaries by series relate to those by the sets that series keep under a filter. -/
structure Condenses [Quantity α] (filter : AttributeFilter) (a : Aggregator α)
    (whole condensed : List (Attributes × a.Summary)) : Prop where
  /-- No set has two summaries. -/
  distinct : condensed.Pairwise fun d e => (d.1 == e.1) = false
  /-- A set has a summary if and only if some series keeps it. -/
  kept : ∀ f, condensed.any (·.1 == f) = whole.any fun e => (filter.apply e.1).1 == f
  /-- The summary is the merge of those of the series that keep the set. -/
  merged : ∀ e ∈ condensed,
    a.MergeOf ((whole.filter fun w => (filter.apply w.1).1 == e.1).map (·.2)) e.2

namespace StreamSettings

variable {c : StreamSettings α} {filter : AttributeFilter} {ms : List (Measurement α)}

/-- What does not tell equal sets apart holds of a series if it holds of a measurement. -/
theorem any_seriesAmong_of_congr {test : Attributes → Bool}
    (htest : ∀ a b, (a == b) = true → test a = test b) :
    (c.seriesAmong ms).any test = ms.any fun m => test (c.seriesOf m) := by
  refine Bool.eq_iff_iff.mpr ⟨fun h => ?_, fun h => ?_⟩
  · obtain ⟨k, hk, hkt⟩ := List.any_eq_true.mp h
    have hlisted : (c.seriesAmong ms).any (· == k) = true := List.any_eq_true.mpr ⟨k, hk, BEq.rfl⟩
    rw [any_seriesAmong] at hlisted
    obtain ⟨m, hm, hmk⟩ := List.any_eq_true.mp hlisted
    exact List.any_eq_true.mpr ⟨m, hm, (htest _ _ hmk).trans hkt⟩
  · obtain ⟨m, hm, hmt⟩ := List.any_eq_true.mp h
    have hmeasured : ms.any (fun x => c.seriesOf x == c.seriesOf m) = true :=
      List.any_eq_true.mpr ⟨m, hm, BEq.rfl⟩
    rw [← any_seriesAmong] at hmeasured
    obtain ⟨k, hk, hkm⟩ := List.any_eq_true.mp hmeasured
    exact List.any_eq_true.mpr ⟨k, hk, (htest _ _ hkm).trans hmt⟩

variable [Quantity α]

omit [Quantity α] in
/-- Without a filter, a series keeps a set if its measurements do. -/
theorem kept_of_seriesOf {k : Attributes} {m : Measurement α} (hwhole : c.filter = none)
    (hmk : (c.seriesOf m == k) = true) :
    ((filter.apply m.attributes).1 == (filter.apply k).1) = true := by
  have hattributes : c.seriesOf m = m.attributes := by
    simp [seriesOf, hwhole, AttributeFilter.applyOptional]
  exact filter.apply_congr (hattributes ▸ hmk)

/-- What is summarised of all measurements that keep a set is the merge of what is summarised of the
series that do. -/
theorem mergeOf_summaries [Quantity.Linear α] (hwhole : c.filter = none)
    (hnumbers : ∀ m ∈ ms, Quantity.isNaN m.value = false) (f : Attributes) :
    c.aggregator.MergeOf (((c.summaries ms).filter fun w => (filter.apply w.1).1 == f).map (·.2))
      (c.summaryOf (ms.filter fun m => (filter.apply m.attributes).1 == f)) := by
  let keys := (c.seriesAmong ms).filter fun k => (filter.apply k).1 == f
  let kept := ms.filter fun m => (filter.apply m.attributes).1 == f
  -- The measurements of a series that keeps the set are among those that do.
  have hgroup {k : Attributes} (hk : k ∈ keys) :
      c.measurementsIn k ms = kept.filter (c.seriesOf · == k) := by
    have hkf : ((filter.apply k).1 == f) = true := (List.mem_filter.mp hk).2
    rw [measurementsIn, List.filter_filter]
    refine List.filter_congr fun m _ => ?_
    cases hmk : c.seriesOf m == k with
    | false => rfl
    | true =>
      rw [BEq.trans (kept_of_seriesOf hwhole hmk) hkf]
      rfl
  have hsummaries : ((c.summaries ms).filter fun w => (filter.apply w.1).1 == f).map (·.2) =
      keys.map fun k => c.aggregator.recordAll c.aggregator.empty (kept.filter (c.seriesOf · == k)) := by
    simp only [summaries, List.filter_map, List.map_map]
    exact List.map_congr_left fun k hk => congrArg c.summaryOf (hgroup hk)
  -- Every one of these is in the group of a series.
  have hcover : kept.filter (fun m => keys.any (c.seriesOf m == ·)) = kept := by
    refine List.filter_eq_self.mpr fun m hm => ?_
    obtain ⟨hm, hmf⟩ := List.mem_filter.mp hm
    have hlisted : (c.seriesAmong ms).any (· == c.seriesOf m) = true := by
      rw [any_seriesAmong]
      exact List.any_eq_true.mpr ⟨m, hm, BEq.rfl⟩
    obtain ⟨k, hk, hkm⟩ := List.any_eq_true.mp hlisted
    have hmk := BEq.symm hkm
    refine List.any_eq_true.mpr ⟨k, List.mem_filter.mpr ⟨hk, ?_⟩, hmk⟩
    exact BEq.trans (BEq.symm (kept_of_seriesOf hwhole hmk)) hmf
  have hperm := perm_flatMap_filter c.seriesOf
    ((c.seriesAmong_distinct ms).filter fun k => (filter.apply k).1 == f) kept
  rw [hcover] at hperm
  rw [hsummaries]
  exact c.aggregator.mergeOf_recordAll hperm fun m hm => hnumbers m (List.mem_filter.mp hm).1

/-- Of the same measurements, the summaries by what a filter keeps condense those by series. -/
theorem condenses_summaries [Quantity.Linear α] {c' : StreamSettings α} (hwhole : c.filter = none)
    (hfilter : c'.filter = some filter) (hnumbers : ∀ m ∈ ms, Quantity.isNaN m.value = false)
    {a : Aggregator α} {whole condensed : List (Attributes × a.Summary)}
    (h : (⟨c.aggregator, c.summaries ms⟩ : SeriesSummaries α) = ⟨a, whole⟩)
    (h' : (⟨c'.aggregator, c'.summaries ms⟩ : SeriesSummaries α) = ⟨a, condensed⟩) :
    Condenses filter a whole condensed := by
  have hset (m : Measurement α) : c'.seriesOf m = (filter.apply (c.seriesOf m)).1 := by
    simp [seriesOf, hwhole, hfilter, AttributeFilter.applyOptional]
  have hdistinct := c'.seriesAmong_distinct ms
  cases h
  obtain ⟨a', filter', reservoir, temporality, start⟩ := c'
  cases h'
  refine ⟨List.pairwise_map.mpr hdistinct, fun f => ?_, fun e he => ?_⟩
  · simp only [summaries, List.any_map, Function.comp_def]
    have htest (a b : Attributes) (h : (a == b) = true) :
        ((filter.apply a).1 == f) = ((filter.apply b).1 == f) :=
      BEq.congr_left (filter.apply_congr h)
    rw [any_seriesAmong, any_seriesAmong_of_congr htest]
    simp only [hset]
  · obtain ⟨f, -, rfl⟩ := List.mem_map.mp he
    have hkept : measurementsIn ⟨c.aggregator, filter', reservoir, temporality, start⟩ f ms =
        ms.filter fun m => (filter.apply m.attributes).1 == f := by
      refine List.filter_congr fun m _ => ?_
      rw [hset, seriesOf, hwhole]
      rfl
    simp only [hkept]
    exact mergeOf_summaries hwhole hnumbers f

end StreamSettings

end Metering
