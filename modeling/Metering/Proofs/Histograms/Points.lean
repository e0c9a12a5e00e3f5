import Metering.Proofs.Filters.Run
import Metering.Proofs.Histograms.Validation

/-!
# Histogram Points are what they Claim

Every histogram point that is exported has valid bounds and a bucket more than bounds. On a cumulative
stream its buckets, its count and its extremes are those of the measurements of its series, which are
the accepted ones that the stream has taken so far and keeps under the attributes of the point.
-/

namespace Metering

open Quantity

variable {α σ : Type} [Quantity α]

/-! ## Points -/

namespace HistogramPoint

/-- Whether the bounds of a point are finite, each below all that follow, and there is one bucket more
than there are bounds. -/
structure WellFormed (point : HistogramPoint α) : Prop where
  finite : ∀ b ∈ point.bounds, isFinite b = true
  ascending : point.bounds.Pairwise fun a b => below a b = true
  buckets : point.buckets.length = point.bounds.length + 1

/-- Whether a point, which may show extremes or not, is what it claims of some values. -/
structure Describes (extremes : Bool) (values : List α) (point : HistogramPoint α) : Prop where
  buckets : point.buckets =
    (List.range (point.bounds.length + 1)).map fun i => values.countP (Histogram.belongs point.bounds i)
  total : point.count = point.buckets.sum
  count : point.count = values.length
  shown : point.min.isSome = extremes ∧ point.max.isSome = extremes
  min : ∀ m, point.min = some m → Foremost AtMost values (some m)
  max : ∀ m, point.max = some m → Foremost (fun a b => AtMost b a) values (some m)

end HistogramPoint

namespace Histogram

variable [Scaled α] {h : Histogram α} {start time : Time} {k : Attributes}
  {exemplars : List (Exemplar α)}

theorem wellFormed_point (hbounds : strictlyAscending h.bounds = true) {summary : Summary α}
    (hsummary : summary.buckets.length = h.bounds.length + 1) :
    (Aggregator.histogramPoint h start time ⟨k, summary, exemplars⟩).WellFormed :=
  ⟨isFinite_of_strictlyAscending hbounds, pairwise_of_strictlyAscending hbounds, hsummary⟩

/-- The point of the summary of numbers describes them. -/
theorem describes_point (hbounds : strictlyAscending h.bounds = true) {values : List α}
    (hnumbers : ∀ v ∈ values, isNaN v = false) (hne : values ≠ []) :
    (Aggregator.histogramPoint h start time ⟨k, h.summarize values, exemplars⟩).Describes h.extremes
      values := by
  have hmin := h.foremost_summarize (Aggregator.keeps_min h) chooses_least hnumbers
  have hmax := h.foremost_summarize (Aggregator.keeps_max h) chooses_greatest hnumbers
  -- Of values that there are, there are extremes.
  have hsome {le : α → α → Prop} {o : Option α} (ho : Foremost le values o) : o.isSome = true := by
    cases o with
    | none => exact absurd ho hne
    | some m => rfl
  have hshown {m : α} {o : Option α} (hm : (if h.extremes then o else none) = some m) : o = some m := by
    split at hm
    · exact hm
    · cases hm
  refine ⟨?_, (h.sum_buckets_summarize values).symm, h.count_summarize values, ⟨?_, ?_⟩,
    fun m hm => hshown hm ▸ hmin, fun m hm => hshown hm ▸ hmax⟩
  · have hlength := h.length_buckets_summarize values
    refine List.ext_getElem (by simpa [Aggregator.histogramPoint] using hlength) fun i hi _ => ?_
    have hi : i < (h.summarize values).buckets.length := hi
    have hbucket := getD_buckets_summarize hbounds hnumbers (hlength ▸ hi)
    rw [List.getD_eq_getElem _ _ hi] at hbucket
    rw [List.getElem_map, List.getElem_range]
    exact hbucket
  · simp only [Aggregator.histogramPoint]
    split <;> simp [*, hsome hmin]
  · simp only [Aggregator.histogramPoint]
    split <;> simp [*, hsome hmax]

end Histogram

omit [Quantity α] in
/-- Data with histogram points come from a histogram. -/
theorem Aggregator.exists_of_toData {a : Aggregator α} {accs : List (Accumulation α a.Summary)}
    {start time : Time} {t t' : Temporality} {points : List (HistogramPoint α)}
    (h : a.toData accs start time t = .histogram points t') :
    (∃ h, a = .histogram h) ∧ t' = t := by
  cases a with
  | sum | lastValue => cases h
  | histogram h' => exact ⟨⟨h', rfl⟩, (Data.histogram.inj h).2.symm⟩

/-- A stream with histogram points has a histogram. -/
theorem RegisteredStream.exists_histogram {rs : RegisteredStream α}
    {observed : Table Nat (Observations α)} {time : Time} {t : Temporality}
    {points : List (HistogramPoint α)} (h : rs.data observed time = .histogram points t) :
    ∃ h, rs.settings.aggregator = .histogram h := by
  unfold data at h
  unfold settings
  cases hsource : rs.source with
  | synchronous s | asynchronous s o =>
    rw [hsource] at h
    exact (Aggregator.exists_of_toData h).1

namespace StreamSettings

variable {c : StreamSettings α} {h : Histogram α} {points : List (HistogramPoint α)} {t : Temporality}
  {time : Time}

/-- A point of a cumulative histogram has the summary of the values of its series. -/
theorem eq_of_mem_reference (hc : c.aggregator = .histogram h) {account : Account α}
    (hdata : c.reference account time = .histogram points t) {point : HistogramPoint α}
    (hpoint : point ∈ points) :
    let values := (c.measurementsIn point.attributes account.measurements).map (·.value)
    values ≠ [] ∧ point = Aggregator.histogramPoint h account.start time
      ⟨point.attributes, h.summarize values, []⟩ := by
  obtain ⟨a, filter, reservoir, temporality, start⟩ := c
  cases hc
  let c : StreamSettings α := ⟨.histogram h, filter, reservoir, temporality, start⟩
  obtain ⟨rfl, -⟩ := Data.histogram.inj hdata
  obtain ⟨acc, hacc, rfl⟩ := List.mem_map.mp hpoint
  obtain ⟨e, he, rfl⟩ := List.mem_map.mp (List.mem_of_mem_filter hacc)
  obtain ⟨k, hk, rfl⟩ := List.mem_map.mp he
  have hseries : c.occurs k account.measurements = true := by
    rw [occurs, ← any_seriesAmong]
    exact List.any_eq_true.mpr ⟨k, hk, BEq.rfl⟩
  refine ⟨fun hnil => measurementsIn_ne_nil hseries (List.map_eq_nil_iff.mp hnil), ?_⟩
  exact congrArg (fun summary => Aggregator.histogramPoint h account.start time ⟨k, summary, []⟩)
    (h.recordAll_eq_summarize (c.measurementsIn k account.measurements))

/-- A point of a delta histogram has all buckets. -/
theorem eq_of_mem_deltaReference (hc : c.aggregator = .histogram h) {w : Window α}
    (hdata : c.deltaReference w time = .histogram points t) {point : HistogramPoint α}
    (hpoint : point ∈ points) :
    ∃ summary : Histogram.Summary α, summary.buckets.length = h.bounds.length + 1 ∧
      point = Aggregator.histogramPoint h w.start time ⟨point.attributes, summary, []⟩ := by
  obtain ⟨a, filter, reservoir, temporality, start⟩ := c
  cases hc
  let c : StreamSettings α := ⟨.histogram h, filter, reservoir, temporality, start⟩
  obtain ⟨rfl, -⟩ := Data.histogram.inj hdata
  obtain ⟨acc, hacc, rfl⟩ := List.mem_map.mp hpoint
  obtain ⟨k, -, rfl⟩ := List.mem_map.mp (List.mem_of_mem_filter hacc)
  have htotal (ms : List (Measurement α)) :
      Histogram.Summary.buckets (c.total ms k) =
        (h.summarize ((c.measurementsIn k ms).map (·.value))).buckets :=
    congrArg Histogram.Summary.buckets (h.recordAll_eq_summarize (c.measurementsIn k ms))
  refine ⟨c.change w k, ?_, rfl⟩
  show (Histogram.Summary.buckets (if c.occurs k w.old then _ else _)).length = _
  split
  · show (List.zipWith _ (Histogram.Summary.buckets (c.total w.all k))
      (Histogram.Summary.buckets (c.total w.old k))).length = _
    rw [htotal, htotal, List.length_zipWith, Histogram.length_buckets_summarize,
      Histogram.length_buckets_summarize, Nat.min_self]
  · rw [htotal, Histogram.length_buckets_summarize]

end StreamSettings

/-! ## Points of a history -/

/-- The points that a histogram exports after any history are well formed, and if it is cumulative they
describe the measurements of their series. -/
theorem SynchronousStream.points_play [Scaled α] {c : StreamSettings α} {h : Histogram α}
    (hc : c.aggregator = .histogram h) (hbounds : strictlyAscending h.bounds = true)
    {steps : List (StreamStep α)} (hnumbers : ∀ m ∈ StreamStep.measured steps, isNaN m.value = false)
    {time : Time} {points : List (HistogramPoint α)} {t : Temporality}
    (hdata : ((opened c).play steps).2.data time = .histogram points t) {point : HistogramPoint α}
    (hpoint : point ∈ points) :
    point.WellFormed ∧ (t = .cumulative → point.Describes h.extremes
      ((c.measurementsIn point.attributes (StreamStep.measured steps)).map (·.value))) := by
  have hsettings := (opened c).settings_play steps
  obtain rfl : t = c.temporality :=
    (Aggregator.exists_of_toData hdata).2.trans (congrArg StreamSettings.temporality hsettings)
  -- Exemplars aside, the data are those of the reference.
  let bare : HistogramPoint α := { point with exemplars := [] }
  have hbare : bare ∈ points.map fun p => { p with exemplars := [] } := List.mem_map_of_mem hpoint
  have hwithout := congrArg Data.withoutExemplars hdata
  cases htemporality : c.temporality with
  | cumulative =>
    -- The summary of a series is that of all its measurements.
    have hreference := (Recounts.play c steps).data_eq (hsettings ▸ htemporality) time
    rw [hsettings] at hreference
    obtain ⟨hne, heq⟩ :=
      StreamSettings.eq_of_mem_reference hc (hreference.symm.trans hwithout) hbare
    have hvalues : ∀ v ∈ (c.measurementsIn point.attributes (StreamStep.measured steps)).map (·.value),
        isNaN v = false := by
      intro v hv
      obtain ⟨m, hm, rfl⟩ := List.mem_map.mp hv
      exact hnumbers m (List.mem_of_mem_filter hm)
    have hwell : bare.WellFormed :=
      heq ▸ Histogram.wellFormed_point hbounds (h.length_buckets_summarize _)
    have hdescribes : bare.Describes h.extremes _ :=
      heq ▸ Histogram.describes_point hbounds hvalues hne
    exact ⟨⟨hwell.finite, hwell.ascending, hwell.buckets⟩, fun _ => ⟨hdescribes.buckets,
      hdescribes.total, hdescribes.count, hdescribes.shown, hdescribes.min, hdescribes.max⟩⟩
  | delta =>
    -- A difference of summaries has the buckets that both of them have.
    have hreference := (Tracks.play htemporality steps).data_eq (hsettings ▸ htemporality) time
    rw [hsettings] at hreference
    obtain ⟨summary, hsummary, heq⟩ :=
      StreamSettings.eq_of_mem_deltaReference hc (hreference.symm.trans hwithout) hbare
    have hwell : bare.WellFormed := heq ▸ Histogram.wellFormed_point hbounds hsummary
    exact ⟨⟨hwell.finite, hwell.ascending, hwell.buckets⟩, nofun⟩

/-! ## Points of a run -/

namespace System

variable {respond : Responder σ α} {sys sys' : System α} {past : List (Occurrence σ α)}

/-- What is entered in streams are numbers. -/
theorem Course.isNaN_of_mem_entriesIn (h : Course respond sys past sys') {t : Nat × Nat}
    {m : Measurement α} (hm : m ∈ entriesIn t past) : isNaN m.value = false := by
  induction h with
  | refl => cases hm
  | tail _ hhappening ih =>
    rw [entriesIn, List.filterMap_append] at hm
    rcases List.mem_append.mp hm with hm | hm
    · exact ih hm
    · obtain ⟨o, ho, hentry⟩ := List.mem_filterMap.mp hm
      obtain rfl := Option.mem_toList.mp ho
      -- Of all that happens, only a measurement is entered.
      cases hhappening with
      | pass => cases hentry
      | record built taken attributes draw =>
        simp only [Occurrence.measurement?, Option.ite_none_right_eq_some] at hentry
        obtain ⟨-, hentry⟩ := hentry
        obtain rfl := Option.some.inj hentry
        exact isNaN_of_objection taken

/-- In every run, exporters are handed what the passes of its course deliver. Every histogram point that
a pass exports, wherever the bounds came from, is well formed, and on a cumulative stream it describes
the measurements of its series that were entered in the stream before the pass. -/
theorem histogramPoints_run [Scaled α] (respond : Responder σ α) (known : σ)
    (readers : List (Exporter α × Nat)) (providers : List (Resource × List Nat))
    (commands : List (Command α)) :
    let course := (launched readers providers).occurrences respond known commands
    deliveries ((launched readers providers).run respond known commands).2.2.journal =
        (course.filterMap (·.pass?)).map (·.delivery respond) ∧
      ∀ before pass after, course = before ++ .collected pass :: after →
        ∀ n metric points t, pass.metric? respond n = some metric →
          metric.data = .histogram points t →
            ∃ s h, pass.stream? n = some s ∧ s.settings.aggregator = .histogram h ∧
              ∀ point ∈ points, point.WellFormed ∧ (t = .cumulative →
                point.Describes h.extremes ((s.settings.measurementsIn point.attributes
                  (entriesIn (pass.reader, n) before)).map (·.value))) := by
  intro course
  refine ⟨deliveries_course respond known readers providers commands,
    fun before pass after hcourse n metric points t hmetric hdata => ?_⟩
  -- The course leads to the system that the pass collects.
  have hbefore : Course respond (launched readers providers) before pass.system :=
    (Course.run respond known _ commands).before_pass hcourse
  have hlaunched : Rooted (fun _ _ => True) (launched readers providers) :=
    rooted_launched readers providers
  have hchronicled : Chronicled before pass.system :=
    (chronicled_launched readers providers).course hlaunched hbefore
  have hvalidated : Validated pass.system :=
    (validated_launched readers providers).course hlaunched hbefore
  obtain ⟨rs, hrs, hexported⟩ := Option.bind_eq_some_iff.mp hmetric
  have hdata : rs.data (pass.observed respond) pass.system.now = .histogram points t :=
    (RegisteredStream.data_of_metric? hexported).symm.trans hdata
  obtain ⟨h, hh⟩ := RegisteredStream.exists_histogram hdata
  obtain ⟨hbounds, hobserver⟩ := hvalidated.streams _ rs hrs h hh
  rw [RegisteredStream.observer?] at hobserver
  rw [RegisteredStream.settings] at hh
  cases hsource : rs.source with
  | asynchronous s o =>
    rw [hsource] at hobserver
    cases hobserver
  | synchronous s =>
    rw [hsource] at hh
    simp only [RegisteredStream.data, hsource] at hdata
    rw [hchronicled.played _ rs s hrs hsource] at hdata
    refine ⟨s, h, Pass.stream?_eq_some.mpr ⟨rs, hrs, hsource⟩, hh, fun point hpoint => ?_⟩
    have hnumbers : ∀ m ∈ StreamStep.measured (history (pass.reader, n) before),
        isNaN m.value = false := by
      rw [measured_history]
      exact fun m hm => hbefore.isNaN_of_mem_entriesIn hm
    have hpoints := SynchronousStream.points_play hh hbounds hnumbers hdata hpoint
    rwa [measured_history] at hpoints

/-- A counter that a view makes a histogram of, with amounts on bounds, above them all, and infinite. -/
theorem histogramPoints_run_viewed :
    let view : View Float := ⟨⟨some (.exact "c"), none, none, none, none, none⟩, none, none, none,
      some (.histogram [1, 10] true), none⟩
    let respond : Responder Unit Float := fun _ _ => (⟨[], .returned⟩, ())
    let course := (launched [(.memory .cumulative, 1000)] [(KeyMap.empty, [0])]).occurrences respond ()
      [.registerView 0 view, .create 0 (.named "m") ⟨⟨.counter, "c", none, none⟩, ⟨none, none⟩⟩ 0,
        .record 0 10 [] id, .record 0 0.5 [] id, .record 0 (1 / 0) [] id, .record 0 (-1) [] id,
        .record 0 1 [] id, .flush 0]
    let point : HistogramPoint Float :=
      ⟨.empty, 0, 0, 4, 1 / 0, some 0.5, some (1 / 0), [2, 1, 1], [1, 10], []⟩
    ∃ pass, course = course.dropLast ++ [.collected pass] ∧
      (pass.metric? respond 0).map (·.data) = some (.histogram [point] .cumulative) ∧
      point.WellFormed ∧ point.Describes true [10, 0.5, 1 / 0, 1] := by
  intro view respond course point
  have hlast : (course.getLast?.bind (·.pass?)).map (fun pass =>
      (pass.reader, (pass.metric? respond 0).map (·.data))) =
        some (0, some (.histogram [point] .cumulative)) := by decide +kernel
  have hstream : (course.getLast?.bind (·.pass?)).bind (fun pass => (pass.stream? 0).map fun s =>
      (s.settings.aggregator, (s.settings.measurementsIn .empty (entriesIn (0, 0) course.dropLast)).map
        (·.value))) = some (.histogram ⟨[1, 10], true⟩, [10, 0.5, 1 / 0, 1]) := by decide +kernel
  obtain ⟨pass, hpass, hfacts⟩ := Option.map_eq_some_iff.mp hlast
  obtain ⟨o, ho, hcollected⟩ := Option.bind_eq_some_iff.mp hpass
  obtain ⟨hreader, hdata⟩ := Prod.mk.inj hfacts
  obtain rfl := Occurrence.pass?_eq_some.mp hcollected
  have hcourse : course = course.dropLast ++ [.collected pass] :=
    (List.dropLast_append_getLast? _ ho).symm
  obtain ⟨metric, hmetric, hmetricData⟩ := Option.map_eq_some_iff.mp hdata
  obtain ⟨s, h, hs, hh, hpoints⟩ :=
    (histogramPoints_run respond () _ _ _).2 _ pass [] hcourse 0 metric _ _ hmetric hmetricData
  obtain ⟨hwell, hdescribes⟩ := hpoints point (List.mem_singleton_self point)
  rw [hpass, Option.bind_some, hs] at hstream
  obtain ⟨haggregator, hvalues⟩ := Prod.mk.inj (Option.some.inj hstream)
  obtain rfl := Aggregator.histogram.inj (hh.symm.trans haggregator)
  have hdescribes := hdescribes rfl
  rw [hreader] at hdescribes
  exact ⟨pass, hcourse, hdata, hwell, hvalues ▸ hdescribes⟩

end System

end Metering
