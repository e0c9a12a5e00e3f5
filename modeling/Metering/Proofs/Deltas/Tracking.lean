import Metering.Proofs.Deltas.Window

/-!
# Delta Streams Track their Windows

Recording a measurement and collecting keep a delta stream on track, and what a collection reports
is read off the window: one accumulation for each series with a measurement in the window, with the
change of its summary since the window began.
-/

namespace Metering

variable {α : Type} [Quantity α]

/-! ## The reference -/

namespace StreamSettings

variable {c : StreamSettings α} {w : Window α} {j k : Attributes}

/-- The summary of a series' measurements. -/
def total (c : StreamSettings α) (ms : List (Measurement α)) (k : Attributes) : c.Summary :=
  c.summaryOf (c.measurementsIn k ms)

/-- What a window adds to the summary of a series. -/
def change (c : StreamSettings α) (w : Window α) (k : Attributes) : c.Summary :=
  if c.occurs k w.old then c.aggregator.diff (c.total w.all k) (c.total w.old k)
  else c.total w.all k

/-- The series that have a measurement in a window, in the order in which they began. -/
def active (c : StreamSettings α) (w : Window α) : List Attributes :=
  (c.seriesAmong w.all).filter fun k => c.occurs k w.fresh

/-- What a delta stream with these settings reports of a window that ends at a time, exemplars
aside. -/
def deltaReference (c : StreamSettings α) (w : Window α) (time : Time) : Data α :=
  c.aggregator.toData ((c.active w).map fun k => ⟨k, c.change w k, []⟩) w.start time .delta

theorem total_congr (h : (j == k) = true) (ms : List (Measurement α)) : c.total ms j = c.total ms k := by
  rw [total, measurementsIn_congr h, total]

/-- A series without a measurement in the window has the summary that it had before. -/
theorem total_all_of_idle (h : c.occurs k w.fresh = false) : c.total w.all k = c.total w.old k := by
  rw [total, Window.all, measurementsIn_append, measurementsIn_eq_nil_of_occurs h, List.append_nil,
    total]

end StreamSettings

/-! ## Tracking -/

/-- A stream whose series, marks and baseline are those of a window. -/
structure Tracks (w : Window α) (s : SynchronousStream α) : Prop where
  series : s.series.entries.map (fun e => (e.1, e.2.summary)) = s.settings.summaries w.all
  touched : ∀ e ∈ s.series.entries, e.2.touched = s.settings.occurs e.1 w.fresh
  baseline : ∀ k, s.baseline.find? k =
    if s.settings.occurs k w.old then some (s.settings.total w.old k) else none
  start : s.lastCollect = w.start

namespace Tracks

variable {w : Window α} {s : SynchronousStream α}

theorem opened (c : StreamSettings α) : Tracks ⟨[], [], c.start⟩ (.opened c) := by
  refine ⟨rfl, ?_, fun k => rfl, rfl⟩
  intro e he
  cases he

/-- Each entry has the summary of its series, and each series of the window has an entry. -/
theorem mem_series (h : Tracks w s) {e : Attributes × Series α s.settings.Summary}
    (he : e ∈ s.series.entries) : e.2.summary = s.settings.total w.all e.1 := by
  have hmem : (e.1, e.2.summary) ∈ s.settings.summaries w.all := by
    rw [← h.series]
    exact List.mem_map_of_mem he
  obtain ⟨k, -, hk⟩ := List.mem_map.mp hmem
  obtain ⟨rfl, hsummary⟩ := Prod.mk.inj hk
  exact hsummary.symm

theorem keys_series (h : Tracks w s) : s.series.keys = s.settings.seriesAmong w.all := by
  have hfst := congrArg (List.map (·.1)) h.series
  simpa [StreamSettings.summaries, Table.keys, Function.comp_def] using hfst

/-- A measurement makes its series touched. -/
theorem record (h : Tracks w s) (draw : Nat) (m : Measurement α) :
    Tracks (w.step (.record draw m)) (s.record draw m.value m.attributes m.time) := by
  refine ⟨?_, ?_, h.baseline, h.start⟩
  · have hall : (w.step (.record draw m)).all = w.all ++ [m] := by
      simp [Window.step, Window.all]
    have hrecord := s.summaries_record draw m
    rw [h.series, ← StreamSettings.summaries_concat, ← hall] at hrecord
    exact hrecord
  · intro e he
    show e.2.touched = s.settings.occurs e.1 (w.fresh ++ [m])
    rw [StreamSettings.occurs, List.any_append]
    rcases Table.mem_update_cases he with ⟨hkey, hvalue⟩ | ⟨hkey, hmem⟩
    · -- The entry of the measured series is touched now.
      have hkey : (s.settings.seriesOf m == e.1) = true := BEq.symm hkey
      rw [hvalue]
      simp [Series.record, hkey]
    · -- An entry of another series is as it was, and so are its measurements.
      have hkey : (s.settings.seriesOf m == e.1) = false := by
        rw [BEq.comm]
        exact hkey
      rw [h.touched e hmem]
      simp [StreamSettings.occurs, hkey]

/-! ## Collecting -/

/-- The summaries that a delta collection puts into the baseline. -/
theorem lookup_reported (h : Tracks w s) (hdelta : s.settings.temporality = .delta) (k : Attributes) :
    Table.lookup k (s.reported.map fun e => (e.1, e.2.summary)) =
      if s.settings.occurs k w.fresh then some (s.settings.total w.all k) else none := by
  have hdistinct : s.reported.Pairwise fun a b => (a.1 == b.1) = false := s.series.distinct.filter _
  cases hoccurs : s.settings.occurs k w.fresh with
  | false =>
    -- What is reported is touched, and this series is not.
    rw [if_neg (by simp), Table.lookup, Option.map_eq_none_iff]
    refine List.find?_eq_none.mpr fun x hx hxk => ?_
    obtain ⟨e, he, rfl⟩ := List.mem_map.mp hx
    obtain ⟨hmem, hreports⟩ := List.mem_filter.mp he
    simp only [SynchronousStream.reports, hdelta, h.touched e hmem] at hreports
    rw [StreamSettings.occurs_congr hxk, hoccurs] at hreports
    cases hreports
  | true =>
    rw [if_pos rfl]
    -- A series that occurs is listed, so it has an entry, which is touched.
    have hlisted := StreamSettings.any_seriesAmong_of_occurs hoccurs
    rw [← h.keys_series] at hlisted
    obtain ⟨j, hj, hjk⟩ := List.any_eq_true.mp hlisted
    obtain ⟨e, he, rfl⟩ := List.mem_map.mp hj
    have hreported : e ∈ s.reported := by
      refine List.mem_filter.mpr ⟨he, ?_⟩
      simp only [SynchronousStream.reports, hdelta, h.touched e he]
      rw [StreamSettings.occurs_congr hjk, hoccurs]
    let reported : Table Attributes s.settings.Summary :=
      ⟨s.reported.map fun e => (e.1, e.2.summary), List.pairwise_map.mpr hdistinct⟩
    have hfound : reported.find? k = some e.2.summary :=
      Table.find?_eq_some_of_mem (List.mem_map_of_mem hreported) hjk
    rw [h.mem_series he, StreamSettings.total_congr hjk] at hfound
    exact hfound

/-- A collection begins a new window, with everything measured so far in the baseline. -/
theorem collected (h : Tracks w s) (hdelta : s.settings.temporality = .delta) (time : Time) :
    Tracks (w.step (.collect time)) (s.collected time) := by
  have hall : (w.step (.collect time)).all = w.all := by simp [Window.step, Window.all]
  refine ⟨?_, ?_, ?_, rfl⟩
  · show _ = s.settings.summaries (w.step (.collect time)).all
    rw [hall]
    exact (s.summaries_collected time).trans h.series
  · intro e he
    obtain ⟨x, -, rfl⟩ := List.mem_map.mp he
    show (if s.reports x.2 then x.2.collected else x.2).touched = false
    split
    · rfl
    · rename_i hidle
      simpa [SynchronousStream.reports, hdelta] using hidle
  · intro k
    have hbaseline : (s.collected time).baseline.find? k =
        (s.baseline.insertAll (s.reported.map fun e => (e.1, e.2.summary))).find? k := by
      simp [SynchronousStream.collected, hdelta]
    have hdistinct : (s.reported.map fun e => (e.1, e.2.summary)).Pairwise
        fun a b => (a.1 == b.1) = false := List.pairwise_map.mpr (s.series.distinct.filter _)
    apply hbaseline.trans
    show _ = if s.settings.occurs k w.all then some (s.settings.total w.all k) else none
    rw [Table.find?_insertAll _ hdistinct, h.lookup_reported hdelta, h.baseline,
      StreamSettings.occurs_all]
    -- What was reported replaces the baseline; of an idle series the baseline has the same already.
    cases hfresh : s.settings.occurs k w.fresh with
    | true => simp
    | false =>
      rw [Bool.or_false, StreamSettings.total_all_of_idle hfresh]
      rfl

/-- A delta collection reports the window. -/
theorem data_eq (h : Tracks w s) (hdelta : s.settings.temporality = .delta) (time : Time) :
    (s.data time).withoutExemplars = s.settings.deltaReference w time := by
  have haccumulations : (s.reported.map s.accumulation).map
      (fun acc => ({ acc with exemplars := [] } : Aggregator.Accumulation α _)) =
      (s.settings.active w).map fun k => ⟨k, s.settings.change w k, []⟩ := by
    rw [StreamSettings.active, ← h.keys_series, Table.keys, List.filter_map, List.map_map,
      List.map_map]
    -- A delta stream reports what is touched, which is what occurs in the window.
    have hreported : s.reported =
        s.series.entries.filter ((fun k => s.settings.occurs k w.fresh) ∘ (·.1)) := by
      apply List.filter_congr
      intro e he
      simp [SynchronousStream.reports, hdelta, h.touched e he]
    rw [hreported]
    apply List.map_congr_left
    intro e he
    have hmem := (List.mem_filter.mp he).1
    simp only [Function.comp_apply, SynchronousStream.accumulation, hdelta, StreamSettings.since,
      h.baseline, h.mem_series hmem, StreamSettings.change]
    cases s.settings.occurs e.1 w.old <;> simp
  rw [SynchronousStream.data, Aggregator.withoutExemplars_toData, haccumulations,
    StreamSettings.deltaReference, hdelta]
  simp [StreamSettings.windowStart, hdelta, h.start]

end Tracks

end Metering
