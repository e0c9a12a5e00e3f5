import Metering.Proofs.Accounts.Groups
import Metering.Reader

/-!
# Streams that Recount an Account

An account is the time at which an instrument began and the measurements made since. A stream
recounts it when its series have the summaries of the measurements by series. Recording a
measurement in both keeps the two together, a collection changes neither, and what a cumulative
stream reports can be computed from the account alone.
-/

namespace Metering

variable {α : Type}

/-- What was measured on an instrument since it began. -/
structure Account (α : Type) where
  start : Time
  measurements : List (Measurement α)

/-- An account of nothing. -/
def Account.opened (start : Time) : Account α := ⟨start, []⟩

/-- The account with one more measurement. -/
def Account.enter (account : Account α) (m : Measurement α) : Account α :=
  { account with measurements := account.measurements ++ [m] }

/-- The data without the measurements that were sampled next to it. -/
def Data.withoutExemplars : Data α → Data α
  | .sum points t m => .sum (points.map fun p => { p with exemplars := [] }) t m
  | .histogram points t => .histogram (points.map fun p => { p with exemplars := [] }) t
  | .gauge points => .gauge (points.map fun p => { p with exemplars := [] })

/-! ## Points -/

/-- The attribute sets that there are points for. -/
def Data.sets : Data α → List Attributes
  | .sum points _ _ => points.map (·.attributes)
  | .histogram points _ => points.map (·.attributes)
  | .gauge points => points.map (·.attributes)

theorem Data.length_sets (d : Data α) : d.sets.length = d.length := by
  cases d <;> exact List.length_map ..

theorem Data.sets_withoutExemplars (d : Data α) : d.withoutExemplars.sets = d.sets := by
  cases d <;> exact List.map_map

namespace Aggregator

/-- Whether a summary gives a point. -/
def shows : (a : Aggregator α) → a.Summary → Bool
  | sum _, _ => true
  | lastValue, s => Option.isSome s
  | histogram _, s => decide (0 < Histogram.Summary.count s)

/-- A summary of at least one measurement gives a point. -/
theorem shows_record [Quantity α] (a : Aggregator α) (s : a.Summary) (value : α) (time : Time) :
    a.shows (a.record s value time) = true := by
  cases a with
  | sum monotonic => rfl
  | lastValue =>
    show Option.isSome (LastValue.record s value time) = true
    unfold LastValue.record
    split
    · split <;> rfl
    · rfl
  | histogram h => simp [shows, record, Histogram.record]

/-- If all summaries show, there is a point for each, in their order. -/
theorem sets_toData (a : Aggregator α) {accs : List (Accumulation α a.Summary)}
    (h : ∀ acc ∈ accs, a.shows acc.summary = true) (start time : Time) (t : Temporality) :
    (a.toData accs start time t).sets = accs.map (·.attributes) := by
  cases a with
  | sum monotonic => exact List.map_map
  | lastValue =>
    simp only [toData, Data.sets]
    induction accs with
    | nil => rfl
    | cons acc rest ih =>
      -- Every summary shows, so no accumulation is passed over.
      obtain ⟨sample, hsample⟩ := Option.isSome_iff_exists.mp (h acc (List.mem_cons_self ..))
      rw [List.filterMap_cons, hsample]
      exact congrArg (acc.attributes :: ·) (ih fun x hx => h x (List.mem_cons_of_mem _ hx))
  | histogram hist =>
    have hall : accs.filter (fun acc => decide (0 < acc.summary.count)) = accs :=
      List.filter_eq_self.mpr h
    simp only [toData, Data.sets, List.map_map]
    exact congrArg (List.map _) hall

/-- Points differ from those of other accumulations in exemplars only when the accumulations do. -/
theorem withoutExemplars_toData (a : Aggregator α) (accs : List (Accumulation α a.Summary))
    (start time : Time) (t : Temporality) :
    (a.toData accs start time t).withoutExemplars =
      a.toData (accs.map fun acc => { acc with exemplars := [] }) start time t := by
  cases a with
  | sum monotonic => simp [toData, Data.withoutExemplars, numberPoint]
  | lastValue =>
    simp only [toData, Data.withoutExemplars, List.filterMap_map, List.map_filterMap]
    congr 1
    apply List.filterMap_congr
    intro acc _
    simp only [Function.comp_apply, Option.map_map]
    rfl
  | histogram hist =>
    simp only [toData, Data.withoutExemplars, List.map_map, List.filter_map]
    rfl

end Aggregator

/-! ## The reference -/

variable [Quantity α]

namespace StreamSettings

variable {c : StreamSettings α}

/-- What a cumulative stream with these settings reports of an account, exemplars aside: one
accumulation for each series, in the order in which the series began, over the time since the
account was opened. -/
def reference (c : StreamSettings α) (account : Account α) (time : Time) : Data α :=
  c.aggregator.toData
    ((c.summaries account.measurements).map fun e => ⟨e.1, e.2, []⟩) account.start time c.temporality

/-- The summary of at least one measurement gives a point. -/
theorem shows_summaryOf {ms : List (Measurement α)} (h : ms ≠ []) :
    c.aggregator.shows (c.summaryOf ms) = true := by
  rw [← List.dropLast_append_getLast h, summaryOf_concat]
  exact Aggregator.shows_record ..

theorem shows_summaries {ms : List (Measurement α)} {e : Attributes × c.Summary}
    (he : e ∈ c.summaries ms) : c.aggregator.shows e.2 = true := by
  obtain ⟨k, hk, rfl⟩ := List.mem_map.mp he
  have hany : (c.seriesAmong ms).any (· == k) = true := List.any_eq_true.mpr ⟨k, hk, BEq.rfl⟩
  rw [any_seriesAmong] at hany
  obtain ⟨m, hm, hmk⟩ := List.any_eq_true.mp hany
  exact shows_summaryOf (List.ne_nil_of_mem (List.mem_filter.mpr ⟨hm, hmk⟩))

/-- The reference has the series of the account, in the order in which they began. -/
theorem sets_reference (account : Account α) (time : Time) :
    (c.reference account time).sets = c.seriesAmong account.measurements := by
  rw [reference, Aggregator.sets_toData]
  · rw [List.map_map, summaries, List.map_map]
    exact List.map_id _
  · intro acc hacc
    obtain ⟨e, he, rfl⟩ := List.mem_map.mp hacc
    exact shows_summaries he

/-- The reference has one point for each series. -/
theorem length_reference (account : Account α) (time : Time) :
    (c.reference account time).length = (c.seriesAmong account.measurements).length := by
  rw [← Data.length_sets, sets_reference]

end StreamSettings

/-! ## Changes of a stream -/

namespace SynchronousStream

/-- A measurement updates the summary of its series. -/
theorem summaries_record (s : SynchronousStream α) (draw : Nat) (m : Measurement α) :
    (s.record draw m.value m.attributes m.time).series.entries.map (fun e => (e.1, e.2.summary)) =
      Table.updateEntries (s.settings.seriesOf m)
        (fun found => s.settings.aggregator.record (found.getD s.settings.aggregator.empty)
          m.value m.time)
        (s.series.entries.map fun e => (e.1, e.2.summary)) := by
  apply Table.map_updateEntries
  intro found
  cases found <;> rfl

omit [Quantity α] in
/-- A collection takes exemplars and marks from the series, but leaves their summaries. -/
theorem summaries_collected (s : SynchronousStream α) (time : Time) :
    (s.collected time).series.entries.map (fun e => (e.1, e.2.summary)) =
      s.series.entries.map fun e => (e.1, e.2.summary) := by
  simp only [collected, Table.mapValues, List.map_map]
  apply List.map_congr_left
  intro e _
  simp only [Function.comp_apply]
  split <;> rfl

end SynchronousStream

/-! ## Recounting -/

/-- The series of a stream are those of an account, with the summaries of their measurements. -/
structure Recounts (account : Account α) (s : SynchronousStream α) : Prop where
  start : s.settings.start = account.start
  series : s.series.entries.map (fun e => (e.1, e.2.summary)) =
    s.settings.summaries account.measurements

namespace Recounts

variable {account : Account α} {s : SynchronousStream α}

theorem opened (c : StreamSettings α) : Recounts (.opened c.start) (.opened c) := ⟨rfl, rfl⟩

/-- A measurement goes to the one series that it belongs to. -/
theorem record (h : Recounts account s) (draw : Nat) (value : α) (attributes : Attributes)
    (time : Time) :
    Recounts (account.enter ⟨value, attributes, time⟩) (s.record draw value attributes time) := by
  refine ⟨h.start, ?_⟩
  have hrecord := s.summaries_record draw ⟨value, attributes, time⟩
  rw [h.series, ← StreamSettings.summaries_concat] at hrecord
  exact hrecord

theorem collected (h : Recounts account s) (time : Time) : Recounts account (s.collected time) :=
  ⟨h.start, (s.summaries_collected time).trans h.series⟩

/-- What a cumulative stream reports is the reference of the account that it recounts. -/
theorem data_eq (h : Recounts account s) (ht : s.settings.temporality = .cumulative) (time : Time) :
    (s.data time).withoutExemplars = s.settings.reference account time := by
  -- A cumulative stream reports all series, touched or not.
  have hreported : s.reported = s.series.entries := by
    simp [SynchronousStream.reported, SynchronousStream.reports, ht]
  rw [SynchronousStream.data, StreamSettings.reference, Aggregator.withoutExemplars_toData,
    hreported, ← h.series, ← h.start, List.map_map, List.map_map]
  simp only [StreamSettings.windowStart, ht]
  congr 1
  apply List.map_congr_left
  intro e _
  simp [SynchronousStream.accumulation, ht]

theorem length_data (h : Recounts account s) (ht : s.settings.temporality = .cumulative)
    (time : Time) :
    (s.data time).length = (s.settings.seriesAmong account.measurements).length := by
  have hlength (d : Data α) : d.withoutExemplars.length = d.length := by
    cases d <;> simp [Data.withoutExemplars, Data.length]
  rw [← hlength, h.data_eq ht, StreamSettings.length_reference]

end Recounts

end Metering
