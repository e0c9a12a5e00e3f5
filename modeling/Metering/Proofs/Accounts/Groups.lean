import Mathlib.Data.List.Induction
import Metering.Proofs.TableLaws
import Metering.Stream.Synchronous

/-!
# Measurements by Series

What a stream should know of the measurements that were made, computed from their list alone: which
series there are, which measurements each of them has, and the summary of each. A series begins
with its first measurement, and series stand in the order in which they began.

One more measurement changes the list of summaries exactly as an update changes a table: the series
of the measurement gets its new summary in place, or begins at the end.
-/

namespace Metering

variable {α : Type}

/-- A measurement that was made. -/
structure Measurement (α : Type) where
  value : α
  attributes : Attributes
  time : Time

namespace StreamSettings

variable (c : StreamSettings α)

/-- The series of a measurement: its attributes, as far as the stream keeps them. -/
def seriesOf (m : Measurement α) : Attributes := (AttributeFilter.applyOptional c.filter m.attributes).1

/-- The series of some measurements, in the order in which they began. -/
def seriesAmong (ms : List (Measurement α)) : List Attributes :=
  ms.foldl (fun found m =>
    if found.any (· == c.seriesOf m) then found else found ++ [c.seriesOf m]) []

/-- The measurements of one series. -/
def measurementsIn (k : Attributes) (ms : List (Measurement α)) : List (Measurement α) :=
  ms.filter fun m => c.seriesOf m == k

/-! ## One more measurement -/

variable {c}

theorem seriesAmong_concat (ms : List (Measurement α)) (m : Measurement α) :
    c.seriesAmong (ms ++ [m]) =
      if (c.seriesAmong ms).any (· == c.seriesOf m) then c.seriesAmong ms
      else c.seriesAmong ms ++ [c.seriesOf m] := by
  simp [seriesAmong, List.foldl_append]

/-- A series is listed when it has a measurement. -/
theorem any_seriesAmong (ms : List (Measurement α)) (k : Attributes) :
    (c.seriesAmong ms).any (· == k) = ms.any fun m => c.seriesOf m == k := by
  induction ms using List.reverseRecOn with
  | nil => rfl
  | append_singleton ms m ih =>
    rw [seriesAmong_concat]
    split
    · rename_i hfound
      rw [ih, List.any_append]
      cases hk : c.seriesOf m == k with
      | false => simp [hk]
      | true =>
        -- The series of the measurement was there, so an equal one was.
        have hany : (c.seriesAmong ms).any (· == k) = true := by
          obtain ⟨j, hj, hjm⟩ := List.any_eq_true.mp hfound
          exact List.any_eq_true.mpr ⟨j, hj, BEq.trans hjm hk⟩
        rw [← ih, hany]
        rfl
    · rw [List.any_append, List.any_append, ih]
      rfl

/-- No series is listed twice. -/
theorem seriesAmong_distinct (ms : List (Measurement α)) :
    (c.seriesAmong ms).Pairwise fun a b => (a == b) = false := by
  induction ms using List.reverseRecOn with
  | nil => exact .nil
  | append_singleton ms m ih =>
    rw [seriesAmong_concat]
    split
    · exact ih
    · rename_i hnew
      refine List.pairwise_append.mpr ⟨ih, List.pairwise_singleton .., ?_⟩
      intro a ha b hb
      obtain rfl := List.mem_singleton.mp hb
      cases hab : a == c.seriesOf m with
      | false => rfl
      | true => exact absurd (List.any_eq_true.mpr ⟨a, ha, hab⟩) hnew

theorem measurementsIn_concat (k : Attributes) (ms : List (Measurement α)) (m : Measurement α) :
    c.measurementsIn k (ms ++ [m]) =
      if c.seriesOf m == k then c.measurementsIn k ms ++ [m] else c.measurementsIn k ms := by
  simp only [measurementsIn, List.filter_append]
  cases hk : c.seriesOf m == k <;> simp [hk]

theorem measurementsIn_eq_nil {k : Attributes} {ms : List (Measurement α)}
    (h : (c.seriesAmong ms).any (· == k) = false) : c.measurementsIn k ms = [] := by
  rw [any_seriesAmong] at h
  apply List.filter_eq_nil_iff.mpr
  intro m hm hk
  have := List.any_eq_false.mp h m hm
  exact this hk

/-! ## Summaries -/

variable [Quantity α] (c)

/-- The summary of measurements, recorded one after the other. -/
def summaryOf (ms : List (Measurement α)) : c.Summary :=
  ms.foldl (fun s m => c.aggregator.record s m.value m.time) c.aggregator.empty

/-- The summary of every series. -/
def summaries (ms : List (Measurement α)) : List (Attributes × c.Summary) :=
  (c.seriesAmong ms).map fun k => (k, c.summaryOf (c.measurementsIn k ms))

variable {c}

theorem summaryOf_concat (ms : List (Measurement α)) (m : Measurement α) :
    c.summaryOf (ms ++ [m]) = c.aggregator.record (c.summaryOf ms) m.value m.time := by
  simp [summaryOf, List.foldl_append]

/-- One more measurement updates the summary of its series, or begins a series at the end. -/
theorem summaries_concat (ms : List (Measurement α)) (m : Measurement α) :
    c.summaries (ms ++ [m]) =
      Table.updateEntries (c.seriesOf m)
        (fun found => c.aggregator.record (found.getD c.aggregator.empty) m.value m.time)
        (c.summaries ms) := by
  simp only [summaries, seriesAmong_concat]
  cases hfound : (c.seriesAmong ms).any (· == c.seriesOf m) with
  | true =>
    -- The series is there: its summary changes in place, and no other series has the measurement.
    rw [if_pos rfl, Table.updateEntries_map (seriesAmong_distinct ms) hfound]
    apply List.map_congr_left
    intro k _
    rw [measurementsIn_concat, BEq.comm]
    cases hk : k == c.seriesOf m with
    | true => simp [summaryOf_concat]
    | false => simp
  | false =>
    -- The series begins here, at the end and with nothing measured before.
    have hne : ∀ e ∈ c.summaries ms, (e.1 == c.seriesOf m) = false := by
      intro e he
      obtain ⟨k, hk, rfl⟩ := List.mem_map.mp he
      simpa using List.any_eq_false.mp hfound k hk
    show _ = Table.updateEntries _ _ (c.summaries ms)
    rw [if_neg (by simp), Table.updateEntries_of_forall_ne hne, List.map_append]
    refine congrArg₂ (· ++ ·) ?_ ?_
    · apply List.map_congr_left
      intro k hk
      have hne : (c.seriesOf m == k) = false := by
        rw [BEq.comm]
        simpa using List.any_eq_false.mp hfound k hk
      rw [measurementsIn_concat, hne]
      rfl
    · rw [List.map_singleton, measurementsIn_concat, BEq.rfl, measurementsIn_eq_nil hfound]
      rfl

end StreamSettings

end Metering
