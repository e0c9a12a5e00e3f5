import Metering.Proofs.Deltas.Additive

/-!
# Deltas Add Up to the Cumulative Data

A delta stream tracks the window of its history, whatever the history, and the data of its
collections add up. One window adds to each series what its measurements in the window are worth,
which may be nothing, so what all collections so far reported amounts to what was measured before
the last one. A cumulative stream that is given the same measurements reports as much at once.
-/

namespace Metering

variable {α : Type} [Quantity α]

/-! ## Playing a history -/

namespace SynchronousStream

/-- Does one step with a stream; a collection gives data. -/
def apply (s : SynchronousStream α) : StreamStep α → Option (Data α) × SynchronousStream α
  | .record draw m => (none, s.record draw m.value m.attributes m.time)
  | .collect time => (some (s.data time), s.collected time)

/-- Does the steps of a history, one after the other, and keeps the data of all collections. -/
def play (s : SynchronousStream α) : List (StreamStep α) → List (Data α) × SynchronousStream α
  | [] => ([], s)
  | x :: rest =>
    let (data?, s) := s.apply x
    let (others, s) := s.play rest
    (data?.toList ++ others, s)

theorem play_concat (s : SynchronousStream α) (steps : List (StreamStep α)) (x : StreamStep α) :
    s.play (steps ++ [x]) =
      ((s.play steps).1 ++ ((s.play steps).2.apply x).1.toList, ((s.play steps).2.apply x).2) := by
  induction steps generalizing s with
  | nil => simp [play]
  | cons y rest ih => simp [play, ih]

theorem settings_play (s : SynchronousStream α) (steps : List (StreamStep α)) :
    (s.play steps).2.settings = s.settings := by
  induction steps generalizing s with
  | nil => rfl
  | cons x rest ih => cases x <;> exact ih _

end SynchronousStream

/-- A delta stream tracks the window of its history. -/
theorem Tracks.play {c : StreamSettings α} (hdelta : c.temporality = .delta)
    (steps : List (StreamStep α)) :
    Tracks (.after c.start steps) ((SynchronousStream.opened c).play steps).2 := by
  induction steps using List.reverseRecOn with
  | nil => exact .opened c
  | append_singleton steps x ih =>
    rw [Window.after_concat, SynchronousStream.play_concat]
    -- The settings stay what they are, so the stream is still a delta stream.
    cases x with
    | record draw m => exact ih.record draw m
    | collect time =>
      refine ih.collected ?_ time
      rw [SynchronousStream.settings_play]
      exact hdelta

/-- A stream recounts all measurements of its history. -/
theorem Recounts.play (c : StreamSettings α) (steps : List (StreamStep α)) :
    Recounts ⟨c.start, StreamStep.measured steps⟩ ((SynchronousStream.opened c).play steps).2 := by
  induction steps using List.reverseRecOn with
  | nil => exact .opened c
  | append_singleton steps x ih =>
    rw [SynchronousStream.play_concat, StreamStep.measured, List.filterMap_append]
    cases x with
    | record draw m => exact ih.record draw m.value m.attributes m.time
    | collect time =>
      have hnothing : StreamStep.measured steps ++ [] = StreamStep.measured steps :=
        List.append_nil _
      exact hnothing ▸ ih.collected time

/-! ## What a window is worth -/

namespace StreamSettings

variable {c : StreamSettings α} {w : Window α} {j k : Attributes}

theorem change_congr (h : (j == k) = true) (w : Window α) : c.change w j = c.change w k := by
  rw [change, occurs_congr h, total_congr h, total_congr h, change]

theorem total_of_not_occurs {ms : List (Measurement α)} (h : c.occurs k ms = false) :
    c.total ms k = c.aggregator.empty := by
  rw [total, measurementsIn_eq_nil_of_occurs h]
  rfl

/-- The measurements of a window are recorded on top of the older ones. -/
theorem total_all (w : Window α) (k : Attributes) :
    c.total w.all k = c.aggregator.recordAll (c.total w.old k) (c.measurementsIn k w.fresh) := by
  rw [total, Window.all, measurementsIn_append, summaryOf, List.foldl_append]
  rfl

end StreamSettings

/-- The difference of a summary and one that lacks some of its measurements gives a point. -/
theorem Aggregator.shows_diff (a : Aggregator α) (s : a.Summary) {ms : List (Measurement α)}
    (hne : ms ≠ []) : a.shows (a.diff (a.recordAll s ms) s) = true := by
  cases a with
  | sum monotonic => rfl
  | lastValue =>
    obtain ⟨first, last, rfl⟩ : ∃ first last, ms = first ++ [last] :=
      ⟨_, _, (List.dropLast_append_getLast hne).symm⟩
    have hconcat : lastValue.recordAll s (first ++ [last]) =
        lastValue.record (lastValue.recordAll s first) last.value last.time := List.foldl_append
    rw [diff, hconcat]
    exact shows_record ..
  | histogram h =>
    -- With a measurement in between, the count has grown.
    have hcount := h.count_recordAll s ms
    have hpos := List.length_pos_iff.mpr hne
    apply decide_eq_true
    simp only [diff, Histogram.diff]
    omega

namespace StreamSettings

variable {c : StreamSettings α} {w : Window α} {k : Attributes}

/-- What changed gives a point. -/
theorem shows_change (h : c.occurs k w.fresh = true) : c.aggregator.shows (c.change w k) = true := by
  have hfresh := measurementsIn_ne_nil h
  rw [change]
  split
  · rw [total_all]
    exact c.aggregator.shows_diff _ hfresh
  · apply shows_summaryOf
    rw [Window.all, measurementsIn_append]
    exact List.append_ne_nil_of_right_ne_nil _ hfresh

/-- A delta stream has a point for each series with a measurement in the window. -/
theorem sets_deltaReference (w : Window α) (time : Time) :
    (c.deltaReference w time).sets = c.active w := by
  rw [deltaReference, Aggregator.sets_toData, List.map_map]
  · exact List.map_id _
  · intro acc hacc
    obtain ⟨k, hk, rfl⟩ := List.mem_map.mp hacc
    exact shows_change (List.mem_filter.mp hk).2

end StreamSettings

/-! ## Reading references -/

variable {β : Type}

namespace StreamSettings

variable {c : StreamSettings α} {w : Window α} {k : Attributes} {r : Readout α β}

/-- What a delta stream reports of a window reads, at each series, as the change of its summary. -/
theorem read_deltaReference (hzero : ∀ x, r.add r.zero x = x) (w : Window α) (time : Time)
    (k : Attributes) :
    (c.deltaReference w time).read r k =
      if c.occurs k w.fresh then c.aggregator.read r (c.change w k) else r.zero := by
  have hactive : (c.active w).any (· == k) = c.occurs k w.fresh := by
    rw [active, List.any_filter]
    cases hoccurs : c.occurs k w.fresh with
    | false =>
      apply List.any_eq_false.mpr
      intro j _ hj
      obtain ⟨hfresh, hjk⟩ := (Bool.and_eq_true ..).mp hj
      rw [occurs_congr hjk, hoccurs] at hfresh
      cases hfresh
    | true =>
      obtain ⟨j, hj, hjk⟩ := List.any_eq_true.mp (any_seriesAmong_of_occurs hoccurs)
      refine List.any_eq_true.mpr ⟨j, hj, ?_⟩
      rw [occurs_congr hjk, hoccurs, hjk, Bool.and_true]
  have hdistinct : (c.active w).Pairwise fun i j => (i == j) = false :=
    (seriesAmong_distinct w.all).filter _
  have hread := c.aggregator.read_toData_map hzero (c.change w) hdistinct (k := k)
    (fun j hjk => change_congr hjk w)
    (fun j hj => shows_change (List.mem_filter.mp hj).2) w.start time .delta
  rw [deltaReference, hread, hactive]

/-- What a cumulative stream reports of an account reads, at each series, as its summary. -/
theorem read_reference (h : c.aggregator.Additive r) (account : Account α) (time : Time)
    (k : Attributes) :
    (c.reference account time).read r k =
      c.aggregator.read r (c.total account.measurements k) := by
  have hread := c.aggregator.read_toData_map h.zero_add (c.total account.measurements)
    (seriesAmong_distinct account.measurements) (k := k)
    (fun j hjk => total_congr hjk _)
    (fun j hj => shows_summaries (List.mem_map_of_mem hj)) account.start time c.temporality
  rw [reference, summaries, List.map_map]
  apply hread.trans
  rw [any_seriesAmong]
  cases hoccurs : account.measurements.any fun m => c.seriesOf m == k with
  | true => exact if_pos rfl
  | false =>
    rw [total_of_not_occurs hoccurs, h.empty]
    exact if_neg (by simp)

/-- Together with what was there before, a window makes up the summary of each series. -/
theorem read_window (h : c.aggregator.Additive r) (w : Window α) (time : Time) (k : Attributes) :
    r.add (c.aggregator.read r (c.total w.old k)) ((c.deltaReference w time).read r k) =
      c.aggregator.read r (c.total w.all k) := by
  rw [read_deltaReference h.zero_add]
  cases hfresh : c.occurs k w.fresh with
  | false =>
    -- Idle: nothing was reported, and nothing changed.
    rw [total_all_of_idle hfresh]
    exact h.add_zero _
  | true =>
    rw [if_pos rfl, change]
    cases hold : c.occurs k w.old with
    | false =>
      -- Measured for the first time: all of it was reported.
      rw [total_of_not_occurs hold, h.empty]
      exact h.zero_add _
    | true =>
      -- Measured before: the difference was reported.
      rw [if_pos rfl, total_all]
      exact h.diff _ _

end StreamSettings

/-! ## Adding the windows up -/

variable {c : StreamSettings α} {r : Readout α β}

/-- The data of all collections so far amount to what was measured before the last one. -/
theorem readAll_play (hdelta : c.temporality = .delta) (h : c.aggregator.Additive r)
    (steps : List (StreamStep α)) (k : Attributes) :
    Data.readAll ((SynchronousStream.opened c).play steps).1 r k =
      c.aggregator.read r (c.total (Window.after c.start steps).old k) := by
  induction steps using List.reverseRecOn with
  | nil => exact h.empty.symm
  | append_singleton steps x ih =>
    rw [SynchronousStream.play_concat, Window.after_concat]
    cases x with
    | record draw m =>
      simp only [SynchronousStream.apply, Option.toList_none, List.append_nil]
      exact ih
    | collect time =>
      -- The collection reports the window, and with it makes up what is old from now on.
      have hsettings := (SynchronousStream.opened c).settings_play steps
      have hdata := (Tracks.play hdelta steps).data_eq (hsettings ▸ hdelta) time
      rw [hsettings] at hdata
      simp only [SynchronousStream.apply, Option.toList_some, Data.readAll_concat, ih]
      rw [← Data.read_withoutExemplars, hdata]
      exact StreamSettings.read_window h _ time k

/-- After a collection, what a delta stream reported amounts to what a cumulative stream reports
after the same measurements. -/
theorem readAll_play_collect (hdelta : c.temporality = .delta) (h : c.aggregator.Additive r)
    {steps other : List (StreamStep α)}
    (hsame : StreamStep.measured other = StreamStep.measured steps) (reservoir : Option Nat)
    (start time later : Time) (k : Attributes) :
    Data.readAll ((SynchronousStream.opened c).play (steps ++ [.collect time])).1 r k =
      (((SynchronousStream.opened
        { c with temporality := .cumulative, reservoir, start }).play other).2.data later).read r k := by
  let d : StreamSettings α := { c with temporality := .cumulative, reservoir, start }
  have hsettings := (SynchronousStream.opened d).settings_play other
  have hdata := (Recounts.play d other).data_eq (by rw [hsettings]; rfl) later
  rw [hsettings] at hdata
  have htotal : (((SynchronousStream.opened d).play other).2.data later).read r k =
      c.aggregator.read r (c.total (StreamStep.measured steps) k) := by
    rw [← Data.read_withoutExemplars, hdata, ← hsame]
    exact StreamSettings.read_reference (c := d) h _ later k
  rw [readAll_play hdelta h, Window.after_concat]
  exact (congrArg (fun ms => c.aggregator.read r (c.total ms k)) (Window.all_after ..)).trans
    htotal.symm

/-! ## Collections of a delta stream -/

/-- No part of a summary that counts measurements is ever more than it is later. -/
theorem StreamSettings.read_total_old_le {c : StreamSettings α} {r : Readout α Nat}
    (h : c.aggregator.Additive r) (hadd : r.add = (· + ·)) (w : Window α) (k : Attributes) :
    c.aggregator.read r (c.total w.old k) ≤ c.aggregator.read r (c.total w.all k) := by
  have hdiff := h.diff (c.total w.old k) (c.measurementsIn k w.fresh)
  rw [hadd] at hdiff
  rw [total_all]
  exact Nat.le.intro hdiff

/-- A collection of a delta stream, after any history, has one point for each series measured since
the last collection and none for any other, over the time since then, with what the series changed
by; no subtraction of counts is cut off. The data of all collections up to it add up to what a
cumulative stream, collected at any times of its own, reports after the same measurements. -/
theorem SynchronousStream.deltas_reconcile {c : StreamSettings α} (hdelta : c.temporality = .delta)
    (steps : List (StreamStep α)) (time : Time) :
    let s := ((opened c).play steps).2
    let w := Window.after c.start steps
    (∀ k, (s.data time).read .points k = if c.occurs k w.fresh then 1 else 0) ∧
      (s.data time).withoutExemplars = c.deltaReference w time ∧
      (∀ k, c.aggregator.read .count (c.total w.old k) ≤ c.aggregator.read .count (c.total w.all k) ∧
        ∀ i, c.aggregator.read (.bucket i) (c.total w.old k) ≤
          c.aggregator.read (.bucket i) (c.total w.all k)) ∧
      ∀ (reservoir : Option Nat) (start : Time) (other : List (StreamStep α)) (later : Time),
        StreamStep.measured other = StreamStep.measured steps →
          let deltas := ((opened c).play (steps ++ [.collect time])).1
          let whole := ((opened { c with temporality := .cumulative, reservoir, start }).play
            other).2.data later
          ∀ k, Data.readAll deltas .count k = whole.read .count k ∧
            (∀ i, Data.readAll deltas (.bucket i) k = whole.read (.bucket i) k) ∧
            Data.readAll deltas .latest k = whole.read .latest k ∧
            (Quantity.Exact α → Data.readAll deltas .total k = whole.read .total k) := by
  intro s w
  have hsettings : s.settings = c := (opened c).settings_play steps
  -- The stream tracks the window, and its data are those of the window.
  have hdata : (s.data time).withoutExemplars = c.deltaReference w time := by
    have htemporality : s.settings.temporality = .delta := by
      rw [hsettings]
      exact hdelta
    have hreference := (Tracks.play hdelta steps).data_eq htemporality time
    rwa [hsettings] at hreference
  refine ⟨fun k => ?_, hdata, fun k => ⟨?_, fun i => ?_⟩, ?_⟩
  · rw [← Data.read_withoutExemplars, hdata, StreamSettings.read_deltaReference Nat.zero_add]
    cases hoccurs : c.occurs k w.fresh with
    | false => rfl
    | true => exact c.aggregator.read_points (StreamSettings.shows_change hoccurs)
  · exact StreamSettings.read_total_old_le c.aggregator.additive_count rfl w k
  · exact StreamSettings.read_total_old_le (c.aggregator.additive_bucket i) rfl w k
  · intro reservoir start other later hsame deltas whole k
    refine ⟨?_, fun i => ?_, ?_, fun hexact => ?_⟩
    · exact readAll_play_collect hdelta c.aggregator.additive_count hsame reservoir start time later k
    · exact readAll_play_collect hdelta (c.aggregator.additive_bucket i) hsame reservoir start time
        later k
    · exact readAll_play_collect hdelta c.aggregator.additive_latest hsame reservoir start time later k
    · exact readAll_play_collect hdelta c.aggregator.additive_total hsame reservoir start time later k

/-- The windows of a delta histogram with an idle and an active collection, against a cumulative
histogram that was not collected in between. -/
theorem SynchronousStream.deltas_reconcile_histogram :
    let c : StreamSettings Int := ⟨.histogram ⟨[10], true⟩, none, none, .delta, 0⟩
    let ms : List (Measurement Int) := [⟨3, .empty, 1⟩, ⟨25, .empty, 4⟩, ⟨7, .empty, 5⟩]
    let steps : List (StreamStep Int) := [.record 0 ms[0], .collect 2, .collect 3, .record 0 ms[1],
      .record 0 ms[2]]
    let deltas := ((opened c).play (steps ++ [.collect 6])).1
    let whole := ((opened { c with temporality := .cumulative }).play
      (ms.map (.record 0 ·))).2.data 8
    deltas.map (·.read .total .empty) = [3, 0, 32] ∧
      Data.readAll deltas .total .empty = whole.read .total .empty ∧
      deltas.map (·.read .count .empty) = [1, 0, 2] ∧
      Data.readAll deltas .count .empty = whole.read .count .empty := by
  intro c ms steps deltas whole
  have hreconciles := (deltas_reconcile (c := c) rfl steps 6).2.2.2 none 0 (ms.map (.record 0 ·)) 8
    rfl .empty
  exact ⟨by decide, hreconciles.2.2.2 inferInstance, by decide, hreconciles.1⟩

end Metering
