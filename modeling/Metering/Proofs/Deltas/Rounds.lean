import Metering.Proofs.Deltas.Run
import Metering.Stream.Asynchronous

/-!
# Rounds of Observations

A delta stream of an asynchronous instrument is handed a whole table of observations in every
round, and remembers of the past only the round before. So what it reports in a round, after any
others, is the gain of each series of the round since the one before, whatever the aggregator.
-/

namespace Metering

variable {α : Type}

/-! ## Rounds -/

/-- What an asynchronous stream is handed in one collection pass. -/
structure Round (α : Type) where
  observations : Observations α
  time : Time

namespace Round

/-- The observations of a round, as measurements made at its time. -/
def measurements (round : Round α) : List (Measurement α) :=
  round.observations.entries.map fun e => ⟨e.2, e.1, round.time⟩

end Round

namespace StreamSettings

variable [Quantity α] {c : StreamSettings α} {j k : Attributes}

/-- The summary of a series in a round that has it. -/
def seen (c : StreamSettings α) (k : Attributes) (round : Round α) : Option c.Summary :=
  if c.occurs k round.measurements then some (c.total round.measurements k) else none

/-- What a delta stream reports of a series, given the round before: the change, if that round has
the series too. -/
def gain (c : StreamSettings α) (last : Option (Round α)) (round : Round α) (k : Attributes) :
    c.Summary :=
  match last.bind (c.seen k) with
  | some previous => c.aggregator.diff (c.total round.measurements k) previous
  | none => c.total round.measurements k

theorem seen_congr (h : (j == k) = true) (round : Round α) : c.seen j round = c.seen k round := by
  rw [seen, occurs_congr h, total_congr h, seen]

theorem gain_congr (h : (j == k) = true) (last : Option (Round α)) (round : Round α) :
    c.gain last round j = c.gain last round k := by
  have hseen : c.seen j = c.seen k := funext fun _ => seen_congr h _
  rw [gain, hseen, total_congr h, gain]

/-- The summary that is listed for a series is that of its measurements. -/
theorem lookup_summaries (ms : List (Measurement α)) (k : Attributes) :
    Table.lookup k (c.summaries ms) = if c.occurs k ms then some (c.total ms k) else none := by
  have hlisted : (c.seriesAmong ms).any (· == k) = c.occurs k ms := any_seriesAmong ms k
  have hfind : (c.summaries ms).find? (·.1 == k) =
      ((c.seriesAmong ms).find? (· == k)).map fun j => (j, c.total ms j) := List.find?_map ..
  rw [Table.lookup, hfind, ← hlisted]
  cases hfound : (c.seriesAmong ms).find? (· == k) with
  | none =>
    have hnone : (c.seriesAmong ms).any (· == k) = false := by
      rw [List.any_eq_not_all_not]
      simpa using hfound
    rw [hnone]
    rfl
  | some j =>
    have hjk : (j == k) = true := by simpa using List.find?_some hfound
    have hsome : (c.seriesAmong ms).any (· == k) = true :=
      List.any_eq_true.mpr ⟨j, List.mem_of_find?_eq_some hfound, hjk⟩
    rw [hsome, if_pos rfl]
    exact congrArg some (total_congr hjk ms)

end StreamSettings

/-! ## One round -/

namespace AsynchronousStream

variable [Quantity α]

/-- What a round aggregates to are the summaries of its measurements. -/
theorem entries_aggregate (c : StreamSettings α) (round : Round α) :
    (aggregate c round.observations round.time).entries = c.summaries round.measurements := by
  simp only [aggregate, Round.measurements]
  induction round.observations.entries using List.reverseRecOn with
  | nil => rfl
  | append_singleton entries e ih =>
    rw [List.foldl_append, List.map_append, List.map_singleton, StreamSettings.summaries_concat, ← ih]
    rfl

theorem find?_aggregate (c : StreamSettings α) (round : Round α) (k : Attributes) :
    (aggregate c round.observations round.time).find? k = c.seen k round := by
  rw [Table.find?_eq_lookup, entries_aggregate, StreamSettings.lookup_summaries, StreamSettings.seen]

/-- A stream that keeps all attributes has one series for each set that was observed. -/
theorem entries_aggregate_of_whole {c : StreamSettings α} (hwhole : c.filter = none)
    (observations : Observations α) (time : Time) :
    (aggregate c observations time).entries = observations.entries.map fun e =>
      (e.1, c.aggregator.record c.aggregator.empty e.2 time) := by
  obtain ⟨entries, hdistinct⟩ := observations
  simp only [aggregate, hwhole, AttributeFilter.applyOptional]
  induction entries using List.reverseRecOn with
  | nil => rfl
  | append_singleton entries e ih =>
    obtain ⟨hentries, -, hnew⟩ := List.pairwise_append.mp hdistinct
    rw [List.foldl_append, List.map_append, ← ih hentries]
    -- The set is a new one, so it begins a series.
    refine Table.updateEntries_of_forall_ne fun x hx => ?_
    rw [ih hentries] at hx
    obtain ⟨y, hy, rfl⟩ := List.mem_map.mp hx
    exact hnew y hy e (List.mem_singleton_self e)

/-- A stream whose memory is that of the last round, if there was one. -/
structure Recalls (last : Option (Round α)) (s : AsynchronousStream α) : Prop where
  baseline : ∀ k, s.baseline.find? k = last.bind (s.settings.seen k)
  lastCollect : s.lastCollect = (last.map (·.time)).getD s.settings.start

namespace Recalls

variable {c : StreamSettings α} {last : Option (Round α)} {s : AsynchronousStream α}

theorem opened (c : StreamSettings α) : Recalls none (.opened c) := ⟨fun _ => rfl, rfl⟩

/-- A delta stream remembers the round that it collected, and nothing from before. -/
theorem collected (hdelta : s.settings.temporality = .delta) (round : Round α) :
    Recalls (some round) (s.collected round.observations round.time) := by
  refine ⟨fun k => ?_, rfl⟩
  have hbaseline : (s.collected round.observations round.time).baseline.find? k =
      (aggregate s.settings round.observations round.time).find? k := by
    simp only [AsynchronousStream.collected, hdelta]
  exact hbaseline.trans (find?_aggregate ..)

/-- A delta stream reports the gain of every series of the round, since the time of the last one. -/
theorem data_eq (h : Recalls last s) (hc : s.settings = c) (hdelta : c.temporality = .delta)
    (round : Round α) :
    s.data round.observations round.time =
      c.aggregator.toData
        ((c.seriesAmong round.measurements).map fun k => ⟨k, c.gain last round k, []⟩)
        ((last.map (·.time)).getD c.start) round.time .delta := by
  subst hc
  have haccumulations : (aggregate s.settings round.observations round.time).entries.map
      s.accumulation =
      (s.settings.seriesAmong round.measurements).map fun k =>
        ⟨k, s.settings.gain last round k, []⟩ := by
    rw [entries_aggregate, StreamSettings.summaries, List.map_map]
    apply List.map_congr_left
    intro k _
    simp only [Function.comp_apply, accumulation, hdelta, StreamSettings.since, h.baseline,
      StreamSettings.gain]
    rfl
  rw [data, haccumulations]
  simp only [StreamSettings.windowStart, hdelta, h.lastCollect]

end Recalls

/-! ## Many rounds -/

/-- Collects round after round, and keeps the data of each. -/
def play (s : AsynchronousStream α) : List (Round α) → List (Data α) × AsynchronousStream α
  | [] => ([], s)
  | round :: rest =>
    let (others, last) := (s.collected round.observations round.time).play rest
    (s.data round.observations round.time :: others, last)

theorem play_append (s : AsynchronousStream α) (rounds others : List (Round α)) :
    s.play (rounds ++ others) =
      ((s.play rounds).1 ++ ((s.play rounds).2.play others).1,
        ((s.play rounds).2.play others).2) := by
  induction rounds generalizing s with
  | nil => rfl
  | cons round rest ih => simp [play, ih]

theorem length_play (s : AsynchronousStream α) (rounds : List (Round α)) :
    (s.play rounds).1.length = rounds.length := by
  induction rounds generalizing s with
  | nil => rfl
  | cons round rest ih => simp [play, ih]

theorem settings_play (s : AsynchronousStream α) (rounds : List (Round α)) :
    (s.play rounds).2.settings = s.settings := by
  induction rounds generalizing s with
  | nil => rfl
  | cons round rest ih => exact ih _

/-- After any rounds, a delta stream remembers the last of them. -/
theorem Recalls.play {c : StreamSettings α} (hdelta : c.temporality = .delta)
    (rounds : List (Round α)) : Recalls rounds.getLast? ((AsynchronousStream.opened c).play rounds).2 := by
  induction rounds using List.reverseRecOn with
  | nil => exact .opened c
  | append_singleton rounds round ih =>
    rw [play_append, List.getLast?_concat]
    apply Recalls.collected
    rw [settings_play]
    exact hdelta

end AsynchronousStream

end Metering
