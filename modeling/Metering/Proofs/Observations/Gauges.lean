import Mathlib.Logic.Nontrivial.Defs
import Metering.Proofs.Deltas.Rounds
import Metering.Proofs.Filters.Grouping
import Metering.Proofs.Observations.Isolation

/-!
# Observed and Recorded Gauges

A gauge shows, for each attribute set that it keeps, the last value that it was given. A synchronous
gauge is given values as they are recorded, so the last one is the most recent. An asynchronous
gauge is given the table of a pass, in which a set that is observed again keeps its first place. So
of several sets that keep the same attributes under the filter it shows the value of the set that
came up last for the first time, whether or not another of them was observed since.

The two gauges show the same of all that may be observed of some sets if and only if the filter
keeps these sets apart.
-/

namespace Metering

variable {α : Type}

/-! ## Filters that keep sets apart -/

namespace AttributeFilter

/-- What an optional filter keeps of a set. -/
def kept (filter : Option AttributeFilter) (a : Attributes) : Attributes := (applyOptional filter a).1

theorem kept_congr (filter : Option AttributeFilter) {a b : Attributes} (h : (a == b) = true) :
    (kept filter a == kept filter b) = true := by
  cases filter with
  | none => exact h
  | some filter => exact filter.apply_congr h

/-- Whether sets that differ keep different attributes. -/
def KeepsApart (filter : Option AttributeFilter) (sets : List Attributes) : Prop :=
  ∀ a ∈ sets, ∀ b ∈ sets, (kept filter a == kept filter b) = true → (a == b) = true

instance (filter : Option AttributeFilter) (sets : List Attributes) : Decidable (KeepsApart filter sets) :=
  inferInstanceAs (Decidable (∀ a ∈ sets, ∀ b ∈ sets,
    (kept filter a == kept filter b) = true → (a == b) = true))

end AttributeFilter

/-! ## Samples -/

/-- An attribute set with a value that was observed or recorded for it. -/
abbrev Sample (α : Type) := Attributes × α

/-- The attribute set of an observation with its value. -/
def Observation.sample (o : Observation α) : Sample α := (.ofList o.attributes, o.value)

namespace Sample

/-- Samples as measurements at one time. -/
def measurements (time : Time) (samples : List (Sample α)) : List (Measurement α) :=
  samples.map fun e => ⟨e.2, e.1, time⟩

/-- Samples that are recorded at one time, each with a draw of its own. -/
def recordings (draw : Nat → Nat) (time : Time) (samples : List (Sample α)) : List (StreamStep α) :=
  samples.mapIdx fun i e => .record (draw i) ⟨e.2, e.1, time⟩

theorem measured_recordings (draw : Nat → Nat) (time : Time) (samples : List (Sample α)) :
    StreamStep.measured (recordings draw time samples) = measurements time samples := by
  induction samples using List.reverseRecOn with
  | nil => rfl
  | append_singleton samples e ih =>
    rw [recordings, List.mapIdx_concat, StreamStep.measured, List.filterMap_append, measurements,
      List.map_append]
    exact congrArg (· ++ _) ih

/-- The value of the last sample that keeps an attribute set under a filter. -/
def latest (filter : Option AttributeFilter) (samples : List (Sample α)) (f : Attributes) : Option α :=
  (samples.filter fun e => AttributeFilter.kept filter e.1 == f).getLast?.map (·.2)

/-- Of the sets that keep an attribute set under a filter, the one whose first sample is last. -/
def newcomer (filter : Option AttributeFilter) (samples : List (Sample α)) (f : Attributes) :
    Option Attributes :=
  ((Table.ofList samples).keys.filter fun k => AttributeFilter.kept filter k == f).getLast?

end Sample

/-! ## Tables of samples -/

namespace Sample

variable {filter : Option AttributeFilter} {samples : List (Sample α)} {f : Attributes}

/-- Of the table of samples, the last value for an attribute set is that of the newcomer. -/
theorem latest_entries_ofList :
    latest filter (Table.ofList samples).entries f =
      (newcomer filter samples f).bind (latest none samples) := by
  have hkeys : newcomer filter samples f =
      ((Table.ofList samples).entries.filter fun e =>
        AttributeFilter.kept filter e.1 == f).getLast?.map (·.1) := by
    rw [newcomer, Table.keys, List.filter_map, List.getLast?_map]
    rfl
  rw [latest, hkeys]
  cases hlast : ((Table.ofList samples).entries.filter fun e =>
      AttributeFilter.kept filter e.1 == f).getLast? with
  | none => rfl
  | some e =>
    have hmem : e ∈ (Table.ofList samples).entries :=
      List.mem_of_mem_filter (List.mem_of_getLast? hlast)
    have hfound := Table.find?_eq_some_of_mem hmem BEq.rfl
    rw [Table.find?_ofList] at hfound
    exact hfound.symm

/-- If the filter keeps the sets of some samples apart, then the newcomer is the only one of them
that keeps its attributes, so its last sample is the last of all. -/
theorem newcomer_bind_latest (h : AttributeFilter.KeepsApart filter (samples.map (·.1))) :
    (newcomer filter samples f).bind (latest none samples) = latest filter samples f := by
  cases hnew : newcomer filter samples f with
  | none =>
    have hnil : samples.filter (fun e => AttributeFilter.kept filter e.1 == f) = [] := by
      refine List.filter_eq_nil_iff.mpr fun e he hef => ?_
      obtain ⟨k, hk, hke⟩ := Table.exists_mem_keys_ofList he
      have hkept := List.filter_eq_nil_iff.mp (List.getLast?_eq_none_iff.mp hnew) k hk
      exact hkept (BEq.trans (AttributeFilter.kept_congr filter hke) hef)
    rw [latest, hnil]
    rfl
  | some k =>
    obtain ⟨hk, hkf⟩ := List.mem_filter.mp (List.mem_of_getLast? hnew)
    have hk : k ∈ samples.map (·.1) := Table.mem_of_mem_keys_ofList hk
    have hsame : samples.filter (fun e => AttributeFilter.kept filter e.1 == f) =
        samples.filter (fun e => e.1 == k) := by
      refine List.filter_congr fun e he => Bool.eq_iff_iff.mpr ⟨fun hef => ?_, fun hek => ?_⟩
      · exact h e.1 (List.mem_map_of_mem he) k hk (BEq.trans hef (BEq.symm hkf))
      · exact BEq.trans (AttributeFilter.kept_congr filter hek) hkf
    rw [latest, hsame]
    rfl

end Sample

/-! ## What gauges show -/

namespace StreamSettings

open Sample

variable [Quantity α] {c : StreamSettings α}

omit [Quantity α] in
theorem seriesAmong_congr {ms others : List (Measurement α)}
    (h : ms.map (·.attributes) = others.map (·.attributes)) : c.seriesAmong ms = c.seriesAmong others := by
  have hfold (ms : List (Measurement α)) : c.seriesAmong ms =
      (ms.map (·.attributes)).foldl (fun found a =>
        if found.any (· == AttributeFilter.kept c.filter a) then found
        else found ++ [AttributeFilter.kept c.filter a]) [] := by
    rw [List.foldl_map]
    rfl
  rw [hfold, hfold, h]

omit [Quantity α] in
/-- Samples and their table have the same series, which begin in the same order. -/
theorem seriesAmong_ofList (time later : Time) (samples : List (Sample α)) :
    c.seriesAmong (measurements time (Table.ofList samples).entries) =
      c.seriesAmong (measurements later samples) := by
  induction samples using List.reverseRecOn with
  | nil => rfl
  | append_singleton samples e ih =>
    have hattributes (entries : List (Sample α)) :
        (measurements time entries).map (·.attributes) = entries.map (·.1) := List.map_map
    rw [Table.ofList_concat, measurements, measurements, List.map_append, List.map_singleton,
      seriesAmong_concat, ← measurements, ← measurements, ← ih]
    cases hmem : (Table.ofList samples).contains e.1 with
    | true =>
      -- The set has its place, and what it keeps is listed already.
      have hlisted : (c.seriesAmong (measurements time (Table.ofList samples).entries)).any
          (· == c.seriesOf ⟨e.2, e.1, later⟩) = true := by
        obtain ⟨x, hx, hxe⟩ := List.any_eq_true.mp hmem
        rw [any_seriesAmong, measurements, List.any_map]
        exact List.any_eq_true.mpr ⟨x, hx, AttributeFilter.kept_congr c.filter hxe⟩
      rw [if_pos hlisted]
      apply seriesAmong_congr
      rw [hattributes, hattributes]
      exact Table.keys_insert_of_mem hmem e.2
    | false =>
      have hnew : ∀ x ∈ (Table.ofList samples).entries, (x.1 == e.1) = false :=
        fun x hx => by simpa using List.any_eq_false.mp hmem x hx
      rw [Table.entries_insert_of_new hnew, measurements, List.map_append, List.map_singleton,
        seriesAmong_concat]
      rfl

/-- The summary of samples that a gauge takes in at one time is the last of them. -/
theorem read_total_measurements (hc : c.aggregator = .lastValue) (time : Time)
    (samples : List (Sample α)) (f : Attributes) :
    c.aggregator.read .latest (c.total (measurements time samples) f) = latest c.filter samples f := by
  obtain ⟨a, filter, reservoir, temporality, start⟩ := c
  cases hc
  have hlast (xs : List (Sample α)) :
      Aggregator.lastValue.recordAll none (measurements time xs) =
        xs.getLast?.map fun e => (e.2, time) := by
    induction xs using List.reverseRecOn with
    | nil => rfl
    | append_singleton xs e ih =>
      rw [measurements, List.map_append, List.map_singleton, Aggregator.recordAll_concat,
        ← measurements, ih, List.getLast?_concat]
      -- What is there already is as old, so it is replaced.
      cases xs.getLast? with
      | none => rfl
      | some before => exact if_neg (Nat.lt_irrefl time)
  have hin : measurementsIn ⟨.lastValue, filter, reservoir, temporality, start⟩ f
      (measurements time samples) =
      measurements time (samples.filter fun e => AttributeFilter.kept filter e.1 == f) :=
    List.filter_map
  rw [total, hin, latest]
  refine (congrArg (Aggregator.lastValue.read .latest) (hlast _)).trans ?_
  cases (samples.filter fun e => AttributeFilter.kept filter e.1 == f).getLast? <;> rfl

end StreamSettings

/-! ## Recorded gauges -/

open Sample

/-- Recordings open one window. -/
theorem Window.after_recordings (start : Time) (draw : Nat → Nat) (time : Time)
    (samples : List (Sample α)) :
    Window.after start (recordings draw time samples) = ⟨[], measurements time samples, start⟩ := by
  induction samples using List.reverseRecOn with
  | nil => rfl
  | append_singleton samples e ih =>
    rw [recordings, List.mapIdx_concat, Window.after_concat, ← recordings, ih, measurements,
      measurements, List.map_append]
    rfl

namespace SynchronousStream

variable [Quantity α] {c : StreamSettings α}

/-- A stream that was never collected reports all of its series, with all that was recorded. -/
theorem data_recordings (c : StreamSettings α) (draw : Nat → Nat) (time later : Time)
    (samples : List (Sample α)) :
    let data := ((opened c).play (recordings draw time samples)).2.data later
    data.sets = c.seriesAmong (measurements time samples) ∧
      ∀ f, data.read .latest f =
        c.aggregator.read .latest (c.total (measurements time samples) f) := by
  intro data
  let steps := recordings draw time samples
  have hsettings : ((opened c).play steps).2.settings = c := (opened c).settings_play steps
  have hlatest : c.aggregator.Additive .latest := c.aggregator.additive_latest
  cases htemporality : c.temporality with
  | cumulative =>
    have hdata : data.withoutExemplars = c.reference ⟨c.start, measurements time samples⟩ later := by
      have hreference := (Recounts.play c steps).data_eq (by rw [hsettings]; exact htemporality) later
      rwa [hsettings, measured_recordings] at hreference
    refine ⟨?_, fun f => ?_⟩
    · rw [← Data.sets_withoutExemplars, hdata]
      exact StreamSettings.sets_reference _ later
    · rw [← Data.read_withoutExemplars, hdata]
      exact StreamSettings.read_reference hlatest _ later f
  | delta =>
    let w : Window α := ⟨[], measurements time samples, c.start⟩
    have hdata : data.withoutExemplars = c.deltaReference w later := by
      have hreference := (Tracks.play htemporality steps).data_eq
        (by rw [hsettings]; exact htemporality) later
      rwa [hsettings, Window.after_recordings] at hreference
    refine ⟨?_, fun f => ?_⟩
    · -- All series have their measurements in the one window.
      have hactive : c.active w = c.seriesAmong (measurements time samples) := by
        refine List.filter_eq_self.mpr fun k hk => ?_
        rw [StreamSettings.occurs, ← StreamSettings.any_seriesAmong]
        exact List.any_eq_true.mpr ⟨k, hk, BEq.rfl⟩
      rw [← Data.sets_withoutExemplars, hdata, StreamSettings.sets_deltaReference, hactive]
    · have hwindow := StreamSettings.read_window hlatest w later f
      have hnothing : c.aggregator.read .latest (c.total w.old f) = Readout.latest.zero :=
        hlatest.empty
      rw [hnothing, hlatest.zero_add] at hwindow
      rw [← Data.read_withoutExemplars, hdata]
      exact hwindow

end SynchronousStream

/-! ## Observed gauges -/

namespace AsynchronousStream

variable [Quantity α] {s : AsynchronousStream α}

/-- A gauge has no memory: it reports the table that it is handed, and no difference to another. -/
theorem data_eq_reference (hs : s.settings.aggregator = .lastValue) (observations : Observations α)
    (time : Time) :
    s.data observations time = s.settings.reference
      ⟨s.settings.windowStart s.lastCollect, measurements time observations.entries⟩ time := by
  obtain ⟨⟨a, filter, reservoir, temporality, start⟩, baseline, lastCollect⟩ := s
  cases hs
  let c : StreamSettings α := ⟨.lastValue, filter, reservoir, temporality, start⟩
  have hsince (k : Attributes) (current : c.Summary) : c.since baseline k current = current := by
    unfold StreamSettings.since
    split <;> rfl
  have haccumulation (e : Attributes × c.Summary) :
      accumulation ⟨c, baseline, lastCollect⟩ e = ⟨e.1, e.2, []⟩ := by
    cases temporality with
    | cumulative => rfl
    | delta => simp only [accumulation, hsince]; rfl
  rw [data, entries_aggregate c ⟨observations, time⟩]
  refine congrArg (c.aggregator.toData · _ _ _) (List.map_congr_left fun e _ => haccumulation e)

/-- A gauge shows the last value of each set that it keeps of the table that it is handed. -/
theorem data_gauge (hs : s.settings.aggregator = .lastValue) (observations : Observations α)
    (time : Time) :
    (s.data observations time).sets =
        s.settings.seriesAmong (measurements time observations.entries) ∧
      ∀ f, (s.data observations time).read .latest f =
        latest s.settings.filter observations.entries f := by
  rw [data_eq_reference hs]
  refine ⟨StreamSettings.sets_reference _ time, fun f => ?_⟩
  rw [StreamSettings.read_reference s.settings.aggregator.additive_latest]
  exact StreamSettings.read_total_measurements hs time observations.entries f

end AsynchronousStream

/-! ## One callback in one pass -/

/-- The samples that a call files under a number. -/
def Answer.samples (n : Nat) (answer : Answer α) : List (Sample α) :=
  (answer.filed n).map (·.sample)

/-- Of a pass with one call, a stream sees the table of the samples that the call made. -/
theorem seenObservations_singleton {o : ObserverRef} {answer : Answer α}
    (h : answer.registered o.number = true) :
    seenObservations [[answer]] o = Table.ofList (answer.samples o.number) := by
  simp [seenObservations, h, merged, Answer.samples, Observation.sample]

namespace RegisteredStream

variable [Quantity α]

/-- What a stream exports of a pass in which one callback was called. -/
def observedData (s : RegisteredStream α) (answer : Answer α) (time : Time) : Data α :=
  s.data (System.observed [System.observationPass [answer]]) time

end RegisteredStream

namespace SynchronousStream

variable [Quantity α]

/-- What a fresh stream exports of samples that were recorded in a row at one time. -/
def recordedData (c : StreamSettings α) (draw : Nat → Nat) (time : Time) (samples : List (Sample α))
    (later : Time) : Data α :=
  ((opened c).play (recordings draw time samples)).2.data later

end SynchronousStream

variable [Quantity α] {s : RegisteredStream α} {stream : AsynchronousStream α} {o : ObserverRef}
  {c : StreamSettings α}

/-- A gauge shows the newcomer's last value of what a callback observed. -/
theorem RegisteredStream.observedData_gauge (hs : s.source = .asynchronous stream o)
    (hgauge : stream.settings.aggregator = .lastValue) {answer : Answer α}
    (h : answer.registered o.number = true) (time later : Time) :
    (s.observedData answer time).sets =
        stream.settings.seriesAmong (measurements later (answer.samples o.number)) ∧
      ∀ f, (s.observedData answer time).read .latest f =
        (newcomer stream.settings.filter (answer.samples o.number) f).bind
          (latest none (answer.samples o.number)) := by
  have hdata : s.observedData answer time =
      stream.data (Table.ofList (answer.samples o.number)) time := by
    rw [← seenObservations_singleton h]
    exact data_observed hs [[answer]] time
  obtain ⟨hsets, hread⟩ :=
    AsynchronousStream.data_gauge hgauge (Table.ofList (answer.samples o.number)) time
  rw [hdata]
  exact ⟨hsets.trans (StreamSettings.seriesAmong_ofList ..),
    fun f => (hread f).trans latest_entries_ofList⟩

/-- A gauge shows the last value of what is recorded. -/
theorem SynchronousStream.recordedData_gauge (hgauge : c.aggregator = .lastValue) (draw : Nat → Nat)
    (time : Time) (samples : List (Sample α)) (later : Time) :
    (recordedData c draw time samples later).sets = c.seriesAmong (measurements time samples) ∧
      ∀ f, (recordedData c draw time samples later).read .latest f = latest c.filter samples f := by
  obtain ⟨hsets, hread⟩ := data_recordings c draw time later samples
  exact ⟨hsets, fun f => (hread f).trans (c.read_total_measurements hgauge time samples f)⟩

omit [Quantity α] in
/-- If a filter makes one of two sets, then the first of them may be observed again after the second,
and the newcomer is not the set that was observed last. -/
theorem exists_stale_newcomer [Nontrivial α] {filter : Option AttributeFilter} (o : ObserverRef)
    {a b : List Attribute}
    (hkept : (AttributeFilter.kept filter (.ofList a) == AttributeFilter.kept filter (.ofList b)) = true)
    (hne : ((KeyMap.ofList a : Attributes) == .ofList b) = false) :
    ∃ answer : Answer α, answer.registered o.number = true ∧
      (∀ x ∈ answer.filed o.number, x.attributes = a ∨ x.attributes = b) ∧
      (newcomer filter (answer.samples o.number) (AttributeFilter.kept filter (.ofList a))).bind
          (latest none (answer.samples o.number)) ≠
        latest filter (answer.samples o.number) (AttributeFilter.kept filter (.ofList a)) := by
  obtain ⟨u, v, huv⟩ := exists_pair_ne α
  let answer : Answer α := (⟨⟨o.provider, 0⟩, .single o.number⟩,
    ⟨[⟨o, a, u⟩, ⟨o, b, v⟩, ⟨o, a, u⟩], .returned⟩)
  have hfiled : answer.filed o.number = [⟨o, a, u⟩, ⟨o, b, v⟩, ⟨o, a, u⟩] := by
    simp [answer, Answer.filed, Answer.registered, Feed.numbers, Feed.fileUnder]
  have hsamples : answer.samples o.number = [(.ofList a, u), (.ofList b, v), (.ofList a, u)] := by
    rw [Answer.samples, hfiled]
    rfl
  have hkeys : (Table.ofList (answer.samples o.number)).keys = [.ofList a, .ofList b] := by
    have hba : ((KeyMap.ofList b : Attributes) == .ofList a) = false := by rwa [BEq.comm]
    rw [hsamples]
    simp [Table.ofList, Table.insertAll, Table.insert, Table.update, Table.updateEntries, Table.empty,
      Table.keys, hne]
  refine ⟨answer, by simp [answer, Answer.registered, Feed.numbers], ?_, ?_⟩
  · rw [hfiled]
    simp
  · have hnewcomer : newcomer filter (answer.samples o.number)
        (AttributeFilter.kept filter (.ofList a)) = some (.ofList b) := by
      rw [newcomer, hkeys]
      simp [BEq.symm hkept]
    have hstale : latest none (answer.samples o.number) (.ofList b) = some v := by
      rw [hsamples]
      simp [latest, AttributeFilter.kept, AttributeFilter.applyOptional, hne]
    have hlatest : latest filter (answer.samples o.number)
        (AttributeFilter.kept filter (.ofList a)) = some u := by
      rw [hsamples]
      simp [latest, BEq.symm hkept]
    rw [hnewcomer, hlatest, Option.bind_some, hstale]
    simpa using huv.symm

/-- Of what one callback observes in one pass, an asynchronous gauge exports the same attribute sets,
in the same order, as a fresh synchronous gauge with the same filter exports of the same samples
recorded in a row at one time. The synchronous gauge shows the last value of what keeps a set. The
asynchronous one shows the last value of the set that, of those that keep it, came up last for the
first time. So the two show the same values of all that may be observed of some attribute sets if and
only if the filter keeps these sets apart; without a filter, they always do. -/
theorem gauges_agree_iff [Nontrivial α] (hs : s.source = .asynchronous stream o)
    (hobserved : stream.settings.aggregator = .lastValue) (hrecorded : c.aggregator = .lastValue)
    (hfilter : c.filter = stream.settings.filter) (draw : Nat → Nat) (pass time later : Time) :
    (∀ answer : Answer α, answer.registered o.number = true →
      let samples := answer.samples o.number
      let observed := s.observedData answer pass
      let recorded := SynchronousStream.recordedData c draw time samples later
      observed.sets = recorded.sets ∧ ∀ f,
        recorded.read .latest f = latest c.filter samples f ∧
          observed.read .latest f = (newcomer c.filter samples f).bind (latest none samples)) ∧
      ∀ sets : List (List Attribute),
        (∀ answer : Answer α, answer.registered o.number = true →
          (∀ x ∈ answer.filed o.number, x.attributes ∈ sets) →
          ∀ f, (s.observedData answer pass).read .latest f =
            (SynchronousStream.recordedData c draw time (answer.samples o.number) later).read
              .latest f) ↔
          AttributeFilter.KeepsApart c.filter (sets.map .ofList) := by
  have hshown (answer : Answer α) (h : answer.registered o.number = true) :=
    RegisteredStream.observedData_gauge hs hobserved h pass time
  have hkept (samples : List (Sample α)) :=
    SynchronousStream.recordedData_gauge hrecorded draw time samples later
  refine ⟨fun answer h => ⟨?_, fun f => ⟨(hkept _).2 f, ?_⟩⟩, fun sets => ⟨fun hagree => ?_, ?_⟩⟩
  · have hseries (ms : List (Measurement α)) : stream.settings.seriesAmong ms = c.seriesAmong ms := by
      simp only [StreamSettings.seriesAmong, StreamSettings.seriesOf, hfilter]
      rfl
    rw [(hshown answer h).1, (hkept _).1, hseries]
  · rw [hfilter]
    exact (hshown answer h).2 f
  · -- Sets that are not kept apart can be observed so that the gauges disagree.
    intro a ha b hb hab
    obtain ⟨a, hamem, rfl⟩ := List.mem_map.mp ha
    obtain ⟨b, hbmem, rfl⟩ := List.mem_map.mp hb
    by_contra hne
    obtain ⟨answer, hregistered, hof, hstale⟩ :=
      exists_stale_newcomer (α := α) o hab (by simpa using hne)
    have hmem : ∀ x ∈ answer.filed o.number, x.attributes ∈ sets :=
      fun x hx => (hof x hx).elim (· ▸ hamem) (· ▸ hbmem)
    have hsame := hagree answer hregistered hmem (AttributeFilter.kept c.filter (.ofList a))
    rw [(hshown answer hregistered).2, (hkept _).2, ← hfilter] at hsame
    exact hstale hsame
  · intro hapart answer h hmem f
    rw [(hshown answer h).2, (hkept _).2, ← hfilter]
    -- Every sample is of one of the sets.
    have hlisted : ∀ a ∈ (answer.samples o.number).map (·.1), a ∈ sets.map KeyMap.ofList := by
      intro a ha
      obtain ⟨e, he, rfl⟩ := List.mem_map.mp ha
      obtain ⟨x, hx, rfl⟩ := List.mem_map.mp he
      exact List.mem_map_of_mem (hmem x hx)
    exact newcomer_bind_latest fun a ha b hb => hapart a (hlisted a ha) b (hlisted b hb)

/-- A gauge that drops a key of which all observed sets have the same value, and a set that is observed
again after another. -/
theorem gauges_agree_iff_one_host :
    let filter : Option AttributeFilter := some (.ofList ["core"])
    let c : StreamSettings Int := ⟨.lastValue, filter, none, .cumulative, 0⟩
    let o : ObserverRef := ⟨0, 0⟩
    let s : RegisteredStream Int := ⟨.named "m", .empty, "g", none, none, .asynchronous (.opened c) o⟩
    let first : List Attribute := [("core", .integer 1), ("host", .text "a")]
    let second : List Attribute := [("core", .integer 2), ("host", .text "a")]
    let answer : Answer Int := (⟨⟨0, 0⟩, .single 0⟩,
      ⟨[⟨o, first, 5⟩, ⟨o, second, 7⟩, ⟨o, first, 6⟩], .returned⟩)
    let recorded := SynchronousStream.recordedData c (fun _ => 0) 1 (answer.samples o.number) 2
    AttributeFilter.KeepsApart filter [.ofList first, .ofList second] ∧
      (s.observedData answer 1).read .latest (.ofList [("core", .integer 1)]) = some 6 ∧
      ∀ f, (s.observedData answer 1).read .latest f = recorded.read .latest f := by
  intro filter c o s first second answer recorded
  have hsource : s.source = .asynchronous (.opened c) o := rfl
  have hagree := gauges_agree_iff (c := c) hsource rfl rfl rfl (fun _ => 0) 1 1 2
  have hregistered : answer.registered o.number = true := by decide
  have hapart : AttributeFilter.KeepsApart filter [.ofList first, .ofList second] := by
    decide +kernel
  have hsets : ∀ x ∈ answer.filed o.number, x.attributes ∈ [first, second] := by
    intro x hx
    have hmade := List.mem_of_mem_filter hx
    simp only [answer, List.mem_cons, List.not_mem_nil, or_false] at hmade
    rcases hmade with rfl | rfl | rfl <;> simp
  exact ⟨hapart, by decide +kernel, (hagree.2 [first, second]).mpr hapart answer hregistered hsets⟩

/-- A gauge that keeps no key, and a set that is observed again after another: the asynchronous gauge
shows the value of the other set, the synchronous one the value that came last. -/
theorem gauges_disagree_no_key :
    let c : StreamSettings Int := ⟨.lastValue, some (.ofList []), none, .cumulative, 0⟩
    let o : ObserverRef := ⟨0, 0⟩
    let s : RegisteredStream Int := ⟨.named "m", .empty, "g", none, none, .asynchronous (.opened c) o⟩
    let first : List Attribute := [("a", .text "1")]
    let second : List Attribute := [("a", .text "2")]
    let answer : Answer Int := (⟨⟨0, 0⟩, .single 0⟩,
      ⟨[⟨o, first, 1⟩, ⟨o, second, 2⟩, ⟨o, first, 3⟩], .returned⟩)
    let recorded := SynchronousStream.recordedData c (fun _ => 0) 1 (answer.samples o.number) 2
    (s.observedData answer 1).read .latest .empty = some 2 ∧ recorded.read .latest .empty = some 3 ∧
      ¬ ∀ f, (s.observedData answer 1).read .latest f = recorded.read .latest f := by
  intro c o s first second answer recorded
  have hobserved : (s.observedData answer 1).read .latest .empty = some 2 := by decide +kernel
  have hrecorded : recorded.read .latest .empty = some 3 := by decide +kernel
  refine ⟨hobserved, hrecorded, fun hagree => ?_⟩
  have hsame := hagree .empty
  rw [hobserved, hrecorded] at hsame
  cases hsame

end Metering
