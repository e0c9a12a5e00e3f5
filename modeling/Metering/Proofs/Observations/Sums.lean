import Metering.Proofs.Filters.Run
import Metering.Proofs.Observations.Gauges

/-!
# Observed Sums

An asynchronous sum adds up what callbacks observe in a pass. A set that is observed again replaces
its value and keeps its place. Sets that keep the same attributes under the filter of the stream are
added to each other, in the order in which they first came up. A cumulative stream exports what it
finds in the pass and nothing from before.
-/

namespace Metering

variable {α σ : Type}

/-! ## First occurrences -/

section FirstOccurrences

variable {β : Type} [BEq β] [EquivBEq β]

/-- To erase duplicates is to take in one element after the other, unless an equal one is there. -/
theorem eraseDups_eq_foldl (xs : List β) : xs.eraseDups =
    xs.foldl (fun found x => if found.any (· == x) then found else found ++ [x]) [] := by
  -- The elements that were found are held in reverse.
  have hloop (found : List β) : List.eraseDupsBy.loop (· == ·) xs found =
      xs.foldl (fun found x => if found.any (· == x) then found else found ++ [x]) found.reverse := by
    induction xs generalizing found with
    | nil => rfl
    | cons x rest ih =>
      have hany : found.reverse.any (· == x) = found.any (x == ·) := by
        rw [List.any_reverse]
        exact List.any_congr rfl fun y => BEq.comm
      rw [List.eraseDupsBy.loop, List.foldl_cons, hany]
      split
      · rename_i hfound
        rw [ih, hfound, if_pos rfl]
      · rename_i hnew
        rw [ih, hnew, if_neg (by simp), List.reverse_cons]
  exact hloop []

/-- The keys of a table of pairs are the different keys of the pairs, in the order in which they first
came. -/
theorem Table.keys_ofList {ν : Type} (pairs : List (β × ν)) :
    (Table.ofList pairs).keys = (pairs.map (·.1)).eraseDups := by
  induction pairs using List.reverseRecOn with
  | nil => rfl
  | append_singleton pairs e ih =>
    have hcontains : (Table.ofList pairs).contains e.1 = (Table.ofList pairs).keys.any (· == e.1) := by
      rw [keys, List.any_map]
      rfl
    rw [eraseDups_eq_foldl] at ih
    rw [ofList_concat, eraseDups_eq_foldl, List.map_append, List.foldl_append, ← ih]
    simp only [List.map_cons, List.map_nil, List.foldl_cons, List.foldl_nil, ← hcontains]
    cases hmem : (Table.ofList pairs).contains e.1 with
    | true => exact keys_insert_of_mem hmem e.2
    | false =>
      have hnew : ∀ x ∈ (Table.ofList pairs).entries, (x.1 == e.1) = false :=
        fun x hx => by simpa using List.any_eq_false.mp hmem x hx
      exact keys_insert_of_new hnew e.2

end FirstOccurrences

/-- The series of some measurements are the different sets that they keep, in the order in which these
first came up. -/
theorem StreamSettings.seriesAmong_eq_eraseDups (c : StreamSettings α) (ms : List (Measurement α)) :
    c.seriesAmong ms = (ms.map c.seriesOf).eraseDups := by
  rw [eraseDups_eq_foldl, List.foldl_map]
  rfl

/-! ## Sums of samples -/

namespace Sample

/-- The different sets that samples keep under a filter, in the order in which they first came up. -/
def distinct (filter : Option AttributeFilter) (samples : List (Sample α)) : List Attributes :=
  (samples.map fun e => AttributeFilter.kept filter e.1).eraseDups

variable [Quantity α]

/-- The sum, from zero on, over the different sets of samples that keep a set under a filter, in the
order in which they first came up, of the last value of each. -/
def sum (filter : Option AttributeFilter) (samples : List (Sample α)) (f : Attributes) : α :=
  (((distinct none samples).filter fun k => AttributeFilter.kept filter k == f).filterMap
    (latest none samples)).foldl (· + ·) 0

omit [Quantity α] in
/-- Of the table of samples, the values of some sets are the last ones of these sets. -/
theorem values_entries_ofList (samples : List (Sample α)) (test : Attributes → Bool) :
    ((Table.ofList samples).entries.filter fun e => test e.1).map (·.2) =
      ((distinct none samples).filter test).filterMap (latest none samples) := by
  have hkeys : distinct none samples = (Table.ofList samples).entries.map (·.1) :=
    (Table.keys_ofList samples).symm
  rw [hkeys, List.filter_map, List.filterMap_map, ← List.filterMap_eq_map]
  refine List.filterMap_congr fun e he => ?_
  have hfound := Table.find?_eq_some_of_mem (List.mem_of_mem_filter he) BEq.rfl
  rw [Table.find?_ofList] at hfound
  exact hfound.symm

end Sample

/-! ## Observed sums -/

open Sample

/-- What a stream sees of a pass, one sample after the other: what the last provider with a successful
call registered for the instrument's number filed under this number. -/
def seenSamples (answers : List (List (Answer α))) (o : ObserverRef) : List (Sample α) :=
  ((answers.reverse.find? fun group => group.any (·.registered o.number)).map fun group =>
    (group.flatMap (·.filed o.number)).map (·.sample)).getD []

theorem seenObservations_eq_ofList (answers : List (List (Answer α))) (o : ObserverRef) :
    seenObservations answers o = Table.ofList (seenSamples answers o) := by
  unfold seenObservations seenSamples
  cases answers.reverse.find? fun group => group.any (·.registered o.number) with
  | none => rfl
  | some group => rfl

/-- If there is one successful call for the instrument, then its samples are what the stream sees. -/
theorem seenSamples_eq {answers : List (List (Answer α))} {o : ObserverRef} {answer : Answer α}
    (h : answers.flatten.filter (·.registered o.number) = [answer]) :
    seenSamples answers o = answer.samples o.number := by
  obtain ⟨hanswer, hregistered⟩ := List.mem_filter.mp (h ▸ List.mem_singleton_self answer)
  obtain ⟨group, hgroup⟩ : ∃ group,
      answers.reverse.find? (fun group => group.any (·.registered o.number)) = some group := by
    obtain ⟨group, hmem, hin⟩ := List.mem_flatten.mp hanswer
    rw [← Option.isSome_iff_exists, List.find?_isSome]
    exact ⟨group, List.mem_reverse.mpr hmem, List.any_eq_true.mpr ⟨answer, hin, hregistered⟩⟩
  -- The group that the stream sees has no other call for the instrument.
  have hmem : group ∈ answers := List.mem_reverse.mp (List.mem_of_find?_eq_some hgroup)
  have hany : group.any (·.registered o.number) = true := by simpa using List.find?_some hgroup
  have hsublist : (group.filter (·.registered o.number)).Sublist [answer] :=
    h ▸ (List.sublist_flatten_of_mem hmem).filter _
  have hone : group.filter (·.registered o.number) = [answer] := by
    rcases List.sublist_singleton.mp hsublist with hnil | hone
    · obtain ⟨x, hx, hxr⟩ := List.any_eq_true.mp hany
      cases hnil ▸ List.mem_filter.mpr ⟨hx, hxr⟩
    · exact hone
  have hfiled : group.flatMap (·.filed o.number) =
      (group.filter (·.registered o.number)).flatMap (·.filed o.number) := by
    clear hsublist hone hany hmem hgroup
    induction group with
    | nil => rfl
    | cons x rest ih =>
      by_cases hx : x.registered o.number = true
      · rw [List.filter_cons_of_pos hx, List.flatMap_cons, List.flatMap_cons, ih]
      · rw [List.filter_cons_of_neg hx, List.flatMap_cons, Answer.filed_eq_nil hx, List.nil_append, ih]
  simp only [seenSamples, hgroup, Option.map_some, Option.getD_some, hfiled, hone, Answer.samples,
    List.flatMap_cons, List.flatMap_nil, List.append_nil]

namespace StreamSettings

variable [Quantity α] {c : StreamSettings α} {monotonic : Bool}

/-- The summaries of a table of samples are the sums of the samples, in their order. -/
theorem summaries_sum (hc : c.aggregator = .sum monotonic) (time : Time) (samples : List (Sample α)) :
    (c.summaries (measurements time (Table.ofList samples).entries)).map
        (fun e => (e.1, c.aggregator.read .total e.2)) =
      (distinct c.filter samples).map fun f => (f, sum c.filter samples f) := by
  obtain ⟨a, filter, reservoir, temporality, start⟩ := c
  cases hc
  let c : StreamSettings α := ⟨.sum monotonic, filter, reservoir, temporality, start⟩
  have hseries : c.seriesAmong (measurements time (Table.ofList samples).entries) =
      distinct filter samples := by
    rw [seriesAmong_ofList time time, seriesAmong_eq_eraseDups, measurements, List.map_map]
    rfl
  have htotal (f : Attributes) :
      c.summaryOf (c.measurementsIn f (measurements time (Table.ofList samples).entries)) =
        sum filter samples f := by
    have hin : c.measurementsIn f (measurements time (Table.ofList samples).entries) =
        measurements time ((Table.ofList samples).entries.filter fun e =>
          AttributeFilter.kept filter e.1 == f) := List.filter_map
    rw [hin, sum, ← values_entries_ofList, summaryOf, measurements, List.foldl_map, List.foldl_map]
    rfl
  rw [summaries, List.map_map, hseries]
  exact List.map_congr_left fun f _ => congrArg (f, ·) (htotal f)

end StreamSettings

namespace AsynchronousStream

variable [Quantity α] {s : AsynchronousStream α} {monotonic : Bool}

/-- A cumulative sum reports the sums of the samples, and nothing else. -/
theorem data_sum (hs : s.settings.aggregator = .sum monotonic)
    (ht : s.settings.temporality = .cumulative) (samples : List (Sample α)) (time : Time) :
    s.data (Table.ofList samples) time =
      .sum ((distinct s.settings.filter samples).map fun f =>
        ⟨f, s.settings.start, time, sum s.settings.filter samples f, []⟩) .cumulative monotonic := by
  obtain ⟨⟨a, filter, reservoir, temporality, start⟩, baseline, lastCollect⟩ := s
  cases hs
  cases ht
  let c : StreamSettings α := ⟨.sum monotonic, filter, reservoir, .cumulative, start⟩
  have hsums : c.summaries (measurements time (Table.ofList samples).entries) =
      (distinct filter samples).map fun f => (f, sum filter samples f) :=
    (List.map_id _).symm.trans (StreamSettings.summaries_sum (c := c) rfl time samples)
  have hentries : (aggregate c (Table.ofList samples) time).entries =
      (distinct filter samples).map fun f => (f, sum filter samples f) :=
    (entries_aggregate c ⟨Table.ofList samples, time⟩).trans hsums
  rw [data, hentries, List.map_map]
  exact congrArg (Data.sum · .cumulative monotonic) List.map_map

/-- What a cumulative stream reports does not depend on what it was handed before. -/
theorem data_play (ht : s.settings.temporality = .cumulative) (rounds : List (Round α))
    (observations : Observations α) (time : Time) :
    (s.play rounds).2.data observations time = s.data observations time := by
  induction rounds generalizing s with
  | nil => rfl
  | cons round rest ih =>
    refine (ih (s := s.collected round.observations round.time) ht).trans ?_
    obtain ⟨⟨a, filter, reservoir, temporality, start⟩, baseline, lastCollect⟩ := s
    cases ht
    rfl

end AsynchronousStream

/-! ## Sums in a run -/

/-- The asynchronous stream that is the source, with the instrument that it is read from. -/
def Source.asynchronous? : Source α → Option (AsynchronousStream α × ObserverRef)
  | .synchronous _ => none
  | .asynchronous s o => some (s, o)

theorem Source.asynchronous?_eq_some {source : Source α} {s : AsynchronousStream α} {o : ObserverRef} :
    source.asynchronous? = some (s, o) ↔ source = .asynchronous s o := by
  cases source <;> simp [asynchronous?]

namespace Pass

/-- The asynchronous stream that a pass finds under a number, with its instrument. -/
def observing? (pass : Pass σ α) (n : Nat) : Option (AsynchronousStream α × ObserverRef) :=
  (streamAt pass.system.readers (pass.reader, n)).bind (·.source.asynchronous?)

theorem observing?_eq_some {pass : Pass σ α} {n : Nat} {s : AsynchronousStream α} {o : ObserverRef} :
    pass.observing? n = some (s, o) ↔
      ∃ rs, streamAt pass.system.readers (pass.reader, n) = some rs ∧ rs.source = .asynchronous s o := by
  simp only [observing?, Option.bind_eq_some_iff, Source.asynchronous?_eq_some]

/-- How the calls of the pass are answered, provider by provider. -/
def answers (respond : Responder σ α) (pass : Pass σ α) : List (List (Answer α)) :=
  match pass.system.readers[pass.reader]? with
  | none => []
  | some reader => pass.system.answers respond pass.known reader

theorem observed_eq (respond : Responder σ α) (pass : Pass σ α) :
    pass.observed respond = System.observed ((pass.answers respond).map System.observationPass) := by
  unfold observed answers
  cases pass.system.readers[pass.reader]? <;> rfl

variable [Quantity α]

/-- What a pass makes of the samples of an asynchronous sum: the different sets that are kept of them,
each with its sum, in the order in which they first came up. This is what a cumulative stream exports,
whatever it was handed before, and if there is nothing of it, nothing is exported. -/
structure SumsUp (respond : Responder σ α) (pass : Pass σ α) (n : Nat) (s : AsynchronousStream α)
    (o : ObserverRef) (monotonic : Bool) (samples : List (Sample α)) : Prop where
  aggregated : (AsynchronousStream.aggregate s.settings
      (((pass.observed respond).find? o.number).getD Table.empty) pass.system.now).entries.map
      (fun e => (e.1, s.settings.aggregator.read .total e.2)) =
    (distinct s.settings.filter samples).map fun f => (f, sum s.settings.filter samples f)
  exported : s.settings.temporality = .cumulative → (pass.metric? respond n).map (·.data) =
    if samples.isEmpty then none
    else some (.sum ((distinct s.settings.filter samples).map fun f =>
      ⟨f, s.settings.start, pass.system.now, sum s.settings.filter samples f, []⟩)
        .cumulative monotonic)
  memoryless : s.settings.temporality = .cumulative → ∀ (rounds : List (Round α)) observations time,
    (s.play rounds).2.data observations time = s.data observations time

variable {respond : Responder σ α} {pass : Pass σ α} {n : Nat} {s : AsynchronousStream α}
  {o : ObserverRef} {monotonic : Bool}

omit [Quantity α] in
theorem isEmpty_distinct (filter : Option AttributeFilter) (samples : List (Sample α)) :
    (distinct filter samples).isEmpty = samples.isEmpty := by
  cases samples with
  | nil => rfl
  | cons e rest => simp [distinct, List.eraseDups_cons]

/-- A pass sums up what the stream sees. -/
theorem sumsUp (hfound : pass.observing? n = some (s, o))
    (hs : s.settings.aggregator = .sum monotonic) :
    pass.SumsUp respond n s o monotonic (seenSamples (pass.answers respond) o) := by
  obtain ⟨rs, hrs, hsource⟩ := observing?_eq_some.mp hfound
  let samples := seenSamples (pass.answers respond) o
  have hseen : ((pass.observed respond).find? o.number).getD Table.empty = Table.ofList samples := by
    rw [observed_eq, ← seenObservations_eq_ofList, seenObservations, ← System.find?_observed]
  have hdata : rs.data (pass.observed respond) pass.system.now =
      s.data (Table.ofList samples) pass.system.now := by
    rw [RegisteredStream.data, hsource, ← hseen]
  refine ⟨?_, fun ht => ?_, fun ht rounds observations time => s.data_play ht rounds observations time⟩
  · rw [hseen, AsynchronousStream.entries_aggregate s.settings ⟨Table.ofList samples, pass.system.now⟩]
    exact s.settings.summaries_sum hs pass.system.now samples
  · have hlength : (rs.data (pass.observed respond) pass.system.now).isEmpty = samples.isEmpty := by
      rw [hdata, AsynchronousStream.data_sum hs ht, ← isEmpty_distinct s.settings.filter samples]
      cases distinct s.settings.filter samples <;> rfl
    simp only [metric?, hrs, Option.bind_some, RegisteredStream.metric?, hlength]
    rw [hdata, AsynchronousStream.data_sum hs ht]
    cases samples.isEmpty <;> rfl

end Pass

namespace System

variable [Quantity α]

/-- In every run, exporters are handed what its passes deliver, and of every asynchronous sum a pass
makes the sums of what the stream sees, which is what the one callback observed that is registered for
the instrument's number and succeeded, if there is one. -/
theorem observedSums_run (respond : Responder σ α) (known : σ) (readers : List (Exporter α × Nat))
    (providers : List (Resource × List Nat)) (commands : List (Command α)) :
    let passes := (launched readers providers).passes respond known commands
    deliveries ((launched readers providers).run respond known commands).2.2.journal =
        passes.map (·.delivery respond) ∧
      ∀ pass ∈ passes, ∀ (n : Nat) (s : AsynchronousStream α) (o : ObserverRef) (monotonic : Bool),
        pass.observing? n = some (s, o) → s.settings.aggregator = .sum monotonic →
          pass.SumsUp respond n s o monotonic (seenSamples (pass.answers respond) o) ∧
            ∀ answer, (pass.answers respond).flatten.filter (·.registered o.number) = [answer] →
              pass.SumsUp respond n s o monotonic (answer.samples o.number) := by
  intro passes
  refine ⟨deliveries_run respond known readers providers commands, ?_⟩
  intro pass _ n s o monotonic hfound hs
  have hsums : pass.SumsUp respond n s o monotonic (seenSamples (pass.answers respond) o) :=
    Pass.sumsUp hfound hs
  exact ⟨hsums, fun answer hanswer => seenSamples_eq hanswer ▸ hsums⟩

/-- A counter under a view that keeps one key of two, and a callback that observes one set again, with
its keys the other way around, after two others: the new value is added where the set first came up. -/
theorem observedSums_run_filtered :
    let view : View Int :=
      ⟨⟨some (.exact "c"), none, none, none, none, none⟩, none, none, some ["k"], none, none⟩
    let set (k j : String) : List Attribute := [("k", .text k), ("j", .text j)]
    let o : ObserverRef := ⟨0, 0⟩
    let respond : Responder Unit Int := fun _ _ => (⟨[⟨o, set "a" "x", 5⟩, ⟨o, set "b" "x", 7⟩,
      ⟨o, set "a" "y", 4⟩, ⟨o, (set "a" "x").reverse, 6⟩], .returned⟩, ())
    let passes := (launched [(.memory .cumulative, 1000)] [(KeyMap.empty, [0])]).passes respond ()
      [.registerView 0 view,
        .create 0 (.named "m") ⟨⟨.asynchronousCounter, "c", none, none⟩, ⟨none, none⟩⟩ 1,
        .collect 0, .flush 0]
    passes.length = 2 ∧ ∀ pass ∈ passes, ∃ s answer,
      pass.observing? 0 = some (s, o) ∧ s.settings.aggregator = .sum true ∧
        (pass.answers respond).flatten.filter (·.registered o.number) = [answer] ∧
        pass.SumsUp respond 0 s o true (answer.samples o.number) ∧
        (distinct s.settings.filter (answer.samples o.number)).map
            (sum s.settings.filter (answer.samples o.number)) = [10, 7] := by
  intro view set o respond passes
  have hfound : ∀ pass ∈ passes, (pass.observing? 0).map (fun x =>
      (x.2, x.1.settings.aggregator, x.1.settings.filter)) =
        some (o, .sum true, some (.ofList ["k"])) := by decide +kernel
  have hanswers : ∀ pass ∈ passes, ((pass.answers respond).flatten.filter (·.registered o.number)).map
      (fun answer => decide ((distinct (some (.ofList ["k"])) (answer.samples o.number)).map
        (sum (some (.ofList ["k"])) (answer.samples o.number)) = [10, 7])) = [true] := by decide +kernel
  refine ⟨by decide +kernel, fun pass hpass => ?_⟩
  obtain ⟨⟨s, observer⟩, hs, hsettings⟩ := Option.map_eq_some_iff.mp (hfound pass hpass)
  obtain ⟨hobserver, hrest⟩ := Prod.mk.inj hsettings
  obtain ⟨hsum, hfilter⟩ := Prod.mk.inj hrest
  obtain rfl : observer = o := hobserver
  obtain ⟨answer, hanswer, hsums⟩ := List.map_eq_singleton_iff.mp (hanswers pass hpass)
  exact ⟨s, answer, hs, hsum, hanswer,
    ((observedSums_run respond () _ _ _).2 pass hpass 0 s _ true hs hsum).2 answer hanswer,
    hfilter ▸ of_decide_eq_true hsums⟩

end System

end Metering
