import Metering.Proofs.Filters.Grouping
import Metering.Proofs.Filters.Shared

/-!
# Filtered and Unfiltered Views Agree

Of two cumulative streams of one synchronous instrument that aggregate alike, one may filter the
attributes that the other keeps. At every pass both were given the same measurements, so what the
first exports can be had from what the second does: its points are those of the sets that series keep
under the filter, each with the merge of what is summarised of these series.
-/

namespace Metering

open Quantity

variable {α σ : Type}

/-- The stream that measurements are entered in, if it is one. -/
def Source.synchronous? : Source α → Option (SynchronousStream α)
  | .synchronous s => some s
  | .asynchronous _ _ => none

theorem Source.synchronous?_eq_some {source : Source α} {s : SynchronousStream α} :
    source.synchronous? = some s ↔ source = .synchronous s := by
  cases source <;> simp [synchronous?]

namespace SynchronousStream

/-- What a stream summarises by series. -/
def summaries (s : SynchronousStream α) : SeriesSummaries α :=
  ⟨s.settings.aggregator, s.series.entries.map fun e => (e.1, e.2.summary)⟩

/-- Whether two cumulative streams aggregate alike, and the second one has a filter where the first one
has none. -/
structure FilteredAs (s : SynchronousStream α) (filter : AttributeFilter)
    (s' : SynchronousStream α) : Prop where
  cumulative : s.settings.temporality = .cumulative
  cumulative' : s'.settings.temporality = .cumulative
  alike : s'.settings.aggregator = s.settings.aggregator
  whole : s.settings.filter = none
  filtered : s'.settings.filter = some filter

instance [DecidableEq α] (s : SynchronousStream α) (filter : AttributeFilter)
    (s' : SynchronousStream α) : Decidable (s.FilteredAs filter s') :=
  decidable_of_iff (s.settings.temporality = .cumulative ∧ s'.settings.temporality = .cumulative ∧
      s'.settings.aggregator = s.settings.aggregator ∧ s.settings.filter = none ∧
      s'.settings.filter = some filter)
    ⟨fun ⟨h, h', halike, hwhole, hfiltered⟩ => ⟨h, h', halike, hwhole, hfiltered⟩,
      fun ⟨h, h', halike, hwhole, hfiltered⟩ => ⟨h, h', halike, hwhole, hfiltered⟩⟩

end SynchronousStream

/-! ## What a pass exports -/

namespace Pass

/-- The synchronous stream that a pass finds under a number. -/
def stream? (pass : Pass σ α) (n : Nat) : Option (SynchronousStream α) :=
  (streamAt pass.system.readers (pass.reader, n)).bind (·.source.synchronous?)

theorem stream?_eq_some {pass : Pass σ α} {n : Nat} {s : SynchronousStream α} :
    pass.stream? n = some s ↔
      ∃ rs, streamAt pass.system.readers (pass.reader, n) = some rs ∧ rs.source = .synchronous s := by
  simp only [stream?, Option.bind_eq_some_iff, Source.synchronous?_eq_some]

variable [Quantity α] (respond : Responder σ α) (pass : Pass σ α)

/-- The attribute sets of the points that the pass exports for the stream with a number. -/
def sets (n : Nat) : List Attributes := (pass.metric? respond n).elim [] (·.data.sets)

/-- Whether a stream has some summaries, and the pass exports them as what happened since a time: one
point for each, exemplars aside, and nothing if there are none. -/
structure Exports (n : Nat) (start : Time) (x : SeriesSummaries α) : Prop where
  found : (pass.stream? n).map (·.summaries) = some x
  sets : pass.sets respond n = x.2.map (·.1)
  data : (pass.metric? respond n).map (·.data.withoutExemplars) =
    if x.2.isEmpty then none
    else some (x.1.toData (x.2.map fun e => ⟨e.1, e.2, []⟩) start pass.system.now .cumulative)

/-- What the pass exports of two streams, if the second one filters the measurements of the first: a
point for each set that a series of the first keeps, and the merge of the summaries of these series. -/
structure Condenses (filter : AttributeFilter) (n n' : Nat) : Prop where
  points : ∀ f, (pass.sets respond n').any (· == f) =
    (pass.sets respond n).any fun k => (filter.apply k).1 == f
  summaries : ∃ (a : Aggregator α) (start : Time) (whole condensed : List (Attributes × a.Summary)),
    pass.Exports respond n start ⟨a, whole⟩ ∧ pass.Exports respond n' start ⟨a, condensed⟩ ∧
      Metering.Condenses filter a whole condensed

variable {respond pass}

/-- A cumulative stream exports the summaries of the account that it recounts. -/
theorem exports_of_recounts {n : Nat} {rs : RegisteredStream α} {s : SynchronousStream α}
    {account : Account α} (hrs : streamAt pass.system.readers (pass.reader, n) = some rs)
    (hsource : rs.source = .synchronous s) (hrecounts : Recounts account s)
    (ht : s.settings.temporality = .cumulative) :
    pass.Exports respond n account.start
      ⟨s.settings.aggregator, s.settings.summaries account.measurements⟩ := by
  let summaries := s.settings.summaries account.measurements
  have hdata := hrecounts.data_eq ht pass.system.now
  have hsets : (s.data pass.system.now).sets = summaries.map (·.1) := by
    rw [← Data.sets_withoutExemplars, hdata, StreamSettings.reference, Aggregator.sets_toData]
    · exact List.map_map
    · intro acc hacc
      obtain ⟨e, he, rfl⟩ := List.mem_map.mp hacc
      exact StreamSettings.shows_summaries he
  -- So the stream has nothing to export only if it has no series.
  have hempty : (s.data pass.system.now).isEmpty = summaries.isEmpty := by
    rw [Data.isEmpty, ← Data.length_sets, hsets, List.length_map]
    cases summaries <;> rfl
  have hmetric : pass.metric? respond n = if summaries.isEmpty then none else
      some ⟨rs.scope, rs.resource, rs.name, rs.unit, rs.description, s.data pass.system.now⟩ := by
    simp only [metric?, hrs, Option.bind_some, RegisteredStream.metric?, RegisteredStream.data, hsource,
      hempty]
  refine ⟨?_, ?_, ?_⟩
  · rw [stream?_eq_some.mpr ⟨rs, hrs, hsource⟩, Option.map_some, SynchronousStream.summaries,
      hrecounts.series]
  · rw [Pass.sets, hmetric]
    split
    · rename_i hnone
      exact (congrArg (List.map (·.1)) (List.isEmpty_iff.mp hnone)).symm
    · exact hsets
  · rw [hmetric]
    split
    · rfl
    · rw [Option.map_some, hdata, StreamSettings.reference, ht]

end Pass

namespace System

variable [Quantity α]

/-- An instrument that has a synchronous stream is synchronous. -/
theorem Rooted.observer_eq_none {test : Nat → α → Prop} {sys : System α} (h : Rooted test sys)
    {i : Nat} {b : BuiltInstrument} (hb : sys.instruments[i]? = some b) {t : Nat × Nat}
    (ht : t ∈ b.streams) {rs : RegisteredStream α} (hrs : streamAt sys.readers t = some rs)
    {s : SynchronousStream α} (hsource : rs.source = .synchronous s) : b.observer = none := by
  have hobserver := (h.stems hb ht hrs).observer?
  rw [RegisteredStream.observer?, hsource] at hobserver
  exact Option.map_eq_none_iff.mp hobserver.symm

/-- What an instrument accepts is a number. -/
theorem isNaN_of_objection {key : InstrumentKey} {value : α} (h : objection key value = none) :
    isNaN value = false := by
  have haccepts := (objection_eq_none_iff key value).mp h
  rw [Ledger.accepts, Bool.and_eq_true] at haccepts
  simpa using haccepts.1

namespace Shares

variable {respond : Responder σ α} {pass : Pass σ α} {b : BuiltInstrument} {account : Account α}
  {n n' : Nat} {s s' : SynchronousStream α}

theorem exports (h : pass.system.Shares b account) (hn : (pass.reader, n) ∈ b.streams)
    (hs : pass.stream? n = some s) (ht : s.settings.temporality = .cumulative) :
    pass.Exports respond n account.start
      ⟨s.settings.aggregator, s.settings.summaries account.measurements⟩ := by
  obtain ⟨rs, hrs, hsource⟩ := Pass.stream?_eq_some.mp hs
  obtain ⟨x, hx, hrecounts⟩ := h.recounts _ hn rs hrs
  obtain rfl := Source.synchronous.inj (hsource.symm.trans hx)
  exact Pass.exports_of_recounts hrs hsource hrecounts ht

/-- Of streams that recount one account, what one exports that filters is condensed from what one
exports that does not. -/
theorem condenses [Linear α] (h : pass.system.Shares b account)
    (hn : (pass.reader, n) ∈ b.streams) (hn' : (pass.reader, n') ∈ b.streams)
    (hs : pass.stream? n = some s) (hs' : pass.stream? n' = some s') {filter : AttributeFilter}
    (hfiltered : s.FilteredAs filter s') : pass.Condenses respond filter n n' := by
  have hnumbers : ∀ m ∈ account.measurements, isNaN m.value = false :=
    fun m hm => isNaN_of_objection (h.accepted m hm)
  have hexports : pass.Exports respond n _ _ := h.exports hn hs hfiltered.cumulative
  have hexports' : pass.Exports respond n' _ _ := h.exports hn' hs' hfiltered.cumulative'
  -- The second stream has summaries of the type that the first one has.
  obtain ⟨condensed, hcondensed⟩ : ∃ condensed : List (Attributes × s.settings.aggregator.Summary),
      (⟨s'.settings.aggregator, s'.settings.summaries account.measurements⟩ : SeriesSummaries α) =
        ⟨s.settings.aggregator, condensed⟩ := by
    rw [← hfiltered.alike]
    exact ⟨_, rfl⟩
  rw [hcondensed] at hexports'
  have hcondenses :=
    StreamSettings.condenses_summaries hfiltered.whole hfiltered.filtered hnumbers rfl hcondensed
  refine ⟨fun f => ?_, _, _, _, condensed, hexports, hexports', hcondenses⟩
  rw [hexports.sets, hexports'.sets, List.any_map, List.any_map]
  exact hcondenses.kept f

end Shares

/-- In every run, exporters are handed what its passes deliver. If in a pass two cumulative streams of
a living instrument take the same measurements and aggregate alike, one of them with a filter and the
other without, then what is exported of the first is condensed from what is exported of the second. -/
theorem filteredStreams_run [Linear α] (respond : Responder σ α) (known : σ)
    (readers : List (Exporter α × Nat)) (providers : List (Resource × List Nat))
    (commands : List (Command α)) :
    let passes := (launched readers providers).passes respond known commands
    deliveries ((launched readers providers).run respond known commands).2.2.journal =
        passes.map (·.delivery respond) ∧
      ∀ pass ∈ passes, ∀ (i : Nat) (b : BuiltInstrument), pass.system.instruments[i]? = some b →
        b.lifetime.stale = false →
          ∀ n n', (pass.reader, n) ∈ b.streams → (pass.reader, n') ∈ b.streams →
            ∀ s s', pass.stream? n = some s → pass.stream? n' = some s' →
              ∀ filter, s.FilteredAs filter s' → pass.Condenses respond filter n n' := by
  intro passes
  have hall : (launched readers providers).AdmitsAll (fun _ _ => True) respond known commands :=
    .of_forall respond known (fun _ _ => trivial) ..
  refine ⟨(traces_run respond known hall).deliveries, ?_⟩
  intro pass hpass i b hb halive n n' hn hn' s s' hs hs' filter hfiltered
  have hsteps := steps_of_mem_passes hpass
  have hrooted : Rooted (fun _ _ => True) pass.system :=
    (rooted_launched readers providers).moves hsteps.moves
  obtain ⟨rs, hrs, hsource⟩ := Pass.stream?_eq_some.mp hs
  have hsync := hrooted.observer_eq_none hb hn hrs hsource
  have haccounted : Accounted pass.system :=
    (accounted_launched readers providers).steps (rooted_launched readers providers) hsteps
  obtain ⟨account, hshares⟩ := haccounted i b hb halive hsync
  exact hshares.condenses hn hn' hs hs' hfiltered

/-- A histogram under two views, one of which keeps one key of two. -/
theorem filteredStreams_run_histogram :
    let view (name : String) (keys : Option (List String)) : View Int :=
      ⟨⟨some (.exact "h"), none, none, none, none, none⟩, some name, none, keys, none, none⟩
    let set (k j : String) : List Attribute := [("k", .text k), ("j", .text j)]
    let respond : Responder Unit Int := fun _ _ => (⟨[], .returned⟩, ())
    let passes := (launched [(.memory .cumulative, 1000)] [(KeyMap.empty, [0])]).passes respond ()
      [.registerView 0 (view "whole" none), .registerView 0 (view "by.k" (some ["k"])),
        .create 0 (.named "m") ⟨⟨.histogram, "h", none, none⟩, ⟨some [10], none⟩⟩ 0,
        .record 0 3 (set "a" "x") id, .record 0 25 (set "b" "x") id, .record 0 40 (set "a" "y") id,
        .record 0 (-1) (set "a" "x") id, .flush 0]
    (∃ pass b s s', passes = [pass] ∧ pass.system.instruments[0]? = some b ∧
        b.lifetime.stale = false ∧ (pass.reader, 0) ∈ b.streams ∧ (pass.reader, 1) ∈ b.streams ∧
        pass.stream? 0 = some s ∧ pass.stream? 1 = some s' ∧ s.FilteredAs (.ofList ["k"]) s' ∧
        pass.Condenses respond (.ofList ["k"]) 0 1) ∧
      passes.map (fun pass => [0, 1].map fun n => (pass.sets respond n).map fun k =>
        ((pass.metric? respond n).elim 0 (·.data.read .total k))) = [[[2, 25, 40], [42, 25]]] := by
  intro view set respond passes
  refine ⟨?_, by decide +kernel⟩
  have hlive : passes.map (fun pass => (pass.reader, pass.system.instruments.map fun b =>
      (b.lifetime.stale, b.streams))) = [(0, [(false, [(0, 0), (0, 1)])])] := by decide +kernel
  have hstreams : passes.map (fun pass => (pass.stream? 0).bind fun s => (pass.stream? 1).map fun s' =>
      decide (s.FilteredAs (.ofList ["k"]) s')) = [some true] := by decide +kernel
  obtain ⟨pass, hpasses, hpass⟩ := List.map_eq_singleton_iff.mp hlive
  obtain ⟨hreader, hinstruments⟩ := Prod.mk.inj hpass
  obtain ⟨b, hb, hinstrument⟩ := List.map_eq_singleton_iff.mp hinstruments
  obtain ⟨halive, hnumbers⟩ := Prod.mk.inj hinstrument
  have hfound : (pass.stream? 0).bind (fun s => (pass.stream? 1).map fun s' =>
      decide (s.FilteredAs (.ofList ["k"]) s')) = some true := by
    rw [hpasses] at hstreams
    exact List.singleton_inj.mp hstreams
  obtain ⟨s, hs, hmap⟩ := Option.bind_eq_some_iff.mp hfound
  obtain ⟨s', hs', hfiltered⟩ := Option.map_eq_some_iff.mp hmap
  have hfiltered := of_decide_eq_true hfiltered
  have hzero : pass.system.instruments[0]? = some b := by rw [hb]; rfl
  have hn : (pass.reader, 0) ∈ b.streams := by rw [hreader, hnumbers]; decide
  have hn' : (pass.reader, 1) ∈ b.streams := by rw [hreader, hnumbers]; decide
  have hmem : pass ∈ passes := hpasses ▸ List.mem_singleton_self pass
  exact ⟨pass, b, s, s', hpasses, hzero, halive, hn, hn', hs, hs', hfiltered,
    (filteredStreams_run respond () _ _ _).2 pass hmem 0 b hzero halive 0 1 hn hn' s s' hs hs' _
      hfiltered⟩

end System

end Metering
