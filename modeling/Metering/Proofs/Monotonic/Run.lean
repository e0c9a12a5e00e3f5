import Metering.Proofs.Monotonic.Floats
import Metering.Proofs.Moves.Roots
import Metering.Proofs.Passes.Trace

/-!
# What the Monotonic Tag is Worth

A sum is tagged monotonic by the kind of its instrument alone: those of counters and of histograms
are. Counters refuse negative measurements, so their sums do what the tag says in every run. But
histograms take any number, so their sums, which a view or an exporter may ask for, do so only in
runs in which nothing negative was measured on the histogram. This holds in every arithmetic that
respects its order, as that of floats does.
-/

namespace Metering

open Quantity

variable {α : Type} [Quantity α]

/-! ## The history of a stream -/

/-- A synchronous stream that grows goes on with its history, by accepted measurements. -/
theorem RegisteredStream.Grows.exists_steps {accepts : α → Prop} {rs rs' : RegisteredStream α}
    (h : rs.Grows accepts rs') {c : StreamSettings α} {steps : List (StreamStep α)}
    (hsource : rs.source = .synchronous ((SynchronousStream.opened c).play steps).2)
    (hsteps : ∀ m ∈ StreamStep.measured steps, accepts m.value) :
    ∃ more, rs'.source = .synchronous ((SynchronousStream.opened c).play (steps ++ more)).2 ∧
      ∀ m ∈ StreamStep.measured (steps ++ more), accepts m.value := by
  have hmeasured (xs : List (StreamStep α)) (x : StreamStep α) :
      StreamStep.measured (xs ++ [x]) = StreamStep.measured xs ++ x.measurement?.toList := by
    cases x <;> simp [StreamStep.measured, StreamStep.measurement?]
  induction h with
  | refl => exact ⟨[], by rw [List.append_nil]; exact ⟨hsource, hsteps⟩⟩
  | @record rs' _ draw value accepted attributes time ih =>
    obtain ⟨more, hsource', hmore⟩ := ih
    refine ⟨more ++ [.record draw ⟨value, attributes, time⟩], ?_, fun m hm => ?_⟩
    · rw [← List.append_assoc, SynchronousStream.play_concat]
      simp only [RegisteredStream.record, hsource', SynchronousStream.apply]
    · rw [← List.append_assoc, hmeasured] at hm
      rcases List.mem_append.mp hm with hm | hm
      · exact hmore m hm
      · obtain rfl := List.mem_singleton.mp hm
        exact accepted
  | @collected rs' _ observed time ih =>
    obtain ⟨more, hsource', hmore⟩ := ih
    refine ⟨more ++ [.collect time], ?_, fun m hm => ?_⟩
    · rw [← List.append_assoc, SynchronousStream.play_concat]
      simp only [RegisteredStream.collected, hsource', SynchronousStream.apply]
    · rw [← List.append_assoc, hmeasured, StreamStep.measurement?, Option.toList_none,
        List.append_nil] at hm
      exact hmore m hm

/-- A stream of a synchronous instrument has a history of accepted measurements, and if it sums
them, the kind of the instrument says whether the sums are tagged monotonic. -/
theorem BuiltInstrument.Stems.exists_steps {b : BuiltInstrument} {accepts : α → Prop}
    {rs : RegisteredStream α} (h : b.Stems accepts rs) (hsync : b.observer = none) :
    ∃ (c : StreamSettings α) (steps : List (StreamStep α)),
      (∀ monotonic, c.aggregator = .sum monotonic → monotonic = b.key.identity.kind.isMonotonic) ∧
        rs.source = .synchronous ((SynchronousStream.opened c).play steps).2 ∧
        ∀ m ∈ StreamStep.measured steps, accepts m.value := by
  obtain ⟨plan, time, resource, hsuits, hgrows⟩ := h
  have hsource : (plan.stream time resource b.key.scope b.ref?).source =
      .synchronous ((SynchronousStream.opened (plan.settings time)).play []).2 := by
    rw [BuiltInstrument.ref?, hsync]
    rfl
  obtain ⟨steps, hsource', hsteps⟩ := hgrows.exists_steps hsource
    (fun m hm => by cases hm)
  exact ⟨plan.settings time, [] ++ steps, hsuits, hsource', hsteps⟩

omit [Quantity α] in
/-- Only sums are reported as sums, with their own tag. -/
theorem Aggregator.eq_sum_of_toData {a : Aggregator α} {accs : List (Accumulation α a.Summary)}
    {start time : Time} {t t' : Temporality} {points : List (NumberPoint α)} {monotonic : Bool}
    (h : a.toData accs start time t = .sum points t' monotonic) : a = .sum monotonic ∧ t = t' := by
  cases a with
  | sum _ =>
    obtain ⟨-, rfl, rfl⟩ := Data.sum.inj h
    exact ⟨rfl, rfl⟩
  | lastValue => cases h
  | histogram _ => cases h

/-- The metric of a synchronous stream has its data. -/
theorem RegisteredStream.data_of_synchronous {rs : RegisteredStream α} {stream : SynchronousStream α}
    (hsource : rs.source = .synchronous stream) {observed : Table Nat (Observations α)} {time : Time}
    {metric : Metric α} (h : rs.metric? observed time = some metric) :
    metric.data = stream.data time := by
  rw [RegisteredStream.data_of_metric? h, RegisteredStream.data, hsource]

/-- A stream of a synchronous instrument that exports sums was opened to sum, with the tag of the
instrument's kind. -/
theorem BuiltInstrument.Stems.exists_sum {b : BuiltInstrument} {accepts : α → Prop}
    {rs : RegisteredStream α} (h : b.Stems accepts rs) (hsync : b.observer = none)
    {observed : Table Nat (Observations α)} {time : Time} {metric : Metric α}
    (hmetric : rs.metric? observed time = some metric) {points : List (NumberPoint α)}
    {t : Temporality} {monotonic : Bool} (hdata : metric.data = .sum points t monotonic) :
    ∃ (c : StreamSettings α) (steps : List (StreamStep α)),
      c.aggregator = .sum monotonic ∧ c.temporality = t ∧
        monotonic = b.key.identity.kind.isMonotonic ∧
        rs.source = .synchronous ((SynchronousStream.opened c).play steps).2 ∧
        ∀ m ∈ StreamStep.measured steps, accepts m.value := by
  obtain ⟨c, steps, htag, hsource, hsteps⟩ := h.exists_steps hsync
  have hreported := RegisteredStream.data_of_synchronous hsource hmetric
  have hsum := Aggregator.eq_sum_of_toData (hreported.symm.trans hdata)
  rw [SynchronousStream.settings_play] at hsum
  exact ⟨c, steps, hsum.1, hsum.2, htag monotonic hsum.1, hsource, hsteps⟩

namespace System

variable {test : Nat → α → Prop} {sys sys' : System α} {i : Nat} {b : BuiltInstrument}

/-! ## What an instrument accepts -/

/-- A counter accepts no negative measurement, and a histogram only such as pass the test. -/
theorem atMost_zero_of_accepts [Ordered α] {value : α} (h : b.Accepts test i value)
    (hkind : b.key.identity.kind = .counter ∨ (test i value → below value 0 = false)) :
    AtMost 0 value := by
  obtain ⟨htaken, hpasses⟩ := h
  unfold objection at htaken
  split at htaken
  · cases htaken
  · rename_i hcounter
    split at htaken
    · cases htaken
    · rename_i hnumber
      refine ⟨Ordered.zero_number, by simpa using hnumber, ?_⟩
      rcases hkind with hkind | hkind
      · simpa [hkind] using hcounter
      · exact hkind hpasses

/-- Of the kinds whose sums are tagged monotonic, two are synchronous. -/
theorem eq_counter_or_histogram {kind : Kind} (htag : true = kind.isMonotonic)
    (hkind : kind.isAsynchronous = false) : kind = .counter ∨ kind = .histogram := by
  cases kind with
  | counter => exact .inl rfl
  | histogram => exact .inr rfl
  | upDownCounter | gauge | asynchronousUpDownCounter | asynchronousGauge => cases htag
  | asynchronousCounter => cases hkind

/-! ## Every pass of a run -/

/-- What the tag of a sum promises of the points that a stream exports in a pass, given the passes
that follow. -/
structure KeepsPromise {σ : Type} (respond : Responder σ α) (pass : Pass σ α)
    (following : List (Pass σ α)) (n : Nat) (points : List (NumberPoint α)) (t : Temporality) :
    Prop where
  /-- A delta stream exports nothing negative. -/
  delta : t = .delta → ∀ point ∈ points, below point.value 0 = false
  /-- What a cumulative stream exports later of the same series is no less. -/
  cumulative : t = .cumulative → ∀ later ∈ following, later.reader = pass.reader →
    ∀ metric, later.metric? respond n = some metric →
      ∀ point ∈ points, ∃ e ∈ metric.data.sums,
        (e.1 == point.attributes) = true ∧ AtMost point.value e.2

/-- The tag of a synchronous stream keeps its promise, as long as what the instrument accepts is not
negative. -/
theorem Rooted.keepsPromise [Ordered α] {σ : Type} {respond : Responder σ α} {pass : Pass σ α}
    {following : List (Pass σ α)} (h : Rooted test pass.system)
    (hfollowing : ∀ later ∈ following, Moves test pass.system later.system)
    (hb : pass.system.instruments[i]? = some b) (hsync : b.observer = none) {n : Nat}
    (hs : (pass.reader, n) ∈ b.streams) (haccepts : ∀ value, b.Accepts test i value → AtMost 0 value)
    {metric : Metric α} (hmetric : pass.metric? respond n = some metric)
    {points : List (NumberPoint α)} {t : Temporality} {monotonic : Bool}
    (hdata : metric.data = .sum points t monotonic) :
    KeepsPromise respond pass following n points t := by
  obtain ⟨rs, hrs, hmetric⟩ := Option.bind_eq_some_iff.mp hmetric
  -- The stream stems from the instrument that has it.
  obtain ⟨c, steps, hsum, ht, -, hsource, hsteps⟩ :=
    (h.stems hb hs hrs).exists_sum hsync hmetric hdata
  have hpoint {point : NumberPoint α} (hpoint : point ∈ points) :
      (point.attributes, point.value) ∈
        (((SynchronousStream.opened c).play steps).2.data pass.system.now).sums := by
    rw [← RegisteredStream.data_of_synchronous hsource hmetric, hdata]
    exact List.mem_map_of_mem (f := fun point => (point.attributes, point.value)) hpoint
  refine ⟨fun hdelta point hp => ?_, fun hcumulative later hlater hreader metric' hmetric' point hp => ?_⟩
  · exact SynchronousStream.not_below_zero_of_delta hsum (ht.trans hdelta)
      (fun m hm => haccepts _ (hsteps m hm)) _ _ (hpoint hp)
  · obtain ⟨rs', hrs', hmetric'⟩ := Option.bind_eq_some_iff.mp hmetric'
    rw [hreader] at hrs'
    -- The later form of the stream goes on with the history of the earlier one.
    obtain ⟨first, hfirst, hgrows⟩ := h.grows_of_moves (hfollowing later hlater) hb hs hrs'
    obtain rfl := Option.some.inj (hrs.symm.trans hfirst)
    obtain ⟨more, hsource', hmore⟩ := hgrows.exists_steps hsource hsteps
    rw [RegisteredStream.data_of_synchronous hsource' hmetric']
    exact SynchronousStream.exists_atMost_of_cumulative hsum (ht.trans hcumulative)
      (fun m hm => haccepts _ (hmore m hm)) _ _ _ (hpoint hp)

/-- In every run, exporters are handed what its passes deliver, and every stream that a pass exports
is of one instrument. If the instrument is synchronous and the stream exports sums that are tagged
monotonic, then the instrument is a counter or a histogram, and the tag keeps its promise: of a
counter always, and of a histogram if no negative measurement was made on it in the run. -/
theorem monotonicSums_run [Ordered α] {σ : Type} (respond : Responder σ α) (known : σ)
    (readers : List (Exporter α × Nat)) (providers : List (Resource × List Nat))
    (commands : List (Command α)) :
    let passes := (launched readers providers).passes respond known commands
    deliveries ((launched readers providers).run respond known commands).2.2.journal =
        passes.map (·.delivery respond) ∧
      ∀ before pass following, passes = before ++ pass :: following →
        ∀ n metric, pass.metric? respond n = some metric →
          ∃ i b, pass.system.instruments[i]? = some b ∧ (pass.reader, n) ∈ b.streams ∧
            ∀ points t, metric.data = .sum points t true →
              b.key.identity.kind.isAsynchronous = false →
                (b.key.identity.kind = .counter ∨ b.key.identity.kind = .histogram) ∧
                  ((b.key.identity.kind = .histogram → (launched readers providers).AdmitsAll
                      (fun j value => j = i → below value 0 = false) respond known commands) →
                    KeepsPromise respond pass following n points t) := by
  intro passes
  -- What any test says of the pass: whether roots are kept, and what the later passes have to do with it.
  have htraces {test : Nat → α → Prop}
      (h : (launched readers providers).AdmitsAll test respond known commands) :=
    traces_run respond known h
  have hall : (launched readers providers).AdmitsAll (fun _ _ => True) respond known commands :=
    .of_forall respond known (fun _ _ => trivial) ..
  refine ⟨(htraces hall).deliveries, fun before pass following hpasses n metric hmetric => ?_⟩
  have hmem : pass ∈ passes := hpasses ▸ List.mem_append_right _ (List.mem_cons_self ..)
  have hrooted {test : Nat → α → Prop}
      (h : (launched readers providers).AdmitsAll test respond known commands) :
      Rooted test pass.system :=
    (rooted_launched readers providers).moves ((htraces h).visits pass hmem).1
  obtain ⟨rs, hrs, hexported⟩ := Option.bind_eq_some_iff.mp hmetric
  obtain ⟨i, b, hb, hs, hstems⟩ := (hrooted hall).streams _ rs hrs
  refine ⟨i, b, hb, hs, fun points t hdata hkind => ?_⟩
  have hsync : b.observer = none := by
    have hobserver := (hrooted hall).catalogued.kinds b (List.mem_of_getElem? hb)
    rwa [hkind, Option.isSome_eq_false_iff, Option.isNone_iff_eq_none] at hobserver
  obtain ⟨-, -, -, -, htag, -⟩ := hstems.exists_sum hsync hexported hdata
  have hkinds := eq_counter_or_histogram htag hkind
  refine ⟨hkinds, fun hhistogram => ?_⟩
  -- The test that counts is that of the instrument, if it is a histogram.
  let test (j : Nat) (value : α) : Prop :=
    b.key.identity.kind = .histogram → j = i → below value 0 = false
  have hadmits : (launched readers providers).AdmitsAll test respond known commands := by
    by_cases hk : b.key.identity.kind = .histogram
    · exact (hhistogram hk).mono respond known fun j value hvalue _ => hvalue
    · exact .of_forall respond known (fun j value h => absurd h hk) ..
  have haccepts (value : α) (haccepted : b.Accepts test i value) : AtMost 0 value :=
    atMost_zero_of_accepts haccepted (hkinds.imp_right fun hk hvalue => hvalue hk rfl)
  have hordered : (before ++ pass :: following).Pairwise fun pass later =>
      Moves test pass.system later.system := hpasses ▸ (htraces hadmits).ordered
  have hfollowing := (List.pairwise_cons.mp (List.pairwise_append.mp hordered).2.1).1
  exact (hrooted hadmits).keepsPromise hfollowing hb hsync hs haccepts hmetric hdata

/-- A counter and a histogram that a view sums, on a cumulative and on a delta reader. -/
theorem monotonicSums_run_viewed :
    let summed : View Float :=
      ⟨⟨none, some .histogram, none, none, none, none⟩, none, none, none, some .sum, none⟩
    let instrument (kind : Kind) (name : String) : Instrument Float :=
      ⟨⟨kind, name, none, none⟩, ⟨none, none⟩⟩
    let respond : Responder Unit Float := fun _ _ => (⟨[], .returned⟩, ())
    let passes := (launched [(.memory .cumulative, 1000), (.memory .delta, 1000)]
      [(KeyMap.empty, [0, 1])]).passes respond ()
        [.registerView 0 summed, .create 0 (.named "m") (instrument .counter "c") 0,
          .create 0 (.named "m") (instrument .histogram "h") 0, .record 0 2 [] id,
          .record 1 3 [] id, .flush 0, .record 1 1 [] id, .flush 0]
    (∃ pass following metric points, passes = pass :: following ∧
        pass.metric? respond 1 = some metric ∧ metric.data = .sum points .cumulative true ∧
        KeepsPromise respond pass following 1 points .cumulative) ∧
      passes.map (fun pass => (pass.reader, (pass.batch respond).map fun m =>
        (m.name, m.data.sums.map (·.2.toUInt64)))) =
          [(0, [("c", [2]), ("h", [3])]), (1, [("c", [2]), ("h", [3])]),
            (0, [("c", [2]), ("h", [4])]), (1, [("h", [1])])] := by
  intro summed instrument respond passes
  refine ⟨?_, by decide +kernel⟩
  have htagged : (passes.head?.bind (·.metric? respond 1)).map (·.data.tagged?) =
      some (some .cumulative) := by decide +kernel
  have hkinds : passes.head?.map (fun pass => pass.system.instruments.all fun b =>
      b.streams.all (· != (0, 1)) || b.key.identity.kind = .histogram) = some true := by decide +kernel
  have hreader : passes.head?.map (·.reader) = some 0 := by decide +kernel
  cases hpasses : passes with
  | nil =>
    rw [hpasses] at hreader
    cases hreader
  | cons pass following =>
    rw [hpasses] at htagged hkinds hreader
    have hreader : pass.reader = 0 := Option.some.inj hreader
    obtain ⟨metric, hmetric, hsum⟩ := Option.map_eq_some_iff.mp htagged
    obtain ⟨points, hdata⟩ := Data.eq_sum_of_tagged? hsum
    obtain ⟨i, b, hb, hs, hpromise⟩ :=
      (monotonicSums_run respond () _ _ _).2 [] pass following hpasses 1 metric hmetric
    have hkind : b.key.identity.kind = .histogram := by
      have hall := List.all_eq_true.mp (Option.some.inj hkinds) b (List.mem_of_getElem? hb)
      rw [hreader] at hs
      rcases Bool.or_eq_true_iff.mp hall with hnone | hkind
      · have hne := List.all_eq_true.mp hnone _ hs
        simp at hne
      · exact of_decide_eq_true hkind
    refine ⟨pass, following, metric, points, rfl, hmetric, hdata, ?_⟩
    refine (hpromise points .cumulative hdata (hkind ▸ rfl)).2 fun _ => ?_
    -- No measurement of the run is negative.
    exact ⟨trivial, trivial, trivial, fun _ _ _ _ _ => rfl, fun _ _ _ _ _ => rfl, trivial,
      fun _ _ _ _ _ => rfl, trivial, trivial⟩

/-- A histogram that a view sums takes a negative measurement: what it exports as a monotonic sum
falls on a cumulative reader, and is negative on a delta reader. -/
theorem not_monotonicSums_histogram :
    let summed : View Float :=
      ⟨⟨none, some .histogram, none, none, none, none⟩, none, none, none, some .sum, none⟩
    let respond : Responder Unit Float := fun _ _ => (⟨[], .returned⟩, ())
    let passes := (launched [(.memory .cumulative, 1000), (.memory .delta, 1000)]
      [(KeyMap.empty, [0, 1])]).passes respond ()
        [.registerView 0 summed,
          .create 0 (.named "m") ⟨⟨.histogram, "h", none, none⟩, ⟨none, none⟩⟩ 0,
          .record 0 5 [] id, .flush 0, .record 0 (-3) [] id, .flush 0]
    passes.map (fun pass => (pass.reader, (pass.batch respond).map fun m =>
      (m.data.sums.map fun e => (below e.2 0, e.2.abs.toUInt64), m.data.tagged?))) =
        [(0, [([(false, 5)], some .cumulative)]), (1, [([(false, 5)], some .delta)]),
          (0, [([(false, 2)], some .cumulative)]), (1, [([(true, 3)], some .delta)])] := by
  decide +kernel

end System

end Metering
