import Metering.Proofs.Accounts.Passes
import Metering.Proofs.Deltas.Rounds
import Metering.Proofs.Passes.Outcomes

/-!
# The Order in Which Answers Arrive

The callbacks of a provider are called at the same time, and their results are merged as they arrive.
If no two successful ones observe an attribute set on the same instrument, then the results have
nothing to do with each other: whatever the order, the same entries are merged, only in another order
themselves. A stream that keeps all attributes has one series for each entry, so it reports the same
points and remembers the same baseline, up to order, and does so pass after pass.
-/

namespace Metering

variable {α : Type}

/-! ## The same in another order -/

namespace Table

variable {κ ν : Type} [BEq κ] {t u : Table κ ν}

/-- Whether two tables have the same entries, in whatever order. -/
def Reordered (t u : Table κ ν) : Prop := t.entries.Perm u.entries

theorem Reordered.find?_eq [EquivBEq κ] (h : t.Reordered u) (k : κ) : t.find? k = u.find? k := by
  refine Option.ext fun v => ?_
  rw [find?_eq_some_iff, find?_eq_some_iff]
  exact exists_congr fun j => and_congr_left fun _ => h.mem_iff

/-- Insertions under different new keys add their entries, behind the others. -/
theorem entries_insertAll_of_new {pairs : List (κ × ν)}
    (hdistinct : pairs.Pairwise fun a b => (a.1 == b.1) = false)
    (hnew : ∀ e ∈ t.entries, ∀ x ∈ pairs, (e.1 == x.1) = false) :
    (t.insertAll pairs).entries = t.entries ++ pairs := by
  induction pairs generalizing t with
  | nil => exact (List.append_nil _).symm
  | cons p rest ih =>
    obtain ⟨hp, hrest⟩ := List.pairwise_cons.mp hdistinct
    have hinsert : (t.insert p.1 p.2).entries = t.entries ++ [p] :=
      entries_insert_of_new (fun e he => hnew e he p (List.mem_cons_self ..)) p.2
    have hlater := ih (t := t.insert p.1 p.2) hrest fun e he x hx => by
      rcases List.mem_append.mp (hinsert ▸ he) with he | he
      · exact hnew e he x (List.mem_cons_of_mem _ hx)
      · exact List.mem_singleton.mp he ▸ hp x hx
    rw [hinsert, List.append_assoc] at hlater
    exact hlater

end Table

/-- Whether data are the same but for the order of their points. -/
inductive Data.Reordered : Data α → Data α → Prop
  | sum {points points' : List (NumberPoint α)} (h : points.Perm points') (temporality : Temporality)
      (monotonic : Bool) :
      Reordered (.sum points temporality monotonic) (.sum points' temporality monotonic)
  | histogram {points points' : List (HistogramPoint α)} (h : points.Perm points')
      (temporality : Temporality) :
      Reordered (.histogram points temporality) (.histogram points' temporality)
  | gauge {points points' : List (NumberPoint α)} (h : points.Perm points') :
      Reordered (.gauge points) (.gauge points')

namespace Data.Reordered

theorem refl (d : Data α) : d.Reordered d := by
  cases d with
  | sum points temporality monotonic => exact .sum (.refl _) temporality monotonic
  | histogram points temporality => exact .histogram (.refl _) temporality
  | gauge points => exact .gauge (.refl _)

theorem isEmpty_eq {d e : Data α} (h : d.Reordered e) : d.isEmpty = e.isEmpty := by
  have hlength : d.length = e.length := by cases h <;> exact List.Perm.length_eq ‹_›
  rw [isEmpty, isEmpty, hlength]

end Data.Reordered

/-- The data of series come in the order of the series. -/
theorem Aggregator.reordered_toData [Quantity α] (a : Aggregator α)
    {accs accs' : List (Accumulation α a.Summary)} (h : accs.Perm accs') (start time : Time)
    (temporality : Temporality) :
    (a.toData accs start time temporality).Reordered (a.toData accs' start time temporality) := by
  cases a with
  | sum monotonic => exact .sum (h.map _) temporality monotonic
  | lastValue => exact .gauge (h.filterMap _)
  | histogram hist => exact .histogram ((h.filter _).map _) temporality

/-- Whether metrics are the same but for the order of their points. -/
def Metric.Reordered (m n : Metric α) : Prop :=
  ∃ data, m.data.Reordered data ∧ n = { m with data }

/-! ## Results that have nothing to do with each other -/

namespace Answer

/-- Whether no set is observed by both of two successful calls on the same instrument. Instruments of
a provider are known by their numbers. -/
def Apart (a b : Answer α) : Prop :=
  ∀ n, ∀ x ∈ a.filed n, ∀ y ∈ b.filed n,
    (KeyMap.ofList x.attributes == KeyMap.ofList y.attributes) = false

instance (a b : Answer α) : Decidable (Apart a b) :=
  decidable_of_iff (∀ n ∈ a.1.feed.numbers, ∀ x ∈ a.filed n, ∀ y ∈ b.filed n,
      (KeyMap.ofList x.attributes == KeyMap.ofList y.attributes) = false) <| by
    refine ⟨fun h n x hx => ?_, fun h n _ => h n⟩
    by_cases hn : n ∈ a.1.feed.numbers
    · exact h n hn x hx
    · -- Nothing is filed under a number that the call is not registered for.
      rw [filed_eq_nil fun hregistered => hn (registered_iff.mp hregistered).2] at hx
      cases hx

/-- Whether two lists are the answers of one provider's callbacks in two orders, no two of which have
observed the same set on the same instrument. -/
structure Rearranged (answers answers' : List (Answer α)) : Prop where
  perm : answers.Perm answers'
  apart : answers.Pairwise Apart

end Answer

/-- What is merged of observations with different sets is merged in a row. -/
theorem entries_merged_append {xs ys : List (Observation α)}
    (h : ∀ x ∈ xs, ∀ y ∈ ys, (KeyMap.ofList x.attributes == KeyMap.ofList y.attributes) = false) :
    (merged (xs ++ ys)).entries = (merged xs).entries ++ (merged ys).entries := by
  rw [← insertAll_merged]
  refine Table.entries_insertAll_of_new (merged ys).distinct fun e he f hf => ?_
  have hlisted {zs : List (Observation α)} {g : Attributes × α} (hg : g ∈ (merged zs).entries) :
      ∃ z ∈ zs, KeyMap.ofList z.attributes = g.1 := by
    have hmem := Table.mem_of_mem_keys_ofList (List.mem_map_of_mem (f := (·.1)) hg)
    rw [List.map_map] at hmem
    obtain ⟨z, hz, heq⟩ := List.mem_map.mp hmem
    exact ⟨z, hz, heq⟩
  obtain ⟨x, hx, hxe⟩ := hlisted he
  obtain ⟨y, hy, hyf⟩ := hlisted hf
  rw [← hxe, ← hyf]
  exact h x hx y hy

/-- What is merged of calls apart is what each of them filed, in a row. -/
theorem entries_merged_filed {answers : List (Answer α)} (h : answers.Pairwise Answer.Apart)
    (n : Nat) : (merged (answers.flatMap (·.filed n))).entries =
      answers.flatMap fun a => (merged (a.filed n)).entries := by
  induction answers with
  | nil => rfl
  | cons a rest ih =>
    obtain ⟨ha, hrest⟩ := List.pairwise_cons.mp h
    rw [List.flatMap_cons, List.flatMap_cons, ← ih hrest]
    refine entries_merged_append fun x hx y hy => ?_
    obtain ⟨b, hb, hy⟩ := List.mem_flatMap.mp hy
    exact ha b hb n x hx y hy

namespace Answer.Rearranged

variable {answers answers' : List (Answer α)}

theorem reordered_merged (h : Rearranged answers answers') (n : Nat) :
    (merged (answers.flatMap (·.filed n))).Reordered (merged (answers'.flatMap (·.filed n))) := by
  have hapart' : answers'.Pairwise Answer.Apart := by
    refine (h.perm.pairwise_iff fun {a b} hab n x hx y hy => ?_).mp h.apart
    exact (BEq.comm).trans (hab n y hy x hx)
  rw [Table.Reordered, entries_merged_filed h.apart, entries_merged_filed hapart']
  exact h.perm.flatMap_right _

/-- The merged observations are the same but for their order. -/
theorem reordered_observations (h : Rearranged answers answers') (n : Nat) :
    Option.Rel Table.Reordered ((System.observationPass answers).observations.find? n)
      ((System.observationPass answers').observations.find? n) := by
  rw [System.find?_observationPass, System.find?_observationPass, h.perm.any_eq]
  split
  · exact .some (h.reordered_merged n)
  · exact .none

theorem failures_eq (h : Rearranged answers answers') :
    (System.observationPass answers).failures = (System.observationPass answers').failures := by
  rw [System.failures_observationPass, System.failures_observationPass]
  exact h.perm.countP_eq _

end Answer.Rearranged

/-! ## Streams -/

namespace AsynchronousStream

variable {s t : AsynchronousStream α} {seen seen' : Observations α}

/-- Whether two streams are the same but for the order of their baselines. -/
def Reordered (s t : AsynchronousStream α) : Prop :=
  ∃ baseline, s.baseline.Reordered baseline ∧ t = { s with baseline }

variable [Quantity α]

/-- A stream that keeps all attributes aggregates entry by entry. -/
theorem reordered_aggregate {c : StreamSettings α} (hwhole : c.filter = none)
    (h : seen.Reordered seen') (time : Time) :
    (aggregate c seen time).Reordered (aggregate c seen' time) := by
  rw [Table.Reordered, entries_aggregate_of_whole hwhole, entries_aggregate_of_whole hwhole]
  exact h.map _

namespace Reordered

theorem data (h : s.Reordered t) (hwhole : s.settings.filter = none) (hseen : seen.Reordered seen')
    (time : Time) : (s.data seen time).Reordered (t.data seen' time) := by
  obtain ⟨baseline, hbaseline, rfl⟩ := h
  -- Differences are taken of what is found, and that does not depend on the order.
  have haccumulation : s.accumulation = ({ s with baseline } : AsynchronousStream α).accumulation := by
    funext e
    have hsince : s.settings.since s.baseline = s.settings.since baseline := by
      funext k current
      rw [StreamSettings.since, StreamSettings.since, hbaseline.find?_eq]
    simp only [accumulation, hsince]
  show (s.settings.aggregator.toData _ _ _ _).Reordered (s.settings.aggregator.toData _ _ _ _)
  rw [← haccumulation]
  exact s.settings.aggregator.reordered_toData ((reordered_aggregate hwhole hseen time).map _) _ _ _

theorem collected (h : s.Reordered t) (hwhole : s.settings.filter = none)
    (hseen : seen.Reordered seen') (time : Time) :
    (s.collected seen time).Reordered (t.collected seen' time) := by
  obtain ⟨baseline, hbaseline, rfl⟩ := h
  cases htemporality : s.settings.temporality with
  | cumulative =>
    refine ⟨baseline, ?_, ?_⟩
    · simp only [AsynchronousStream.collected, htemporality]
      exact hbaseline
    · simp only [AsynchronousStream.collected, htemporality]
  | delta =>
    refine ⟨aggregate s.settings seen' time, ?_, ?_⟩
    · simp only [AsynchronousStream.collected, htemporality]
      exact reordered_aggregate hwhole hseen time
    · simp only [AsynchronousStream.collected, htemporality]

/-- Round after round a stream reports the same points. -/
theorem play (h : s.Reordered t) (hwhole : s.settings.filter = none) {rounds rounds' : List (Round α)}
    (hrounds : List.Forall₂
      (fun x y => x.observations.Reordered y.observations ∧ x.time = y.time) rounds rounds') :
    List.Forall₂ Data.Reordered (s.play rounds).1 (t.play rounds').1 ∧
      (s.play rounds).2.Reordered (t.play rounds').2 := by
  induction hrounds generalizing s t with
  | nil => exact ⟨.nil, h⟩
  | @cons x y _ _ hxy _ ih =>
    obtain ⟨observations, time⟩ := x
    obtain ⟨observations', time'⟩ := y
    obtain ⟨hobservations, rfl : time = time'⟩ := hxy
    obtain ⟨hothers, hlast⟩ := ih (h.collected hwhole hobservations time) hwhole
    exact ⟨.cons (h.data hwhole hobservations time) hothers, hlast⟩

end Reordered

end AsynchronousStream

/-- Whether two sources are the same but for the order of baselines. -/
inductive Source.Reordered : Source α → Source α → Prop
  | synchronous (stream : SynchronousStream α) : Reordered (.synchronous stream) (.synchronous stream)
  | asynchronous {stream stream' : AsynchronousStream α} (h : stream.Reordered stream')
      (observer : ObserverRef) :
      Reordered (.asynchronous stream observer) (.asynchronous stream' observer)

namespace RegisteredStream

/-- Whether two streams of a reader are the same but for the order of baselines. -/
def Reordered (s t : RegisteredStream α) : Prop :=
  ∃ source, s.source.Reordered source ∧ t = { s with source }

/-- Whether the stream, if callbacks feed it, keeps all attributes. -/
def KeepsAll (s : RegisteredStream α) : Prop :=
  ∀ stream observer, s.source = .asynchronous stream observer → stream.settings.filter = none

theorem Reordered.refl (s : RegisteredStream α) : s.Reordered s := by
  refine ⟨s.source, ?_, rfl⟩
  cases s.source with
  | synchronous stream => exact .synchronous stream
  | asynchronous stream observer => exact .asynchronous ⟨_, .refl _, rfl⟩ observer

variable [Quantity α] {s t : RegisteredStream α} {table table' : Table Nat (Observations α)}

namespace Reordered

omit [Quantity α] in
theorem getD {found found' : Option (Observations α)} (h : Option.Rel Table.Reordered found found') :
    (found.getD Table.empty).Reordered (found'.getD Table.empty) := by
  cases h with
  | some h => exact h
  | none => exact .refl _

theorem data (h : s.Reordered t) (hs : s.KeepsAll)
    (htable : ∀ n, Option.Rel Table.Reordered (table.find? n) (table'.find? n)) (time : Time) :
    (s.data table time).Reordered (t.data table' time) := by
  obtain ⟨source, hsource, rfl⟩ := h
  generalize hs' : s.source = source' at hsource
  cases hsource with
  | synchronous stream =>
    simp only [RegisteredStream.data, hs']
    exact .refl _
  | asynchronous h observer =>
    simp only [RegisteredStream.data, hs']
    exact h.data (hs _ _ hs') (getD (htable observer.number)) time

theorem collected (h : s.Reordered t) (hs : s.KeepsAll)
    (htable : ∀ n, Option.Rel Table.Reordered (table.find? n) (table'.find? n)) (time : Time) :
    (s.collected table time).Reordered (t.collected table' time) := by
  obtain ⟨source, hsource, rfl⟩ := h
  generalize hs' : s.source = source' at hsource
  cases hsource with
  | synchronous stream =>
    simp only [RegisteredStream.collected, hs']
    exact ⟨_, .synchronous _, rfl⟩
  | asynchronous h observer =>
    simp only [RegisteredStream.collected, hs']
    exact ⟨_, .asynchronous (h.collected (hs _ _ hs') (getD (htable observer.number)) time) observer,
      rfl⟩

theorem metric? (h : s.Reordered t) (hs : s.KeepsAll)
    (htable : ∀ n, Option.Rel Table.Reordered (table.find? n) (table'.find? n)) (time : Time) :
    Option.Rel Metric.Reordered (s.metric? table time) (t.metric? table' time) := by
  have hdata := h.data hs htable time
  obtain ⟨source, -, rfl⟩ := h
  simp only [RegisteredStream.metric?, hdata.isEmpty_eq]
  split
  · exact .none
  · exact .some ⟨_, hdata, rfl⟩

end Reordered

end RegisteredStream

/-! ## Passes -/

namespace System

variable {answers answers' : List (List (Answer α))}

/-- What is observed in all is the same but for its order, whatever provider it comes from. -/
theorem reordered_observed (h : List.Forall₂ Answer.Rearranged answers answers') (n : Nat) :
    Option.Rel Table.Reordered ((observed (answers.map observationPass)).find? n)
      ((observed (answers'.map observationPass)).find? n) := by
  rw [find?_observed, find?_observed]
  have hreverse := List.forall₂_reverse_iff.mpr h
  generalize answers.reverse = groups at hreverse ⊢
  generalize answers'.reverse = groups' at hreverse ⊢
  induction hreverse with
  | nil => exact .none
  | @cons group group' _ _ hgroup _ ih =>
    -- Both orders have the same say under the number.
    rw [List.find?_cons, List.find?_cons, ← hgroup.perm.any_eq]
    cases group.any (·.registered n) with
    | true => exact .some (hgroup.reordered_merged n)
    | false => exact ih

/-- As many failures are counted. -/
theorem foldl_failures_eq (h : List.Forall₂ Answer.Rearranged answers answers') :
    (answers.map observationPass).foldl (fun (n : Nat) pass => n + pass.failures) 0 =
      (answers'.map observationPass).foldl (fun (n : Nat) pass => n + pass.failures) 0 := by
  have hperm : answers.flatten.Perm answers'.flatten :=
    List.Perm.flatten_congr (h.imp fun _ _ hgroup => hgroup.perm)
  rw [foldl_failures, foldl_failures, hperm.countP_eq]

variable [Quantity α]

/-- The streams that a pass leaves are the same but for the order of baselines. -/
theorem reordered_streamAt (h : List.Forall₂ Answer.Rearranged answers answers') (sys : System α)
    (r : Nat) (reader : Reader α) {place : Nat × Nat}
    (hplace : ∀ s, streamAt sys.readers place = some s → s.KeepsAll) :
    Option.Rel RegisteredStream.Reordered
      (streamAt (sys.exportPass r reader answers).2.readers place)
      (streamAt (sys.exportPass r reader answers').2.readers place) := by
  have hleft (groups : List (List (Answer α))) :
      streamAt (sys.exportPass r reader groups).2.readers place =
        if r = place.1 then
          (streamAt sys.readers place).map
            (·.collected (observed (groups.map observationPass)) sys.now)
        else streamAt sys.readers place := streamAt_mapValues (fun _ _ => rfl) place
  rw [hleft, hleft]
  cases hs : streamAt sys.readers place with
  | none => split <;> exact .none
  | some s =>
    split
    · exact .some ((RegisteredStream.Reordered.refl s).collected (hplace s hs)
        (reordered_observed h) sys.now)
    · exact .some (.refl s)

/-- In whatever order the results of callbacks arrive, provider by provider, of which no two
successful ones observed a set on the same instrument, the merged observations are the same map, and
as many failures are counted. The exporter is handed the metrics of the same streams, and a stream
that keeps all attributes has the same points in its metric, if it has one. Such a stream is left with
the same baseline. And the pass gives the same verdict. -/
theorem arrivals_irrelevant (h : List.Forall₂ Answer.Rearranged answers answers') (sys : System α)
    (r : Nat) (reader : Reader α) :
    let first := sys.exportPass r reader answers
    let second := sys.exportPass r reader answers'
    let table := observed (answers.map observationPass)
    let table' := observed (answers'.map observationPass)
    List.Forall₂ (fun pass pass' => pass.failures = pass'.failures ∧
        ∀ n, Option.Rel Table.Reordered (pass.observations.find? n) (pass'.observations.find? n))
      (answers.map observationPass) (answers'.map observationPass) ∧
    (deliveries first.2.journal = deliveries sys.journal ++
        [(r, reader.streams.values.filterMap (·.metric? table sys.now))] ∧
      deliveries second.2.journal = deliveries sys.journal ++
        [(r, reader.streams.values.filterMap (·.metric? table' sys.now))] ∧
      ∀ s ∈ reader.streams.values, s.KeepsAll →
        Option.Rel Metric.Reordered (s.metric? table sys.now) (s.metric? table' sys.now)) ∧
    (∀ place, (∀ s, streamAt sys.readers place = some s → s.KeepsAll) →
      Option.Rel RegisteredStream.Reordered (streamAt first.2.readers place)
        (streamAt second.2.readers place)) ∧
    first.1 = second.1 := by
  intro first second table table'
  have hdelivered (groups : List (List (Answer α))) :
      deliveries (sys.exportPass r reader groups).2.journal = deliveries sys.journal ++
        [(r, reader.batch (observed (groups.map observationPass)) sys.now)] := by
    obtain ⟨entries, hjournal, hentries⟩ := journal_exportPass sys r reader groups
    rw [hjournal, deliveries_append, hentries]
  refine ⟨?_, ⟨hdelivered answers, hdelivered answers', fun s _ hs => ?_⟩,
    fun place hplace => reordered_streamAt h sys r reader hplace, ?_⟩
  · rw [List.forall₂_map_left_iff, List.forall₂_map_right_iff]
    exact h.imp fun _ _ hgroup => ⟨hgroup.failures_eq, hgroup.reordered_observations⟩
  · exact (RegisteredStream.Reordered.refl s).metric? hs (reordered_observed h) sys.now
  · -- Exporters answer by the number of the export, whatever is in the batch.
    have hfailures := foldl_failures_eq h
    show (_ && _ == 0) = (_ && _ == 0)
    rw [hfailures]
    rfl

/-- A callback of one instrument, one of two instruments and one that panics, whose results arrive in
one order and in the opposite one: the observations on the first instrument change places. -/
theorem arrivals_irrelevant_three_callbacks :
    let own : Answer Int := (⟨⟨0, 0⟩, .single 0⟩, ⟨[⟨⟨0, 0⟩, [], 1⟩], .returned⟩)
    let both : Answer Int := (⟨⟨0, 1⟩, .batch [0, 1]⟩,
      ⟨[⟨⟨0, 0⟩, [("k", .integer 1)], 2⟩, ⟨⟨0, 1⟩, [], 3⟩], .returned⟩)
    let failed : Answer Int := (⟨⟨0, 2⟩, .single 1⟩, ⟨[⟨⟨0, 1⟩, [], 4⟩], .panicked "broken"⟩)
    let stream : RegisteredStream Int := ⟨.named "m", KeyMap.empty, "a", none, none,
      .asynchronous (.opened ⟨.sum true, none, none, .delta, 0⟩) ⟨0, 0⟩⟩
    let reader : Reader Int := ((Reader.opened (.memory .delta) 1000).register stream).2
    let sys : System Int := .opened [reader] []
    let first := sys.exportPass 0 reader [[own, both, failed]]
    let second := sys.exportPass 0 reader [[failed, both, own]]
    let remembered (sys : System Int) : Option (List Int) :=
      (streamAt sys.readers (0, 0)).map fun s => match s.source with
        | .asynchronous ⟨⟨.sum _, _, _, _, _⟩, baseline, _⟩ _ => baseline.values
        | _ => []
    List.Forall₂ Answer.Rearranged [[own, both, failed]] [[failed, both, own]] ∧
      remembered first.2 = some [1, 2] ∧ remembered second.2 = some [2, 1] ∧
      Option.Rel RegisteredStream.Reordered (streamAt first.2.readers (0, 0))
        (streamAt second.2.readers (0, 0)) ∧
      first.1 = second.1 := by
  intro own both failed stream reader sys first second remembered
  have hrearranged : List.Forall₂ Answer.Rearranged [[own, both, failed]] [[failed, both, own]] :=
    .cons ⟨(List.reverse_perm _).symm, by decide +kernel⟩ .nil
  obtain ⟨-, -, hleft, hverdict⟩ := arrivals_irrelevant hrearranged sys 0 reader
  refine ⟨hrearranged, by decide +kernel, by decide +kernel, hleft (0, 0) fun s hs => ?_, hverdict⟩
  obtain rfl : stream = s := Option.some.inj hs
  intro stream observer hsource
  cases hsource
  rfl

end System

end Metering
