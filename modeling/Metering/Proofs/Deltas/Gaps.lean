import Metering.Proofs.Deltas.Rounds

/-!
# Deltas of Observed Totals

A delta sum over rounds of observations reports, for each series of a round, what its aggregated
observation gained since the round before, and all of it if the round before lacks the series.

Over a whole run a series may be missing from rounds, and when it comes back it counts from nothing.
Within a run of rounds that have the series the differences telescope to the last value of the run,
so all that was ever reported adds up to the last values of its maximal runs.
-/

namespace Metering

variable {α : Type}

/-! ## Aggregated observations -/

namespace Round

/-- The values observed in a round whose attributes, as far as they are kept, are those of a
series. -/
def valuesOf (round : Round α) (filter : Option AttributeFilter) (k : Attributes) : List α :=
  (round.observations.entries.filter fun e => (AttributeFilter.applyOptional filter e.1).1 == k).map
    (·.2)

/-- The aggregated observation of a series: its values added up in their order, if it has any. -/
def sighting [Quantity α] (round : Round α) (filter : Option AttributeFilter) (k : Attributes) :
    Option α :=
  match round.valuesOf filter k with
  | [] => none
  | values => some (values.foldl (· + ·) 0)

end Round

/-- The values of a series are those of its measurements. -/
theorem Round.valuesOf_eq (round : Round α) (c : StreamSettings α) (k : Attributes) :
    round.valuesOf c.filter k = (c.measurementsIn k round.measurements).map (·.value) := by
  simp only [valuesOf, StreamSettings.measurementsIn, measurements, List.filter_map, List.map_map]
  rfl

variable [Quantity α]

/-- A sum sees the aggregated observation of each series. -/
theorem StreamSettings.seen_sum (monotonic : Bool) (filter : Option AttributeFilter)
    (reservoir : Option Nat) (temporality : Temporality) (start : Time) (k : Attributes)
    (round : Round α) :
    (⟨.sum monotonic, filter, reservoir, temporality, start⟩ : StreamSettings α).seen k round =
      round.sighting filter k := by
  let c : StreamSettings α := ⟨.sum monotonic, filter, reservoir, temporality, start⟩
  have hvalues : round.valuesOf filter k = (c.measurementsIn k round.measurements).map (·.value) :=
    round.valuesOf_eq c k
  have htotal : c.total round.measurements k = (round.valuesOf filter k).foldl (· + ·) 0 := by
    rw [hvalues, List.foldl_map]
    rfl
  show c.seen k round = _
  rw [seen, Round.sighting]
  cases hoccurs : c.occurs k round.measurements with
  | false =>
    rw [hvalues, measurementsIn_eq_nil_of_occurs hoccurs]
    rfl
  | true =>
    have hne : round.valuesOf filter k ≠ [] := by
      rw [hvalues]
      simpa using measurementsIn_ne_nil hoccurs
    rw [if_pos rfl, htotal]
    split
    · rename_i hnil
      exact absurd hnil hne
    · rfl

/-- What a delta sum exports of a round, given the round immediately before it, if there was one. -/
structure DeltaReport (filter : Option AttributeFilter) (start : Time) (last : Option (Round α))
    (round : Round α) (points : List (NumberPoint α)) : Prop where
  /-- No series has two points. -/
  distinct : points.Pairwise fun p q => (p.attributes == q.attributes) = false
  /-- The series with a point are those observed in the round. -/
  series : ∀ k, points.any (·.attributes == k) = (round.sighting filter k).isSome
  /-- A value is the difference of the aggregated observations of the two rounds, or the whole one if
  the round before lacks the series. -/
  value : ∀ p ∈ points, some p.value = (round.sighting filter p.attributes).map fun v =>
    match last.bind (·.sighting filter p.attributes) with
    | some u => v - u
    | none => v
  /-- The window begins with the round before, or with the stream. -/
  window : ∀ p ∈ points, p.start = (last.map (·.time)).getD start ∧ p.time = round.time
  bare : ∀ p ∈ points, p.exemplars = []

namespace DeltaReport

variable {monotonic : Bool} {filter : Option AttributeFilter} {reservoir : Option Nat}
  {start : Time}

/-- The gains of the series of a round, as points, are its report. -/
theorem of_gains (last : Option (Round α)) (round : Round α) :
    let c : StreamSettings α := ⟨.sum monotonic, filter, reservoir, .delta, start⟩
    DeltaReport filter start last round
      ((c.seriesAmong round.measurements).map fun k =>
        ⟨k, (last.map (·.time)).getD start, round.time, c.gain last round k, []⟩) := by
  intro c
  have hseen (k : Attributes) (r : Round α) : c.seen k r = r.sighting filter k :=
    StreamSettings.seen_sum monotonic filter reservoir .delta start k r
  refine ⟨?_, fun k => ?_, fun p hp => ?_, fun p hp => ?_, fun p hp => ?_⟩
  · exact List.pairwise_map.mpr (StreamSettings.seriesAmong_distinct _)
  · have hlisted : (c.seriesAmong round.measurements).any (· == k) = c.occurs k round.measurements :=
      StreamSettings.any_seriesAmong round.measurements k
    rw [List.any_map]
    apply hlisted.trans
    rw [← hseen, StreamSettings.seen]
    cases c.occurs k round.measurements <;> rfl
  · obtain ⟨k, hk, rfl⟩ := List.mem_map.mp hp
    -- A series that is listed occurs, so its summary is what was seen.
    have hoccurs : c.occurs k round.measurements = true := by
      rw [StreamSettings.occurs, ← StreamSettings.any_seriesAmong]
      exact List.any_eq_true.mpr ⟨k, hk, BEq.rfl⟩
    have hlast : last.bind (·.sighting filter k) = last.bind (c.seen k) :=
      congrArg last.bind (funext fun r => (hseen k r).symm)
    simp only
    rw [hlast, ← hseen, StreamSettings.seen, if_pos hoccurs, Option.map_some, StreamSettings.gain]
    cases last.bind (c.seen k) <;> rfl
  · obtain ⟨k, -, rfl⟩ := List.mem_map.mp hp
    exact ⟨rfl, rfl⟩
  · obtain ⟨k, -, rfl⟩ := List.mem_map.mp hp
    rfl

end DeltaReport

/-! ## Adding the reports up -/

/-- What a delta sum reports of a series, from what the round before and this one have. -/
def Quantity.gained : Option α → Option α → α
  | _, none => 0
  | none, some v => v
  | some u, some v => v - u

/-- The reports of a series round after round. -/
def Quantity.gains (last : Option α) : List (Option α) → List α
  | [] => []
  | sighting :: rest => gained last sighting :: gains sighting rest

/-- The last value of every maximal run of rounds that have a series. -/
def runEnds (sightings : List (Option α)) : List α :=
  (sightings.splitOnP (·.isNone)).filterMap fun run => run.getLast?.join

section RunEnds

omit [Quantity α]

theorem runEnds_cons_none (rest : List (Option α)) : runEnds (none :: rest) = runEnds rest := by
  rw [runEnds, List.splitOnP_cons_eq_if_modifyHead]
  rfl

theorem runEnds_singleton (v : α) : runEnds [some v] = [v] := by
  simp [runEnds, List.splitOnP_cons_eq_if_modifyHead]

theorem runEnds_some_none (v : α) (rest : List (Option α)) :
    runEnds (some v :: none :: rest) = v :: runEnds rest := by
  rw [runEnds, List.splitOnP_cons_eq_if_modifyHead, List.splitOnP_cons_eq_if_modifyHead]
  rfl

/-- Only the last of consecutive values ends a run. -/
theorem runEnds_some_some (u v : α) (rest : List (Option α)) :
    runEnds (some u :: some v :: rest) = runEnds (some v :: rest) := by
  have hne : rest.splitOnP (·.isNone) ≠ [] := List.splitOnP_ne_nil _ _
  obtain ⟨run, runs, hruns⟩ := List.exists_cons_of_ne_nil hne
  have hlater : (some v :: rest).splitOnP (·.isNone) = (some v :: run) :: runs := by
    rw [List.splitOnP_cons_eq_if_modifyHead, hruns]
    rfl
  have hboth : (some u :: some v :: rest).splitOnP (·.isNone) = (some u :: some v :: run) :: runs := by
    rw [List.splitOnP_cons_eq_if_modifyHead, hlater]
    rfl
  -- The two lists of runs differ in the beginning of the first run, and not in its end.
  rw [runEnds, runEnds, hlater, hboth, List.filterMap_cons, List.filterMap_cons,
    List.getLast?_cons_cons]

/-- A series that is never missing after it first came has one run. -/
theorem runEnds_of_unbroken (n : Nat) (vs : List α) (v : α) :
    runEnds (List.replicate n none ++ (vs ++ [v]).map some) = [v] := by
  induction n with
  | succ n ih => exact (runEnds_cons_none _).trans ih
  | zero =>
    induction vs with
    | nil => exact runEnds_singleton v
    | cons u rest ih =>
      cases rest with
      | nil => exact (runEnds_some_some ..).trans ih
      | cons w rest => exact (runEnds_some_some ..).trans ih

end RunEnds

namespace Quantity

variable [Quantity.Exact α] [@Std.Associative α (· + ·)]

/-- Putting values together from a value is putting them together from nothing, on top of it. -/
theorem foldl_add (a : α) (xs : List α) : xs.foldl (· + ·) a = a + xs.foldl (· + ·) 0 := by
  have h : xs.foldl (· + ·) (a + 0) = a + xs.foldl (· + ·) 0 := List.foldl_assoc
  rwa [Exact.add_zero] at h

/-- Within a run, what was there before the first difference and the differences make up the last
value; so the reports of a whole run add up to the last values of its maximal runs. -/
theorem foldl_gains (sightings : List (Option α)) :
    (gains none sightings).foldl (· + ·) 0 = (runEnds sightings).foldl (· + ·) 0 ∧
      ∀ u, u + (gains (some u) sightings).foldl (· + ·) 0 =
        (runEnds (some u :: sightings)).foldl (· + ·) 0 := by
  induction sightings with
  | nil =>
    refine ⟨rfl, fun u => ?_⟩
    rw [runEnds_singleton]
    exact (Exact.add_zero u).trans (Exact.zero_add u).symm
  | cons sighting rest ih =>
    obtain ⟨hnone, hsome⟩ := ih
    cases sighting with
    | none =>
      -- Missing: nothing is reported, and a run that was going on has ended.
      have hzero : (gains none rest).foldl (· + ·) (0 + 0) = (runEnds rest).foldl (· + ·) 0 := by
        rw [Exact.zero_add]
        exact hnone
      refine ⟨?_, fun u => ?_⟩
      · rw [runEnds_cons_none]
        exact hzero
      · rw [runEnds_some_none, List.foldl_cons, Exact.zero_add, foldl_add u]
        exact congrArg (u + ·) hzero
    | some v =>
      refine ⟨?_, fun u => ?_⟩
      · -- Back: the whole value is reported.
        rw [← hsome v]
        show (gains (some v) rest).foldl (· + ·) (0 + v) = _
        rw [Exact.zero_add, foldl_add]
      · -- Still there: the difference is reported, and takes the place of what was there before.
        rw [runEnds_some_some, ← hsome v]
        show u + (gains (some v) rest).foldl (· + ·) (0 + (v - u)) = _
        have hassoc (a b c : α) : a + b + c = a + (b + c) := Std.Associative.assoc a b c
        rw [Exact.zero_add, foldl_add, ← hassoc, Exact.add_sub]

end Quantity

/-! ## The stream's data -/

namespace AsynchronousStream.Recalls

variable {c : StreamSettings α} {s : AsynchronousStream α} {last : Option (Round α)}
  {monotonic : Bool} {filter : Option AttributeFilter} {reservoir : Option Nat} {start : Time}

/-- The data of a round are its report. -/
theorem report (h : Recalls last s)
    (hc : s.settings = ⟨.sum monotonic, filter, reservoir, .delta, start⟩) (round : Round α) :
    ∃ points, s.data round.observations round.time = .sum points .delta monotonic ∧
      DeltaReport filter start last round points := by
  let c : StreamSettings α := ⟨.sum monotonic, filter, reservoir, .delta, start⟩
  refine ⟨(c.seriesAmong round.measurements).map fun k =>
    ⟨k, (last.map (·.time)).getD start, round.time, c.gain last round k, []⟩, ?_, .of_gains last round⟩
  rw [h.data_eq hc rfl, Aggregator.toData, List.map_map]
  rfl

/-- What is read off the data of a round is what the series gained. -/
theorem read_data [Quantity.Exact α] (h : Recalls last s)
    (hc : s.settings = ⟨.sum monotonic, filter, reservoir, .delta, start⟩) (round : Round α)
    (k : Attributes) :
    (s.data round.observations round.time).read .total k =
      Quantity.gained (last.bind (·.sighting filter k)) (round.sighting filter k) := by
  let c : StreamSettings α := ⟨.sum monotonic, filter, reservoir, .delta, start⟩
  have hseen (r : Round α) : c.seen k r = r.sighting filter k :=
    StreamSettings.seen_sum monotonic filter reservoir .delta start k r
  have hlast : last.bind (c.seen k) = last.bind (·.sighting filter k) :=
    congrArg last.bind (funext hseen)
  have hdistinct : (c.seriesAmong round.measurements).Pairwise fun i j => (i == j) = false :=
    StreamSettings.seriesAmong_distinct _
  have hread := c.aggregator.read_toData_map (r := .total) Quantity.Exact.zero_add
    (c.gain last round) hdistinct (k := k)
    (fun j hjk => StreamSettings.gain_congr hjk last round) (fun _ _ => rfl)
    ((last.map (·.time)).getD c.start) round.time .delta
  rw [h.data_eq hc rfl, hread, StreamSettings.any_seriesAmong]
  rw [← hseen, ← hlast, StreamSettings.gain, StreamSettings.seen, StreamSettings.occurs]
  cases round.measurements.any fun m => c.seriesOf m == k with
  | false => cases last.bind (c.seen k) <;> rfl
  | true => cases last.bind (c.seen k) <;> rfl

/-- What is read off all the data are the gains from round to round. -/
theorem read_play [Quantity.Exact α] (h : Recalls last s)
    (hc : s.settings = ⟨.sum monotonic, filter, reservoir, .delta, start⟩) (rounds : List (Round α))
    (k : Attributes) :
    (s.play rounds).1.map (·.read .total k) =
      Quantity.gains (last.bind (·.sighting filter k)) (rounds.map (·.sighting filter k)) := by
  induction rounds generalizing s last with
  | nil => rfl
  | cons round rest ih =>
    have hdelta : s.settings.temporality = .delta := by rw [hc]
    exact congrArg₂ (· :: ·) (h.read_data hc round k) (ih (.collected hdelta round) hc)

end AsynchronousStream.Recalls

/-! ## Whole runs -/

namespace AsynchronousStream

/-- A delta sum over rounds of arbitrary observations. Each round's data are one report, of the
series observed in the round, against the round immediately before and over the time since. When
arithmetic is exact, the reports of a series add up to the last values of its maximal runs of
rounds; so they do to its last observed value, if it is never missing once it was observed. -/
theorem deltas_of_rounds (monotonic : Bool) (filter : Option AttributeFilter)
    (reservoir : Option Nat) (start : Time) (rounds : List (Round α)) :
    let deltas := ((opened ⟨.sum monotonic, filter, reservoir, .delta, start⟩).play rounds).1
    deltas.length = rounds.length ∧
      (∀ before round after, rounds = before ++ round :: after →
        ∃ points, deltas[before.length]? = some (.sum points .delta monotonic) ∧
          DeltaReport filter start before.getLast? round points) ∧
      (Quantity.Exact α → @Std.Associative α (· + ·) → ∀ k,
        Data.readAll deltas .total k =
            Readout.total.addUp (runEnds (rounds.map (·.sighting filter k))) ∧
          ∀ missing vs v,
            rounds.map (·.sighting filter k) =
              List.replicate missing none ++ (vs ++ [v]).map some →
            Data.readAll deltas .total k = v) := by
  intro deltas
  let c : StreamSettings α := ⟨.sum monotonic, filter, reservoir, .delta, start⟩
  refine ⟨length_play .., ?_, fun hexact hassoc k => ?_⟩
  · rintro before round after rfl
    -- The rounds before leave a memory of the last of them, which the data are computed from.
    have hrecalls : Recalls before.getLast? ((opened c).play before).2 := .play rfl before
    have hat : deltas[before.length]? =
        some (((opened c).play before).2.data round.observations round.time) := by
      have hlength := length_play (opened c) before
      show ((opened c).play (before ++ round :: after)).1[before.length]? = _
      rw [play_append, List.getElem?_append_right (by omega), hlength, Nat.sub_self]
      rfl
    obtain ⟨points, hdata, hreport⟩ := hrecalls.report (settings_play (opened c) before) round
    exact ⟨points, hat.trans (congrArg some hdata), hreport⟩
  · have hgains : deltas.map (·.read .total k) =
        Quantity.gains none (rounds.map (·.sighting filter k)) :=
      (Recalls.opened c).read_play rfl rounds k
    have hends : Data.readAll deltas .total k =
        Readout.total.addUp (runEnds (rounds.map (·.sighting filter k))) := by
      rw [Data.readAll, hgains]
      exact (Quantity.foldl_gains _).1
    refine ⟨hends, fun missing vs v hunbroken => ?_⟩
    rw [hends, hunbroken, runEnds_of_unbroken]
    exact Quantity.Exact.zero_add v

/-- Two series, of which one is missing from the second round and counts from nothing in the third. -/
theorem deltas_of_rounds_reappearing :
    let a : Attributes := KeyMap.ofList [("host", .text "a")]
    let b : Attributes := KeyMap.ofList [("host", .text "b")]
    let rounds : List (Round Int) :=
      [⟨.ofList [(a, 10), (b, 4)], 1⟩, ⟨.ofList [(a, 25)], 2⟩, ⟨.ofList [(a, 25), (b, 6)], 3⟩]
    let deltas := ((opened ⟨.sum true, none, none, .delta, 0⟩).play rounds).1
    (∃ points, deltas[2]? = some (.sum points .delta true) ∧
        DeltaReport none 0 (some rounds[1]) rounds[2] points) ∧
      deltas.map (·.read .total a) = [10, 15, 0] ∧ Data.readAll deltas .total a = 25 ∧
      deltas.map (·.read .total b) = [4, 0, 6] ∧ Data.readAll deltas .total b = 10 := by
  intro a b rounds deltas
  obtain ⟨-, hreports, htotals⟩ := deltas_of_rounds true none none 0 rounds
  obtain ⟨-, hunbroken⟩ := htotals inferInstance inferInstance a
  obtain ⟨hends, -⟩ := htotals inferInstance inferInstance b
  refine ⟨hreports [rounds[0], rounds[1]] rounds[2] [] rfl, by decide +kernel, ?_, by decide +kernel, ?_⟩
  · exact hunbroken 0 [10, 25] 25 (by decide +kernel)
  · exact hends.trans (by decide +kernel)

end AsynchronousStream

end Metering
