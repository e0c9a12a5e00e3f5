import Metering.Proofs.StreamLaws
import Metering.Proofs.Accounts.Recount

/-!
# What One Reader Sees of Another

Two readers are compared by what does not depend on the collections of the other one, nor on chance.
Of the reader in question that is everything but the exemplars of a series that was offered more than
its reservoir holds, and the batches that its exporter keeps. Of any other reader it is which streams
it has, of which form, and how its exporter answers questions. What is seen after an operation is a
function of what was seen before.
-/

namespace Metering

variable {α : Type}

/-! ## Chance -/

namespace Reservoir

/-- Whether more was offered than there is room for, so that it is up to chance what is held. -/
def overfull (r : Reservoir α) : Bool := r.size < r.seen

/-- The reservoir without what is held by chance. -/
def settled (r : Reservoir α) : Reservoir α := if r.overfull then { r with held := [] } else r

theorem settled_size (r : Reservoir α) : r.settled.size = r.size := by
  unfold settled
  split <;> rfl

theorem settled_seen (r : Reservoir α) : r.settled.seen = r.seen := by
  unfold settled
  split <;> rfl

theorem settled_settled (r : Reservoir α) : r.settled.settled = r.settled := by
  by_cases h : r.overfull = true
  · have hsettled : r.settled = { r with held := [] } := if_pos h
    have hoverfull : (r.settled).overfull = true := by rw [hsettled]; exact h
    rw [settled, if_pos hoverfull, hsettled]
  · have hsettled : r.settled = r := if_neg h
    rw [hsettled, hsettled]

/-- What is settled after an offer depends on what was settled before, and on no draw. -/
theorem settled_offer (r : Reservoir α) (draw : Nat) (e : Exemplar α) :
    (r.offer draw e).settled = (r.settled.offer 0 e).settled := by
  unfold offer
  simp only [settled_size, settled_seen]
  split
  · -- A reservoir without slots is overfull or not, and remains what it is.
    unfold settled
    split <;> simp_all [overfull]
  · split
    · rename_i hroom
      have hsettled : r.settled = r := if_neg (by simp [overfull]; omega)
      rw [hsettled]
    · rename_i hroom
      have hoverfull (held : List (Exemplar α)) :
          settled ⟨r.size, r.seen + 1, held⟩ = ⟨r.size, r.seen + 1, []⟩ :=
        if_pos (by simp [overfull]; omega)
      rw [hoverfull]
      exact (hoverfull _).symm

theorem settled_collect (r : Reservoir α) : r.settled.collect.2 = r.collect.2 := by
  simp only [collect, settled_size]

theorem held_settled (r : Reservoir α) : r.settled.held = if r.overfull then [] else r.held := by
  unfold settled
  split <;> rfl

end Reservoir

namespace Series

variable {σ : Type}

/-- Whether the exemplars of the series are up to chance. -/
def overfull (e : Series α σ) : Bool := e.reservoir.any (·.overfull)

/-- The series without exemplars that are up to chance. -/
def settled (e : Series α σ) : Series α σ := { e with reservoir := e.reservoir.map (·.settled) }

theorem settled_settled (e : Series α σ) : e.settled.settled = e.settled := by
  cases hreservoir : e.reservoir with
  | none => simp [settled, hreservoir]
  | some r => simp [settled, hreservoir, r.settled_settled]

theorem settled_record [Quantity α] (c : StreamSettings α) (e : Series α c.Summary) (draw : Nat)
    (value : α) (dropped : List Attribute) (time : Time) :
    (e.record c draw value dropped time).settled =
      (e.settled.record c 0 value dropped time).settled := by
  cases hreservoir : e.reservoir with
  | none => simp [record, settled, hreservoir]
  | some r => simp [record, settled, hreservoir, r.settled_offer draw]

theorem settled_collected (e : Series α σ) : e.settled.collected = e.collected.settled := by
  cases hreservoir : e.reservoir with
  | none => simp [collected, settled, hreservoir]
  | some r =>
    have hempty : r.collect.2.settled = r.collect.2 := by
      simp [Reservoir.settled, Reservoir.overfull, Reservoir.collect]
    simp [collected, settled, hreservoir, r.settled_collect, hempty]

theorem exemplars_settled (e : Series α σ) :
    e.settled.exemplars = if e.overfull then [] else e.exemplars := by
  cases hreservoir : e.reservoir with
  | none => simp [exemplars, settled, overfull, hreservoir]
  | some r => simp [exemplars, settled, overfull, hreservoir, Reservoir.collect, r.held_settled]

end Series

/-! ## Points without chance -/

/-- The data without the exemplars of certain series. -/
def Data.censored (hidden : Attributes → Bool) : Data α → Data α
  | .sum points t m => .sum (points.map fun p =>
      { p with exemplars := if hidden p.attributes then [] else p.exemplars }) t m
  | .histogram points t => .histogram (points.map fun p =>
      { p with exemplars := if hidden p.attributes then [] else p.exemplars }) t
  | .gauge points => .gauge (points.map fun p =>
      { p with exemplars := if hidden p.attributes then [] else p.exemplars })

theorem Data.length_censored (hidden : Attributes → Bool) (d : Data α) :
    (d.censored hidden).length = d.length := by
  cases d <;> exact List.length_map ..

/-- Where nothing is hidden, nothing is lost. -/
theorem Data.censored_of_forall {hidden : Attributes → Bool} (h : ∀ f, hidden f = false)
    (d : Data α) : d.censored hidden = d := by
  cases d <;> simp [censored, h]

/-- The metric without the exemplars of certain series. -/
def Metric.censored (hidden : Attributes → Bool) (m : Metric α) : Metric α :=
  { m with data := m.data.censored hidden }

theorem Aggregator.censored_toData [Quantity α] (a : Aggregator α)
    (accs : List (Accumulation α a.Summary)) (hidden : Attributes → Bool) (start time : Time)
    (t : Temporality) :
    (a.toData accs start time t).censored hidden =
      a.toData (accs.map fun acc =>
        { acc with exemplars := if hidden acc.attributes then [] else acc.exemplars }) start time t := by
  cases a with
  | sum monotonic => simp [toData, Data.censored, numberPoint]
  | lastValue =>
    simp only [toData, Data.censored, List.filterMap_map, List.map_filterMap]
    congr 1
    refine List.filterMap_congr fun acc _ => ?_
    simp only [Function.comp_apply, Option.map_map]
    rfl
  | histogram h =>
    simp only [toData, Data.censored, List.map_map, List.filter_map]
    rfl

/-! ## Streams -/

namespace SynchronousStream

/-- The stream without exemplars that are up to chance. -/
def settled (s : SynchronousStream α) : SynchronousStream α :=
  { s with series := s.series.mapValues (·.settled) }

/-- Whether the exemplars of a series are up to chance. -/
def overfull (s : SynchronousStream α) (f : Attributes) : Bool := (s.series.find? f).any (·.overfull)

variable [Quantity α]

/-- What is settled after a measurement depends on what was settled before, and on no draw. -/
theorem settled_record (s : SynchronousStream α) (draw : Nat) (value : α) (attributes : Attributes)
    (time : Time) :
    (s.record draw value attributes time).settled =
      (s.settled.record 0 value attributes time).settled := by
  let split := AttributeFilter.applyOptional s.settings.filter attributes
  have hempty : (Series.empty s.settings).settled = Series.empty s.settings := by
    cases hreservoir : s.settings.reservoir <;>
      simp [Series.settled, Series.empty, hreservoir, Reservoir.settled, Reservoir.overfull,
        Reservoir.empty]
  -- Whatever stream it is, the series that took the measurement is settled from the settled one.
  have hseries (series : Table Attributes (Series α s.settings.Summary)) (draw : Nat) :
      (series.update split.1 fun found => (found.getD (Series.empty s.settings)).record s.settings
          draw value split.2 time).mapValues (·.settled) =
        (series.mapValues (·.settled)).update split.1 fun found =>
          ((found.getD (Series.empty s.settings)).record s.settings 0 value split.2 time).settled := by
    refine Table.mapValues_update fun found => ?_
    cases found with
    | some e => exact Series.settled_record ..
    | none =>
      have hfirst := Series.settled_record s.settings (Series.empty s.settings) draw value split.2 time
      rw [hempty] at hfirst
      exact hfirst
  have htwice : (s.series.mapValues (·.settled)).mapValues (·.settled) =
      s.series.mapValues (·.settled) := Table.mapValues_mapValues_self Series.settled_settled s.series
  refine congrArg (fun series => { s with series }) ((hseries s.series draw).trans ?_)
  refine Eq.trans ?_ (hseries (s.series.mapValues (·.settled)) 0).symm
  rw [htwice]

omit [Quantity α] in
theorem reported_settled (s : SynchronousStream α) :
    s.settled.reported = s.reported.map fun e => (e.1, e.2.settled) := by
  simp only [reported, settled, Table.mapValues, List.filter_map]
  rfl

omit [Quantity α] in
/-- A collection settles what it leaves. -/
theorem settled_collected (s : SynchronousStream α) (time : Time) :
    (s.collected time).settled = s.settled.collected time := by
  have hseries : (s.collected time).settled.series = (s.settled.collected time).series := by
    refine Table.ext ?_
    simp only [collected, settled, Table.mapValues, List.map_map]
    refine List.map_congr_left fun e _ => Prod.ext rfl ?_
    have hreports : s.settled.reports e.2.settled = s.reports e.2 := rfl
    show Series.settled (if s.reports e.2 then e.2.collected else e.2) =
      if s.settled.reports e.2.settled then e.2.settled.collected else e.2.settled
    rw [hreports]
    split
    · exact (Series.settled_collected e.2).symm
    · rfl
  have hbaseline : (s.collected time).settled.baseline = (s.settled.collected time).baseline := by
    have hsummaries : s.settled.reported.map (fun e => (e.1, e.2.summary)) =
        s.reported.map fun e => (e.1, e.2.summary) := by
      refine (congrArg (List.map fun e => (e.1, e.2.summary)) (reported_settled s)).trans ?_
      exact List.map_map
    unfold collected
    rw [hsummaries]
    rfl
  exact congr (congrArg (fun series baseline => { s with series, baseline, lastCollect := time })
    hseries) hbaseline

/-- What a collection exports of a settled stream is what it exports of the stream, without exemplars
that are up to chance. -/
theorem data_settled (s : SynchronousStream α) (time : Time) :
    s.settled.data time = (s.data time).censored s.overfull := by
  -- A settled series is reported with the summary that it had.
  have haccs : s.settled.reported.map s.settled.accumulation =
      (s.reported.map s.accumulation).map fun acc =>
        { acc with exemplars := if s.overfull acc.attributes then [] else acc.exemplars } := by
    rw [List.map_map]
    refine (congrArg (List.map s.settled.accumulation) (reported_settled s)).trans ?_
    refine List.map_map.trans (List.map_congr_left fun e he => ?_)
    have hfound : s.series.find? e.1 = some e.2 :=
      Table.find?_eq_some_of_mem (List.mem_of_mem_filter he) BEq.rfl
    have hoverfull : s.overfull e.1 = e.2.overfull := by rw [overfull, hfound, Option.any_some]
    have hexemplars : e.2.settled.exemplars = if s.overfull e.1 then [] else e.2.exemplars := by
      rw [hoverfull, Series.exemplars_settled]
    exact congrArg (fun exemplars => { s.accumulation e with exemplars }) hexemplars
  rw [data, data, Aggregator.censored_toData]
  exact congrArg (fun accs => s.settings.aggregator.toData accs
    (s.settings.windowStart s.lastCollect) time s.settings.temporality) haccs

end SynchronousStream

namespace RegisteredStream

/-- The stream without exemplars that are up to chance. -/
def settled (rs : RegisteredStream α) : RegisteredStream α :=
  { rs with
    source := match rs.source with
      | .synchronous s => .synchronous s.settled
      | .asynchronous s o => .asynchronous s o }

/-- The stream as it was opened. -/
def blank (rs : RegisteredStream α) : RegisteredStream α :=
  { rs with
    source := match rs.source with
      | .synchronous s => .synchronous (.opened s.settings)
      | .asynchronous s o => .asynchronous (.opened s.settings) o }

/-- What counts about a stream of the reader itself, or of another one. -/
def seen (own : Bool) (rs : RegisteredStream α) : RegisteredStream α :=
  if own then rs.settled else rs.blank

/-- Whether the exemplars of a series are up to chance; an asynchronous stream has none. -/
def overfull (rs : RegisteredStream α) (f : Attributes) : Bool :=
  match rs.source with
  | .synchronous s => s.overfull f
  | .asynchronous _ _ => false

theorem observer?_seen (own : Bool) (rs : RegisteredStream α) :
    (rs.seen own).observer? = rs.observer? := by
  cases own <;> cases hsource : rs.source <;>
    simp [seen, settled, blank, observer?, hsource]

variable [Quantity α]

/-- What is seen after a measurement depends on what was seen before, and on no draw. -/
theorem seen_record (own : Bool) (rs : RegisteredStream α) (draw : Nat) (value : α)
    (attributes : Attributes) (time : Time) :
    (rs.record draw value attributes time).seen own =
      ((rs.seen own).record 0 value attributes time).seen own := by
  cases own with
  | true =>
    cases hsource : rs.source with
    | synchronous s => simp [seen, settled, record, hsource, s.settled_record draw]
    | asynchronous s o => simp [seen, settled, record, hsource]
  | false =>
    cases hsource : rs.source with
    | synchronous s =>
      simp [seen, blank, record, hsource, SynchronousStream.record, SynchronousStream.opened]
    | asynchronous s o => simp [seen, blank, record, hsource, AsynchronousStream.opened]

theorem settled_collected (rs : RegisteredStream α) (observed : Table Nat (Observations α))
    (time : Time) : (rs.collected observed time).settled = rs.settled.collected observed time := by
  cases hsource : rs.source with
  | synchronous s => simp [settled, collected, hsource, s.settled_collected]
  | asynchronous s o => simp [settled, collected, hsource]

/-- Another reader sees nothing of a collection. -/
theorem blank_collected (rs : RegisteredStream α) (observed : Table Nat (Observations α))
    (time : Time) : (rs.collected observed time).blank = rs.blank := by
  cases hsource : rs.source with
  | synchronous s => simp [blank, collected, hsource, SynchronousStream.collected]
  | asynchronous s o => simp [blank, collected, hsource, AsynchronousStream.collected]

/-- What is exported of a settled stream is what is exported of the stream, without exemplars that
are up to chance. -/
theorem metric?_settled (rs : RegisteredStream α) (observed : Table Nat (Observations α))
    (time : Time) :
    rs.settled.metric? observed time = (rs.metric? observed time).map (·.censored rs.overfull) := by
  have hdata : rs.settled.data observed time = (rs.data observed time).censored rs.overfull := by
    cases hsource : rs.source with
    | synchronous s =>
      have hoverfull : rs.overfull = s.overfull := by
        funext f
        simp [overfull, hsource]
      simp [data, settled, hsource, s.data_settled, hoverfull]
    | asynchronous s o =>
      have hnone (f : Attributes) : rs.overfull f = false := by simp [overfull, hsource]
      rw [Data.censored_of_forall hnone]
      simp [data, settled, hsource]
  have hempty : (rs.settled.data observed time).isEmpty = (rs.data observed time).isEmpty := by
    rw [hdata, Data.isEmpty, Data.isEmpty, Data.length_censored]
  unfold metric?
  simp only [hempty]
  split
  · rfl
  · rw [hdata]
    rfl

end RegisteredStream

/-! ## Exporters and readers -/

/-- What counts about the exporter of the reader itself, or of another one. -/
def Exporter.seen (own : Bool) (e : Exporter α) : Exporter α :=
  if own then { e with kept := [] } else { e with exports := 0, kept := [] }

namespace Reader

/-- What counts about the reader itself, or about another one. -/
def seen (own : Bool) (reader : Reader α) : Reader α :=
  { reader with
    exporter := reader.exporter.seen own
    streams := reader.streams.mapValues (·.seen own) }

variable {own : Bool} {reader reader' : Reader α}

theorem wanted_seen (own : Bool) (reader : Reader α) : (reader.seen own).wanted = reader.wanted := by
  have hobservers : (reader.seen own).streams.values.filterMap (·.observer?) =
      reader.streams.values.filterMap (·.observer?) := by
    simp only [seen, Table.values, Table.mapValues, List.map_map, List.filterMap_map]
    exact List.filterMap_congr fun e _ => RegisteredStream.observer?_seen own e.2
  rw [wanted, wanted, hobservers]

/-- A stream that is offered is taken by both readers, under one number, or by none. -/
theorem seen_register (h : reader.seen own = reader'.seen own) (s : RegisteredStream α) :
    (reader.register s).1 = (reader'.register s).1 ∧
      (reader.register s).2.seen own = (reader'.register s).2.seen own := by
  have hclosed : reader.closed = reader'.closed := congrArg (·.closed) h
  have hnext : reader.nextStream = reader'.nextStream := congrArg (·.nextStream) h
  have hregister (reader : Reader α) (hopen : reader.closed = false) :
      (reader.register s).2.seen own = { reader.seen own with
        streams := (reader.seen own).streams.insert reader.nextStream (s.seen own)
        nextStream := reader.nextStream + 1 } := by
    simp only [register, hopen, Bool.false_eq_true, if_false, seen, Table.mapValues_insert]
  cases hopen : reader.closed with
  | true =>
    have hopen' : reader'.closed = true := hclosed ▸ hopen
    simp only [register, hopen, hopen', if_true]
    exact ⟨trivial, h⟩
  | false =>
    have hopen' : reader'.closed = false := hclosed ▸ hopen
    rw [hregister reader hopen, hregister reader' hopen', h, hnext]
    simp [register, hopen, hopen', hnext]

theorem seen_unregister (own : Bool) (reader : Reader α) (n : Nat) :
    (reader.unregister n).seen own = (reader.seen own).unregister n := by
  simp only [unregister, seen, Table.mapValues_erase]

variable [Quantity α]

theorem seen_record (h : reader.seen own = reader'.seen own) (n draw draw' : Nat) (value : α)
    (attributes : Attributes) (time : Time) :
    (reader.record n draw value attributes time).seen own =
      (reader'.record n draw' value attributes time).seen own := by
  have hrecord (reader : Reader α) (draw : Nat) :
      (reader.record n draw value attributes time).seen own = { reader.seen own with
        streams := (reader.seen own).streams.modify n fun s =>
          (s.record 0 value attributes time).seen own } := by
    refine congrArg (fun streams => { reader.seen own with streams }) ?_
    exact Table.mapValues_modify fun s => s.seen_record own draw value attributes time
  rw [hrecord reader draw, hrecord reader' draw', h]

/-- A collection is seen by the reader itself, -/
theorem seen_true_collected (reader : Reader α) (observed : Table Nat (Observations α))
    (time : Time) :
    (reader.collected observed time).seen true = (reader.seen true).collected observed time := by
  refine congrArg (fun streams => { reader.seen true with streams }) (Table.ext ?_)
  simp only [Table.mapValues, List.map_map, collected, seen]
  exact List.map_congr_left fun e _ => Prod.ext rfl (e.2.settled_collected observed time)

/-- and by no other one. -/
theorem seen_false_collected (reader : Reader α) (observed : Table Nat (Observations α))
    (time : Time) : (reader.collected observed time).seen false = reader.seen false := by
  refine congrArg (fun streams => { reader.seen false with streams }) (Table.ext ?_)
  simp only [Table.mapValues, List.map_map, collected]
  exact List.map_congr_left fun e _ => Prod.ext rfl (e.2.blank_collected observed time)

end Reader

end Metering
