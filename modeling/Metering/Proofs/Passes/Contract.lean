import Metering.Proofs.Accounts.Passes
import Metering.Proofs.Passes.Outcomes

/-!
# The Contract of a Pass

What a pass of a reader owes to callbacks, instruments and the exporter, in every state that a run
with one provider reaches and for every outcome of every callback. The callbacks that feed an
instrument with a stream on the reader are called, each once, and nobody else is; what the
successful ones observed is what streams are computed from; the exporter is handed one batch, with
the metrics of all streams that have data, in the order in which they were registered.
-/

namespace Metering

variable {α : Type} [Quantity α]

/-! ## Streams under given observations -/

namespace RegisteredStream

/-- The data of a stream, given what was observed on each asynchronous instrument. -/
def dataGiven (seen : ObserverRef → Observations α) (time : Time) (rs : RegisteredStream α) : Data α :=
  match rs.source with
  | .synchronous stream => stream.data time
  | .asynchronous stream o => stream.data (seen o) time

/-- The stream after a collection, given what was observed on each asynchronous instrument. -/
def collectedGiven (seen : ObserverRef → Observations α) (time : Time) (rs : RegisteredStream α) :
    RegisteredStream α :=
  match rs.source with
  | .synchronous stream => { rs with source := .synchronous (stream.collected time) }
  | .asynchronous stream o => { rs with source := .asynchronous (stream.collected (seen o) time) o }

/-- The metric of a stream that has data: its own scope, resource, name, unit and description with
them. -/
def metricGiven (seen : ObserverRef → Observations α) (time : Time) (rs : RegisteredStream α) :
    Option (Metric α) :=
  if (rs.dataGiven seen time).isEmpty then none
  else some ⟨rs.scope, rs.resource, rs.name, rs.unit, rs.description, rs.dataGiven seen time⟩

variable {answers : List (List (Answer α))} (rs : RegisteredStream α) (time : Time)

theorem data_eq_dataGiven :
    rs.data (System.observed (answers.map System.observationPass)) time =
      rs.dataGiven (seenObservations answers) time := by
  cases hsource : rs.source with
  | synchronous stream => simp [data, dataGiven, hsource]
  | asynchronous stream o =>
    rw [data_observed hsource, dataGiven, hsource]

theorem collected_eq_collectedGiven :
    rs.collected (System.observed (answers.map System.observationPass)) time =
      rs.collectedGiven (seenObservations answers) time := by
  cases hsource : rs.source with
  | synchronous stream => simp [collected, collectedGiven, hsource]
  | asynchronous stream o =>
    simp only [collected, collectedGiven, hsource]
    rw [seenObservations, ← System.find?_observed]

theorem metric?_eq_metricGiven :
    rs.metric? (System.observed (answers.map System.observationPass)) time =
      rs.metricGiven (seenObservations answers) time := by
  simp only [metric?, metricGiven, data_eq_dataGiven]

end RegisteredStream

/-! ## The contract -/

namespace System

variable {sys sys' : System α} {r : Nat} {reader : Reader α} {outcome : CallbackRef → Performance α}

/-- What is seen of an asynchronous instrument in a pass that called some callbacks. -/
def seenFrom (sys : System α) (outcome : CallbackRef → Performance α) (called : List CallbackRef)
    (o : ObserverRef) : Observations α :=
  merged (called.flatMap (sys.contribution outcome o.number))

/-- What a pass of a reader owes, with its verdict, the callbacks that it called in their order, and
the system that it left. -/
structure PassContract (sys : System α) (r : Nat) (reader : Reader α)
    (outcome : CallbackRef → Performance α) (result : Bool × List CallbackRef × System α) : Prop where
  /-- The callbacks called are the attached ones that feed an instrument with a stream on the
  reader. -/
  called_iff : ∀ c, c ∈ result.2.1 ↔ ∃ registration, sys.registration? c = some registration ∧
    ∃ n ∈ registration.feed.numbers, ∃ b ∈ sys.instruments, b.ref? = some ⟨c.provider, n⟩ ∧
      ∃ k ∈ reader.streams.keys, (r, k) ∈ b.streams
  called_once : result.2.1.Nodup
  /-- No two asynchronous instruments go by the same number. -/
  identified : sys.observers.Nodup
  /-- The exporter is handed one batch, with a metric for every stream that has data. -/
  delivered : ∃ entries, result.2.2.journal = sys.journal ++ entries ∧
    deliveries entries = [(r, reader.streams.values.filterMap
      (·.metricGiven (sys.seenFrom outcome result.2.1) sys.now))]
  /-- The streams of a reader are in the order in which they got their numbers. -/
  ascending : reader.streams.keys.Pairwise (· < ·)
  /-- Every stream of the reader is collected, and no other. -/
  collected : ∀ s, streamAt result.2.2.readers s =
    if r = s.1 then (streamAt sys.readers s).map
      (·.collectedGiven (sys.seenFrom outcome result.2.1) sys.now)
    else streamAt sys.readers s
  /-- The pass succeeds when the exporter takes the batch and no call failed. -/
  verdict : result.1 = true ↔ reader.exporter.accepts reader.exporter.exports = true ∧
    ∀ c ∈ result.2.1, (outcome c).ending = .returned

/-- A stream of a reader waits for an instrument if the instrument has a stream on the reader. -/
theorem Rooted.exists_stream_iff {test : Nat → α → Prop} (h : Rooted test sys)
    (hr : sys.readers[r]? = some reader) (o : ObserverRef) :
    (∃ rs ∈ reader.streams.values, rs.observer? = some o) ↔
      ∃ b ∈ sys.instruments, b.ref? = some o ∧ ∃ k ∈ reader.streams.keys, (r, k) ∈ b.streams := by
  have hat {k : Nat} {rs : RegisteredStream α} (hrs : (k, rs) ∈ reader.streams.entries) :
      streamAt sys.readers (r, k) = some rs := by
    rw [streamAt, hr, Option.bind_some]
    exact Table.find?_eq_some_iff_mem.mpr hrs
  constructor
  · rintro ⟨rs, hrs, hobserver⟩
    obtain ⟨⟨k, rs⟩, hentry, rfl⟩ := List.mem_map.mp hrs
    obtain ⟨i, b, hb, hs, hstems⟩ := h.streams (r, k) rs (hat hentry)
    exact ⟨b, List.mem_of_getElem? hb, hstems.observer?.symm.trans hobserver, k,
      List.mem_map_of_mem (f := (·.1)) hentry, hs⟩
  · rintro ⟨b, hb, hobserver, k, hk, hs⟩
    obtain ⟨⟨k, rs⟩, hentry, rfl⟩ := List.mem_map.mp hk
    -- The stream stems from the instrument that has it, so it is fed by it.
    obtain ⟨j, hj⟩ := List.mem_iff_getElem?.mp hb
    have hstems := h.stems hj hs (hat hentry)
    exact ⟨rs, List.mem_map_of_mem (f := (·.2)) hentry, hstems.observer?.trans hobserver⟩

/-- A pass keeps its contract where streams have roots and callbacks have one provider. -/
theorem Rooted.passContract {test : Nat → α → Prop} (h : Rooted test sys)
    (hsingle : sys.providers.length = 1) (hr : sys.readers[r]? = some reader) :
    PassContract sys r reader outcome (sys.pass (noting outcome) [] r) := by
  let calls := sys.calls reader
  let answers := sys.answers (noting outcome) [] reader
  let called := calls.flatten.map (·.callback)
  have hone : ∀ c ∈ calls.flatten, c.callback.provider = 0 := by
    intro c hc
    obtain ⟨provider, -, hprovider, -⟩ := exists_of_mem_calls hc
    have hlt := (List.getElem?_eq_some_iff.mp hprovider).1
    omega
  have hseen : seenObservations answers = sys.seenFrom outcome called :=
    funext fun o => seenObservations_noting hone [] o
  have hpass : sys.pass (noting outcome) [] r =
      ((sys.exportPass r reader answers).1, called, (sys.exportPass r reader answers).2) := by
    have hcalled : (callProviders (noting outcome) [] calls).2 = called := by
      rw [callProviders_noting]
      exact List.nil_append _
    simp only [pass, hr]
    exact Prod.ext rfl (Prod.ext hcalled rfl)
  rw [hpass]
  refine ⟨fun c => ?_, nodup_map_callback_calls sys reader, h.catalogued.distinct, ?_,
    (h.numbered.ascending r reader hr).1, fun s => ?_, ?_⟩
  · -- A stream that waits for the instrument is one that the instrument has.
    apply mem_map_callback_calls_iff.trans
    refine exists_congr fun registration => and_congr_right fun _ => exists_congr fun n => ?_
    rw [h.exists_stream_iff hr]
  · obtain ⟨entries, hjournal, hdeliveries⟩ := journal_exportPass sys r reader answers
    refine ⟨entries, hjournal, hdeliveries.trans ?_⟩
    rw [← hseen, Reader.batch]
    simp only [RegisteredStream.metric?_eq_metricGiven]
  · show streamAt (sys.readers.modify r _) s = _
    rw [← hseen]
    refine streamAt_mapValues (fun reader' hreader' => ?_) s
    obtain rfl := Option.some.inj (hr.symm.trans hreader')
    simp only [Reader.collected, RegisteredStream.collected_eq_collectedGiven]
  · show (reader.exporter.accepts reader.exporter.exports &&
      (answers.map observationPass).foldl (fun (n : Nat) pass => n + pass.failures) 0 == 0) = true ↔ _
    rw [Bool.and_eq_true, beq_iff_eq, foldl_failures_eq_zero_iff, answers_noting,
      List.forall_mem_map, List.forall_mem_map]

/-! ## Every state of a run -/

/-- Moves neither add nor remove providers. -/
theorem Moves.length_providers {test : Nat → α → Prop} (h : Moves test sys sys') :
    sys'.providers.length = sys.providers.length := by
  induction h with
  | refl => rfl
  | tail _ hmove ih =>
    refine Eq.trans ?_ ih
    cases hmove with
    | shed readers instruments numbers => simpa using congrArg List.length numbers
    | record => rfl
    | collect => rfl
    | build => exact List.length_modify ..

/-- In every state that a run with one provider reaches, for every open reader and every outcome of
the callbacks, a collection keeps the contract of a pass; and so does the pass with which the reader
is closed. -/
theorem passContract_run {σ : Type} (respond : Responder σ α) (known : σ)
    (readers : List (Exporter α × Nat)) (resource : Resource) (attached : List Nat)
    (commands : List (Command α)) :
    let sys := ((launched readers [(resource, attached)]).run respond known commands).2.2
    ∀ (r : Nat) (reader : Reader α), sys.readers[r]? = some reader → reader.closed = false →
      ∀ outcome,
        PassContract sys r reader outcome (sys.collect (noting outcome) [] r) ∧
          let closing := sys.modifyReader r fun reader => { reader with closed := true }
          PassContract closing r { reader with closed := true } outcome
            (closing.pass (noting outcome) [] r) := by
  intro sys r reader hr hopen outcome
  have hall : (launched readers [(resource, attached)]).AdmitsAll (fun _ _ => True) respond known
      commands := .of_forall respond known (fun _ _ => trivial) ..
  have hrooted : Rooted _ sys := rooted_run respond known readers [(resource, attached)] hall
  have hsingle : sys.providers.length = 1 := (Moves.run respond known hall).length_providers
  constructor
  · have hcollect : sys.collect (noting outcome) [] r = sys.pass (noting outcome) [] r := by
      have hisOpen : sys.isClosed r = false := by simp [isClosed, hr, hopen]
      simp [collect, hisOpen]
    rw [hcollect]
    exact hrooted.passContract hsingle hr
  · exact (hrooted.moves (.closeReader sys r)).passContract hsingle (getElem?_modify_of_some _ hr)

/-- A callback for one instrument, which panics after an observation, and a batch callback for this
instrument and another, with a counter between the two. -/
theorem passContract_run_mixed :
    let instrument (kind : Kind) (name : String) : Instrument Int :=
      ⟨⟨kind, name, none, none⟩, ⟨none, none⟩⟩
    let sys := ((launched [(.memory .cumulative, 1000)] [(KeyMap.empty, [0])]).run
      (fun _ _ => (⟨[], .returned⟩, ())) ()
      [.create 0 (.named "m") (instrument .asynchronousCounter "a") 1,
        .create 0 (.named "m") (instrument .counter "c") 0,
        .create 0 (.named "m") (instrument .asynchronousGauge "b") 0,
        .registerBatch 0 (.named "m") [0, 2] [], .record 1 5 [] (fun _ => 0)]).2.2
    let outcome (c : CallbackRef) : Performance Int :=
      if c.number = 0 then ⟨[⟨⟨0, 0⟩, [], 1⟩], .panicked "late"⟩
      else ⟨[⟨⟨0, 0⟩, [], 2⟩, ⟨⟨0, 1⟩, [], 3⟩], .returned⟩
    let result := sys.collect (noting outcome) [] 0
    (∃ reader, sys.readers[0]? = some reader ∧ reader.closed = false ∧
        PassContract sys 0 reader outcome result) ∧
      result.2.1 = [⟨0, 0⟩, ⟨0, 1⟩] ∧ result.1 = false ∧
      (deliveries result.2.2.journal).map (fun d => d.2.map fun m => match m.data with
        | .sum points _ _ | .gauge points => (m.name, points.map (·.value))
        | .histogram _ _ => (m.name, [])) = [[("a", [2]), ("c", [5]), ("b", [3])]] := by
  intro instrument sys outcome result
  have hopen : sys.readers[0]?.map (·.closed) = some false := by decide +kernel
  obtain ⟨reader, hr, hclosed⟩ := Option.map_eq_some_iff.mp hopen
  have hcontract := passContract_run (fun _ _ => (⟨[], .returned⟩, ())) ()
    [(.memory .cumulative, 1000)] KeyMap.empty [0] _ 0 reader hr hclosed outcome
  exact ⟨⟨reader, hr, hclosed, hcontract.1⟩, by decide +kernel, by decide +kernel, by decide +kernel⟩

end System

end Metering
