import Metering.Proofs.Deltas.Run
import Metering.Proofs.Filters.Shared
import Metering.Proofs.Histories.Course

/-!
# Streams have Played their Histories

The history of a synchronous stream is what the course of a run lists of it: the measurements that
were entered in it, each with the draw for its reservoir, and the passes that collected it. Whenever a
synchronous stream is found it is what its history makes of a stream that was just opened, and under a
number that was never given out there is no history.
-/

namespace Metering

variable {α σ : Type}

/-! ## Histories -/

/-- What an occurrence does to the synchronous stream with a number on a reader, if anything. -/
def Occurrence.step? (t : Nat × Nat) : Occurrence σ α → Option (StreamStep α)
  | entered streams m draw =>
    if t ∈ streams then some (.record (draw (streams.idxOf t)) m) else none
  | collected pass =>
    if pass.reader = t.1 ∧ (streamAt pass.system.readers t).isSome then
      some (.collect pass.system.now)
    else none

/-- The history of a stream, as far as a course goes. -/
def history (t : Nat × Nat) (past : List (Occurrence σ α)) : List (StreamStep α) :=
  past.filterMap (·.step? t)

/-- The measurement that an occurrence enters in a stream, if any. -/
def Occurrence.measurement? (t : Nat × Nat) : Occurrence σ α → Option (Measurement α)
  | entered streams m _ => if t ∈ streams then some m else none
  | collected _ => none

/-- The measurements that were entered in a stream, as far as a course goes. -/
def entriesIn (t : Nat × Nat) (past : List (Occurrence σ α)) : List (Measurement α) :=
  past.filterMap (·.measurement? t)

/-- The measurements of a history are those that were entered. -/
theorem measured_history (t : Nat × Nat) (past : List (Occurrence σ α)) :
    StreamStep.measured (history t past) = entriesIn t past := by
  rw [StreamStep.measured, history, List.filterMap_filterMap]
  refine List.filterMap_congr fun o _ => ?_
  cases o with
  | entered streams m draw =>
    simp only [Occurrence.step?, Occurrence.measurement?]
    split <;> rfl
  | collected pass =>
    simp only [Occurrence.step?, Occurrence.measurement?]
    split <;> rfl

theorem history_append (t : Nat × Nat) (past later : List (Occurrence σ α)) :
    history t (past ++ later) = history t past ++ history t later := List.filterMap_append

namespace System

/-- Whether the synchronous streams that are found have played their histories, and no stream that was
never built has one. -/
structure Chronicled [Quantity α] (past : List (Occurrence σ α)) (sys : System α) : Prop where
  played : ∀ t rs s, streamAt sys.readers t = some rs → rs.source = .synchronous s →
    s = ((SynchronousStream.opened s.settings).play (history t past)).2
  unbuilt : ∀ t, t ∉ sys.builtStreams → history t past = []

/-- A planned stream that is synchronous was just opened. -/
theorem eq_opened_of_planned {sys : System α} {resource : Resource} {scope : Scope}
    {observer : Option ObserverRef} {plan : StreamPlan α} {s : SynchronousStream α}
    (h : (sys.planned resource scope observer plan).source = .synchronous s) :
    s = .opened s.settings := by
  cases observer with
  | none =>
    obtain rfl := Source.synchronous.inj h
    rfl
  | some o => cases h

namespace Chronicled

variable [Quantity α] {respond : Responder σ α} {past later : List (Occurrence σ α)}
  {sys sys' : System α}

/-- Streams may go. -/
theorem shed (h : Chronicled past sys)
    (readers : ∀ r : Nat, Option.Rel Reader.Sheds sys.readers[r]? sys'.readers[r]?)
    (instruments : sys'.instruments.map (·.ident) = sys.instruments.map (·.ident)) :
    Chronicled past sys' :=
  ⟨fun t rs s hrs => h.played t rs s (streamAt_of_sheds readers hrs),
    builtStreams_congr instruments ▸ h.unbuilt⟩

/-- New streams have new numbers, and their histories are yet to begin. -/
theorem withNewborn (h : Chronicled past sys) {p : Nat} {provider : Provider α} {key : InstrumentKey}
    {plans : List (StreamPlan α)} (hanew : OpensAnew sys p provider key plans) :
    Chronicled past (sys.withNewborn p provider key plans) := by
  refine ⟨fun t rs s hrs hsource => ?_, fun t ht => h.unbuilt t fun hmem => ht ?_⟩
  · rcases hanew.streamAt_cases hrs with ⟨-, hnew, plan, rfl⟩ | ⟨-, -, hbefore⟩
    · rw [h.unbuilt t hnew]
      exact eq_opened_of_planned hsource
    · exact h.played t rs s hbefore hsource
  · rw [builtStreams_withNewborn]
    exact List.mem_append_left _ hmem

/-- A measurement goes into the histories of the streams that it is entered in. -/
theorem writeTo (h : Chronicled past sys) (hnodup : sys.builtStreams.Nodup) {i : Nat}
    {b : BuiltInstrument} (hb : sys.instruments[i]? = some b) (value : α) (attributes : Attributes)
    (draw : Nat → Nat) :
    Chronicled (past ++ [.entered b.streams ⟨value, attributes, sys.now⟩ draw])
      (sys.writeTo value attributes draw b.streams) := by
  have hmem := List.mem_of_getElem? hb
  have hstreams : b.streams.Nodup := (List.nodup_flatMap.mp hnodup).1 b hmem
  refine ⟨fun t rs' s' hrs' hsource' => ?_, fun t ht => ?_⟩
  · rw [streamAt_writeTo sys value attributes draw hstreams] at hrs'
    rw [history_append]
    by_cases ht : t ∈ b.streams
    · rw [if_pos ht] at hrs'
      obtain ⟨rs, hrs, rfl⟩ := Option.map_eq_some_iff.mp hrs'
      -- Only a synchronous stream is one after it recorded something.
      cases hsource : rs.source with
      | asynchronous s o => simp [RegisteredStream.record, hsource] at hsource'
      | synchronous s =>
        obtain rfl : s.record _ value attributes sys.now = s' := by
          simpa [RegisteredStream.record, hsource] using hsource'
        simp only [history, List.filterMap_cons, Occurrence.step?, if_pos ht, List.filterMap_nil]
        -- The draw is the one for the place of the stream among those of the instrument.
        rw [SynchronousStream.play_concat]
        have hplayed := h.played t rs s hrs hsource
        exact congrArg (SynchronousStream.record · _ value attributes sys.now) hplayed
    · rw [if_neg ht] at hrs'
      simp only [history, List.filterMap_cons, Occurrence.step?, if_neg ht, List.filterMap_nil,
        List.append_nil]
      exact h.played t rs' s' hrs' hsource'
  · rw [writeTo_eq] at ht
    have hother : t ∉ b.streams := fun hb => ht (List.mem_flatMap.mpr ⟨b, hmem, hb⟩)
    rw [history_append, h.unbuilt t ht]
    simp [history, Occurrence.step?, hother]

/-- A pass goes into the histories of the streams that it finds on its reader. -/
theorem exportPass (h : Chronicled past sys)
    (hfound : ∀ t rs, streamAt sys.readers t = some rs → t ∈ sys.builtStreams) (known : σ) (r : Nat)
    (reader : Reader α) (performances : List (List (Call × Performance α))) :
    Chronicled (past ++ [.collected ⟨r, known, sys⟩])
      (sys.exportPass r reader performances).2 := by
  refine ⟨fun t rs' s' hrs' hsource' => ?_, fun t ht => ?_⟩
  · have hrs' : streamAt (sys.readers.modify r _) t = some rs' := hrs'
    rw [streamAt_mapValues (g := fun rs => rs.collected _ sys.now) fun _ _ => rfl] at hrs'
    rw [history_append]
    by_cases ht : r = t.1
    · rw [if_pos ht] at hrs'
      obtain ⟨rs, hrs, rfl⟩ := Option.map_eq_some_iff.mp hrs'
      cases hsource : rs.source with
      | asynchronous s o => simp [RegisteredStream.collected, hsource] at hsource'
      | synchronous s =>
        obtain rfl : s.collected sys.now = s' := by
          simpa [RegisteredStream.collected, hsource] using hsource'
        have hstep : (Occurrence.collected ⟨r, known, sys⟩).step? t = some (.collect sys.now) :=
          if_pos ⟨ht, by rw [hrs]; rfl⟩
        simp only [history, List.filterMap_cons, hstep, List.filterMap_nil]
        rw [SynchronousStream.play_concat]
        exact congrArg (·.collected sys.now) (h.played t rs s hrs hsource)
    · rw [if_neg ht] at hrs'
      have hstep : (Occurrence.collected ⟨r, known, sys⟩).step? t = none := if_neg fun hr => ht hr.1
      simp only [history, List.filterMap_cons, hstep, List.filterMap_nil, List.append_nil]
      exact h.played t rs' s' hrs' hsource'
  · have ht : t ∉ sys.builtStreams := ht
    -- What was never built is not found, so the pass collects nothing there.
    have hmissing : streamAt sys.readers t = none :=
      Option.eq_none_iff_forall_ne_some.mpr fun rs hrs => ht (hfound t rs hrs)
    rw [history_append, h.unbuilt t ht]
    simp [history, Occurrence.step?, hmissing]

/-- Every happening keeps the chronicle. -/
theorem happening (h : Chronicled past sys) (hrooted : Rooted (fun _ _ => True) sys)
    {o : Option (Occurrence σ α)} (hhappening : Happening respond sys o sys') :
    Chronicled (past ++ o.toList) sys' := by
  have hfound : ∀ t rs, streamAt sys.readers t = some rs → t ∈ sys.builtStreams := by
    intro t rs hrs
    obtain ⟨i, b, hb, ht, -⟩ := hrooted.streams t rs hrs
    exact List.mem_flatMap.mpr ⟨b, List.mem_of_getElem? hb, ht⟩
  -- What the course does not list changes no history.
  have hquiet {sys' : System α} (hkept : Chronicled past sys') :
      Chronicled (past ++ (none : Option (Occurrence σ α)).toList) sys' := by
    rwa [Option.toList_none, List.append_nil]
  cases hhappening with
  | record built taken attributes draw =>
    exact h.writeTo hrooted.numbered.nodup built _ attributes draw
  | pass known found => exact h.exportPass hfound known _ _ _
  | build owner same views unknown valid planned =>
    rename_i entries plans
    have hwritten : Chronicled past (sys.write entries) := h.shed (Sheds.refl sys).readers rfl
    exact hquiet (hwritten.withNewborn (hrooted.moves (.write sys entries)).opensAnew)
  | upkeep hupkeep => exact hquiet (h.shed hupkeep.sheds.readers hupkeep.sheds.instruments)
  | view | quit => exact hquiet (h.shed (Sheds.refl sys).readers rfl)
  | close r => exact hquiet (h.shed (Sheds.modifyReader sys r (·.sheds_closed)).readers rfl)
  | finish r => exact hquiet (h.shed (Sheds.modifyReader sys r (·.sheds_emptied)).readers rfl)

/-- A course is chronicled to its end, by induction on what happens in it. -/
theorem course (h : Chronicled past sys) (hrooted : Rooted (fun _ _ => True) sys)
    (hcourse : Course respond sys later sys') : Chronicled (past ++ later) sys' := by
  induction hcourse with
  | refl => rwa [List.append_nil]
  | tail hbefore hhappening ih =>
    rw [← List.append_assoc]
    exact ih.happening (hrooted.moves (Course.steps hbefore).moves) hhappening

end Chronicled

/-- When a system is launched there are no streams, and no histories. -/
theorem chronicled_launched [Quantity α] (readers : List (Exporter α × Nat))
    (providers : List (Resource × List Nat)) :
    Chronicled ([] : List (Occurrence σ α)) (launched readers providers) := by
  refine ⟨fun t rs s hrs => ?_, fun _ _ => rfl⟩
  rw [streamAt_launched] at hrs
  cases hrs

end System

end Metering
