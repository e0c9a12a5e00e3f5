import Metering.Proofs.Passes.Outcomes
import Metering.Proofs.Shutdown.Sparing

/-!
# The End of a Reader

A reader is shut down once: its streams are collected a last time, its exporter is shut down right
after the batch of that pass, and its streams go, whatever became of the pass. Until then its
exporter hears of no end, and from then on the exporter hears nothing and the reader takes nothing,
whatever else is done to the system.
-/

namespace Metering.System

variable {α σ : Type} [Quantity α] {ends : Endings} {sys sys' : System α} {r : Nat}

section

variable (respond : Responder σ α) (known : σ)

/-! ## A reader that is closed -/

theorem collect_of_closed (h : sys.isClosed r = true) :
    sys.collect respond known r = (false, known, sys) := by
  simp [collect, h]

theorem flushReader_of_closed (h : sys.isClosed r = true) :
    sys.flushReader respond known r = (false, known, sys) := by
  simp [flushReader, h]

theorem shutdownReader_eq_of_closed (h : sys.isClosed r = true) :
    sys.shutdownReader respond known r = (false, known, sys) := by
  simp [shutdownReader, h]

/-! ## A reader that is closed now -/

/-- What the shutdown of an open reader does, whatever becomes of its last pass. -/
structure EndsReader (respond : Responder σ α) (known : σ) (sys : System α) (r : Nat)
    (reader : Reader α) (result : Bool × σ × System α) : Prop where
  /-- The exporter takes one last batch, with what all streams have to say, and is shut down. -/
  told : callsTo r result.2.2.journal = callsTo r sys.journal ++
    [.deliver (reader.batch (observed ((sys.answers respond known reader).map observationPass)) sys.now),
      .shutdown]
  /-- The reader is closed, and has no streams. -/
  closed : ∃ after, result.2.2.readers[r]? = some after ∧ after.closed = true ∧
    after.streams = Table.empty
  /-- It all went well when no callback failed, the batch was accepted, and the exporter says so. -/
  verdict : result.1 = true ↔
    (∀ answer ∈ (sys.answers respond known reader).flatten, answer.2.ending = .returned) ∧
      reader.exporter.accepts reader.exporter.exports = true ∧ reader.exporter.shutsDown = true

theorem endsReader (sys : System α) {r : Nat} {reader : Reader α}
    (hr : sys.readers[r]? = some reader) (hopen : reader.closed = false) :
    EndsReader respond known sys r reader (sys.shutdownReader respond known r) := by
  let closing := sys.modifyReader r fun reader => { reader with closed := true }
  let answers := sys.answers respond known reader
  -- Callbacks are asked on behalf of the streams, which closing leaves as they are.
  have hclosing : closing.readers[r]? = some { reader with closed := true } :=
    getElem?_modify_of_some _ hr
  have hisOpen : sys.isClosed r = false := by simp [isClosed, hr, hopen]
  have hpass : closing.pass respond known r =
      ((closing.exportPass r { reader with closed := true } answers).1,
        (callProviders respond known (sys.calls reader)).2,
        (closing.exportPass r { reader with closed := true } answers).2) := by
    simp only [pass, hclosing]
    rfl
  let passed := (closing.exportPass r { reader with closed := true } answers).2
  obtain ⟨collected, hcollected, hclosed, hshutsDown⟩ : ∃ collected,
      passed.readers[r]? = some collected ∧ collected.closed = true ∧
        collected.exporter.shutsDown = reader.exporter.shutsDown :=
    ⟨_, getElem?_modify_of_some _ hclosing, rfl, rfl⟩
  have hshutdown : sys.shutdownReader respond known r =
      ((closing.pass respond known r).1 && reader.exporter.shutsDown,
        (closing.pass respond known r).2.1,
        (passed.write [.call r .shutdown]).modifyReader r fun reader =>
          { reader with streams := Table.empty }) := by
    simp only [shutdownReader, hisOpen, Bool.false_eq_true, if_false]
    rw [show (sys.modifyReader r fun reader => { reader with closed := true }) = closing from rfl,
      hpass]
    simp only [passed, hcollected, Option.map_some, Option.getD_some, hshutsDown]
  rw [hshutdown]
  refine ⟨?_, ⟨{ collected with streams := Table.empty }, ?_, hclosed, rfl⟩, ?_⟩
  · -- The pass says one thing to the exporter, and the end comes after it.
    have htold := callsTo_exportPass closing r { reader with closed := true } answers r
    rw [if_pos rfl] at htold
    show callsTo r (passed.journal ++ [.call r .shutdown]) = _
    rw [callsTo_append, callsTo_call, htold, List.append_assoc]
    rfl
  · exact getElem?_modify_of_some _ hcollected
  · show ((closing.pass respond known r).1 && reader.exporter.shutsDown) = true ↔ _
    rw [hpass, Bool.and_eq_true, ← and_assoc]
    refine and_congr_left fun _ => ?_
    show (reader.exporter.accepts reader.exporter.exports &&
      (answers.map observationPass).foldl (fun (n : Nat) pass => n + pass.failures) 0 == 0) = true ↔ _
    rw [Bool.and_eq_true, beq_iff_eq, foldl_failures_eq_zero_iff, and_comm]

/-! ## Silence -/

/-- The shutdown of a reader brings nothing else to an end. -/
theorem steps_shutdownReader (sys : System α) (q : Nat) :
    Steps { Endings.none with readers := (· = q) } sys (sys.shutdownReader respond known q).2.2 :=
  .shutdownReader respond known sys rfl

/-- What is let go of in the end is no concern of readers. -/
theorem steps_reclaim (sys : System α) : Steps { Endings.none with release := True } sys sys.reclaim :=
  (Upkeeps.reclaim trivial sys).steps

theorem Steps.callsTo_of_closed (h : Steps ends sys sys') (hr : ¬ends.readers r)
    (hclosed : sys.isClosed r = true) : callsTo r sys'.journal = callsTo r sys.journal := by
  obtain ⟨more, hmore, -, hnil⟩ := h.spares hr
  rw [hmore, hnil hclosed, List.append_nil]

theorem isClosed_shutdownReader_of_closed (h : sys.isClosed r = true) (q : Nat) :
    (sys.shutdownReader respond known q).2.2.isClosed r = true :=
  (steps_shutdownReader respond known sys q).persisting.isClosed h

/-- The shutdown of any reader says nothing to the exporter of a reader that is closed. -/
theorem callsTo_shutdownReader_of_closed (h : sys.isClosed r = true) (q : Nat) :
    callsTo r (sys.shutdownReader respond known q).2.2.journal = callsTo r sys.journal := by
  by_cases hq : r = q
  · -- Of its own shutdown a closed reader makes nothing.
    rw [shutdownReader_eq_of_closed respond known (hq ▸ h)]
  · exact (steps_shutdownReader respond known sys q).callsTo_of_closed hq h

theorem callsTo_shutdownReaders_of_closed (h : sys.isClosed r = true) (readers : List Nat) :
    callsTo r (eachReader (shutdownReader respond) known sys readers).2.2.journal =
      callsTo r sys.journal := by
  -- The reader is still closed when the next one is visited.
  let silent (after : System α) : Prop :=
    after.isClosed r = true ∧ callsTo r after.journal = callsTo r sys.journal
  have hact (q : Nat) (known : σ) (after : System α) (hafter : silent after) :
      silent (after.shutdownReader respond known q).2.2 :=
    ⟨isClosed_shutdownReader_of_closed respond known hafter.1 q,
      (callsTo_shutdownReader_of_closed respond known hafter.1 q).trans hafter.2⟩
  exact (eachReader_induction (motive := silent) known (fun q _ => hact q) ⟨h, rfl⟩).2

/-- Whatever is done, the exporter of a closed reader hears nothing. -/
theorem callsTo_perform_of_closed (h : sys.isClosed r = true) (c : Command α) :
    callsTo r (sys.perform respond known c).2.2.journal = callsTo r sys.journal := by
  have hplain (hr : ¬(sys.endings c).readers r) :
      callsTo r (sys.perform respond known c).2.2.journal = callsTo r sys.journal :=
    (Steps.perform respond known sys c).callsTo_of_closed hr h
  -- Steps alone do not tell for commands that may close the reader.
  cases c with
  | shutdownReader q =>
    exact ((steps_reclaim _).callsTo_of_closed id
      (isClosed_shutdownReader_of_closed respond known h q)).trans
        (callsTo_shutdownReader_of_closed respond known h q)
  | shutdown p =>
    have hshutdown : callsTo r (sys.shutdown respond known p).2.2.journal = callsTo r sys.journal := by
      unfold System.shutdown
      split
      · rfl
      · split
        · rfl
        · have hclosing : (sys.modifyProvider p fun provider =>
              { provider with closed := true }).isClosed r = true := h
          exact callsTo_shutdownReaders_of_closed respond known hclosing _
    have hsteps : Steps ⟨(· ∈ sys.readersOf p), (· = p), False⟩ sys (sys.shutdown respond known p).2.2 :=
      .shutdown respond known sys rfl fun _ hq => hq
    exact ((steps_reclaim _).callsTo_of_closed id (hsteps.persisting.isClosed h)).trans hshutdown
  | _ => exact hplain id

/-- A closed reader stays closed, and its exporter hears nothing, by induction on what is done. -/
theorem silent_run (h : sys.isClosed r = true) (later : List (Command α)) :
    (sys.run respond known later).2.2.isClosed r = true ∧
      callsTo r (sys.run respond known later).2.2.journal = callsTo r sys.journal := by
  induction later generalizing sys known with
  | nil => exact ⟨h, rfl⟩
  | cons c rest ih =>
    have hclosed : (sys.perform respond known c).2.2.isClosed r = true :=
      (Steps.perform respond known sys c).persisting.isClosed h
    obtain ⟨hstill, hsilent⟩ := ih (sys.perform respond known c).2.1 hclosed
    exact ⟨hstill, hsilent.trans (callsTo_perform_of_closed respond known h c)⟩

/-! ## Order -/

end

/-- An exporter has heard of no end as long as its reader is open; when the reader is closed the end
is the last that the exporter heard of, right after a batch and for the first time, and the reader
has no streams. -/
structure Orderly (r : Nat) (sys : System α) : Prop where
  running : sys.isClosed r = false → .shutdown ∉ callsTo r sys.journal
  ended : ∀ reader, sys.readers[r]? = some reader → reader.closed = true →
    reader.streams = Table.empty ∧ ∃ earlier batch, .shutdown ∉ earlier ∧
      callsTo r sys.journal = earlier ++ [.deliver batch, .shutdown]

namespace Orderly

/-- What may not close the reader keeps the order. -/
theorem steps (h : Orderly r sys) (hsteps : Steps ends sys sys') (hr : ¬ends.readers r) :
    Orderly r sys' := by
  obtain ⟨more, hmore, hmore', hnil⟩ := hsteps.spares hr
  refine ⟨fun hopen => ?_, fun after hafter hclosed => ?_⟩
  · have hbefore : sys.isClosed r = false := by
      cases hclosed : sys.isClosed r with
      | false => rfl
      | true => exact absurd (hsteps.persisting.isClosed hclosed) (by simp [hopen])
    rw [hmore]
    exact fun hmem => (List.mem_append.mp hmem).elim (h.running hbefore) hmore'
  · -- The reader was closed before, and what was so then has not changed since.
    obtain ⟨before, hbefore, hpersists⟩ := exists_of_rel_some (hafter ▸ hsteps.persisting r)
    have hclosed' : before.closed = true := (hpersists.running hclosed).resolve_right hr
    obtain ⟨hvacant, hended⟩ := h.ended before hbefore hclosed'
    have hisClosed : sys.isClosed r = true := by simp [isClosed, hbefore, hclosed']
    refine ⟨Table.ext (hpersists.vacant hclosed' (congrArg (·.entries) hvacant)), ?_⟩
    rw [hmore, hnil hisClosed, List.append_nil]
    exact hended

variable (respond : Responder σ α) (known : σ)

theorem shutdownReader (h : Orderly r sys) (q : Nat) :
    Orderly r (sys.shutdownReader respond known q).2.2 := by
  by_cases hq : r = q
  · subst hq
    cases hclosed : sys.isClosed r with
    | true =>
      rw [shutdownReader_eq_of_closed respond known hclosed]
      exact h
    | false =>
      -- What was said before is the earlier part: while the reader was open it had no end in it.
      obtain ⟨reader, hr, hopen⟩ := isClosed_eq_false_iff.mp hclosed
      obtain ⟨htold, ⟨after, hafter, hended, hvacant⟩, -⟩ := endsReader respond known sys hr hopen
      refine ⟨fun hopen' => ?_, fun after' hafter' _ => ?_⟩
      · simp [isClosed, hafter, hended] at hopen'
      · obtain rfl := Option.some.inj (hafter.symm.trans hafter')
        exact ⟨hvacant, _, _, h.running hclosed, htold⟩
  · exact h.steps (steps_shutdownReader respond known sys q) hq

theorem shutdownReaders (h : Orderly r sys) (readers : List Nat) :
    Orderly r (eachReader (System.shutdownReader respond) known sys readers).2.2 :=
  eachReader_induction known (fun q _ known _ h => h.shutdownReader respond known q) h

/-- Every command keeps the order. -/
theorem perform (h : Orderly r sys) (c : Command α) :
    Orderly r (sys.perform respond known c).2.2 := by
  have hplain (hr : ¬(sys.endings c).readers r) : Orderly r (sys.perform respond known c).2.2 :=
    h.steps (.perform respond known sys c) hr
  cases c with
  | shutdownReader q => exact (h.shutdownReader respond known q).steps (steps_reclaim _) id
  | shutdown p =>
    have hshutdown : Orderly r (sys.shutdown respond known p).2.2 := by
      unfold System.shutdown
      split
      · exact h
      · split
        · exact h
        · have hquit : Steps ⟨fun _ => False, fun _ => True, False⟩ sys (sys.modifyProvider p _) :=
            .single (.quit sys p trivial)
          exact (h.steps hquit id).shutdownReaders respond known _
    exact hshutdown.steps (steps_reclaim _) id
  | _ => exact hplain id

omit [Quantity α] in
/-- Nothing was said when a system is launched. -/
theorem launched (readers : List (Exporter α × Nat)) (providers : List (Resource × List Nat))
    (r : Nat) : Orderly r (launched readers providers) := by
  refine ⟨fun _ => List.not_mem_nil, fun reader hreader hclosed => ?_⟩
  obtain ⟨e, rfl⟩ := getElem?_launched_readers hreader
  cases hclosed

/-- Every run keeps the order, by induction on its commands. -/
theorem run (h : Orderly r sys) (commands : List (Command α)) :
    Orderly r (sys.run respond known commands).2.2 := by
  induction commands generalizing sys known with
  | nil => exact h
  | cons c rest ih => exact ih _ (h.perform respond known c)

end Orderly

end Metering.System
