import Metering.Proofs.Accounts.Passes
import Metering.Proofs.Moves.Basic
import Metering.Proofs.Observations.Calls
import Metering.Proofs.Passes.Quiet

/-!
# The Passes of a Run

Exporters are handed batches in passes, and passes are made by the commands that collect, some of
which collect several readers one after the other. So the passes of a run are listed each with the
system that it collects, which may be one in the middle of a command. What a run hands to exporters
is what its passes deliver, in their order, and between any two passes there are only moves.
-/

namespace Metering

variable {α σ : Type}

/-- A pass: the reader, what is known when it begins, and the system that is collected. -/
structure Pass (σ α : Type) where
  reader : Nat
  known : σ
  system : System α

namespace Pass

variable [Quantity α] (respond : Responder σ α) (pass : Pass σ α)

/-- All that callbacks observe in the pass. -/
def observed : Table Nat (Observations α) :=
  match pass.system.readers[pass.reader]? with
  | none => Table.empty
  | some reader =>
    System.observed ((pass.system.answers respond pass.known reader).map System.observationPass)

/-- What the pass exports for the stream with a number, if anything. -/
def metric? (n : Nat) : Option (Metric α) :=
  (streamAt pass.system.readers (pass.reader, n)).bind
    (·.metric? (pass.observed respond) pass.system.now)

/-- The batch of the pass: what it exports for the streams of its reader, one after the other. -/
def batch : List (Metric α) :=
  match pass.system.readers[pass.reader]? with
  | none => []
  | some reader => reader.streams.keys.filterMap (pass.metric? respond)

/-- The streams of a reader are found under their numbers, in their order. -/
theorem batch_eq {reader : Reader α} (hr : pass.system.readers[pass.reader]? = some reader) :
    pass.batch respond = reader.batch
      (System.observed ((pass.system.answers respond pass.known reader).map System.observationPass))
      pass.system.now := by
  have hobserved : pass.observed respond = System.observed
      ((pass.system.answers respond pass.known reader).map System.observationPass) := by
    simp only [observed, hr]
  rw [← hobserved]
  simp only [batch, hr, Reader.batch, Table.keys, Table.values, List.filterMap_map]
  refine List.filterMap_congr fun e he => ?_
  have hfound : streamAt pass.system.readers (pass.reader, e.1) = some e.2 := by
    rw [streamAt, hr]
    exact Table.find?_eq_some_iff_mem.mpr he
  simp only [Function.comp_apply, metric?, hfound, Option.bind_some]

/-- What the pass delivers, and to which reader's exporter. -/
def delivery : Nat × List (Metric α) := (pass.reader, pass.batch respond)

end Pass

namespace System

variable [Quantity α] {sys sys' sys'' : System α}

/-! ## Lists of passes -/

/-- The pass that collects an open reader. -/
def passOf (known : σ) (sys : System α) (r : Nat) : List (Pass σ α) :=
  if sys.isClosed r then [] else [⟨r, known, sys⟩]

/-- The pass that collects an open reader for the last time: it is closed by then. -/
def lastPassOf (known : σ) (sys : System α) (r : Nat) : List (Pass σ α) :=
  if sys.isClosed r then []
  else [⟨r, known, sys.modifyReader r fun reader => { reader with closed := true }⟩]

/-- The passes of several readers, when something is done with each after its pass. -/
def eachPassOf (passOf : σ → System α → Nat → List (Pass σ α))
    (act : σ → System α → Nat → Bool × σ × System α) (known : σ) (sys : System α) :
    List Nat → List (Pass σ α)
  | [] => []
  | r :: rest =>
    passOf known sys r ++ eachPassOf passOf act (act known sys r).2.1 (act known sys r).2.2 rest

variable (respond : Responder σ α) (known : σ)

/-- The passes that a command makes. -/
def passesOf (sys : System α) : Command α → List (Pass σ α)
  | .collect r | .flushReader r => passOf known sys r
  | .shutdownReader r => lastPassOf known sys r
  | .flush p =>
    match sys.providers[p]? with
    | none => []
    | some provider =>
      if provider.closed then []
      else eachPassOf passOf (flushReader respond) known sys provider.readers
  | .shutdown p =>
    match sys.providers[p]? with
    | none => []
    | some provider =>
      if provider.closed then []
      else
        eachPassOf lastPassOf (shutdownReader respond) known
          (sys.modifyProvider p fun provider => { provider with closed := true }) provider.readers
  | _ => []

/-- The passes of a run, in their order. -/
def passes {σ : Type} (respond : Responder σ α) (known : σ) (sys : System α) :
    List (Command α) → List (Pass σ α)
  | [] => []
  | c :: rest =>
    sys.passesOf respond known c ++
      passes respond (sys.perform respond known c).2.1 (sys.perform respond known c).2.2 rest

/-! ## What happens between passes -/

/-- A way from one system to another on which certain passes are made. -/
structure Traces (test : Nat → α → Prop) (respond : Responder σ α) (sys : System α)
    (passes : List (Pass σ α)) (sys' : System α) : Prop where
  moves : Moves test sys sys'
  visits : ∀ pass ∈ passes, Moves test sys pass.system ∧ Moves test pass.system sys'
  ordered : passes.Pairwise fun pass later => Moves test pass.system later.system
  deliveries : deliveries sys'.journal =
    deliveries sys.journal ++ passes.map (·.delivery respond)

namespace Traces

variable {test : Nat → α → Prop} {respond : Responder σ α} {xs ys : List (Pass σ α)}

theorem refl (sys : System α) : Traces test respond sys [] sys :=
  ⟨.refl sys, nofun, .nil, (List.append_nil _).symm⟩

theorem trans (h : Traces test respond sys xs sys') (k : Traces test respond sys' ys sys'') :
    Traces test respond sys (xs ++ ys) sys'' := by
  refine ⟨h.moves.trans k.moves, fun pass hpass => ?_, ?_, ?_⟩
  · rcases List.mem_append.mp hpass with hpass | hpass
    · exact ⟨(h.visits pass hpass).1, (h.visits pass hpass).2.trans k.moves⟩
    · exact ⟨h.moves.trans (k.visits pass hpass).1, (k.visits pass hpass).2⟩
  · -- From an earlier pass the way leads over the system in between to a later one.
    refine List.pairwise_append.mpr ⟨h.ordered, k.ordered, fun pass hpass later hlater => ?_⟩
    exact (h.visits pass hpass).2.trans (k.visits later hlater).1
  · rw [k.deliveries, h.deliveries, List.map_append, List.append_assoc]

/-- Without a pass nothing is delivered. -/
theorem of_quiet (hmoves : Moves test sys sys') (hquiet : Quiet sys sys') :
    Traces test respond sys [] sys' :=
  ⟨hmoves, nofun, .nil, Eq.trans hquiet (List.append_nil _).symm⟩

theorem andQuiet (h : Traces test respond sys xs sys') (hmoves : Moves test sys' sys'')
    (hquiet : Quiet sys' sys'') : Traces test respond sys xs sys'' := by
  simpa using h.trans (of_quiet hmoves hquiet)

end Traces

/-! ## Passes of readers -/

section

variable {test : Nat → α → Prop} (respond : Responder σ α) (known : σ)

/-- A pass delivers what is collected from the system that it begins with. -/
theorem traces_pass (sys : System α) {r : Nat} {reader : Reader α}
    (hr : sys.readers[r]? = some reader) :
    Traces test respond sys [⟨r, known, sys⟩] (sys.pass respond known r).2.2 := by
  have hmoves : Moves test sys (sys.pass respond known r).2.2 := .pass respond known sys r
  refine ⟨hmoves, fun pass hpass => ?_, List.pairwise_singleton .., ?_⟩
  · obtain rfl := List.mem_singleton.mp hpass
    exact ⟨.refl sys, hmoves⟩
  · obtain ⟨entries, hjournal, hentries⟩ :=
      journal_exportPass sys r reader (sys.answers respond known reader)
    have hsame : (sys.pass respond known r).2.2 =
        (sys.exportPass r reader (sys.answers respond known reader)).2 := by
      simp only [pass, hr, answers]
    rw [hsame, hjournal, deliveries_append, hentries, List.map_singleton, Pass.delivery,
      Pass.batch_eq respond ⟨r, known, sys⟩ hr]

theorem traces_collect (sys : System α) (r : Nat) :
    Traces test respond sys (passOf known sys r) (sys.collect respond known r).2.2 := by
  unfold collect passOf
  split
  · exact .refl sys
  · rename_i hopen
    obtain ⟨reader, hr, -⟩ := isClosed_eq_false_iff.mp (Bool.not_eq_true _ ▸ hopen)
    exact traces_pass respond known sys hr

theorem traces_flushReader (sys : System α) (r : Nat) :
    Traces test respond sys (passOf known sys r) (sys.flushReader respond known r).2.2 := by
  unfold flushReader passOf
  split
  · exact .refl sys
  · rename_i hopen
    obtain ⟨reader, hr, -⟩ := isClosed_eq_false_iff.mp (Bool.not_eq_true _ ▸ hopen)
    exact (traces_pass respond known sys hr).andQuiet (.write _ _) (.write rfl _)

theorem traces_shutdownReader (sys : System α) (r : Nat) :
    Traces test respond sys (lastPassOf known sys r) (sys.shutdownReader respond known r).2.2 := by
  unfold shutdownReader lastPassOf
  split
  · exact .refl sys
  · rename_i hopen
    obtain ⟨reader, hr, -⟩ := isClosed_eq_false_iff.mp (Bool.not_eq_true _ ▸ hopen)
    let closing := sys.modifyReader r fun reader => { reader with closed := true }
    have hclosing : Traces test respond sys [] closing :=
      .of_quiet (.closeReader sys r) (.modifyReader sys r _)
    have hpass := hclosing.trans (traces_pass respond known closing (getElem?_modify_of_some _ hr))
    -- Afterwards the end is written down, and the reader is emptied.
    exact (hpass.andQuiet (.write _ [.call r .shutdown]) (.write rfl _)).andQuiet
      (.modifyReader _ r (·.sheds_emptied)) (.modifyReader _ r _)

theorem traces_eachReader {passOf : σ → System α → Nat → List (Pass σ α)}
    {act : σ → System α → Nat → Bool × σ × System α}
    (hact : ∀ known sys r, Traces test respond sys (passOf known sys r) (act known sys r).2.2)
    (sys : System α) (readers : List Nat) :
    Traces test respond sys (eachPassOf passOf act known sys readers)
      (eachReader act known sys readers).2.2 := by
  induction readers generalizing sys known with
  | nil => exact .refl sys
  | cons r rest ih => exact (hact known sys r).trans (ih _ _)

/-! ## Passes of commands and runs -/

/-- What a command delivers is delivered by its passes, and the rest are moves. -/
theorem traces_perform {sys : System α} {c : Command α} (h : sys.Admits test c) :
    Traces test respond sys (sys.passesOf respond known c) (sys.perform respond known c).2.2 := by
  have hmoves : Moves test sys (sys.perform respond known c).2.2 := .perform respond known h
  cases c with
  | collect r => exact traces_collect respond known sys r
  | flushReader r => exact traces_flushReader respond known sys r
  | shutdownReader r =>
    exact (traces_shutdownReader respond known sys r).andQuiet (.reclaim _) (.reclaim _)
  | flush p =>
    simp only [passesOf, System.perform, System.flush]
    cases hp : sys.providers[p]? with
    | none => exact .refl sys
    | some provider =>
      simp only
      split
      · exact .refl sys
      · exact traces_eachReader respond known (traces_flushReader respond) sys _
  | shutdown p =>
    simp only [passesOf, System.perform, System.shutdown]
    cases hp : sys.providers[p]? with
    | none => exact .of_quiet (.reclaim sys) (.reclaim sys)
    | some provider =>
      simp only
      split
      · exact .of_quiet (.reclaim sys) (.reclaim sys)
      · let closing := sys.modifyProvider p fun provider => { provider with closed := true }
        have hclosing : Traces test respond sys [] closing :=
          .of_quiet (.modifyProvider sys p fun _ => rfl) (.of_journal_eq rfl)
        refine (hclosing.trans ?_).andQuiet (.reclaim _) (.reclaim _)
        exact traces_eachReader respond known (traces_shutdownReader respond) closing _
  | advance _ | rewind _ | meter _ _ | empty _ => exact .of_quiet hmoves (.of_journal_eq rfl)
  | registerView p view =>
    refine .of_quiet hmoves (.of_journal_eq ?_)
    simp only [System.perform, System.registerView]
    cases view.check <;> rfl
  | create p scope i callbacks =>
    refine .of_quiet hmoves ?_
    have hcreate := Quiet.create sys p scope i callbacks
    simp only [System.perform]
    rcases hresult : sys.create p scope i callbacks with ⟨_ | _ | _, _⟩ <;>
      simpa [hresult] using hcreate
  | clone handle =>
    refine .of_quiet hmoves ?_
    have hclone : Quiet sys (sys.cloneHandle handle).2 := Upkeeps.quiet (.cloneHandle ..)
    simp only [System.perform]
    rcases hresult : sys.cloneHandle handle with ⟨_ | _, _⟩ <;> simpa [hresult] using hclone
  | drop handle =>
    exact .of_quiet hmoves ((Upkeeps.quiet (.dropHandle trivial sys handle)).trans (.reclaim _))
  | record handle value attributes draw => exact .of_quiet hmoves (.record sys handle ..)
  | register handle =>
    refine .of_quiet hmoves ?_
    have hregister : Quiet sys (sys.register handle).2 := Upkeeps.quiet (.register ..)
    simp only [System.perform]
    rcases hresult : sys.register handle with ⟨_ | _, _⟩ <;> simpa [hresult] using hregister
  | registerBatch p scope handles used =>
    refine .of_quiet hmoves ?_
    have hbatch : Quiet sys (sys.registerBatch p scope handles used).2 :=
      Upkeeps.quiet (.registerBatch ..)
    simp only [System.perform]
    rcases hresult : sys.registerBatch p scope handles used with ⟨_ | _, _⟩ <;>
      simpa [hresult] using hbatch
  | detach callback =>
    exact .of_quiet hmoves ((Upkeeps.quiet (.detach trivial sys callback)).trans (.reclaim _))
  | dropProvider p => exact .of_quiet hmoves (.reclaim (sys.modifyProvider p _))
  | dropReader r => exact .of_quiet hmoves (.reclaim (sys.modifyReader r _))

/-- What a run delivers is delivered by its passes, by induction on its commands. -/
theorem traces_run {sys : System α} {commands : List (Command α)}
    (h : sys.AdmitsAll test respond known commands) :
    Traces test respond sys (sys.passes respond known commands)
      (sys.run respond known commands).2.2 := by
  induction commands generalizing sys known with
  | nil => exact .refl sys
  | cons c rest ih => exact (traces_perform respond known h.1).trans (ih _ h.2)

/-- What exporters are handed in a run is what its passes deliver. -/
theorem deliveries_run (readers : List (Exporter α × Nat)) (providers : List (Resource × List Nat))
    (commands : List (Command α)) :
    deliveries ((launched readers providers).run respond known commands).2.2.journal =
      ((launched readers providers).passes respond known commands).map (·.delivery respond) := by
  have hall : (launched readers providers).AdmitsAll (fun _ _ => True) respond known commands :=
    .of_forall respond known (fun _ _ => trivial) ..
  exact (traces_run respond known hall).deliveries

end

end System

end Metering
