import Metering.Proofs.Passes.Trace
import Metering.Proofs.Steps.Upkeep

/-!
# The Steps that Commands are Made of

Every command is a sequence of small steps, each of which changes one thing: the clock, the handles,
the journal, what a provider or a reader keeps track of, a reference, or the streams of an instrument
that is built, measured or collected. Steps are finer than moves: they tell what is said to exporters
and which references are taken and given back, and a measurement is one step for all streams of its
instrument. Upkeep is made of steps.
-/

namespace Metering

variable {α : Type}

namespace System

variable [Quantity α] {ends : Endings} {sys sys' sys'' : System α}

/-- A small change of a system. -/
inductive Step (ends : Endings) : System α → System α → Prop
  | clock (sys : System α) (time : Time) : Step ends sys { sys with now := time }
  | hold (sys : System α) (handles : Table Nat Nat) (nextHandle : Nat) :
      Step ends sys { sys with handles, nextHandle }
  | note (sys : System α) {entries : List (JournalEntry α)} (may : ∀ entry ∈ entries, sys.MayNote entry) :
      Step ends sys (sys.write entries)
  | provider (sys : System α) (p : Nat) {f : Provider α → Provider α}
      (same : ∀ provider, (f provider).holdings = provider.holdings) :
      Step ends sys (sys.modifyProvider p f)
  | reader (sys : System α) (r : Nat) {f : Reader α → Reader α}
      (same : ∀ reader, (f reader).holdings = reader.holdings) :
      Step ends sys (sys.modifyReader r f)
  | acquire (sys : System α) (i : Nat) (f : Flavour) : Step ends sys (sys.acquire i f).2
  | release (sys : System α) (i : Nat) (f : Flavour) (allowed : ends.release) :
      Step ends sys (sys.release i f)
  | clear (sys : System α) (allowed : ends.release) : Step ends sys sys.clearReaders
  /-- An instrument is built under a key under which nothing living was found. -/
  | build (sys : System α) {p : Nat} {current provider : Provider α} {key : InstrumentKey}
      {plans : List (StreamPlan α)} (owner : sys.providers[p]? = some current)
      (same : provider.holdings = current.holdings)
      (unknown : (provider.cache.find? key).filter sys.isAlive = none)
      (suits : ∀ plan ∈ plans, plan.Suits key.identity.kind) :
      Step ends sys (sys.withNewborn p provider key plans)
  /-- A measurement is entered in all streams of its instrument. -/
  | record (sys : System α) {i : Nat} {b : BuiltInstrument} {value : α}
      (built : sys.instruments[i]? = some b) (taken : objection b.key value = none)
      (attributes : Attributes) (draw : Nat → Nat) :
      Step ends sys (sys.writeTo value attributes draw b.streams)
  /-- A reader that is open, or that may be closed by now, is collected. -/
  | pass (sys : System α) {r : Nat} {reader : Reader α} (found : sys.readers[r]? = some reader)
      (running : reader.closed = false ∨ ends.readers r)
      (performances : List (List (Call × Performance α))) :
      Step ends sys (sys.exportPass r reader performances).2
  | close (sys : System α) (r : Nat) (allowed : ends.readers r) :
      Step ends sys (sys.modifyReader r fun reader => { reader with closed := true })
  /-- The exporter of a reader is shut down, and the streams of the reader go. -/
  | finish (sys : System α) (r : Nat) (allowed : ends.readers r) :
      Step ends sys ((sys.write [.call r .shutdown]).modifyReader r fun reader =>
        { reader with streams := Table.empty })
  | quit (sys : System α) (p : Nat) (allowed : ends.providers p) :
      Step ends sys (sys.modifyProvider p fun provider => { provider with closed := true })

/-- Any number of steps, one after the other. -/
abbrev Steps (ends : Endings) : System α → System α → Prop := Relation.ReflTransGen (Step ends)

/-- A measurement changes nothing but readers. -/
theorem writeTo_eq (sys : System α) (value : α) (attributes : Attributes) (draw : Nat → Nat)
    (streams : List (Nat × Nat)) : sys.writeTo value attributes draw streams =
      { sys with readers := (sys.writeTo value attributes draw streams).readers } := by
  unfold writeTo
  induction streams.zipIdx generalizing sys with
  | nil => rfl
  | cons s rest ih => exact ih _

/-- Every step is made of moves. -/
theorem Step.moves (h : Step ends sys sys') : Moves (fun _ _ => True) sys sys' := by
  cases h with
  | clock | hold | note => exact Sheds.moves (.of_eq rfl rfl rfl)
  | provider p same =>
    exact .modifyProvider sys p fun provider => congrArg (·.2.2.2.1) (same provider)
  | reader r same => exact Upkeeps.moves (.single (.reader sys r same))
  | acquire i f => exact Sheds.moves (.acquire sys i f)
  | release i f => exact Sheds.moves (.release sys i f)
  | clear => exact Sheds.moves (.clearReaders sys)
  | build owner same unknown suits =>
    exact .single (.build owner (congrArg (·.2.2.2.1) same) suits)
  | record built taken attributes draw => exact .writeTo built taken trivial attributes draw
  | pass found running performances => exact .exportPass sys _ _ performances
  | close r => exact .closeReader sys r
  | finish r =>
    exact (Moves.write sys [.call r .shutdown]).trans (Moves.modifyReader _ r (·.sheds_emptied))
  | quit p => exact .modifyProvider sys p fun _ => rfl

/-- What may come to an end may do so where anything may. -/
theorem Step.weaken (h : Step ends sys sys') : Step .all sys sys' := by
  cases h with
  | clock time => exact .clock sys time
  | hold handles nextHandle => exact .hold sys handles nextHandle
  | note may => exact .note sys may
  | provider p same => exact .provider sys p same
  | reader r same => exact .reader sys r same
  | acquire i f => exact .acquire sys i f
  | release i f => exact .release sys i f trivial
  | clear => exact .clear sys trivial
  | build owner same unknown suits => exact .build sys owner same unknown suits
  | record built taken attributes draw => exact .record sys built taken attributes draw
  | pass found running performances => exact .pass sys found (.inr trivial) performances
  | close r => exact .close sys r trivial
  | finish r => exact .finish sys r trivial
  | quit p => exact .quit sys p trivial

/-- Upkeep is done in steps. -/
theorem Upkeep.step (h : Upkeep ends sys sys') : Step ends sys sys' := by
  cases h with
  | clock time => exact .clock sys time
  | hold handles nextHandle => exact .hold sys handles nextHandle
  | note may => exact .note sys may
  | provider p same => exact .provider sys p same
  | reader r same => exact .reader sys r same
  | acquire i f => exact .acquire sys i f
  | release i f allowed => exact .release sys i f allowed
  | clear allowed => exact .clear sys allowed

theorem Upkeeps.steps (h : Upkeeps ends sys sys') : Steps ends sys sys' := by
  induction h with
  | refl => exact .refl
  | tail _ hupkeep ih => exact ih.tail hupkeep.step

namespace Steps

theorem refl (sys : System α) : Steps ends sys sys := Relation.ReflTransGen.refl

theorem moves (h : Steps ends sys sys') : Moves (fun _ _ => True) sys sys' := by
  induction h with
  | refl => exact .refl sys
  | tail _ hstep ih => exact ih.trans hstep.moves

theorem weaken (h : Steps ends sys sys') : Steps .all sys sys' := by
  induction h with
  | refl => exact refl sys
  | tail _ hstep ih => exact ih.tail hstep.weaken

/-! ## Passes -/

section Passes

variable {σ : Type} (respond : Responder σ α) (known : σ)

theorem pass {sys : System α} {r : Nat} (running : sys.isClosed r = false ∨ ends.readers r) :
    Steps ends sys (sys.pass respond known r).2.2 := by
  unfold System.pass
  split
  · exact refl sys
  · rename_i reader hr
    refine .single (.pass sys hr (running.imp_left fun hopen => ?_) _)
    simpa [isClosed, hr] using hopen

theorem collect (sys : System α) (r : Nat) : Steps ends sys (sys.collect respond known r).2.2 := by
  unfold System.collect
  split
  · exact refl sys
  · rename_i hopen
    exact pass respond known (.inl (Bool.not_eq_true _ ▸ hopen))

/-- A pass closes no reader. -/
theorem isClosed_pass (sys : System α) (r q : Nat) :
    (sys.pass respond known r).2.2.isClosed q = sys.isClosed q := by
  unfold System.pass
  split
  · rfl
  · have hclosed (readers : List (Reader α)) : ((readers[q]?.map (·.closed)).getD true) =
        ((readers.map (·.closed))[q]?).getD true := by rw [List.getElem?_map]
    simp only [isClosed, hclosed]
    exact congrArg (fun flags => flags[q]?.getD true) (map_modify_of_eq fun _ _ => rfl)

theorem flushReader (sys : System α) (r : Nat) :
    Steps ends sys (sys.flushReader respond known r).2.2 := by
  unfold System.flushReader
  split
  · exact refl sys
  · rename_i hopen
    have hopen : sys.isClosed r = false := Bool.not_eq_true _ ▸ hopen
    -- The reader is still open after the pass, so its exporter may be told to flush.
    refine (pass respond known (.inl hopen)).tail (.note _ fun entry hentry => ?_)
    obtain rfl := List.mem_singleton.mp hentry
    exact ⟨(isClosed_pass respond known sys r r).trans hopen, .inr rfl⟩

theorem shutdownReader (sys : System α) {r : Nat} (allowed : ends.readers r) :
    Steps ends sys (sys.shutdownReader respond known r).2.2 := by
  unfold System.shutdownReader
  split
  · exact refl sys
  · exact .head (.close sys r allowed)
      ((pass respond known (.inr allowed)).tail (.finish _ r allowed))

theorem eachReader {act : σ → System α → Nat → Bool × σ × System α} {readers : List Nat}
    (hact : ∀ r ∈ readers, ∀ known sys, Steps ends sys (act known sys r).2.2) (sys : System α) :
    Steps ends sys (System.eachReader act known sys readers).2.2 :=
  eachReader_induction known (fun r hr known _ h => h.trans (hact r hr known _)) (refl sys)

theorem flush (sys : System α) (p : Nat) : Steps ends sys (sys.flush respond known p).2.2 := by
  unfold System.flush
  split
  · exact refl sys
  · split
    · exact refl sys
    · exact eachReader known (fun r _ known sys => flushReader respond known sys r) sys

theorem shutdown (sys : System α) {p : Nat} (provider : ends.providers p)
    (readers : ∀ r ∈ sys.readersOf p, ends.readers r) :
    Steps ends sys (sys.shutdown respond known p).2.2 := by
  unfold System.shutdown
  unfold readersOf at readers
  split
  · exact refl sys
  · split
    · exact refl sys
    · rename_i hp hopen
      simp only [hp, hopen] at readers
      exact .head (.quit sys p provider) (eachReader known
        (fun r hr known sys => shutdownReader respond known sys (readers r hr)) _)

end Passes

/-! ## Measurements -/

theorem record (sys : System α) (handle : Nat) (value : α) (attributes : List Attribute)
    (draw : Nat → Nat) : Steps ends sys (sys.record handle value attributes draw) := by
  unfold System.record
  split
  · exact refl sys
  · rename_i i b hb
    split
    · exact (Upkeeps.note_event sys _).steps
    · -- The handle leads to an instrument that was built, which takes the measurement.
      rename_i htaken
      obtain ⟨j, -, hj⟩ := Option.bind_eq_some_iff.mp hb
      obtain ⟨b', hb', heq⟩ := Option.bind_eq_some_iff.mp hj
      obtain ⟨rfl, rfl⟩ := Prod.mk.inj (Option.some.inj heq)
      exact .single (.record sys hb' htaken _ draw)

end Steps

/-! ## Requests -/

/-- Planning asks the exporters of open readers. -/
theorem mayNote_planStreams {scope : Scope} {i : Instrument α} {pairs : List (Projection α × Nat)} :
    ∀ entry ∈ (sys.planStreams scope i pairs).1, sys.MayNote entry := by
  induction pairs with
  | nil => simp [planStreams]
  | cons pair rest ih =>
    obtain ⟨pr, r⟩ := pair
    intro entry hentry
    unfold planStreams at hentry
    split at hentry
    · exact ih entry hentry
    · rename_i reader hr
      split at hentry
      · exact ih entry hentry
      · rename_i hopen
        have hasked (h : entry ∈ (planStream reader.exporter r scope i pr).1.map (.call r)) :
            sys.MayNote entry := by
          obtain ⟨call, hcall, rfl⟩ := List.mem_map.mp h
          exact ⟨by simpa [isClosed, hr] using hopen, .inl (asks_planStream call hcall)⟩
        simp only at hentry
        split at hentry
        · exact hasked hentry
        · exact (List.mem_append.mp hentry).elim hasked (ih entry)

namespace Steps

theorem procure {current provider : Provider α} {p : Nat} (owner : sys.providers[p]? = some current)
    (same : provider.holdings = current.holdings) (scope : Scope) (i : Instrument α) :
    Steps ends sys (sys.procure p provider scope i).2 := by
  have hasked {entries : List (JournalEntry α)} {outcome : Except (Error α) (List (StreamPlan α))}
      (hplan : sys.plan provider scope i = (entries, outcome)) :
      Steps ends sys (sys.write entries) := by
    obtain rfl : (sys.plan provider scope i).1 = entries := congrArg (·.1) hplan
    exact .single (.note sys mayNote_planStreams)
  -- A request is refused after questions, or granted with what lives, or granted after questions.
  rcases procure_cases sys p provider scope i with
    ⟨e, entries, hplan, heq⟩ | ⟨found, -, -, heq⟩ | ⟨entries, plans, hunknown, hplan, heq⟩
  · rw [heq]
    exact hasked hplan
  · rw [heq]
    exact .single (.acquire sys found .transient)
  · rw [heq]
    have hsuits : ∀ plan ∈ plans, plan.Suits i.identity.kind :=
      suits_of_planStreams (congrArg (·.2) hplan)
    exact (hasked hplan).tail (.build (sys.write entries) owner same hunknown hsuits)

theorem create (sys : System α) (p : Nat) (scope : Scope) (i : Instrument α) (callbacks : Nat) :
    Steps ends sys (sys.create p scope i callbacks).2 := by
  unfold System.create
  cases hp : sys.providers[p]? with
  | none => exact refl sys
  | some provider =>
    have hasked : Steps ends sys (sys.modifyProvider p (·.withScope scope)) :=
      (Upkeeps.withScope sys p scope).steps
    have howner : (sys.modifyProvider p (·.withScope scope)).providers[p]? =
        some (provider.withScope scope) := getElem?_modify_of_some _ hp
    simp only
    split
    · exact hasked
    · have hprocure := hasked.trans (procure howner (provider.holdings_withScope scope).symm
        (provider.meterScope scope) i)
      split
      · rename_i heq
        rw [heq] at hprocure
        exact hprocure
      · rename_i found after heq
        rw [heq] at hprocure
        have hadopt := hprocure.trans (Upkeeps.adopt after found).steps
        split
        · exact hadopt.trans (Upkeeps.registerSingles ..).steps
        · exact hadopt

end Steps

/-! ## Commands and runs -/

/-- What a command may bring to an end. -/
def endings (sys : System α) : Command α → Endings
  | .drop _ | .detach _ | .dropProvider _ | .dropReader _ => { Endings.none with release := True }
  | .shutdownReader r => { readers := (· = r), providers := fun _ => False, release := True }
  | .shutdown p => { readers := (· ∈ sys.readersOf p), providers := (· = p), release := True }
  | _ => .none

section

variable {σ : Type} (respond : Responder σ α) (known : σ)

/-- Every command is made of steps. -/
theorem Steps.perform (sys : System α) (c : Command α) :
    Steps (sys.endings c) sys (sys.perform respond known c).2.2 := by
  cases c with
  | advance nanos => exact .single (.clock sys _)
  | rewind nanos => exact .single (.clock sys _)
  | registerView p view =>
    simp only [System.perform, System.registerView]
    cases view.check with
    | error e => exact refl sys
    | ok _ => exact .single (.provider sys p fun _ => rfl)
  | meter p scope => exact (Upkeeps.withScope sys p scope).steps
  | create p scope i callbacks =>
    have hcreate : Steps .none sys (sys.create p scope i callbacks).2 := create ..
    simp only [System.perform]
    rcases hresult : sys.create p scope i callbacks with ⟨_ | _ | _, _⟩ <;>
      simpa [hresult, endings] using hcreate
  | clone handle =>
    have hclone : Steps .none sys (sys.cloneHandle handle).2 := (Upkeeps.cloneHandle ..).steps
    simp only [System.perform]
    rcases hresult : sys.cloneHandle handle with ⟨_ | _, _⟩ <;> simpa [hresult, endings] using hclone
  | drop handle =>
    exact (Upkeeps.dropHandle trivial sys handle).steps.trans (Upkeeps.reclaim trivial _).steps
  | record handle value attributes draw => exact record sys handle value attributes draw
  | register handle =>
    have hregister : Steps .none sys (sys.register handle).2 := (Upkeeps.register ..).steps
    simp only [System.perform]
    rcases hresult : sys.register handle with ⟨_ | _, _⟩ <;> simpa [hresult, endings] using hregister
  | registerBatch p scope handles used =>
    have hbatch : Steps .none sys (sys.registerBatch p scope handles used).2 :=
      (Upkeeps.registerBatch ..).steps
    simp only [System.perform]
    rcases hresult : sys.registerBatch p scope handles used with ⟨_ | _, _⟩ <;>
      simpa [hresult, endings] using hbatch
  | detach callback =>
    exact (Upkeeps.detach trivial sys callback).steps.trans (Upkeeps.reclaim trivial _).steps
  | collect r => exact collect respond known sys r
  | flushReader r => exact flushReader respond known sys r
  | shutdownReader r =>
    exact (shutdownReader respond known sys rfl).trans (Upkeeps.reclaim trivial _).steps
  | flush p => exact flush respond known sys p
  | shutdown p =>
    exact (shutdown respond known sys rfl fun _ hr => hr).trans (Upkeeps.reclaim trivial _).steps
  | empty r => exact .single (.reader sys r fun _ => rfl)
  | dropProvider p => exact (Upkeeps.dropProvider trivial sys p).steps
  | dropReader r => exact (Upkeeps.dropReader trivial sys r).steps

/-- Every run is made of steps, by induction on its commands. -/
theorem Steps.run (sys : System α) (commands : List (Command α)) :
    Steps .all sys (sys.run respond known commands).2.2 := by
  induction commands generalizing sys known with
  | nil => exact refl sys
  | cons c rest ih => exact (Steps.perform respond known sys c).weaken.trans (ih _ _)

end

end System

end Metering
