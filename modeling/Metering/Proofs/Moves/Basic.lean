import Metering.Proofs.Accounts.Entries
import Metering.Proofs.Moves.Shedding

/-!
# The Moves that Commands are Made of

As far as streams are concerned there are four things that can happen to a system: streams go, a
measurement is entered in one stream of its instrument, all streams of a reader are collected, or an
instrument is built with new streams. Every command is a sequence of such moves, whatever else it
does, and so is every run. What each move preserves is therefore preserved by every run.

Measurements are subject to a test of the instrument, by its index, and the value, so that runs can
be told apart by what they measure.
-/

namespace Metering

variable {α : Type}

/-- Whether a planned stream is one that the kind of an instrument allows for: a sum is tagged by
the kind. -/
def StreamPlan.Suits (plan : StreamPlan α) (kind : Kind) : Prop :=
  ∀ monotonic, plan.aggregator = .sum monotonic → monotonic = kind.isMonotonic

namespace System

variable [Quantity α] {test : Nat → α → Prop} {sys sys' sys'' : System α}

/-- A small change of a system. -/
inductive Move (test : Nat → α → Prop) : System α → System α → Prop
  /-- Streams may go, and instruments stay what they are. -/
  | shed {sys sys' : System α}
      (readers : ∀ r : Nat, Option.Rel Reader.Sheds sys.readers[r]? sys'.readers[r]?)
      (instruments : sys'.instruments.map (·.ident) = sys.instruments.map (·.ident))
      (numbers : sys'.providers.map (·.nextObserver) = sys.providers.map (·.nextObserver)) :
      Move test sys sys'
  /-- A measurement is entered in a stream of its instrument. -/
  | record {sys : System α} {i : Nat} {b : BuiltInstrument} {s : Nat × Nat} {draw : Nat} {value : α}
      {attributes : Attributes} (built : sys.instruments[i]? = some b) (owned : s ∈ b.streams)
      (taken : objection b.key value = none) (passes : test i value) :
      Move test sys
        (sys.modifyReader s.1 fun reader => reader.record s.2 draw value attributes sys.now)
  /-- All streams of a reader are collected. -/
  | collect {sys : System α} {r : Nat} {observed : Table Nat (Observations α)}
      {exporter : Reader α → Exporter α} :
      Move test sys (sys.modifyReader r fun reader =>
        { reader.collected observed sys.now with exporter := exporter reader })
  /-- An instrument is built from plans that suit its kind. -/
  | build {sys : System α} {p : Nat} {current provider : Provider α} {key : InstrumentKey}
      {plans : List (StreamPlan α)} (owner : sys.providers[p]? = some current)
      (number : provider.nextObserver = current.nextObserver)
      (suits : ∀ plan ∈ plans, plan.Suits key.identity.kind) :
      Move test sys (sys.withNewborn p provider key plans)

/-- Any number of moves, one after the other. -/
abbrev Moves (test : Nat → α → Prop) : System α → System α → Prop := Relation.ReflTransGen (Move test)

namespace Moves

theorem refl (sys : System α) : Moves test sys sys := Relation.ReflTransGen.refl

end Moves

theorem Sheds.moves (h : Sheds sys sys') : Moves test sys sys' :=
  .single (.shed h.readers h.instruments h.numbers)

theorem Upkeeps.moves (h : Upkeeps .all sys sys') : Moves test sys sys' := h.sheds.moves

namespace Moves

theorem write (sys : System α) (entries : List (JournalEntry α)) :
    Moves test sys (sys.write entries) := Sheds.moves (.of_eq rfl rfl rfl)

theorem modifyProvider (sys : System α) (p : Nat) {f : Provider α → Provider α}
    (h : ∀ provider, (f provider).nextObserver = provider.nextObserver) :
    Moves test sys (sys.modifyProvider p f) :=
  .single (.shed (Sheds.refl sys).readers rfl (map_modify_of_eq fun provider _ => h provider))

theorem modifyReader (sys : System α) (r : Nat) {f : Reader α → Reader α}
    (h : ∀ reader, Reader.Sheds reader (f reader)) : Moves test sys (sys.modifyReader r f) :=
  (Sheds.modifyReader sys r h).moves

theorem reclaim (sys : System α) : Moves test sys sys.reclaim :=
  Upkeeps.moves (.reclaim trivial sys)

/-! ## Passes -/

theorem exportPass (sys : System α) (r : Nat) (reader : Reader α)
    (performances : List (List (Call × Performance α))) :
    Moves test sys (sys.exportPass r reader performances).2 := by
  refine (Relation.ReflTransGen.single ?_).trans (write _ _)
  exact .collect

section Passes

variable {σ : Type} (respond : Responder σ α) (known : σ)

theorem pass (sys : System α) (r : Nat) : Moves test sys (sys.pass respond known r).2.2 := by
  unfold System.pass
  split
  · exact refl sys
  · exact exportPass ..

theorem collect (sys : System α) (r : Nat) : Moves test sys (sys.collect respond known r).2.2 := by
  unfold System.collect
  split
  · exact refl sys
  · exact pass ..

theorem flushReader (sys : System α) (r : Nat) :
    Moves test sys (sys.flushReader respond known r).2.2 := by
  unfold System.flushReader
  split
  · exact refl sys
  · exact (pass respond known sys r).trans (write _ _)

theorem closeReader (sys : System α) (r : Nat) :
    Moves test sys (sys.modifyReader r fun reader => { reader with closed := true }) :=
  modifyReader sys r (·.sheds_closed)

theorem shutdownReader (sys : System α) (r : Nat) :
    Moves test sys (sys.shutdownReader respond known r).2.2 := by
  unfold System.shutdownReader
  split
  · exact refl sys
  · apply (closeReader sys r).trans
    apply (pass respond known _ r).trans
    exact (write _ [.call r .shutdown]).trans (modifyReader _ r (·.sheds_emptied))

theorem eachReader {act : σ → System α → Nat → Bool × σ × System α}
    (hact : ∀ known sys r, Moves test sys (act known sys r).2.2) (sys : System α)
    (readers : List Nat) : Moves test sys (System.eachReader act known sys readers).2.2 :=
  eachReader_induction known (fun r _ known _ h => h.trans (hact known _ r)) (refl sys)

theorem flush (sys : System α) (p : Nat) : Moves test sys (sys.flush respond known p).2.2 := by
  unfold System.flush
  split
  · exact refl sys
  · split
    · exact refl sys
    · exact eachReader known (flushReader respond) sys _

theorem shutdown (sys : System α) (p : Nat) :
    Moves test sys (sys.shutdown respond known p).2.2 := by
  unfold System.shutdown
  split
  · exact refl sys
  · split
    · exact refl sys
    · exact (modifyProvider sys p (f := fun provider => { provider with closed := true })
        fun _ => rfl).trans (eachReader known (shutdownReader respond) _ _)

end Passes

/-! ## Measurements -/

/-- An accepted measurement goes to the streams of its instrument, one move for each. -/
theorem writeTo {i : Nat} {b : BuiltInstrument} {value : α} (built : sys.instruments[i]? = some b)
    (taken : objection b.key value = none) (passes : test i value) (attributes : Attributes)
    (draw : Nat → Nat) : Moves test sys (sys.writeTo value attributes draw b.streams) := by
  have hfold (l : List ((Nat × Nat) × Nat)) (howned : ∀ x ∈ l, x.1 ∈ b.streams) (sys : System α)
      (built : sys.instruments[i]? = some b) :
      Moves test sys (l.foldl (fun sys s => sys.modifyReader s.1.1 fun reader =>
        reader.record s.1.2 (draw s.2) value attributes sys.now) sys) := by
    induction l generalizing sys with
    | nil => exact refl sys
    | cons x rest ih =>
      have howned' := howned x (List.mem_cons_self ..)
      exact .head (.record built howned' taken passes)
        (ih (fun y hy => howned y (List.mem_cons_of_mem _ hy)) _ built)
  exact hfold _ (fun x hx => List.fst_mem_of_mem_zipIdx hx) sys built

theorem record (sys : System α) (handle : Nat) (value : α) (attributes : List Attribute)
    (draw : Nat → Nat)
    (passes : ∀ i b, sys.instrument? handle = some (i, b) → objection b.key value = none →
      test i value) : Moves test sys (sys.record handle value attributes draw) := by
  unfold System.record
  split
  · exact refl sys
  · rename_i i b hb
    split
    · exact write _ _
    · rename_i htaken
      have built : sys.instruments[i]? = some b := by
        obtain ⟨j, -, hj⟩ := Option.bind_eq_some_iff.mp hb
        obtain ⟨b', hb', heq⟩ := Option.bind_eq_some_iff.mp hj
        obtain ⟨rfl, rfl⟩ := Prod.mk.inj (Option.some.inj heq)
        exact hb'
      exact writeTo built htaken (passes i b hb htaken) _ _

end Moves

/-! ## Requests -/

/-- A sum that a request comes down to is tagged by the instrument's kind. -/
theorem suits_of_resolve {i : Instrument α} {choice : Aggregation α} {monotonic : Bool}
    (h : choice.resolve i = .ok (some (.sum monotonic))) :
    monotonic = i.identity.kind.isMonotonic := by
  cases choice with
  | suited =>
    have h : Aggregation.suitedTo i = .sum monotonic := Option.some.inj (Except.ok.inj h)
    unfold Aggregation.suitedTo at h
    cases hkind : i.identity.kind <;> rw [hkind] at h <;> cases h <;> rfl
  | drop => cases h
  | sum =>
    cases h
    rfl
  | lastValue => cases h
  | histogram bounds extremes =>
    simp only [Aggregation.resolve] at h
    split at h <;> cases h

/-- What is planned aggregates as the chosen aggregation comes down to. -/
theorem planStream_eq_some {e : Exporter α} {r : Nat} {scope : Scope} {i : Instrument α}
    {pr : Projection α} {plan : StreamPlan α}
    (h : (planStream e r scope i pr).2 = .ok (some plan)) :
    ∃ choice, (chooseAggregation e i.identity.kind pr).2 = .ok choice ∧
      choice.resolve i = .ok (some plan.aggregator) := by
  unfold planStream at h
  split at h
  · cases h
  · simp only at h
    -- An error of the choice or of its resolution would be the outcome.
    cases hchoice : (chooseAggregation e i.identity.kind pr).2 with
    | error error =>
      rw [hchoice] at h
      cases h
    | ok choice =>
      rw [hchoice] at h
      refine ⟨choice, rfl, ?_⟩
      have h : (choice.resolve i >>= fun aggregator => pure (aggregator.map _)) = _ := h
      cases hresolve : choice.resolve i with
      | error error =>
        rw [hresolve] at h
        cases h
      | ok aggregator =>
        rw [hresolve] at h
        obtain ⟨a, rfl, rfl⟩ := Option.map_eq_some_iff.mp (Except.ok.inj h)
        rfl

/-- What holds of every stream that is planned for one of some projections holds of all plans. -/
theorem forall_of_planStreams {scope : Scope} {i : Instrument α} {pairs : List (Projection α × Nat)}
    {plans : List (StreamPlan α)} {holds : StreamPlan α → Prop}
    (hplanned : ∀ pair ∈ pairs, ∀ (e : Exporter α) (r : Nat) (plan : StreamPlan α),
      (planStream e r scope i pair.1).2 = .ok (some plan) → holds plan)
    (h : (sys.planStreams scope i pairs).2 = .ok plans) : ∀ plan ∈ plans, holds plan := by
  induction pairs generalizing plans with
  | nil =>
    cases h
    simp
  | cons pair rest ih =>
    obtain ⟨hfirst, hrest⟩ := List.forall_mem_cons.mp hplanned
    obtain ⟨pr, r⟩ := pair
    unfold planStreams at h
    split at h
    · exact ih hrest h
    · rename_i reader _
      split at h
      · exact ih hrest h
      · simp only at h
        split at h
        · cases h
        · rename_i plan hplan
          cases hothers : (sys.planStreams scope i rest).2 with
          | error error =>
            rw [hothers] at h
            cases h
          | ok others =>
            rw [hothers] at h
            cases h
            -- The plans are that of the first reader, if any, and those of the rest.
            intro x hx
            rcases List.mem_append.mp hx with hx | hx
            · obtain rfl := Option.mem_toList.mp hx
              exact hfirst _ _ _ hplan
            · exact ih hrest hothers x hx

/-- What is planned for an instrument suits its kind. -/
theorem suits_of_planStreams {scope : Scope} {i : Instrument α} {pairs : List (Projection α × Nat)}
    {plans : List (StreamPlan α)} (h : (sys.planStreams scope i pairs).2 = .ok plans) :
    ∀ plan ∈ plans, plan.Suits i.identity.kind := by
  refine forall_of_planStreams (fun pair _ e r plan hplan monotonic hsum => ?_) h
  obtain ⟨choice, -, hresolve⟩ := planStream_eq_some hplan
  exact suits_of_resolve (hsum ▸ hresolve)

namespace Moves

theorem procure {current provider : Provider α} {p : Nat} (owner : sys.providers[p]? = some current)
    (number : provider.nextObserver = current.nextObserver) (scope : Scope) (i : Instrument α) :
    Moves test sys (sys.procure p provider scope i).2 := by
  rcases procure_cases sys p provider scope i with
    ⟨e, entries, -, heq⟩ | ⟨found, -, -, heq⟩ | ⟨entries, plans, -, hplan, heq⟩
  · rw [heq]
    exact write sys entries
  · rw [heq]
    exact (Sheds.acquire sys found .transient).moves
  · rw [heq]
    have hsuits : ∀ plan ∈ plans, plan.Suits i.identity.kind :=
      suits_of_planStreams (congrArg (·.2) hplan)
    exact (write sys entries).tail (.build owner number hsuits)

theorem create (sys : System α) (p : Nat) (scope : Scope) (i : Instrument α) (callbacks : Nat) :
    Moves test sys (sys.create p scope i callbacks).2 := by
  unfold System.create
  cases hp : sys.providers[p]? with
  | none => exact refl sys
  | some provider =>
    have hasked : Moves test sys (sys.modifyProvider p (·.withScope scope)) :=
      Upkeeps.moves (.withScope sys p scope)
    have howner : (sys.modifyProvider p (·.withScope scope)).providers[p]? =
        some (provider.withScope scope) := getElem?_modify_of_some _ hp
    have hnumber : provider.nextObserver = (provider.withScope scope).nextObserver := by
      unfold Provider.withScope
      split <;> rfl
    simp only
    split
    · exact hasked
    · have hprocure := hasked.trans (procure howner hnumber (provider.meterScope scope) i)
      split
      · rename_i heq
        rw [heq] at hprocure
        exact hprocure
      · rename_i found after heq
        rw [heq] at hprocure
        have hadopt := hprocure.trans (Upkeeps.moves (.adopt after found))
        -- With the handle made, what is left are the callbacks of an asynchronous instrument.
        split
        · exact hadopt.trans (Upkeeps.moves (.registerSingles ..))
        · exact hadopt

end Moves

/-! ## Commands and runs -/

/-- Whether a command's measurement, if it makes one and it is accepted, passes the test. -/
def Admits (test : Nat → α → Prop) (sys : System α) : Command α → Prop
  | .record handle value _ _ =>
    ∀ i b, sys.instrument? handle = some (i, b) → objection b.key value = none → test i value
  | _ => True

section

variable {σ : Type} (respond : Responder σ α) (known : σ)

/-- Whether every measurement that is accepted in a run passes the test. -/
def AdmitsAll {σ : Type} (test : Nat → α → Prop) (respond : Responder σ α) (known : σ) (sys : System α) :
    List (Command α) → Prop
  | [] => True
  | c :: rest =>
    sys.Admits test c ∧
      AdmitsAll test respond (sys.perform respond known c).2.1 (sys.perform respond known c).2.2 rest

/-- A test that everything passes admits every run. -/
theorem AdmitsAll.of_forall (h : ∀ i value, test i value) (sys : System α)
    (commands : List (Command α)) : sys.AdmitsAll test respond known commands := by
  induction commands generalizing sys known with
  | nil => trivial
  | cons c rest ih =>
    refine ⟨?_, ih _ _⟩
    cases c with
    | record handle value attributes draw => exact fun i _ _ _ => h i value
    | _ => trivial

theorem AdmitsAll.mono {test' : Nat → α → Prop} (hmono : ∀ i value, test i value → test' i value)
    {commands : List (Command α)} (h : sys.AdmitsAll test respond known commands) :
    sys.AdmitsAll test' respond known commands := by
  induction commands generalizing sys known with
  | nil => trivial
  | cons c rest ih =>
    refine ⟨?_, ih _ h.2⟩
    cases c with
    | record handle value attributes draw =>
      exact fun i b hb htaken => hmono i value (h.1 i b hb htaken)
    | _ => trivial

/-- Every command is made of moves. -/
theorem Moves.perform {c : Command α} (h : sys.Admits test c) :
    Moves test sys (sys.perform respond known c).2.2 := by
  cases c with
  | advance nanos => exact Upkeeps.moves (.single (.clock sys _))
  | rewind nanos => exact Upkeeps.moves (.single (.clock sys _))
  | registerView p view =>
    simp only [System.perform, System.registerView]
    cases view.check with
    | error e => exact refl sys
    | ok _ => exact modifyProvider _ _ fun _ => rfl
  | meter p scope => exact Upkeeps.moves (.withScope sys p scope)
  | create p scope i callbacks =>
    have hcreate : Moves test sys (sys.create p scope i callbacks).2 := create ..
    simp only [System.perform]
    rcases hresult : sys.create p scope i callbacks with ⟨_ | _ | _, _⟩ <;>
      simpa [hresult] using hcreate
  | clone handle =>
    have hclone : Moves test sys (sys.cloneHandle handle).2 := Upkeeps.moves (.cloneHandle ..)
    simp only [System.perform]
    rcases hresult : sys.cloneHandle handle with ⟨_ | _, _⟩ <;> simpa [hresult] using hclone
  | drop handle => exact (Upkeeps.moves (.dropHandle trivial sys handle)).trans (reclaim _)
  | record handle value attributes draw => exact record sys handle value attributes draw h
  | register handle =>
    have hregister : Moves test sys (sys.register handle).2 := Upkeeps.moves (.register ..)
    simp only [System.perform]
    rcases hresult : sys.register handle with ⟨_ | _, _⟩ <;> simpa [hresult] using hregister
  | registerBatch p scope handles used =>
    have hbatch : Moves test sys (sys.registerBatch p scope handles used).2 :=
      Upkeeps.moves (.registerBatch ..)
    simp only [System.perform]
    rcases hresult : sys.registerBatch p scope handles used with ⟨_ | _, _⟩ <;>
      simpa [hresult] using hbatch
  | detach callback => exact (Upkeeps.moves (.detach trivial sys callback)).trans (reclaim _)
  | collect r => exact collect respond known sys r
  | flushReader r => exact flushReader respond known sys r
  | shutdownReader r => exact (shutdownReader respond known sys r).trans (reclaim _)
  | flush p => exact flush respond known sys p
  | shutdown p => exact (shutdown respond known sys p).trans (reclaim _)
  | empty r => exact modifyReader sys r fun _ => ⟨.refl _, rfl⟩
  | dropProvider p => exact Upkeeps.moves (.dropProvider trivial sys p)
  | dropReader r => exact Upkeeps.moves (.dropReader trivial sys r)

/-- Every run is made of moves, by induction on its commands. -/
theorem Moves.run {commands : List (Command α)} (h : sys.AdmitsAll test respond known commands) :
    Moves test sys (sys.run respond known commands).2.2 := by
  induction commands generalizing sys known with
  | nil => exact refl sys
  | cons c rest ih => exact (Moves.perform respond known h.1).trans (ih _ h.2)

end

end System

end Metering
