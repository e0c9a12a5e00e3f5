import Metering.Proofs.Steps.Basic

/-!
# The Course of a Run

Streams have a part in two kinds of things: measurements that are entered in them, and passes that
collect them. The course of a run lists these in their order, whatever else happens in between, so
what became of a stream up to any of its collections can be told from the course up to there. For
this every command is a sequence of happenings, each of which is upkeep, the making or the end of
something, or one of the things that the course lists.
-/

namespace Metering

variable {α σ : Type}

/-- Something that streams have a part in. -/
inductive Occurrence (σ α : Type) where
  /-- A measurement is entered in streams, each with a draw of its own for its reservoir. -/
  | entered (streams : List (Nat × Nat)) (m : Measurement α) (draw : Nat → Nat)
  /-- The streams of a reader are collected. -/
  | collected (pass : Pass σ α)

/-- The pass that is made, if one is. -/
def Occurrence.pass? : Occurrence σ α → Option (Pass σ α)
  | entered _ _ _ => none
  | collected pass => some pass

theorem Occurrence.pass?_eq_some {o : Occurrence σ α} {pass : Pass σ α} :
    o.pass? = some pass ↔ o = .collected pass := by
  cases o <;> simp [pass?]

namespace System

variable [Quantity α]

/-- The measurement that a command enters in the streams of an instrument, if it is accepted. -/
def entriesOf (sys : System α) : Command α → List (Occurrence σ α)
  | .record handle value attributes draw =>
    match sys.instrument? handle with
    | none => []
    | some (_, b) =>
      if (objection b.key value).isSome then []
      else [.entered b.streams ⟨value, KeyMap.ofList attributes, sys.now⟩ draw]
  | _ => []

/-- What streams have a part in of what a command does. -/
def occurrencesOf (respond : Responder σ α) (known : σ) (sys : System α) (c : Command α) :
    List (Occurrence σ α) :=
  sys.entriesOf c ++ (sys.passesOf respond known c).map .collected

/-- The course of a run. -/
def occurrences (respond : Responder σ α) (known : σ) (sys : System α) :
    List (Command α) → List (Occurrence σ α)
  | [] => []
  | c :: rest =>
    sys.occurrencesOf respond known c ++
      occurrences respond (sys.perform respond known c).2.1 (sys.perform respond known c).2.2 rest

/-- The passes of a course are those of the run. -/
theorem filterMap_pass?_occurrences (respond : Responder σ α) (known : σ) (sys : System α)
    (commands : List (Command α)) :
    (sys.occurrences respond known commands).filterMap (·.pass?) =
      sys.passes respond known commands := by
  have hentries (sys : System α) (c : Command α) :
      (sys.entriesOf c : List (Occurrence σ α)).filterMap (·.pass?) = [] := by
    unfold entriesOf
    split
    · split
      · rfl
      · split <;> rfl
    · rfl
  have hpasses (passes : List (Pass σ α)) :
      (passes.map Occurrence.collected).filterMap (·.pass?) = passes := by
    rw [List.filterMap_map]
    exact List.filterMap_some
  induction commands generalizing sys known with
  | nil => rfl
  | cons c rest ih =>
    rw [occurrences, occurrencesOf, passes, List.filterMap_append, List.filterMap_append, hentries,
      hpasses, ih, List.nil_append]

/-- What exporters are handed in a run is what the passes of its course deliver. -/
theorem deliveries_course (respond : Responder σ α) (known : σ) (readers : List (Exporter α × Nat))
    (providers : List (Resource × List Nat)) (commands : List (Command α)) :
    deliveries ((launched readers providers).run respond known commands).2.2.journal =
      (((launched readers providers).occurrences respond known commands).filterMap (·.pass?)).map
        (·.delivery respond) := by
  rw [filterMap_pass?_occurrences, deliveries_run]

/-! ## Happenings -/

variable {respond : Responder σ α} {sys sys' sys'' : System α} {past later : List (Occurrence σ α)}

/-- A change of a system, with what the course lists of it. -/
inductive Happening (respond : Responder σ α) :
    System α → Option (Occurrence σ α) → System α → Prop
  | upkeep {sys sys' : System α} (h : Upkeep .all sys sys') : Happening respond sys none sys'
  /-- A valid view is added to those of a provider. -/
  | view (sys : System α) (p : Nat) {view : View α} (valid : view.check = .ok ()) :
      Happening respond sys none
        (sys.modifyProvider p fun provider => { provider with views := provider.views ++ [view] })
  /-- A valid request leads to plans, and an instrument is built from them. -/
  | build (sys : System α) {p : Nat} {current provider : Provider α} {scope : Scope}
      {i : Instrument α} {entries : List (JournalEntry α)} {plans : List (StreamPlan α)}
      (owner : sys.providers[p]? = some current) (same : provider.holdings = current.holdings)
      (views : provider.views = current.views)
      (unknown : (provider.cache.find? ⟨scope, i.identity⟩).filter sys.isAlive = none)
      (valid : i.check = .ok ()) (planned : sys.plan provider scope i = (entries, .ok plans)) :
      Happening respond sys none
        ((sys.write entries).withNewborn p provider ⟨scope, i.identity⟩ plans)
  | close (sys : System α) (r : Nat) :
      Happening respond sys none (sys.modifyReader r fun reader => { reader with closed := true })
  | finish (sys : System α) (r : Nat) :
      Happening respond sys none ((sys.write [.call r .shutdown]).modifyReader r fun reader =>
        { reader with streams := Table.empty })
  | quit (sys : System α) (p : Nat) :
      Happening respond sys none
        (sys.modifyProvider p fun provider => { provider with closed := true })
  | record (sys : System α) {i : Nat} {b : BuiltInstrument} {value : α}
      (built : sys.instruments[i]? = some b) (taken : objection b.key value = none)
      (attributes : Attributes) (draw : Nat → Nat) :
      Happening respond sys (some (.entered b.streams ⟨value, attributes, sys.now⟩ draw))
        (sys.writeTo value attributes draw b.streams)
  | pass (sys : System α) (known : σ) {r : Nat} {reader : Reader α}
      (found : sys.readers[r]? = some reader) :
      Happening respond sys (some (.collected ⟨r, known, sys⟩))
        (sys.exportPass r reader (sys.answers respond known reader)).2

/-- Happenings one after the other, with what the course lists of them. -/
inductive Course (respond : Responder σ α) : System α → List (Occurrence σ α) → System α → Prop
  | refl (sys : System α) : Course respond sys [] sys
  | tail {sys sys' sys'' : System α} {past : List (Occurrence σ α)} {o : Option (Occurrence σ α)}
      (h : Course respond sys past sys') (happening : Happening respond sys' o sys'') :
      Course respond sys (past ++ o.toList) sys''

/-- Every happening is made of steps. -/
theorem Happening.steps {o : Option (Occurrence σ α)} (h : Happening respond sys o sys') :
    Steps .all sys sys' := by
  cases h with
  | upkeep h => exact .single h.step
  | view p => exact .single (.provider sys p fun _ => rfl)
  | build owner same views unknown valid planned =>
    rename_i p current provider scope i entries plans
    obtain rfl : (sys.plan provider scope i).1 = entries := congrArg (·.1) planned
    have hsuits : ∀ plan ∈ plans, plan.Suits i.identity.kind :=
      suits_of_planStreams (congrArg (·.2) planned)
    exact (Relation.ReflTransGen.single (.note sys mayNote_planStreams)).tail
      (.build _ owner same unknown hsuits)
  | close r => exact .single (.close sys r trivial)
  | finish r => exact .single (.finish sys r trivial)
  | quit p => exact .single (.quit sys p trivial)
  | record built taken attributes draw => exact .single (.record sys built taken attributes draw)
  | pass known found => exact .single (.pass sys found (.inr trivial) _)

namespace Course

theorem single {o : Option (Occurrence σ α)} (h : Happening respond sys o sys') :
    Course respond sys o.toList sys' := .tail (.refl sys) h

theorem trans (h : Course respond sys past sys') (k : Course respond sys' later sys'') :
    Course respond sys (past ++ later) sys'' := by
  induction k with
  | refl => rwa [List.append_nil]
  | tail _ happening ih =>
    rw [← List.append_assoc]
    exact ih.tail happening

/-- What is not listed may happen afterwards. -/
theorem andQuiet (h : Course respond sys past sys') (k : Course respond sys' [] sys'') :
    Course respond sys past sys'' := by
  simpa using h.trans k

theorem steps (h : Course respond sys past sys') : Steps .all sys sys' := by
  induction h with
  | refl => exact Steps.refl _
  | tail _ happening ih => exact ih.trans happening.steps

/-- What happens up to a pass leads to the system that it collects. -/
theorem before_pass (h : Course respond sys past sys') {before after : List (Occurrence σ α)}
    {pass : Pass σ α} (hpast : past = before ++ .collected pass :: after) :
    Course respond sys before pass.system := by
  -- By induction on the course, from its end: the pass is the last thing in it, or before that.
  induction h generalizing after with
  | refl => simp at hpast
  | tail hbefore happening ih =>
    rename_i sys' sys'' past o
    cases o with
    | none => exact ih ((List.append_nil past).symm.trans hpast)
    | some last =>
      rcases List.eq_nil_or_concat after with rfl | ⟨rest, x, rfl⟩
      · -- The pass is what happened last.
        obtain ⟨rfl, hlast⟩ := List.append_inj' hpast rfl
        obtain rfl : last = .collected pass := List.singleton_inj.mp hlast
        cases happening with
        | pass known found => exact hbefore
      · rw [List.concat_eq_append, ← List.cons_append, ← List.append_assoc] at hpast
        exact ih (List.append_inj' hpast rfl).1

end Course

theorem Upkeeps.course (h : Upkeeps .all sys sys') : Course respond sys [] sys' := by
  induction h with
  | refl => exact .refl sys
  | tail _ hupkeep ih => exact ih.tail (.upkeep hupkeep)

namespace Course

/-! ## Passes -/

theorem pass (respond : Responder σ α) (known : σ) (sys : System α) {r : Nat} {reader : Reader α}
    (hr : sys.readers[r]? = some reader) :
    Course respond sys [.collected ⟨r, known, sys⟩] (sys.pass respond known r).2.2 := by
  have hsame : (sys.pass respond known r).2.2 =
      (sys.exportPass r reader (sys.answers respond known reader)).2 := by
    simp only [System.pass, hr, answers]
  exact hsame ▸ .single (.pass sys known hr)

theorem collect (respond : Responder σ α) (known : σ) (sys : System α) (r : Nat) :
    Course respond sys ((passOf known sys r).map .collected) (sys.collect respond known r).2.2 := by
  unfold System.collect passOf
  split
  · exact .refl sys
  · rename_i hopen
    obtain ⟨reader, hr, -⟩ := isClosed_eq_false_iff.mp (Bool.not_eq_true _ ▸ hopen)
    exact pass respond known sys hr

theorem flushReader (respond : Responder σ α) (known : σ) (sys : System α) (r : Nat) :
    Course respond sys ((passOf known sys r).map .collected)
      (sys.flushReader respond known r).2.2 := by
  unfold System.flushReader passOf
  split
  · exact .refl sys
  · rename_i hclosed
    have hopen : sys.isClosed r = false := Bool.not_eq_true _ ▸ hclosed
    obtain ⟨reader, hr, -⟩ := isClosed_eq_false_iff.mp hopen
    -- The reader is still open after the pass, so its exporter may be told to flush.
    refine (pass respond known sys hr).tail (.upkeep (.note _ fun entry hentry => ?_))
    obtain rfl := List.mem_singleton.mp hentry
    exact ⟨(Steps.isClosed_pass respond known sys r r).trans hopen, .inr rfl⟩

theorem shutdownReader (respond : Responder σ α) (known : σ) (sys : System α) (r : Nat) :
    Course respond sys ((lastPassOf known sys r).map .collected)
      (sys.shutdownReader respond known r).2.2 := by
  unfold System.shutdownReader lastPassOf
  split
  · exact .refl sys
  · rename_i hopen
    obtain ⟨reader, hr, -⟩ := isClosed_eq_false_iff.mp (Bool.not_eq_true _ ▸ hopen)
    let closing := sys.modifyReader r fun reader => { reader with closed := true }
    have hclosing : Course respond sys [] closing := .single (.close sys r)
    exact (hclosing.trans (pass respond known closing (getElem?_modify_of_some _ hr))).tail
      (.finish _ r)

theorem eachReader {passOf : σ → System α → Nat → List (Pass σ α)}
    {act : σ → System α → Nat → Bool × σ × System α}
    (hact : ∀ known sys r,
      Course respond sys ((passOf known sys r).map .collected) (act known sys r).2.2)
    (known : σ) (sys : System α) (readers : List Nat) :
    Course respond sys ((eachPassOf passOf act known sys readers).map .collected)
      (System.eachReader act known sys readers).2.2 := by
  induction readers generalizing sys known with
  | nil => exact .refl sys
  | cons r rest ih =>
    rw [eachPassOf, List.map_append]
    exact (hact known sys r).trans (ih _ _)

/-! ## Measurements -/

theorem record (respond : Responder σ α) (sys : System α) (handle : Nat) (value : α)
    (attributes : List Attribute) (draw : Nat → Nat) :
    Course respond sys (sys.entriesOf (.record handle value attributes draw))
      (sys.record handle value attributes draw) := by
  simp only [System.record, entriesOf]
  cases hb : sys.instrument? handle with
  | none => exact .refl sys
  | some found =>
    -- The handle leads to an instrument that was built.
    obtain ⟨i, b⟩ := found
    obtain ⟨j, -, hj⟩ := Option.bind_eq_some_iff.mp hb
    obtain ⟨b', hb', heq⟩ := Option.bind_eq_some_iff.mp hj
    obtain ⟨rfl, rfl⟩ := Prod.mk.inj (Option.some.inj heq)
    simp only
    cases htaken : objection b'.key value with
    | some e => exact (Upkeeps.note_event sys e).course
    | none => exact .single (.record sys hb' htaken _ draw)

/-! ## Requests -/

theorem procure {current provider : Provider α} {p : Nat} (owner : sys.providers[p]? = some current)
    (same : provider.holdings = current.holdings) (views : provider.views = current.views)
    {i : Instrument α} (valid : i.check = .ok ()) (scope : Scope) :
    Course respond sys [] (sys.procure p provider scope i).2 := by
  -- A request is refused after questions, or granted with what lives, or granted after questions.
  rcases procure_cases sys p provider scope i with
    ⟨e, entries, hplan, heq⟩ | ⟨found, -, -, heq⟩ | ⟨entries, plans, hunknown, hplan, heq⟩
  · rw [heq]
    obtain rfl : (sys.plan provider scope i).1 = entries := congrArg (·.1) hplan
    exact .single (.upkeep (.note sys mayNote_planStreams))
  · rw [heq]
    exact .single (.upkeep (.acquire sys found .transient))
  · rw [heq]
    exact .single (.build sys owner same views hunknown valid hplan)

theorem create (sys : System α) (p : Nat) (scope : Scope) (i : Instrument α) (callbacks : Nat) :
    Course respond sys [] (sys.create p scope i callbacks).2 := by
  unfold System.create
  cases hp : sys.providers[p]? with
  | none => exact .refl sys
  | some provider =>
    have hasked : Course respond sys [] (sys.modifyProvider p (·.withScope scope)) :=
      (Upkeeps.withScope sys p scope).course
    have howner : (sys.modifyProvider p (·.withScope scope)).providers[p]? =
        some (provider.withScope scope) := getElem?_modify_of_some _ hp
    simp only
    cases hvalid : i.check with
    | error e => exact hasked
    | ok _ =>
      have hprocure := hasked.trans (procure howner (provider.holdings_withScope scope).symm
        (provider.views_withScope scope).symm hvalid (provider.meterScope scope))
      simp only
      split
      · rename_i heq
        rw [heq] at hprocure
        exact hprocure
      · rename_i found after heq
        rw [heq] at hprocure
        have hadopt := hprocure.trans (Upkeeps.adopt after found).course
        split
        · exact hadopt.trans (Upkeeps.registerSingles ..).course
        · exact hadopt

/-! ## Commands and runs -/

/-- Without entries and passes, a command has an empty course. -/
theorem of_quiet {known : σ} {c : Command α} (h : Course respond sys [] sys')
    (hentries : (sys.entriesOf c : List (Occurrence σ α)) = [])
    (hpasses : sys.passesOf respond known c = []) :
    Course respond sys (sys.occurrencesOf respond known c) sys' := by
  rw [occurrencesOf, hentries, hpasses]
  exact h

theorem perform (respond : Responder σ α) (known : σ) (sys : System α) (c : Command α) :
    Course respond sys (sys.occurrencesOf respond known c) (sys.perform respond known c).2.2 := by
  have hreclaim (sys : System α) : Course respond sys [] sys.reclaim :=
    (Upkeeps.reclaim trivial sys).course
  cases c with
  | advance nanos => exact .single (.upkeep (.clock sys _))
  | rewind nanos => exact .single (.upkeep (.clock sys _))
  | registerView p view =>
    refine of_quiet ?_ rfl rfl
    simp only [System.perform, System.registerView]
    cases hvalid : view.check with
    | error e => exact .refl sys
    | ok _ => exact .single (.view sys p hvalid)
  | meter p scope => exact (Upkeeps.withScope sys p scope).course
  | create p scope i callbacks =>
    refine of_quiet ?_ rfl rfl
    have hcreate : Course respond sys [] (sys.create p scope i callbacks).2 := create ..
    simp only [System.perform]
    rcases hresult : sys.create p scope i callbacks with ⟨_ | _ | _, _⟩ <;>
      simpa [hresult] using hcreate
  | clone handle =>
    refine of_quiet ?_ rfl rfl
    have hclone : Upkeeps .all sys (sys.cloneHandle handle).2 := .cloneHandle ..
    simp only [System.perform]
    rcases hresult : sys.cloneHandle handle with ⟨_ | _, _⟩ <;>
      simpa [hresult] using hclone.course
  | drop handle =>
    exact (Upkeeps.dropHandle trivial sys handle).course.andQuiet (hreclaim _)
  | record handle value attributes draw =>
    exact (record respond sys handle value attributes draw).trans (.refl _)
  | register handle =>
    refine of_quiet ?_ rfl rfl
    have hregister : Upkeeps .all sys (sys.register handle).2 := .register ..
    simp only [System.perform]
    rcases hresult : sys.register handle with ⟨_ | _, _⟩ <;>
      simpa [hresult] using hregister.course
  | registerBatch p scope handles used =>
    refine of_quiet ?_ rfl rfl
    have hbatch : Upkeeps .all sys (sys.registerBatch p scope handles used).2 := .registerBatch ..
    simp only [System.perform]
    rcases hresult : sys.registerBatch p scope handles used with ⟨_ | _, _⟩ <;>
      simpa [hresult] using hbatch.course
  | detach callback => exact (Upkeeps.detach trivial sys callback).course.andQuiet (hreclaim _)
  | collect r => exact collect respond known sys r
  | flushReader r => exact flushReader respond known sys r
  | shutdownReader r => exact (shutdownReader respond known sys r).andQuiet (hreclaim _)
  | flush p =>
    simp only [occurrencesOf, entriesOf, passesOf, System.perform, System.flush, List.nil_append]
    cases hp : sys.providers[p]? with
    | none => exact .refl sys
    | some provider =>
      simp only
      split
      · exact .refl sys
      · exact eachReader (flushReader respond) known sys _
  | shutdown p =>
    simp only [occurrencesOf, entriesOf, passesOf, System.perform, System.shutdown, List.nil_append]
    cases hp : sys.providers[p]? with
    | none => exact hreclaim sys
    | some provider =>
      simp only
      split
      · exact hreclaim sys
      · -- The provider is closed before the first of its readers is collected.
        have hclosing : Course respond sys [] _ := .single (.quit sys p)
        exact (hclosing.trans (eachReader (shutdownReader respond) known _ _)).andQuiet (hreclaim _)
  | empty r =>
    refine .single (.upkeep (.reader sys r (f := fun reader =>
      { reader with exporter := reader.exporter.emptied }) fun _ => rfl))
  | dropProvider p => exact (Upkeeps.dropProvider trivial sys p).course
  | dropReader r => exact (Upkeeps.dropReader trivial sys r).course

/-- Every run takes its course, by induction on its commands. -/
theorem run (respond : Responder σ α) (known : σ) (sys : System α) (commands : List (Command α)) :
    Course respond sys (sys.occurrences respond known commands)
      (sys.run respond known commands).2.2 := by
  induction commands generalizing sys known with
  | nil => exact .refl sys
  | cons c rest ih => exact (perform respond known sys c).trans (ih _ _)

end Course

end System

end Metering
