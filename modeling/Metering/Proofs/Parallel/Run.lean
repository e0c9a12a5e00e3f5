import Metering.Proofs.Parallel.Passes
import Metering.Proofs.Passes.Outcomes

/-!
# Readers Do Not Interfere

Two runs that differ in collections of one reader only are followed side by side. For any other
reader the systems agree throughout, if the callbacks that its passes call perform alike: so its
passes are as many, and each delivers the same, with the same result.
-/

namespace Metering

variable {α σ σ' : Type}

/-! ## Commands side by side -/

/-- The same command, but for the draws of a measurement. -/
inductive Command.Like : Command α → Command α → Prop
  | same (c : Command α) : Like c c
  | record (handle : Nat) (value : α) (attributes : List Attribute) (draw draw' : Nat → Nat) :
    Like (.record handle value attributes draw) (.record handle value attributes draw')

/-- Whether the reply to a command has nothing to do with readers other than `a`. What a provider
replies is up to all of its readers. -/
def Command.concerns (a : Nat) : Command α → Bool
  | .collect r | .flushReader r | .shutdownReader r => r == a
  | .flush _ | .shutdown _ => false
  | _ => true

/-- The replies to commands that have nothing to do with other readers. -/
def heard (a : Nat) (commands : List (Command α)) (replies : List (Reply α)) : List (Reply α) :=
  ((commands.zip replies).filter (·.1.concerns a)).map (·.2)

/-- The second list of commands is the first one without some collections of a reader `b`, and with
draws of its own. -/
inductive Thinned (b : Nat) : List (Command α) → List (Command α) → Prop
  | nil : Thinned b [] []
  | keep {c c' : Command α} {rest rest' : List (Command α)} :
    c.Like c' → Thinned b rest rest' → Thinned b (c :: rest) (c' :: rest')
  | skip {c : Command α} {rest rest' : List (Command α)} :
    c = .collect b ∨ c = .flushReader b → Thinned b rest rest' → Thinned b (c :: rest) rest'

theorem Command.Like.concerns {c c' : Command α} (h : c.Like c') (a : Nat) :
    c'.concerns a = c.concerns a := by
  cases h <;> rfl

theorem heard_cons (a : Nat) (c : Command α) (commands : List (Command α)) (reply : Reply α)
    (replies : List (Reply α)) :
    heard a (c :: commands) (reply :: replies) =
      (if c.concerns a then [reply] else []) ++ heard a commands replies := by
  simp only [heard, List.zip_cons_cons, List.filter_cons]
  split <;> rfl

namespace System

variable [Quantity α] {sys sys' : System α} {a b : Nat}
variable (respond : Responder σ α) (respond' : Responder σ' α) (known : σ) (known' : σ')

/-- Whether the systems agree after a command, and so do the replies if the command concerns the
reader. -/
def Answers (a : Nat) (c : Command α) (result : Reply α × σ × System α)
    (result' : Reply α × σ' × System α) : Prop :=
  (c.concerns a = true → result'.1 = result.1) ∧ Agree a result.2.2 result'.2.2

omit [Quantity α] in
/-- What is done to a reader, with a verdict. -/
theorem Results.answers {r : Nat} {c : Command α} (hc : c.concerns a = (r == a))
    {result : Bool × σ × System α} {result' : Bool × σ' × System α} (h : Results a r result result') :
    Answers a c (.verdict result.1, result.2) (.verdict result'.1, result'.2) :=
  ⟨fun hconcerns => congrArg Reply.verdict (h.1 (beq_iff_eq.mp (hc ▸ hconcerns))), h.2⟩

theorem Agree.perform_flush (h : Agree a sys sys') (p : Nat) :
    Alongside a respond respond' (sys.passesOf respond known (.flush p))
      (sys'.passesOf respond' known' (.flush p))
      (Agree a (sys.flush respond known p).2.2 (sys'.flush respond' known' p).2.2) := by
  simp only [passesOf, System.flush, h.providers]
  cases sys.providers[p]? with
  | none => exact .nil h
  | some provider =>
    simp only
    split
    · exact .nil h
    · exact h.eachReader respond respond' known known'
        (fun known known' r hagree => hagree.flushReader respond respond' known known' r) _

theorem Agree.perform_shutdown (h : Agree a sys sys') (p : Nat) :
    Alongside a respond respond' (sys.passesOf respond known (.shutdown p))
      (sys'.passesOf respond' known' (.shutdown p))
      (Agree a (sys.shutdown respond known p).2.2 (sys'.shutdown respond' known' p).2.2) := by
  simp only [passesOf, System.shutdown, h.providers]
  cases sys.providers[p]? with
  | none => exact .nil h
  | some provider =>
    simp only
    split
    · exact .nil h
    · exact (h.modifyProvider p _).eachReader respond respond' known known'
        (fun known known' r hagree => hagree.shutdownReader respond respond' known known' r) _

/-- A command that makes something, and replies what it made. -/
theorem Answers.of_made {β : Type} {c : Command α} (make : System α → β × System α)
    (reply : β → Reply α)
    (hperform : ∀ {τ : Type} (respond : Responder τ α) known (sys : System α),
      sys.perform respond known c = (reply (make sys).1, known, (make sys).2))
    (h : (make sys').1 = (make sys).1 ∧ Agree a (make sys).2 (make sys').2) :
    Answers a c (sys.perform respond known c) (sys'.perform respond' known' c) := by
  rw [hperform, hperform]
  exact ⟨fun _ => congrArg reply h.1, h.2⟩

/-- A command that is kept is answered alike, by cases of the command. -/
theorem Agree.perform (h : Agree a sys sys') (c : Command α) :
    Alongside a respond respond' (sys.passesOf respond known c) (sys'.passesOf respond' known' c)
      (Answers a c (sys.perform respond known c) (sys'.perform respond' known' c)) := by
  cases c with
  | advance _ | rewind _ =>
    refine .nil ⟨fun _ => rfl, ?_⟩
    simp only [System.perform, h.now]
    exact h.withNow _
  | registerView p view =>
    refine .nil ?_
    simp only [System.perform, System.registerView]
    cases view.check with
    | error e => exact ⟨fun _ => rfl, h⟩
    | ok _ => exact ⟨fun _ => rfl, h.modifyProvider p _⟩
  | meter p scope => exact .nil ⟨fun _ => rfl, h.modifyProvider p _⟩
  | create p scope i callbacks =>
    refine .nil (.of_made respond respond' known known' (·.create p scope i callbacks)
      (Option.elim · .missing (Except.casesOn · .refused .created)) (fun respond known sys => ?_)
      (h.create p scope i callbacks))
    simp only [System.perform]
    rcases sys.create p scope i callbacks with ⟨_ | _ | _, _⟩ <;> rfl
  | clone handle =>
    refine .nil (.of_made respond respond' known known' (·.cloneHandle handle)
      (Option.elim · .missing .handle) (fun respond known sys => ?_)
      (h.cloneHandle handle))
    simp only [System.perform]
    rcases sys.cloneHandle handle with ⟨_ | _, _⟩ <;> rfl
  | drop handle => exact .nil ⟨fun _ => rfl, (h.dropHandle handle).reclaim⟩
  | record handle value attributes draw =>
    exact .nil ⟨fun _ => rfl, h.record handle value attributes draw draw⟩
  | register handle =>
    refine .nil (.of_made respond respond' known known' (·.register handle)
      (Option.elim · .missing .callback) (fun respond known sys => ?_)
      (h.register handle))
    simp only [System.perform]
    rcases sys.register handle with ⟨_ | _, _⟩ <;> rfl
  | registerBatch p scope handles used =>
    refine .nil (.of_made respond respond' known known' (·.registerBatch p scope handles used)
      (Option.elim · .missing .callback) (fun respond known sys => ?_)
      (h.registerBatch p scope handles used))
    simp only [System.perform]
    rcases sys.registerBatch p scope handles used with ⟨_ | _, _⟩ <;> rfl
  | detach callback => exact .nil ⟨fun _ => rfl, (h.detach callback).reclaim⟩
  | collect r =>
    exact (h.collect respond respond' known known' r).imp fun hresults => hresults.answers rfl
  | flushReader r =>
    exact (h.flushReader respond respond' known known' r).imp fun hresults => hresults.answers rfl
  | shutdownReader r =>
    refine (h.shutdownReader respond respond' known known' r).imp fun hresults => ?_
    have hverdict : Answers a (.shutdownReader r) _ _ := hresults.answers rfl
    exact ⟨hverdict.1, hverdict.2.reclaim⟩
  | flush p =>
    exact (h.perform_flush respond respond' known known' p).imp fun hagree =>
      ⟨fun hconcerns => absurd hconcerns Bool.false_ne_true, hagree⟩
  | shutdown p =>
    exact (h.perform_shutdown respond respond' known known' p).imp fun hagree =>
      ⟨fun hconcerns => absurd hconcerns Bool.false_ne_true, hagree.reclaim⟩
  | empty r =>
    refine .nil ⟨fun _ => rfl, h.modifyReader r fun reader reader' hseen => ?_⟩
    -- What an exporter keeps counts for no reader.
    have hemptied (own : Bool) (reader : Reader α) :
        Reader.seen own { reader with exporter := reader.exporter.emptied } = reader.seen own := by
      cases own <;> rfl
    rw [hemptied, hemptied, hseen]
  | dropProvider p => exact .nil ⟨fun _ => rfl, h.dropProvider p⟩
  | dropReader r => exact .nil ⟨fun _ => rfl, h.dropReader r⟩

theorem Agree.perform_like (h : Agree a sys sys') {c c' : Command α} (hlike : c.Like c') :
    Alongside a respond respond' (sys.passesOf respond known c) (sys'.passesOf respond' known' c')
      (Answers a c (sys.perform respond known c) (sys'.perform respond' known' c')) := by
  cases hlike with
  | same => exact h.perform respond respond' known known' c
  | record handle value attributes draw draw' =>
    exact .nil ⟨fun _ => rfl, h.record handle value attributes draw draw'⟩

/-- A collection of another reader is a pass that does not count, to a system that agrees. -/
theorem agree_perform_other (sys : System α) (hab : a ≠ b) {c : Command α}
    (hc : c = .collect b ∨ c = .flushReader b) :
    c.concerns a = false ∧ (∀ pass ∈ sys.passesOf respond known c, pass.reader ≠ a) ∧
      Agree a sys (sys.perform respond known c).2.2 := by
  have hother (pass : Pass σ α) (hpass : pass ∈ passOf known sys b) : pass.reader ≠ a := by
    unfold passOf at hpass
    split at hpass
    · cases hpass
    · obtain rfl := List.mem_singleton.mp hpass
      exact hab.symm
  have hpass : Agree a sys (sys.pass respond known b).2.2 := agree_pass_other sys known hab.symm
  rcases hc with rfl | rfl
  · refine ⟨beq_eq_false_iff_ne.mpr hab.symm, hother, ?_⟩
    simp only [System.perform, System.collect]
    split
    · exact .refl sys
    · exact hpass
  · refine ⟨beq_eq_false_iff_ne.mpr hab.symm, hother, ?_⟩
    simp only [System.perform, System.flushReader]
    split
    · exact .refl sys
    · exact hpass.trans (Agree.write_unseen _ _)

/-! ## Runs side by side -/

/-- By induction on how the commands were thinned: what is kept is answered alike, and what is left
out leads to a system that agrees. -/
theorem Agree.run (hab : a ≠ b) {commands commands' : List (Command α)}
    (hthinned : Thinned b commands commands') (h : Agree a sys sys') :
    Alongside a respond respond' (sys.passes respond known commands)
      (sys'.passes respond' known' commands')
      (heard a commands' (sys'.run respond' known' commands').1 =
          heard a commands (sys.run respond known commands).1 ∧
        Agree a (sys.run respond known commands).2.2 (sys'.run respond' known' commands').2.2) := by
  induction hthinned generalizing sys sys' known known' with
  | nil => exact .nil ⟨rfl, h⟩
  | keep hlike _ ih =>
    refine (h.perform_like respond respond' known known' hlike).append fun hanswers => ?_
    refine (ih _ _ hanswers.2).imp fun hrest => ⟨?_, hrest.2⟩
    simp only [System.run, heard_cons, hrest.1, hlike.concerns a]
    split
    · rename_i hconcerns
      rw [hanswers.1 hconcerns]
    · rfl
  | @skip c rest rest' hc _ ih =>
    obtain ⟨hconcerns, hpasses, hagree⟩ := agree_perform_other respond known sys hab hc
    have hskipped : Alongside a respond respond' (sys.passesOf respond known c) []
        (Agree a (sys.perform respond known c).2.2 sys') :=
      .of_other hpasses nofun (hagree.symm.trans h)
    refine (hskipped.append fun hagree => ih _ known' hagree).imp fun hrest => ⟨?_, hrest.2⟩
    simp [System.run, heard_cons, hconcerns, hrest.1]

/-- What is delivered to the exporter of one reader is what its passes deliver. -/
theorem deliveries_passesOn (a : Nat) (readers : List (Exporter α × Nat))
    (providers : List (Resource × List Nat)) (commands : List (Command α)) :
    (deliveries ((launched readers providers).run respond known commands).2.2.journal).filter
        (·.1 == a) =
      (passesOn a ((launched readers providers).passes respond known commands)).map
        (·.delivery respond) := by
  have hall : (launched readers providers).AdmitsAll (fun _ _ => True) respond known commands :=
    .of_forall respond known (fun _ _ => trivial) ..
  rw [(traces_run respond known hall).deliveries, passesOn]
  exact List.filter_map

/-- Passes that are the same, and with no exemplars up to chance, deliver the same. -/
theorem map_delivery {xs : List (Pass σ α)} {xs' : List (Pass σ' α)}
    (h : List.Forall₂ (SamePass respond respond') xs xs')
    (hnone : ∀ pass ∈ xs, ∀ n f, pass.overfull n f = false) :
    xs'.map (·.delivery respond') = xs.map (·.delivery respond) := by
  induction h with
  | nil => rfl
  | @cons pass pass' _ _ hsame _ ih =>
    have hbatch := hsame.batch (hnone pass (List.mem_cons_self ..))
    rw [List.map_cons, List.map_cons, Pass.delivery, Pass.delivery, hbatch, hsame.reader,
      ih fun pass hpass => hnone pass (List.mem_cons_of_mem _ hpass)]

/-- What a reader gets of two runs of one system is the same. -/
structure Undisturbed (a : Nat) (respond : Responder σ α) (respond' : Responder σ' α) (known : σ)
    (known' : σ') (sys : System α) (commands commands' : List (Command α)) : Prop where
  /-- The passes of the reader are as many, and the same one by one. -/
  passes : List.Forall₂ (SamePass respond respond') (passesOn a (sys.passes respond known commands))
    (passesOn a (sys.passes respond' known' commands'))
  /-- What its exporter is handed are the batches of its passes, -/
  exported : (deliveries (sys.run respond known commands).2.2.journal).filter (·.1 == a) =
    (passesOn a (sys.passes respond known commands)).map (·.delivery respond)
  exported' : (deliveries (sys.run respond' known' commands').2.2.journal).filter (·.1 == a) =
    (passesOn a (sys.passes respond' known' commands')).map (·.delivery respond')
  /-- and these are the same, unless exemplars are up to chance. -/
  batches : (∀ pass ∈ passesOn a (sys.passes respond known commands), ∀ n f,
      pass.overfull n f = false) →
    (deliveries (sys.run respond' known' commands').2.2.journal).filter (·.1 == a) =
      (deliveries (sys.run respond known commands).2.2.journal).filter (·.1 == a)
  /-- Every command that does not have to do with other readers gets the same reply. -/
  replies : heard a commands' (sys.run respond' known' commands').1 =
    heard a commands (sys.run respond known commands).1

/-- Collections of a reader are nothing to another one: where some of them are left out, and
callbacks do the same in the passes of the other one, it gets the same. -/
theorem noninterference_run (readers : List (Exporter α × Nat))
    (providers : List (Resource × List Nat)) {commands commands' : List (Command α)}
    (hthinned : Thinned b commands commands') (hab : a ≠ b)
    (outcomes : Nat → CallbackRef → Performance α)
    (hanswered : AnsweredOn a respond outcomes
      ((launched readers providers).passes respond known commands))
    (hanswered' : AnsweredOn a respond' outcomes
      ((launched readers providers).passes respond' known' commands')) :
    Undisturbed a respond respond' known known' (launched readers providers) commands commands' := by
  let sys : System α := launched readers providers
  obtain ⟨hpasses, hheard, -⟩ := (Agree.refl sys).run respond respond' known known' hab hthinned
    outcomes hanswered hanswered'
  have hexported := deliveries_passesOn respond known a readers providers commands
  have hexported' := deliveries_passesOn respond' known' a readers providers commands'
  refine ⟨hpasses, hexported, hexported', fun hnone => ?_, hheard⟩
  rw [hexported, hexported']
  exact map_delivery respond respond' hpasses hnone

omit [Quantity α] in
/-- Callbacks that perform in one way do so in every pass. -/
theorem answeredOn_noting (outcome : CallbackRef → Performance α)
    (passes : List (Pass (List CallbackRef) α)) :
    AnsweredOn a (noting outcome) (fun _ => outcome) passes := by
  intro k pass _ reader _ group hgroup answer hanswer
  rw [answers, callProviders_noting] at hgroup
  obtain ⟨calls, -, rfl⟩ := List.mem_map.mp hgroup
  obtain ⟨c, -, rfl⟩ := List.mem_map.mp hanswer
  rfl

/-- A counter that keeps one exemplar, and an instrument that a callback observes, are collected by
readers of both temporalities. Where the second reader is collected less often, the first one exports
what it does anyway; the draws are others, too. -/
theorem noninterference_run_temporalities :
    let readers : List (Exporter Int × Nat) := [(.memory .delta, 1000), (.memory .cumulative, 1000)]
    let providers : List (Resource × List Nat) := [(KeyMap.empty, [0, 1])]
    let instrument (kind : Kind) (name : String) : Instrument Int :=
      ⟨⟨kind, name, none, none⟩, ⟨none, none⟩⟩
    let outcome (_ : CallbackRef) : Performance Int := ⟨[⟨⟨0, 0⟩, [], 7⟩], .returned⟩
    let setup : List (Command Int) :=
      [.registerView 0 ⟨⟨none, some .counter, none, none, none, none⟩, none, none, none, none, some 1⟩,
        .create 0 (.named "m") (instrument .counter "c") 0,
        .create 0 (.named "m") (instrument .asynchronousCounter "o") 1]
    let commands : List (Command Int) := setup ++
      [.record 0 5 [] (fun _ => 0), .collect 1, .collect 0, .flushReader 1,
        .record 0 3 [] (fun _ => 0), .collect 1, .flushReader 0]
    let commands' : List (Command Int) := setup ++
      [.record 0 5 [] (fun _ => 1), .collect 0, .record 0 3 [] (fun _ => 2), .collect 1, .flushReader 0]
    let sys := launched readers providers
    let batches (r : Nat) (commands : List (Command Int)) :=
      ((deliveries (sys.run (noting outcome) [] commands).2.2.journal).filter (·.1 == r)).map fun d =>
        d.2.map fun m => match m.data with
          | .sum points _ _ | .gauge points =>
            (m.name, points.map fun p => (p.value, p.exemplars.map (·.value)))
          | .histogram _ _ => (m.name, [])
    (Thinned 1 commands commands' ∧
        AnsweredOn 0 (noting outcome) (fun _ => outcome) (sys.passes (noting outcome) [] commands) ∧
        AnsweredOn 0 (noting outcome) (fun _ => outcome) (sys.passes (noting outcome) [] commands') ∧
        Undisturbed 0 (noting outcome) (noting outcome) [] [] sys commands commands') ∧
      batches 0 commands =
        [[("c", [(5, [5])]), ("o", [(7, [])])], [("c", [(3, [3])]), ("o", [(0, [])])]] ∧
      batches 0 commands' = batches 0 commands ∧
      (batches 1 commands).length = 3 ∧ (batches 1 commands').length = 1 := by
  intro readers providers instrument outcome setup commands commands' sys batches
  have hthinned : Thinned 1 commands commands' :=
    .keep (.same _) (.keep (.same _) (.keep (.same _) (.keep (.record ..) (.skip (.inl rfl)
      (.keep (.same _) (.skip (.inr rfl) (.keep (.record ..) (.keep (.same _) (.keep (.same _)
        .nil)))))))))
  have hanswered := answeredOn_noting (a := 0) outcome (sys.passes (noting outcome) [] commands)
  have hanswered' := answeredOn_noting (a := 0) outcome (sys.passes (noting outcome) [] commands')
  refine ⟨⟨hthinned, hanswered, hanswered', ?_⟩, by decide +kernel, by decide +kernel,
    by decide +kernel, by decide +kernel⟩
  exact noninterference_run (noting outcome) (noting outcome) [] [] readers providers hthinned
    (by decide) (fun _ => outcome) hanswered hanswered'

end System

end Metering
