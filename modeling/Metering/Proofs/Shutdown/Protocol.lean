import Metering.Proofs.Shutdown.Ending

/-!
# The Shutdown Protocol

Two machines work together: a provider, which is closed by its first shutdown, and its readers, each
of which is closed by the first shutdown that reaches it, its own or that of a provider. What is
closed is read off the commands of a run. A provider that is open passes a flush or a shutdown on to
all its readers in order, whatever they answer; one that is closed calls nothing.
-/

namespace Metering

variable {α σ : Type}

/-! ## Visits -/

/-- Readers that are visited one after the other, each with a result, whatever the others' are. -/
inductive Visits (act : σ → System α → Nat → Bool × σ × System α) :
    σ → System α → List Nat → List Bool → σ → System α → Prop
  | none (known : σ) (sys : System α) : Visits act known sys [] [] known sys
  | visit {known known' : σ} {sys sys' : System α} {r : Nat} {rest : List Nat} {results : List Bool}
      (others : Visits act (act known sys r).2.1 (act known sys r).2.2 rest results known' sys') :
      Visits act known sys (r :: rest) ((act known sys r).1 :: results) known' sys'

/-- To do something with each reader is to visit all of them, and succeeds when every visit does. -/
theorem visits_eachReader (act : σ → System α → Nat → Bool × σ × System α) (known : σ)
    (sys : System α) (readers : List Nat) :
    ∃ results, Visits act known sys readers results (System.eachReader act known sys readers).2.1
        (System.eachReader act known sys readers).2.2 ∧
      (System.eachReader act known sys readers).1 = results.all id := by
  induction readers generalizing known sys with
  | nil => exact ⟨[], .none known sys, rfl⟩
  | cons r rest ih =>
    obtain ⟨results, hvisits, hall⟩ := ih (act known sys r).2.1 (act known sys r).2.2
    exact ⟨_, .visit hvisits, congrArg ((act known sys r).1 && ·) hall⟩

/-! ## Providers that persist -/

/-- What becomes of a provider that may be closed or not: it keeps its readers, and once closed it
stays closed. -/
structure Provider.Persists (mayClose : Prop) (before after : Provider α) : Prop where
  readers : after.readers = before.readers
  closed : before.closed = true → after.closed = true
  running : after.closed = true → before.closed = true ∨ mayClose

namespace Provider.Persists

variable {mayClose : Prop} {before after after' : Provider α}

theorem of_eq (hreaders : after.readers = before.readers) (hclosed : after.closed = before.closed) :
    Persists mayClose before after :=
  ⟨hreaders, fun h => hclosed.trans h, fun h => .inl (hclosed ▸ h)⟩

theorem refl (provider : Provider α) : Persists mayClose provider provider := of_eq rfl rfl

theorem trans (h : Persists mayClose before after) (k : Persists mayClose after after') :
    Persists mayClose before after' :=
  ⟨k.readers.trans h.readers, fun hclosed => k.closed (h.closed hclosed),
    fun hclosed => (k.running hclosed).elim h.running .inr⟩

end Provider.Persists

namespace System

/-- Whether every provider of a system persists in a later one. -/
def Providing (mayClose : Nat → Prop) (sys sys' : System α) : Prop :=
  Pointwise (fun p => Provider.Persists (mayClose p)) sys.providers sys'.providers

namespace Providing

variable {sys sys' sys'' : System α} {mayClose : Nat → Prop}

theorem of_providers_eq (h : sys'.providers = sys.providers) : Providing mayClose sys sys' :=
  Pointwise.of_eq (fun _ provider => .refl provider) h

theorem trans (h : Providing mayClose sys sys') (k : Providing mayClose sys' sys'') :
    Providing mayClose sys sys'' :=
  Pointwise.trans (fun _ _ _ _ => .trans) h k

theorem modifyProvider (sys : System α) (p : Nat) {f : Provider α → Provider α}
    (h : ∀ provider, Provider.Persists (mayClose p) provider (f provider)) :
    Providing mayClose sys (sys.modifyProvider p f) :=
  Pointwise.modify (fun _ provider => .refl provider) sys.providers p h

theorem foldl {β : Type} {f : System α → β → System α}
    (h : ∀ sys x, Providing mayClose sys (f sys x)) (xs : List β) (sys : System α) :
    Providing mayClose sys (xs.foldl f sys) :=
  List.foldlRecOn xs f (of_providers_eq rfl) fun _ hbefore x _ => hbefore.trans (h _ x)

theorem teardown (sys : System α) (i : Nat) : Providing mayClose sys (sys.teardown i) := by
  cases hb : sys.instruments[i]? with
  | none =>
    have hsame : sys.teardown i = sys := by simp [System.teardown, hb]
    exact of_providers_eq (congrArg (·.providers) hsame)
  | some b =>
    rw [teardown_eq hb]
    refine Pointwise.modify (fun _ provider => .refl provider) sys.providers b.provider ?_
    -- The cache entry goes if it is still that of the instrument.
    intro provider
    unfold Provider.uncache
    split
    · exact .of_eq rfl rfl
    · exact .refl provider

theorem release (sys : System α) (i : Nat) (f : Flavour) :
    Providing mayClose sys (sys.release i f) := by
  have hrelinquish : Providing mayClose sys (sys.relinquish i f).2 := by
    unfold System.relinquish
    split <;> exact of_providers_eq rfl
  exact hrelinquish.trans (foldl teardown _ _)

end Providing

variable [Quantity α] {ends : Endings} {sys sys' : System α} {p r : Nat} {provider : Provider α}
  {reader : Reader α}

/-- Every step lets providers persist. -/
theorem Step.providing (h : Step ends sys sys') : Providing ends.providers sys sys' := by
  cases h with
  | clock | hold | note | reader | clear | pass | close | finish => exact .of_providers_eq rfl
  | provider p same =>
    exact .modifyProvider sys p fun provider =>
      .of_eq (congrArg (·.2.1) (same provider)) (congrArg (·.2.2.2.2) (same provider))
  | acquire i f => exact .of_providers_eq (providers_acquire i f)
  | release i f => exact .release sys i f
  | @build p => exact .modifyProvider sys p fun _ => .of_eq rfl rfl
  | record => exact .of_providers_eq (congrArg (·.providers) (writeTo_eq sys _ _ _ _))
  | quit p allowed => exact .modifyProvider sys p fun _ => ⟨rfl, fun _ => rfl, fun _ => .inr allowed⟩

theorem Steps.providing (h : Steps ends sys sys') : Providing ends.providers sys sys' := by
  induction h with
  | refl => exact .of_providers_eq rfl
  | tail _ hstep ih => exact ih.trans hstep.providing

/-! ## What is closed -/

/-- Whether a command closes a reader, its own shutdown or that of a provider that has it. -/
def ClosesReader (sys : System α) (r : Nat) : Command α → Prop
  | .shutdownReader q => q = r
  | .shutdown p => ∃ provider, sys.providers[p]? = some provider ∧ r ∈ provider.readers
  | _ => False

/-- The readers of a closed provider are closed. -/
def Settled (sys : System α) : Prop :=
  ∀ (p : Nat) (provider : Provider α), sys.providers[p]? = some provider → provider.closed = true →
    ∀ r ∈ provider.readers, sys.isClosed r = true

section

variable (respond : Responder σ α) (known : σ)

/-- A reader that is shut down is closed from then on. -/
theorem isClosed_shutdownReader (sys : System α) (r : Nat) :
    (sys.shutdownReader respond known r).2.2.isClosed r = true := by
  cases hclosed : sys.isClosed r with
  | true => exact isClosed_shutdownReader_of_closed respond known hclosed r
  | false =>
    obtain ⟨reader, hr, hopen⟩ := isClosed_eq_false_iff.mp hclosed
    obtain ⟨-, ⟨after, hafter, hended, -⟩, -⟩ := endsReader respond known sys hr hopen
    simp [isClosed, hafter, hended]

theorem isClosed_shutdownReaders (sys : System α) {readers : List Nat} {r : Nat} (hr : r ∈ readers) :
    (eachReader (shutdownReader respond) known sys readers).2.2.isClosed r = true := by
  induction readers generalizing sys known with
  | nil => cases hr
  | cons q rest ih =>
    rcases List.mem_cons.mp hr with rfl | hr
    · -- Closed by its own visit, the reader stays closed during the others'.
      have hrest : Steps { Endings.none with readers := fun _ => True }
          (sys.shutdownReader respond known r).2.2
          (eachReader (shutdownReader respond) known sys (r :: rest)).2.2 :=
        .eachReader _ (fun _ _ known sys => .shutdownReader respond known sys trivial) _
      exact hrest.persisting.isClosed (isClosed_shutdownReader respond known sys r)
    · exact ih _ _ hr

/-- A provider is closed by its shutdown and by nothing else, and keeps its readers. -/
theorem exists_provider_perform (c : Command α) (hp : sys.providers[p]? = some provider) :
    ∃ after, (sys.perform respond known c).2.2.providers[p]? = some after ∧
      after.readers = provider.readers ∧
      (after.closed = true ↔ provider.closed = true ∨ c = .shutdown p) := by
  obtain ⟨after, hafter, hpersists⟩ :=
    exists_of_some_rel (hp ▸ (Steps.perform respond known sys c).providing p)
  refine ⟨after, hafter, hpersists.readers, fun hclosed => ?_, ?_⟩
  · -- Of all that a command may end, only its own provider counts.
    refine (hpersists.running hclosed).imp_right fun hends => ?_
    cases c with
    | shutdown q => exact congrArg Command.shutdown (Eq.symm hends)
    | _ => cases hends
  · rintro (hclosed | rfl)
    · exact hpersists.closed hclosed
    · cases hclosed : provider.closed with
      | true => exact hpersists.closed hclosed
      | false =>
        -- Closed before its readers are visited, the provider stays closed.
        let closing := sys.modifyProvider p fun provider => { provider with closed := true }
        have hclosing : closing.providers[p]? = some { provider with closed := true } :=
          getElem?_modify_of_some _ hp
        have hsame : (sys.perform respond known (.shutdown p)).2.2 =
            (eachReader (shutdownReader respond) known closing provider.readers).2.2.reclaim := by
          simp only [System.perform, System.shutdown, hp, hclosed]
          rfl
        have hvisited : Steps { Endings.none with readers := fun _ => True } closing
            (eachReader (shutdownReader respond) known closing provider.readers).2.2 :=
          .eachReader known (fun _ _ known sys => .shutdownReader respond known sys trivial) closing
        obtain ⟨visited, hvisited, hvisitedPersists⟩ :=
          exists_of_some_rel (hclosing ▸ hvisited.providing p)
        obtain ⟨last, hlast, hlastPersists⟩ :=
          exists_of_some_rel (hvisited ▸ (steps_reclaim _).providing p)
        rw [hsame, hlast] at hafter
        obtain rfl := Option.some.inj hafter
        exact hlastPersists.closed (hvisitedPersists.closed rfl)

/-- A reader is closed by its own shutdown and by that of a provider that has it, and by nothing
else. -/
theorem isClosed_perform_iff (h : Settled sys) (c : Command α) (r : Nat) :
    (sys.perform respond known c).2.2.isClosed r = true ↔
      sys.isClosed r = true ∨ sys.ClosesReader r c := by
  have hpersisting := (Steps.perform respond known sys c).persisting
  constructor
  · intro hclosed
    unfold isClosed at hclosed ⊢
    cases hr : sys.readers[r]? with
    | none => exact .inl rfl
    | some before =>
      obtain ⟨after, hafter, hpersists⟩ := exists_of_some_rel (hr ▸ hpersisting r)
      rw [hafter] at hclosed
      refine (hpersists.running hclosed).imp_right fun hends => ?_
      cases c with
      | shutdownReader q => exact Eq.symm hends
      | shutdown p =>
        have hends : r ∈ sys.readersOf p := hends
        unfold readersOf at hends
        split at hends
        · cases hends
        · rename_i provider hp
          split at hends
          · cases hends
          · exact ⟨provider, hp, hends⟩
      | _ => cases hends
  · rintro (hclosed | hcloses)
    · exact hpersisting.isClosed hclosed
    · cases c with
      | shutdownReader q =>
        obtain rfl : q = r := hcloses
        exact (steps_reclaim _).persisting.isClosed (isClosed_shutdownReader respond known sys q)
      | shutdown p =>
        obtain ⟨provider, hp, hr⟩ := hcloses
        cases hclosed : provider.closed with
        -- A closed provider visits nobody, but its readers are closed already.
        | true => exact hpersisting.isClosed (h p provider hp hclosed r hr)
        | false =>
          refine (steps_reclaim _).persisting.isClosed ?_
          simp only [hp, hclosed]
          exact isClosed_shutdownReaders respond known _ hr
      | _ => cases hcloses

theorem Settled.perform (h : Settled sys) (c : Command α) :
    Settled (sys.perform respond known c).2.2 := by
  intro p after hafter hclosed r hr
  obtain ⟨before, hbefore, -⟩ :=
    exists_of_rel_some (hafter ▸ (Steps.perform respond known sys c).providing p)
  obtain ⟨after', hafter', hreaders, hiff⟩ := exists_provider_perform respond known c hbefore
  obtain rfl := Option.some.inj (hafter.symm.trans hafter')
  rw [hreaders] at hr
  rw [isClosed_perform_iff respond known h]
  rcases hiff.mp hclosed with hclosed | rfl
  · exact .inl (h p before hbefore hclosed r hr)
  · exact .inr ⟨before, hbefore, hr⟩

omit [Quantity α] in
/-- Providers keep their readers, so what closes a reader does so later as well. -/
theorem Providing.closesReader_iff {mayClose : Nat → Prop} (h : Providing mayClose sys sys')
    (c : Command α) (r : Nat) : sys'.ClosesReader r c ↔ sys.ClosesReader r c := by
  cases c with
  | shutdown p =>
    constructor
    · rintro ⟨after, hafter, hr⟩
      obtain ⟨before, hbefore, hpersists⟩ := exists_of_rel_some (hafter ▸ h p)
      exact ⟨before, hbefore, hpersists.readers ▸ hr⟩
    · rintro ⟨before, hbefore, hr⟩
      obtain ⟨after, hafter, hpersists⟩ := exists_of_some_rel (hbefore ▸ h p)
      exact ⟨after, hafter, hpersists.readers ▸ hr⟩
  | _ => exact Iff.rfl

/-- What a run closes, by induction on its commands. -/
theorem closed_run (h : Settled sys) (commands : List (Command α)) :
    (∀ (p : Nat) (provider : Provider α), sys.providers[p]? = some provider →
      ∃ after, (sys.run respond known commands).2.2.providers[p]? = some after ∧
        after.readers = provider.readers ∧
        (after.closed = true ↔ provider.closed = true ∨ .shutdown p ∈ commands)) ∧
      ∀ r, (sys.run respond known commands).2.2.isClosed r = true ↔
        sys.isClosed r = true ∨ ∃ c ∈ commands, sys.ClosesReader r c := by
  induction commands generalizing sys known with
  | nil => exact ⟨fun p provider hp => ⟨provider, hp, rfl, by simp⟩, fun r => by simp [run]⟩
  | cons c rest ih =>
    obtain ⟨hproviders, hreaders⟩ := ih (sys.perform respond known c).2.1 (h.perform respond known c)
    refine ⟨fun p provider hp => ?_, fun r => ?_⟩
    · obtain ⟨middle, hmiddle, hmiddleReaders, hmiddleClosed⟩ :=
        exists_provider_perform respond known c hp
      obtain ⟨after, hafter, hafterReaders, hafterClosed⟩ := hproviders p middle hmiddle
      refine ⟨after, hafter, hafterReaders.trans hmiddleReaders, ?_⟩
      rw [hafterClosed, hmiddleClosed, or_assoc, List.mem_cons, @eq_comm _ c]
    · refine (hreaders r).trans ?_
      simp only [isClosed_perform_iff respond known h,
        (Steps.perform respond known sys c).providing.closesReader_iff, or_assoc, List.mem_cons,
        exists_eq_or_imp]

end

/-! ## The protocol -/

/-- What the shutdown of readers and providers owes, in the state that a run with some commands
reached. -/
structure ShutdownProtocol (respond : Responder σ α) (commands : List (Command α)) (sys : System α) :
    Prop where
  /-- A reader is closed when it was shut down, or a provider that has it was. -/
  reader_closed_iff : ∀ (r : Nat) (reader : Reader α), sys.readers[r]? = some reader →
    (reader.closed = true ↔ ∃ c ∈ commands, sys.ClosesReader r c)
  /-- The exporter hears of its end once, right after a batch, and nothing after it. -/
  orderly : ∀ r, Orderly r sys
  /-- Whatever is done later, a closed reader stays closed and gets no stream, and its exporter hears
  nothing. -/
  silent : ∀ (r : Nat) (reader : Reader α), sys.readers[r]? = some reader → reader.closed = true →
    ∀ known later, let sys' := (sys.run respond known later).2.2
      (∃ after, sys'.readers[r]? = some after ∧ after.closed = true ∧ after.streams = Table.empty) ∧
        callsTo r sys'.journal = callsTo r sys.journal
  /-- Nothing can be done with a closed reader: no callback is called, and nothing is written. -/
  refused : ∀ (r : Nat), sys.isClosed r = true → ∀ known,
    sys.perform respond known (.collect r) = (.verdict false, known, sys) ∧
      sys.perform respond known (.flushReader r) = (.verdict false, known, sys) ∧
      sys.perform respond known (.shutdownReader r) = (.verdict false, known, sys.reclaim)
  /-- The shutdown of an open reader ends it, also in the middle of a provider's shutdown. -/
  ends : ∀ (sys : System α) (r : Nat) (reader : Reader α), sys.readers[r]? = some reader →
    reader.closed = false → ∀ known,
      EndsReader respond known sys r reader (sys.shutdownReader respond known r)
  /-- A provider is closed when it was shut down. -/
  provider_closed_iff : ∀ (p : Nat) (provider : Provider α), sys.providers[p]? = some provider →
    (provider.closed = true ↔ .shutdown p ∈ commands)
  /-- A provider that is open passes a flush on to all its readers. -/
  flushes : ∀ (p : Nat) (provider : Provider α), sys.providers[p]? = some provider →
    provider.closed = false → ∀ known, ∃ results known' sys',
      Visits (flushReader respond) known sys provider.readers results known' sys' ∧
        sys.perform respond known (.flush p) = (.verdict (results.all id), known', sys')
  /-- A provider that is open passes a shutdown on to all its readers. -/
  shutsDown : ∀ (p : Nat) (provider : Provider α), sys.providers[p]? = some provider →
    provider.closed = false → ∀ known, ∃ results known' sys',
      Visits (shutdownReader respond) known
          (sys.modifyProvider p fun provider => { provider with closed := true }) provider.readers
          results known' sys' ∧
        sys.perform respond known (.shutdown p) = (.verdict (results.all id), known', sys'.reclaim)
  /-- A closed provider calls nobody. -/
  dismissed : ∀ (p : Nat) (provider : Provider α), sys.providers[p]? = some provider →
    provider.closed = true → ∀ known,
      sys.perform respond known (.flush p) = (.verdict false, known, sys) ∧
        sys.perform respond known (.shutdown p) = (.verdict false, known, sys.reclaim)
  /-- To let go of what nothing keeps is to say nothing to anybody. -/
  reclaimed : ∀ sys : System α, sys.reclaim.journal = sys.journal

section

variable (respond : Responder σ α) (known : σ)

omit [Quantity α] in
theorem journal_clearCallbacks (sys : System α) (n : Nat) :
    (sys.clearCallbacks n).journal = sys.journal := by
  have hdrop (sys : System α) (handle : Nat) : (sys.dropHandle handle).journal = sys.journal := by
    unfold System.dropHandle
    split
    · rfl
    · exact journal_release { sys with handles := sys.handles.erase handle } _ .transient
  induction n generalizing sys with
  | zero => rfl
  | succ n ih =>
    unfold System.clearCallbacks
    split
    · rfl
    · rename_i p _ _
      let cleared := sys.modifyProvider p fun provider => { provider with callbacks := Table.empty }
      exact (ih _).trans (journal_foldl hdrop _ cleared)

omit [Quantity α] in
theorem journal_reclaim (sys : System α) : sys.reclaim.journal = sys.journal := by
  unfold System.reclaim
  split
  · rfl
  · exact journal_clearCallbacks sys.clearReaders _

/-- An open provider that is flushed visits all its readers. -/
theorem exists_visits_flush (hp : sys.providers[p]? = some provider)
    (hopen : provider.closed = false) :
    ∃ results known' sys',
      Visits (flushReader respond) known sys provider.readers results known' sys' ∧
        sys.perform respond known (.flush p) = (.verdict (results.all id), known', sys') := by
  obtain ⟨results, hvisits, hall⟩ :=
    visits_eachReader (flushReader respond) known sys provider.readers
  refine ⟨results, _, _, hvisits, ?_⟩
  simp only [System.perform, System.flush, hp, hopen, Bool.false_eq_true, if_false, hall]

/-- An open provider that is shut down visits all its readers. -/
theorem exists_visits_shutdown (hp : sys.providers[p]? = some provider)
    (hopen : provider.closed = false) :
    ∃ results known' sys',
      Visits (shutdownReader respond) known
          (sys.modifyProvider p fun provider => { provider with closed := true }) provider.readers
          results known' sys' ∧
        sys.perform respond known (.shutdown p) = (.verdict (results.all id), known', sys'.reclaim) := by
  obtain ⟨results, hvisits, hall⟩ := visits_eachReader (shutdownReader respond) known
    (sys.modifyProvider p fun provider => { provider with closed := true }) provider.readers
  refine ⟨results, _, _, hvisits, ?_⟩
  simp only [System.perform, System.shutdown, hp, hopen, Bool.false_eq_true, if_false, hall]

/-- The protocol is kept in every state that a run reaches, whatever commands it is made of and
however callbacks and exporters answer. -/
theorem shutdownProtocol_run (readers : List (Exporter α × Nat))
    (providers : List (Resource × List Nat)) (commands : List (Command α)) :
    ShutdownProtocol respond commands
      ((launched readers providers).run respond known commands).2.2 := by
  have hsettled : Settled (launched readers providers) := by
    intro p provider hp hclosed
    obtain ⟨e, rfl⟩ := getElem?_launched_providers hp
    cases hclosed
  obtain ⟨hproviders, hreaders⟩ := closed_run respond known hsettled commands
  have horderly (r : Nat) := (Orderly.launched readers providers r).run respond known commands
  have hsteps := Steps.run respond known (launched readers providers) commands
  generalize ((launched readers providers).run respond known commands).2.2 = sys at *
  refine ⟨fun r reader hr => ?_, horderly, fun r reader hr hclosed known later => ?_,
    fun r hclosed known => ?_, fun sys r reader hr hopen known => endsReader respond known sys hr hopen,
    fun p provider hp => ?_, fun p provider hp hopen known => exists_visits_flush respond known hp hopen,
    fun p provider hp hopen known => exists_visits_shutdown respond known hp hopen,
    fun p provider hp hclosed known => ?_, journal_reclaim⟩
  · -- No reader was closed when the system was launched.
    obtain ⟨before, hbefore, -⟩ := exists_of_rel_some (hr ▸ hsteps.persisting r)
    obtain ⟨e, rfl⟩ := getElem?_launched_readers hbefore
    have hopened : ¬(launched readers providers).isClosed r = true := by
      simp [isClosed, hbefore, Reader.opened]
    have hclosed := hreaders r
    rw [or_iff_right hopened] at hclosed
    simpa [isClosed, hr, hsteps.providing.closesReader_iff] using hclosed
  · have hisClosed : sys.isClosed r = true := by simp [isClosed, hr, hclosed]
    obtain ⟨hstill, hsilent⟩ := silent_run respond known hisClosed later
    obtain ⟨after, hafter, -⟩ :=
      exists_of_some_rel (hr ▸ (Steps.run respond known sys later).persisting r)
    have hafterClosed : after.closed = true := by simpa [isClosed, hafter] using hstill
    have hvacant := (((horderly r).run respond known later).ended after hafter hafterClosed).1
    exact ⟨⟨after, hafter, hafterClosed, hvacant⟩, hsilent⟩
  · simp only [System.perform, collect_of_closed respond known hclosed,
      flushReader_of_closed respond known hclosed, shutdownReader_eq_of_closed respond known hclosed,
      and_self]
  · obtain ⟨before, hbefore, -⟩ := exists_of_rel_some (hp ▸ hsteps.providing p)
    obtain ⟨e, rfl⟩ := getElem?_launched_providers hbefore
    obtain ⟨after, hafter, -, hclosed⟩ := hproviders p _ hbefore
    obtain rfl := Option.some.inj (hp.symm.trans hafter)
    simpa [Provider.opened] using hclosed
  · simp only [System.perform, System.flush, System.shutdown, hp, hclosed, if_true, and_self]

end

/-- A provider is shut down while the callback of its instrument panics and the first of its two
readers' exporters refuses the batch; what is asked for afterwards comes to nothing. -/
theorem shutdownProtocol_run_failing :
    let instrument (kind : Kind) (name : String) : Instrument Int :=
      ⟨⟨kind, name, none, none⟩, ⟨none, none⟩⟩
    let respond : Responder Unit Int := fun _ _ => (⟨[], .panicked "late"⟩, ())
    let commands := [.create 0 (.named "m") (instrument .asynchronousCounter "a") 1, .shutdown 0,
      .create 0 (.named "m") (instrument .counter "c") 0, .collect 0, .flush 0, .shutdownReader 1]
    let refusing : Exporter Int := { Exporter.memory .cumulative with accepts := fun _ => false }
    let sys := ((launched [(refusing, 1000), (.memory .delta, 1000)] [(KeyMap.empty, [0, 1])]).run
      respond () commands).2.2
    ShutdownProtocol respond commands sys ∧
      sys.readers.map (fun reader => (reader.closed, reader.streams.size)) = [(true, 0), (true, 0)] ∧
      (callsTo 0 sys.journal).map (·.asks) = [true, true, false, false] ∧
      (callsTo 1 sys.journal).map (·.asks) = [true, true, false, false] := by
  intro instrument respond commands refusing sys
  exact ⟨shutdownProtocol_run respond () [(refusing, 1000), (.memory .delta, 1000)]
    [(KeyMap.empty, [0, 1])] commands, by decide +kernel, by decide +kernel, by decide +kernel⟩

end System

end Metering
