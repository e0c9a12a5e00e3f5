import Metering.Proofs.Creations.Standing

/-!
# What a Request for an Instrument Leads To

A request that is granted is answered with the living instrument that is identified alike, whatever
the request advises and whatever views there are by then; nothing is added for it. If there is no
such instrument, one is built, with the streams that the views and the open readers of the provider
call for at that moment and no others.
-/

namespace Metering

variable {α : Type}

namespace System

variable {sys sys' : System α} {p : Nat} {provider : Provider α} {scope : Scope} {i : Instrument α}

/-! ## What a request does besides -/

/-- What handing out an instrument and giving it callbacks leaves alone. -/
def fittings (sys : System α) :
    Time × List (Reader α) × List (Nat × InstrumentKey × Option Nat × List (Nat × Nat)) :=
  (sys.now, sys.readers, sys.instruments.map (·.ident))

theorem fittings_acquire (sys : System α) (i : Nat) (f : Flavour) :
    (sys.acquire i f).2.fittings = sys.fittings ∧ (sys.acquire i f).2.handles = sys.handles := by
  unfold acquire
  split
  · exact ⟨rfl, rfl⟩
  · refine ⟨?_, rfl⟩
    refine congrArg (fun idents => (sys.now, sys.readers, idents)) ?_
    exact map_modify_of_eq fun _ _ => rfl

theorem fittings_acquireAll (sys : System α) (is : List Nat) :
    (sys.acquireAll is).2.fittings = sys.fittings ∧ (sys.acquireAll is).2.handles = sys.handles := by
  induction is generalizing sys with
  | nil => exact ⟨rfl, rfl⟩
  | cons i rest ih =>
    obtain ⟨hfittings, hhandles⟩ := fittings_acquire sys i .persistent
    obtain ⟨hrest, hrest'⟩ := ih (sys.acquire i .persistent).2
    exact ⟨hrest.trans hfittings, hrest'.trans hhandles⟩

theorem fittings_registerCallback (sys : System α) (p : Nat) (feed : Feed) (is captured : List Nat) :
    (sys.registerCallback p feed is captured).2.fittings = sys.fittings ∧
      (sys.registerCallback p feed is captured).2.handles = sys.handles := by
  obtain ⟨hfittings, hhandles⟩ := fittings_acquireAll sys is
  unfold registerCallback
  simp only
  split <;> exact ⟨hfittings, hhandles⟩

theorem fittings_registerSingles (sys : System α) (p number i n : Nat) :
    (sys.registerSingles p number i n).2.fittings = sys.fittings ∧
      (sys.registerSingles p number i n).2.handles = sys.handles := by
  induction n generalizing sys with
  | zero => exact ⟨rfl, rfl⟩
  | succ n ih =>
    obtain ⟨hfittings, hhandles⟩ := fittings_registerCallback sys p (.single number) [i] []
    obtain ⟨hrest, hrest'⟩ := ih (sys.registerCallback p (.single number) [i] []).2
    exact ⟨hrest.trans hfittings, hrest'.trans hhandles⟩

variable [Quantity α] {c : Creation}

/-- A request that is granted hands out an instrument that was procured for it. -/
theorem create_eq_ok {callbacks : Nat} (hp : sys.providers[p]? = some provider)
    (h : sys.create p scope i callbacks = (some (.ok c), sys')) :
    ∃ found granted,
      (sys.modifyProvider p (·.withScope scope)).procure p provider (provider.meterScope scope) i =
        (.ok found, granted) ∧
      sys'.fittings = granted.fittings ∧ sys'.handles.find? c.handle = some found ∧
      c.observer = granted.instruments[found]?.bind (·.observer) := by
  unfold create at h
  rw [hp] at h
  simp only at h
  split at h
  · cases (Prod.mk.inj h).1
  · split at h
    · cases (Prod.mk.inj h).1
    · rename_i found granted hprocure
      refine ⟨found, granted, hprocure, ?_⟩
      have hfound : (granted.adopt found).2.handles.find? granted.nextHandle = some found := by
        simp [adopt, Table.find?_insert]
      split at h
      · rename_i number hobserver
        obtain ⟨hc, rfl⟩ := Prod.mk.inj h
        obtain rfl := Except.ok.inj (Option.some.inj hc)
        obtain ⟨hfittings, hhandles⟩ :=
          fittings_registerSingles (granted.adopt found).2 p number found callbacks
        exact ⟨hfittings, hhandles ▸ hfound, rfl⟩
      · obtain ⟨hc, rfl⟩ := Prod.mk.inj h
        obtain rfl := Except.ok.inj (Option.some.inj hc)
        exact ⟨rfl, hfound, rfl⟩

/-! ## Resolution -/

omit [Quantity α] in
/-- Whether a living instrument of a provider has an equal key. -/
def Serves (sys : System α) (p : Nat) (key : InstrumentKey) (j : Nat) (b : BuiltInstrument) : Prop :=
  sys.instruments[j]? = some b ∧ b.lifetime.stale = false ∧ b.provider = p ∧ (b.key == key) = true

/-- An instrument that was built for a request. -/
structure Fresh (sys : System α) (p : Nat) (provider : Provider α) (scope : Scope) (i : Instrument α)
    (b : BuiltInstrument) (sys' : System α) : Prop where
  owner : b.provider = p
  /-- The meter has the scope as it was first written. -/
  key : b.key = ⟨provider.meterScope scope, i.identity⟩
  /-- Asynchronous instruments have a number that none had before. -/
  observer : b.observer = if i.identity.kind.isAsynchronous then some provider.nextObserver else none
  number : ∀ o, b.ref? = some o → o ∉ sys.observers
  instruments : sys'.instruments.map (·.ident) = sys.instruments.map (·.ident) ++ [b.ident]
  /-- Each stream that is wanted is found, with all that it should be. -/
  streams : List.Forall₂ (fun s plan => s.1 = plan.reader ∧ streamAt sys'.readers s =
      some (plan.stream sys.now provider.resource b.key.scope b.ref?))
    b.streams (sys.plansFor provider b.key.scope i)
  /-- Nothing else happens to readers. -/
  readers : ∀ r : Nat, Option.Rel (fun before after : Reader α => before.Extends after
      (((sys.plansFor provider b.key.scope i).filter (·.reader == r)).map
        (·.stream sys.now provider.resource b.key.scope b.ref?)))
    sys.readers[r]? sys'.readers[r]?

/-- What a request that was granted has led to. -/
structure Resolution (sys : System α) (p : Nat) (scope : Scope) (i : Instrument α) (c : Creation)
    (sys' : System α) : Prop where
  /-- A living instrument that is identified alike is what is handed out, as it is. -/
  shared : ∀ j b, sys.Serves p ⟨scope, i.identity⟩ j b →
    sys'.handles.find? c.handle = some j ∧ c.observer = b.observer ∧ sys'.readers = sys.readers ∧
      sys'.instruments.map (·.ident) = sys.instruments.map (·.ident)
  /-- Without one, an instrument is built and handed out. -/
  built : (∀ j b, ¬sys.Serves p ⟨scope, i.identity⟩ j b) →
    ∃ provider b, sys.providers[p]? = some provider ∧ Fresh sys p provider scope i b sys' ∧
      sys'.handles.find? c.handle = some sys.instruments.length ∧ c.observer = b.observer

omit [Quantity α] in
/-- A key is served if the key that a meter makes of it is. -/
theorem Serves.meterScope {j : Nat} {b : BuiltInstrument} {identity : Identity}
    (provider : Provider α) : sys.Serves p ⟨provider.meterScope scope, identity⟩ j b ↔
      sys.Serves p ⟨scope, identity⟩ j b := by
  have hkey : ((⟨scope, identity⟩ : InstrumentKey) == ⟨provider.meterScope scope, identity⟩) = true :=
    InstrumentKey.beq_iff.mpr ⟨beq_meterScope provider scope, rfl⟩
  constructor
  · rintro ⟨hb, halive, hprovider, heq⟩
    exact ⟨hb, halive, hprovider, BEq.trans heq (BEq.symm hkey)⟩
  · rintro ⟨hb, halive, hprovider, heq⟩
    exact ⟨hb, halive, hprovider, BEq.trans heq hkey⟩

omit [Quantity α] in
theorem observers_eq_of_fittings {other : System α} (h : other.fittings = sys.fittings) :
    other.observers = sys.observers :=
  observers_congr (congrArg (·.2.2) h)

theorem plansFor_eq_of_fittings {other : System α} (h : other.fittings = sys.fittings)
    (provider : Provider α) (scope : Scope) (i : Instrument α) :
    other.plansFor provider scope i = sys.plansFor provider scope i := by
  have hreaders : other.readers = sys.readers := congrArg (·.2.1) h
  unfold plansFor planned?
  rw [hreaders]

theorem Fresh.congr {b : BuiltInstrument} {other other' : System α}
    (h : Fresh sys p provider scope i b sys') (hbefore : other.fittings = sys.fittings)
    (hafter : other'.fittings = sys'.fittings) : Fresh other p provider scope i b other' := by
  have hnow : other.now = sys.now := congrArg (·.1) hbefore
  have hreaders : other.readers = sys.readers := congrArg (·.2.1) hbefore
  have hreaders' : other'.readers = sys'.readers := congrArg (·.2.1) hafter
  have hplans := plansFor_eq_of_fittings hbefore provider b.key.scope i
  refine ⟨h.owner, h.key, h.observer, ?_, ?_, ?_, ?_⟩
  · rw [observers_eq_of_fittings hbefore]
    exact h.number
  · have hidents : other.instruments.map (·.ident) = sys.instruments.map (·.ident) :=
      congrArg (·.2.2) hbefore
    have hidents' : other'.instruments.map (·.ident) = sys'.instruments.map (·.ident) :=
      congrArg (·.2.2) hafter
    rw [hidents, hidents']
    exact h.instruments
  · rw [hplans, hnow, hreaders']
    exact h.streams
  · rw [hplans, hnow, hreaders, hreaders']
    exact h.readers

/-- Building an instrument from what is planned adds what is planned. -/
theorem fresh_withNewborn (hrooted : Rooted (fun _ _ => True) sys) {current : Provider α}
    (hp : sys.providers[p]? = some current) (hnumber : provider.nextObserver = current.nextObserver)
    (scope : Scope) (i : Instrument α) :
    Fresh sys p provider scope i
      (sys.newborn p provider ⟨provider.meterScope scope, i.identity⟩
        (sys.plansFor provider (provider.meterScope scope) i))
      (sys.withNewborn p provider ⟨provider.meterScope scope, i.identity⟩
        (sys.plansFor provider (provider.meterScope scope) i)) := by
  let key : InstrumentKey := ⟨provider.meterScope scope, i.identity⟩
  let plans := sys.plansFor provider key.scope i
  have hopen : ∀ plan ∈ plans, sys.isClosed plan.reader = false :=
    fun plan hplan => isClosed_of_mem_plansFor hplan
  refine ⟨rfl, rfl, rfl, fun o ho => ?_, ?_, ?_, ?_⟩
  · have hcatalogued : Catalogued (sys.withNewborn p provider key plans) :=
      hrooted.catalogued.withNewborn hp hnumber
    have hdistinct := hcatalogued.distinct
    rw [observers_withNewborn, ho] at hdistinct
    exact fun hmem => (List.nodup_append.mp hdistinct).2.2 o hmem o (List.mem_singleton_self o) rfl
  · show (sys.instruments ++ [_]).map _ = _
    rw [List.map_append, List.map_singleton]
  · exact forall₂_openStreams hrooted.numbered hopen
  · exact extends_openStreams hrooted.numbered provider.resource key.scope _ hopen

/-- A request that is granted is resolved: by the living instrument with an equal key if there is
one, and by a new one if not. -/
theorem resolution_create (hliving : Living sys) (hrooted : Rooted (fun _ _ => True) sys)
    {callbacks : Nat} (h : sys.create p scope i callbacks = (some (.ok c), sys')) :
    Resolution sys p scope i c sys' := by
  cases hp : sys.providers[p]? with
  | none =>
    unfold create at h
    rw [hp] at h
    cases (Prod.mk.inj h).1
  | some provider =>
    let asked := sys.modifyProvider p (·.withScope scope)
    obtain ⟨found, granted, hprocure, hfittings, hhandle, hobserver⟩ := create_eq_ok hp h
    have hasked : Living asked :=
      hliving.congr rfl (map_modify_of_eq fun provider _ => cache_withScope provider scope)
    have hp' : asked.providers[p]? = some (provider.withScope scope) := getElem?_modify_of_some _ hp
    -- What the cache has under the meter's key is what serves the key.
    have hserves (j : Nat) : provider.cache.find? ⟨provider.meterScope scope, i.identity⟩ = some j ↔
        ∃ b, sys.Serves p ⟨scope, i.identity⟩ j b := by
      have hcached : (provider.withScope scope).cache.find? ⟨provider.meterScope scope, i.identity⟩ =
            some j ↔ ∃ b, sys.Serves p ⟨provider.meterScope scope, i.identity⟩ j b :=
        hasked.find?_eq_some_iff hp'
      rw [cache_withScope] at hcached
      exact hcached.trans (exists_congr fun b => Serves.meterScope provider)
    rcases procure_cases asked p provider (provider.meterScope scope) i with
      ⟨e, entries, -, heq⟩ | ⟨shared, hfound, -, heq⟩ | ⟨entries, plans, hnone, hplan, heq⟩
    · -- A request that is refused is not granted.
      rw [heq] at hprocure
      cases (Prod.mk.inj hprocure).1
    · rw [heq] at hprocure
      obtain ⟨hshared, rfl⟩ := Prod.mk.inj hprocure
      obtain rfl := Except.ok.inj hshared
      have hacquire : (asked.acquire shared .transient).2.fittings = asked.fittings :=
        (fittings_acquire asked shared .transient).1
      refine ⟨fun j b hb => ?_, fun hnobody => ?_⟩
      · obtain rfl := Option.some.inj (hfound.symm.trans ((hserves j).mpr ⟨b, hb⟩))
        have hidents : (asked.acquire shared .transient).2.instruments.map (·.ident) =
            sys.instruments.map (·.ident) := congrArg (·.2.2) hacquire
        refine ⟨hhandle, hobserver.trans ?_, congrArg (·.2.1) (hfittings.trans hacquire),
          congrArg (·.2.2) (hfittings.trans hacquire)⟩
        -- The reference that was taken on the instrument changes nothing that it is.
        have hident := map_getElem?_of_map_eq hidents shared
        rw [hb.1] at hident
        obtain ⟨b', hb', hsame⟩ := Option.map_eq_some_iff.mp hident
        rw [hb']
        exact congrArg (·.2.2.1) hsame
      · obtain ⟨b, hb⟩ := (hserves shared).mp hfound
        exact absurd hb (hnobody shared b)
    · rw [heq] at hprocure
      obtain ⟨hbuilt, rfl⟩ := Prod.mk.inj hprocure
      obtain rfl := Except.ok.inj hbuilt
      obtain rfl := plan_eq_ok hplan
      refine ⟨fun j b hb => ?_, fun _ => ?_⟩
      · have hfound := (hserves j).mpr ⟨b, hb⟩
        have halive : asked.isAlive j = true := isAlive_iff.mpr ⟨b, hb.1, hb.2.1⟩
        rw [hfound, Option.filter_some, halive] at hnone
        cases hnone
      · have hwritten : Rooted (fun _ _ => True) (asked.write entries) :=
          hrooted.moves ((Upkeeps.moves (.withScope sys p scope)).trans (Moves.write asked entries))
        have hnumber : provider.nextObserver = (provider.withScope scope).nextObserver :=
          (congrArg (·.2.2.2.1) (provider.holdings_withScope scope)).symm
        have hfresh := fresh_withNewborn hwritten hp' hnumber scope i
        refine ⟨provider, _, hp, hfresh.congr rfl hfittings, hhandle, hobserver.trans ?_⟩
        exact congrArg (Option.bind · _) (getElem?_withNewborn_last (asked.write entries) ..)

/-! ## Requests along a run -/

/-- In every state that a run reaches, a request that is granted is resolved, and whatever is done
later leaves the streams of instruments as they were opened. -/
theorem creation_run {σ : Type} (respond : Responder σ α) (known : σ)
    (readers : List (Exporter α × Nat)) (providers : List (Resource × List Nat))
    (commands : List (Command α)) (p : Nat) (scope : Scope) (i : Instrument α) (callbacks : Nat) :
    let sys := ((launched readers providers).run respond known commands).2.2
    let sys' := (sys.create p scope i callbacks).2
    ∀ c, (sys.create p scope i callbacks).1 = some (.ok c) →
      Resolution sys p scope i c sys' ∧
        ∀ known, sys.perform respond known (.create p scope i callbacks) = (.created c, known, sys') ∧
          ∀ later, Frozen sys' later (sys'.run respond known later).2.2 := by
  intro sys sys' c hgranted
  have hliving : Living sys :=
    (Living.launched readers providers).steps (Steps.run respond known _ commands)
  have hrooted : Rooted (fun _ _ => True) sys :=
    (rooted_launched readers providers).moves (Steps.moves (.run respond known _ commands))
  have hcreate : sys.create p scope i callbacks = (some (.ok c), sys') := Prod.ext hgranted rfl
  have hsteps : Steps .none sys sys' := .create sys p scope i callbacks
  have hrooted' : Rooted (fun _ _ => True) sys' := hrooted.moves hsteps.moves
  refine ⟨resolution_create hliving hrooted hcreate, fun known => ⟨?_, fun later => ?_⟩⟩
  · simp only [perform, hcreate]
  · exact frozen_run respond known hrooted' later

/-- A counter is asked for under three views: the first keeps one key, the second drops the
measurements, the third makes a histogram. The second of the two readers has no use for the
instrument. Another view and another request, with advice, change nothing. -/
theorem creation_run_views :
    let counters : Criteria := ⟨none, some .counter, none, none, none, none⟩
    let exactly : Criteria := ⟨some (.exact "c"), none, none, none, none, none⟩
    let views : List (View Int) := [⟨counters, none, none, some ["k"], none, none⟩,
      ⟨counters, none, none, none, some .drop, none⟩,
      ⟨exactly, some "d", none, none, some (.histogram [1] false), some 2⟩]
    let instrument (keys : Option (List String)) : Instrument Int :=
      ⟨⟨.counter, "c", none, some "text"⟩, ⟨none, keys⟩⟩
    let idle : Exporter Int := .scripted ⟨[], [], none, [], [], true, true⟩
    let respond : Responder Unit Int := fun _ _ => (⟨[], .returned⟩, ())
    let setting := launched [(.memory .delta, 1000), (idle, 1000)] [(KeyMap.empty, [0, 1])]
    let sys := (setting.run respond () (views.map (.registerView 0))).2.2
    let sys' := (sys.create 0 (.named "m") (instrument none) 0).2
    let later : List (Command Int) := [.registerView 0 ⟨exactly, some "e", none, none, none, none⟩,
      .create 0 (.named "m") (instrument (some [])) 0, .record 1 5 [] id, .flush 0]
    (∃ c, (sys.create 0 (.named "m") (instrument none) 0).1 = some (.ok c) ∧
        Resolution sys 0 (.named "m") (instrument none) c sys' ∧
        Frozen sys' later (sys'.run respond () later).2.2) ∧
      (sys'.run respond () later).2.2.handles.entries = [(0, 0), (1, 0)] ∧
      (sys'.run respond () later).2.2.readers.map (fun reader => reader.streams.values.map fun rs =>
          (rs.name, rs.settings.filter.isSome, rs.settings.reservoir)) =
        [[("c", true, none), ("d", false, some 2)], []] := by
  intro counters exactly views instrument idle respond setting sys sys' later
  refine ⟨?_, by decide +kernel, by decide +kernel⟩
  have hgranted : (sys.create 0 (.named "m") (instrument none) 0).1.map Except.isOk = some true := by
    decide +kernel
  obtain ⟨answer, hanswer, hok⟩ := Option.map_eq_some_iff.mp hgranted
  cases answer with
  | error e => cases hok
  | ok c =>
    obtain ⟨hresolution, hlater⟩ := creation_run respond ()
      [(.memory .delta, 1000), (idle, 1000)] [(KeyMap.empty, [0, 1])]
      (views.map (.registerView 0)) 0 (.named "m") (instrument none) 0 c hanswer
    exact ⟨c, hanswer, hresolution, (hlater ()).2 later⟩

end System

end Metering
