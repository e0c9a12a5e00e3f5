import Metering.Proofs.Lifetimes.Callbacks

/-!
# Making Instruments

A request ends in one of three ways: it is refused and leaves the frame alone, it finds a living
instrument under an equal key, or it builds one. The handle that is handed out holds a transient
reference in both of the latter cases, and a built instrument is entered in the cache of its
provider and in the registries of its readers before anybody can drop that handle.
-/

namespace Metering

variable {α : Type}

/-! ## Opening streams -/

/-- A stream gets a number exactly on an open reader, namely the next one. -/
theorem Reader.register_eq_some {reader : Reader α} {s : RegisteredStream α} {n : Nat} :
    (reader.register s).1 = some n ↔ reader.closed = false ∧ n = reader.nextStream := by
  unfold Reader.register
  cases reader.closed with
  | true => simp
  | false => simp [eq_comm]

/-- A reader that gives a stream no number does not take it. -/
theorem Reader.register_eq_none {reader : Reader α} {s : RegisteredStream α}
    (h : (reader.register s).1 = none) : (reader.register s).2 = reader := by
  unfold Reader.register at h ⊢
  split
  · rfl
  · rename_i hopen
    simp [hopen] at h

namespace System

variable {sys : System α} {i p : Nat} {provider : Provider α} {key : InstrumentKey}
  {plans : List (StreamPlan α)} {resource : Resource} {scope : Scope}
  {observer : Option ObserverRef}

/-- Offers a stream to a reader; says under which number it was taken. -/
def place (sys : System α) (r : Nat) (stream : RegisteredStream α) : Option Nat × System α :=
  (sys.readers[r]?.bind fun reader => (reader.register stream).1,
    sys.modifyReader r fun reader => (reader.register stream).2)

/-- The stream that a plan stands for, which begins now. -/
def planned (sys : System α) (resource : Resource) (scope : Scope) (observer : Option ObserverRef)
    (plan : StreamPlan α) : RegisteredStream α :=
  plan.stream sys.now resource scope observer

theorem openStreams_cons (plan : StreamPlan α) (rest : List (StreamPlan α)) :
    sys.openStreams resource scope observer (plan :: rest) =
      ((sys.place plan.reader (sys.planned resource scope observer plan)).1.toList.map
          (plan.reader, ·) ++
        ((sys.place plan.reader (sys.planned resource scope observer plan)).2.openStreams resource
          scope observer rest).1,
      ((sys.place plan.reader (sys.planned resource scope observer plan)).2.openStreams resource
        scope observer rest).2) := rfl

/-- Opening streams changes nothing but readers. -/
theorem openStreams_snd (sys : System α) (plans : List (StreamPlan α)) :
    (sys.openStreams resource scope observer plans).2 =
      { sys with readers := (sys.openStreams resource scope observer plans).2.readers } := by
  induction plans generalizing sys with
  | nil => rfl
  | cons plan rest ih => exact ih _

/-- A stream that is taken is entered at the end of both books. -/
theorem registered_place {built live : List (Nat × Nat)} (h : Registered sys.readers built live)
    (r : Nat) (stream : RegisteredStream α) :
    Registered (sys.place r stream).2.readers
      (built ++ (sys.place r stream).1.toList.map (r, ·))
      (live ++ (sys.place r stream).1.toList.map (r, ·)) := by
  cases hnumber : (sys.place r stream).1 with
  | none =>
    -- A reader that gives no number is missing or closed, and stays as it is.
    simp only [Option.toList_none, List.map_nil, List.append_nil]
    refine h.of_outline_eq (map_modify_of_eq fun reader hreader => ?_)
    have hnone : (reader.register stream).1 = none := by simpa [place, hreader] using hnumber
    rw [Reader.register_eq_none hnone]
  | some n =>
    obtain ⟨reader, hr, hn⟩ := Option.bind_eq_some_iff.mp hnumber
    obtain ⟨hopen, rfl⟩ := Reader.register_eq_some.mp hn
    exact h.register hr hopen stream

/-- The streams that were opened are entered at the end of both books. -/
theorem registered_openStreams {built live : List (Nat × Nat)}
    (h : Registered sys.readers built live) (plans : List (StreamPlan α)) :
    Registered (sys.openStreams resource scope observer plans).2.readers
      (built ++ (sys.openStreams resource scope observer plans).1)
      (live ++ (sys.openStreams resource scope observer plans).1) := by
  induction plans generalizing sys built live with
  | nil => simpa [openStreams] using h
  | cons plan rest ih =>
    rw [openStreams_cons, ← List.append_assoc, ← List.append_assoc]
    exact ih (registered_place h plan.reader _)

/-! ## Building -/

/-- The streams of an instrument that is built from plans, and the readers that have them. -/
def opening (sys : System α) (p : Nat) (provider : Provider α) (key : InstrumentKey)
    (plans : List (StreamPlan α)) : List (Nat × Nat) × System α :=
  sys.openStreams provider.resource key.scope
    ((if key.identity.kind.isAsynchronous then some provider.nextObserver else none).map (⟨p, ·⟩))
    plans

/-- An instrument that was just built, with the reference of the handle that is made for it. -/
def newborn (sys : System α) (p : Nat) (provider : Provider α) (key : InstrumentKey)
    (plans : List (StreamPlan α)) : BuiltInstrument :=
  { provider := p
    key
    observer := if key.identity.kind.isAsynchronous then some provider.nextObserver else none
    streams := (sys.opening p provider key plans).1
    lifetime := ⟨1, 0, false, [sys.instruments.length]⟩ }

/-- A system in which an instrument was built and a first reference taken on it. -/
def withNewborn (sys : System α) (p : Nat) (provider : Provider α) (key : InstrumentKey)
    (plans : List (StreamPlan α)) : System α :=
  { sys with
    readers := (sys.opening p provider key plans).2.readers
    instruments := sys.instruments ++ [sys.newborn p provider key plans]
    providers := sys.providers.modify p fun q =>
      { q with
        cache := q.cache.insert key sys.instruments.length
        nextObserver := q.nextObserver + (sys.newborn p provider key plans).observer.toList.length } }

theorem opening_eq (sys : System α) (p : Nat) (provider : Provider α) (key : InstrumentKey)
    (plans : List (StreamPlan α)) :
    sys.opening p provider key plans =
      ((sys.opening p provider key plans).1,
        { sys with readers := (sys.opening p provider key plans).2.readers }) :=
  Prod.ext rfl (openStreams_snd sys plans)

theorem build_fst (sys : System α) (p : Nat) (provider : Provider α) (key : InstrumentKey)
    (plans : List (StreamPlan α)) : (sys.build p provider key plans).1 = sys.instruments.length := by
  show (sys.opening p provider key plans).2.instruments.length = _
  rw [opening_eq]

theorem acquire_build (sys : System α) (p : Nat) (provider : Provider α) (key : InstrumentKey)
    (plans : List (StreamPlan α)) :
    ((sys.build p provider key plans).2.acquire sys.instruments.length .transient).2 =
      sys.withNewborn p provider key plans := by
  have hopening := opening_eq sys p provider key plans
  -- Before its first reference, a built instrument differs from the newborn in the count only.
  have hbuild : (sys.build p provider key plans).2 =
      { sys.withNewborn p provider key plans with
        instruments := sys.instruments ++
          [{ sys.newborn p provider key plans with
            lifetime := ⟨0, 0, false, [sys.instruments.length]⟩ }] } := by
    simp only [withNewborn, newborn]
    unfold opening at hopening ⊢
    simp only [build]
    rw [hopening]
    rfl
  rw [hbuild]
  simp [acquire, Lifetime.acquire, setLifetime, withNewborn, newborn, Lifetime.withCount,
    Lifetime.count, modify_concat]

/-- An instrument in a list with one more at the end is the last or one of the others. -/
theorem getElem?_withNewborn {j : Nat} {b : BuiltInstrument}
    (hb : (sys.withNewborn p provider key plans).instruments[j]? = some b) :
    (j = sys.instruments.length ∧ b = sys.newborn p provider key plans) ∨
      (j < sys.instruments.length ∧ sys.instruments[j]? = some b) := by
  have hb : (sys.instruments ++ [sys.newborn p provider key plans])[j]? = some b := hb
  rcases Nat.lt_or_ge j sys.instruments.length with hj | hj
  · rw [List.getElem?_append_left hj] at hb
    exact .inr ⟨hj, hb⟩
  · rw [List.getElem?_append_right hj] at hb
    obtain ⟨hlt, hget⟩ := List.getElem?_eq_some_iff.mp hb
    simp only [List.length_singleton] at hlt
    refine .inl ⟨by omega, ?_⟩
    simpa using hget.symm

theorem getElem?_withNewborn_last (sys : System α) (p : Nat) (provider : Provider α)
    (key : InstrumentKey) (plans : List (StreamPlan α)) :
    (sys.withNewborn p provider key plans).instruments[sys.instruments.length]? =
      some (sys.newborn p provider key plans) := by
  show (sys.instruments ++ [_])[sys.instruments.length]? = _
  rw [List.getElem?_append_right (Nat.le_refl _), Nat.sub_self]
  rfl

theorem getElem?_withNewborn_of_lt {j : Nat} (hj : j < sys.instruments.length) :
    (sys.withNewborn p provider key plans).instruments[j]? = sys.instruments[j]? := by
  show (sys.instruments ++ [_])[j]? = _
  rw [List.getElem?_append_left hj]

/-- Besides the newborn, those are alive that were alive. -/
theorem exists_alive_withNewborn_iff {j q : Nat} {k : InstrumentKey} :
    (∃ b, (sys.withNewborn p provider key plans).instruments[j]? = some b ∧
        b.lifetime.stale = false ∧ b.provider = q ∧ b.key = k) ↔
      (∃ b, sys.instruments[j]? = some b ∧ b.lifetime.stale = false ∧ b.provider = q ∧
        b.key = k) ∨ (j = sys.instruments.length ∧ p = q ∧ key = k) := by
  constructor
  · rintro ⟨b, hb, hrest⟩
    rcases getElem?_withNewborn hb with ⟨rfl, rfl⟩ | ⟨-, hb⟩
    · exact .inr ⟨rfl, hrest.2.1, hrest.2.2⟩
    · exact .inl ⟨b, hb, hrest⟩
  · rintro (⟨b, hb, hrest⟩ | ⟨rfl, rfl, rfl⟩)
    · refine ⟨b, ?_, hrest⟩
      rw [getElem?_withNewborn_of_lt (List.getElem?_eq_some_iff.mp hb).1, hb]
    · exact ⟨_, getElem?_withNewborn_last .., rfl, rfl, rfl⟩

/-- The newborn is cached with the others when nothing was cached under its key. -/
theorem Cached.withNewborn {q : Provider α} (h : Cached sys) (hp : sys.providers[p]? = some q)
    (hnew : ∀ e ∈ q.cache.entries, (e.1 == key) = false) :
    Cached (sys.withNewborn p provider key plans) := by
  intro r provider' hr k j
  -- Without the newborn the caches are right; it is asked for separately.
  rw [exists_alive_withNewborn_iff]
  rcases getElem?_modify_cases hr with ⟨rfl, x, hx, rfl⟩ | ⟨hne, hr⟩
  · -- The key is new to this cache, so the newborn's entry replaces none.
    obtain rfl := Option.some.inj (hx.symm.trans hp)
    simp only [Table.entries_insert_of_new hnew, List.mem_append, List.mem_singleton,
      Prod.mk.injEq, true_and]
    rw [h p x hp k j]
    constructor
    · rintro (hold | ⟨rfl, rfl⟩)
      · exact .inl hold
      · exact .inr ⟨rfl, rfl⟩
    · rintro (hold | ⟨rfl, rfl⟩)
      · exact .inl hold
      · exact .inr ⟨rfl, rfl⟩
  · rw [h r provider' hr k j]
    constructor
    · exact .inl
    · rintro (hold | ⟨-, hpr, -⟩)
      · exact hold
      · exact absurd hpr hne

/-- The newborn is housed with the others when nothing was cached under its key. -/
theorem Housed.withNewborn {q : Provider α} (h : Housed sys) (hp : sys.providers[p]? = some q)
    (hnew : ∀ e ∈ q.cache.entries, (e.1 == key) = false) :
    Housed (sys.withNewborn p provider key plans) := by
  refine ⟨?_, Cached.withNewborn h.cached hp hnew, ?_⟩
  · intro j b hb
    show b.provider < (sys.providers.modify p _).length
    rw [List.length_modify]
    rcases getElem?_withNewborn hb with ⟨-, rfl⟩ | ⟨-, hb⟩
    · exact (List.getElem?_eq_some_iff.mp hp).1
    · exact h.owned j b hb
  · have hbuilt : (sys.withNewborn p provider key plans).builtStreams =
        sys.builtStreams ++ (sys.opening p provider key plans).1 := by
      simp [builtStreams, System.withNewborn, newborn]
    have hlive : (sys.withNewborn p provider key plans).liveStreams =
        sys.liveStreams ++ (sys.opening p provider key plans).1 := by
      simp [liveStreams, System.withNewborn, newborn, BuiltInstrument.liveStreams]
    rw [hbuilt, hlive]
    exact registered_openStreams h.registered plans

/-! ## The reference of the first handle -/

/-- A built instrument starts with the one reference that its first handle is made of. -/
theorem Balanced.withNewborn {claims : Claims} {q : Provider α} (h : Balanced sys claims)
    (hp : sys.providers[p]? = some q) (hnew : ∀ e ∈ q.cache.entries, (e.1 == key) = false)
    (hunclaimed : ∀ f, claims sys.instruments.length f = 0) :
    Balanced (sys.withNewborn p provider key plans)
      (claims.bump sys.instruments.length .transient) :=
  .of_tallied (h.tallied.concat rfl hunclaimed) (h.housed.withNewborn hp hnew)

theorem claims_withNewborn :
    (sys.withNewborn p provider key plans).roster.claims = sys.roster.claims := by
  have hcallbacks : (sys.withNewborn p provider key plans).roster.callbacks =
      sys.roster.callbacks := map_modify_of_eq fun _ _ => rfl
  funext j f
  cases f with
  | transient => rfl
  | persistent => simp only [Roster.claims, Roster.references, hcallbacks]

theorem formed_withNewborn (h : sys.roster.Formed) :
    (sys.withNewborn p provider key plans).roster.Formed := by
  have hcallbacks : (sys.withNewborn p provider key plans).roster.callbacks =
      sys.roster.callbacks := map_modify_of_eq fun _ _ => rfl
  have hinstruments : (sys.withNewborn p provider key plans).roster.instruments =
      sys.roster.instruments ++
        [(p, key, (sys.newborn p provider key plans).observer,
          (sys.newborn p provider key plans).streams)] := by
    simp [roster, System.withNewborn, newborn]
  have hobserver {j : Nat} (hj : j < sys.roster.instruments.length) :
      (sys.withNewborn p provider key plans).roster.observer? j = sys.roster.observer? j := by
    simp only [Roster.observer?, hinstruments, List.getElem?_append_left hj]
  refine ⟨h.handles_lt, ?_, ?_, ?_, ?_, ?_⟩
  · intro j hj
    rw [hinstruments, List.length_append]
    exact Nat.lt_of_lt_of_le (h.handles_built j hj) (Nat.le_add_right ..)
  · rw [hcallbacks]
    exact h.callbacks_lt
  · -- Callbacks refer to instruments that were built before, and these keep their numbers.
    intro c hc registration hr
    rw [hcallbacks] at hc
    rw [← h.feeds c hc registration hr]
    apply List.map_congr_left
    intro j hj
    apply hobserver
    refine h.lt_of_reference (List.mem_flatMap.mpr ⟨c, hc, ?_⟩)
    exact List.mem_flatMap.mpr ⟨registration, hr, hj⟩
  · intro x hx
    rw [hinstruments] at hx
    rcases List.mem_append.mp hx with hx | hx
    · exact h.observers x hx
    · obtain rfl := List.mem_singleton.mp hx
      simp only [newborn]
      split <;> simp [*]
  · rw [hcallbacks]
    exact h.held

/-- Whatever is cached is alive, so when nothing living is found under a key, nothing is cached
there. -/
theorem forall_ne_of_filter_isAlive {q : Provider α} (h : Cached sys)
    (hp : sys.providers[p]? = some q) (hnone : (q.cache.find? key).filter sys.isAlive = none) :
    ∀ e ∈ q.cache.entries, (e.1 == key) = false := by
  refine Table.find?_eq_none_iff.mp ?_
  cases hfind : q.cache.find? key with
  | none => rfl
  | some found =>
    obtain ⟨k, hmem, -⟩ := Table.exists_of_find?_eq_some hfind
    obtain ⟨b, hb, hstale, -⟩ := (h p q hp k found).mp hmem
    have halive : sys.isAlive found = true := isAlive_iff.mpr ⟨b, hb, hstale⟩
    simp [hfind, halive] at hnone

/-- An asynchronous instrument can be given callbacks once it has a handle, which keeps it alive. -/
theorem Balanced.feedable_adopt {number : Nat} (h : Balanced sys (sys.roster.claims.bump i .transient))
    (hformed : sys.roster.Formed) (hbuilt : i < sys.instruments.length)
    (hp : p < sys.providers.length)
    (hobserver : sys.instruments[i]?.bind (·.observer) = some number) :
    Feedable (sys.adopt i).2 p number i := by
  have hadopted : Coherent (sys.adopt i).2 := h.adopt hformed hbuilt
  have hhandle : (sys.adopt i).2.handles.find? sys.nextHandle = some i := by
    simp [System.adopt, Table.find?_insert]
  refine ⟨hadopted, hp, hadopted.isAlive_of_handle hhandle, ?_⟩
  rw [observer?_roster]
  exact hobserver

/-! ## Requests -/

variable [Quantity α]

/-- The three ways in which a request for an instrument ends. -/
theorem procure_cases (sys : System α) (p : Nat) (provider : Provider α) (scope : Scope)
    (i : Instrument α) :
    (∃ e entries, sys.plan provider scope i = (entries, .error e) ∧
      sys.procure p provider scope i = (.error e, sys.write entries)) ∨
    (∃ found, provider.cache.find? ⟨scope, i.identity⟩ = some found ∧ sys.isAlive found = true ∧
      sys.procure p provider scope i = (.ok found, (sys.acquire found .transient).2)) ∨
    (∃ entries plans, (provider.cache.find? ⟨scope, i.identity⟩).filter sys.isAlive = none ∧
      sys.plan provider scope i = (entries, .ok plans) ∧
      sys.procure p provider scope i =
        (.ok sys.instruments.length,
          (sys.write entries).withNewborn p provider ⟨scope, i.identity⟩ plans)) := by
  unfold procure findOrBuild
  cases hfound : (provider.cache.find? ⟨scope, i.identity⟩).filter sys.isAlive with
  | some found =>
    obtain ⟨hcached, halive⟩ := Option.filter_eq_some_iff.mp hfound
    exact .inr (.inl ⟨found, hcached, halive, by simp [hfound]⟩)
  | none =>
    rcases hplan : sys.plan provider scope i with ⟨entries, outcome⟩
    cases outcome with
    | error e => exact .inl ⟨e, entries, rfl, by simp [hfound]⟩
    | ok plans =>
      refine .inr (.inr ⟨entries, plans, rfl, rfl, ?_⟩)
      have hfst := build_fst (sys.write entries) p provider ⟨scope, i.identity⟩ plans
      have hsnd := acquire_build (sys.write entries) p provider ⟨scope, i.identity⟩ plans
      simp only [hfound]
      rw [hfst]
      exact Prod.ext rfl hsnd

/-- A request that is refused leaves the system coherent; one that is granted ends with a transient
reference on a living instrument, which is yet to become a handle. -/
theorem Coherent.procure {q : Provider α} (h : Coherent sys) (hp : sys.providers[p]? = some q)
    (hcache : q.cache = provider.cache) (scope : Scope) (instrument : Instrument α) :
    match sys.procure p provider scope instrument with
    | (.error _, sys') => Coherent sys'
    | (.ok found, sys') =>
      Balanced sys' (sys'.roster.claims.bump found .transient) ∧ sys'.roster.Formed ∧
        found < sys'.instruments.length ∧ sys'.providers.length = sys.providers.length := by
  rcases procure_cases sys p provider scope instrument with
    ⟨e, entries, -, heq⟩ | ⟨found, hfound, halive, heq⟩ | ⟨entries, plans, hnone, -, heq⟩
  · -- Refused: only the journal has grown.
    rw [heq]
    exact h.of_frame_eq (frame_write sys entries)
  · -- Found: one more reference on a living instrument.
    rw [heq]
    obtain ⟨b, hb, hstale⟩ := isAlive_iff.mp halive
    have hroster := roster_acquire sys found .transient
    obtain ⟨-, hbalanced⟩ := h.balanced.acquire hb hstale .transient
    have hlength : (sys.acquire found .transient).2.instruments.length = sys.instruments.length := by
      simpa using congrArg List.length (profile_acquire sys found .transient)
    refine ⟨hroster ▸ hbalanced, hroster ▸ h.formed, ?_, ?_⟩
    · rw [hlength]
      exact (List.getElem?_eq_some_iff.mp hb).1
    · rw [providers_acquire]
  · -- Built: nothing living is cached under the key, and nobody claims the new number.
    rw [heq]
    have hwritten : Coherent (sys.write entries) := h.of_frame_eq (frame_write sys entries)
    have hnew := forall_ne_of_filter_isAlive h.balanced.housed.cached hp (hcache ▸ hnone)
    have hlength : (sys.write entries).roster.instruments.length = sys.instruments.length := by
      simp [roster, write]
    refine ⟨?_, formed_withNewborn hwritten.formed, ?_, ?_⟩
    · rw [claims_withNewborn]
      exact hwritten.balanced.withNewborn hp hnew
        (hwritten.formed.claims_eq_zero (Nat.le_of_eq hlength))
    · simp [System.withNewborn, write]
    · simp [System.withNewborn, write]

/-- Asking for an instrument keeps the system coherent, whatever comes of it. -/
theorem Coherent.create (h : Coherent sys) (p : Nat) (scope : Scope) (instrument : Instrument α)
    (callbacks : Nat) : Coherent (sys.create p scope instrument callbacks).2 := by
  unfold System.create
  cases hp : sys.providers[p]? with
  | none => exact h
  | some provider =>
    let asked := sys.modifyProvider p (·.withScope scope)
    have hasked : Coherent asked := h.of_frame_eq (frame_withScope p scope)
    have hp' : asked.providers[p]? = some (provider.withScope scope) := getElem?_modify_of_some _ hp
    have hprocured := hasked.procure hp' (cache_withScope provider scope)
      (provider.meterScope scope) instrument
    simp only
    cases instrument.check with
    | error e => exact hasked
    | ok _ =>
      simp only
      rcases hresult : asked.procure p provider (provider.meterScope scope) instrument with
        ⟨_ | found, granted⟩
      · rw [hresult] at hprocured
        exact hprocured
      · rw [hresult] at hprocured
        obtain ⟨hbalanced, hformed, hbuilt, hlength⟩ := hprocured
        simp only
        cases hobserver : granted.instruments[found]?.bind (·.observer) with
        | none => exact hbalanced.adopt hformed hbuilt
        | some number =>
          have hprovided : p < granted.providers.length := by
            rw [hlength]
            exact (List.getElem?_eq_some_iff.mp hp').1
          exact (hbalanced.feedable_adopt hformed hbuilt hprovided hobserver).registerSingles callbacks

end System

end Metering
