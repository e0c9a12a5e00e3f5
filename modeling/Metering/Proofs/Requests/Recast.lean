import Metering.Proofs.ListLaws
import Metering.System.Command

/-!
# Systems with Other Memories

Two things that a system keeps make no difference to what is done to it: what is in its journal
already, and, apart from the scope of a meter that is asked for, the scopes that a provider has
meters for. A system is recast when both are replaced. Every operation gives the same result on a
recast system, and leaves the system that it would have left, recast.
-/

namespace Metering

variable {α : Type}

/-- The scopes of one provider, and an older part of the journal. -/
structure Memory (α : Type) where
  provider : Nat
  scopes : List Scope
  journal : List (JournalEntry α)

namespace Memory

/-- A provider with the number has the scopes instead of its own. -/
def into (m : Memory α) (p : Nat) (provider : Provider α) : Provider α :=
  if m.provider = p then { provider with scopes := m.scopes } else provider

/-- Whatever its number, a provider only gets other scopes. -/
theorem exists_into (m : Memory α) (p : Nat) (provider : Provider α) :
    ∃ scopes, m.into p provider = { provider with scopes } := by
  unfold into
  split
  · exact ⟨m.scopes, rfl⟩
  · exact ⟨provider.scopes, rfl⟩

end Memory

namespace System

/-- The system with the memory instead of its own: the provider has other scopes, and the journal
follows on an older part. -/
def recast (sys : System α) (m : Memory α) : System α :=
  { sys with
    providers := sys.providers.modify m.provider fun provider => { provider with scopes := m.scopes }
    journal := m.journal ++ sys.journal }

variable (m : Memory α) (sys : System α)

/-! ## Parts -/

theorem recast_readers : (sys.recast m).readers = sys.readers := rfl

theorem recast_instruments : (sys.recast m).instruments = sys.instruments := rfl

theorem recast_handles : (sys.recast m).handles = sys.handles := rfl

theorem recast_instrument? (handle : Nat) : (sys.recast m).instrument? handle = sys.instrument? handle :=
  rfl

theorem getElem?_recast (p : Nat) :
    (sys.recast m).providers[p]? = sys.providers[p]?.map (m.into p) := by
  show (sys.providers.modify _ _)[p]? = _
  rw [List.getElem?_modify]
  rfl

theorem getElem?_recast_self {provider : Provider α}
    (h : sys.providers[m.provider]? = some provider) :
    (sys.recast m).providers[m.provider]? = some { provider with scopes := m.scopes } := by
  rw [getElem?_recast, h, Option.map_some, Memory.into, if_pos rfl]

theorem getElem?_recast_of_ne {p : Nat} (h : m.provider ≠ p) :
    (sys.recast m).providers[p]? = sys.providers[p]? := by
  have hsame : m.into p = id := funext fun provider => if_neg h
  rw [getElem?_recast, hsame, Option.map_id_fun, id]

theorem getElem?_recast_of_none {p : Nat} (h : sys.providers[p]? = none) :
    (sys.recast m).providers[p]? = none := by
  rw [getElem?_recast, h, Option.map_none]

/-- What does not see the scopes of providers sees no difference. -/
theorem map_providers_recast {β : Type} {f : Provider α → β}
    (h : ∀ (provider : Provider α) scopes, f { provider with scopes } = f provider) :
    (sys.recast m).providers.map f = sys.providers.map f :=
  map_modify_of_eq fun provider _ => h provider m.scopes

theorem recast_write (entries : List (JournalEntry α)) :
    (sys.recast m).write entries = (sys.write entries).recast m := by
  simp [recast, write, List.append_assoc]

/-- A change of a provider for which it makes no difference whether its scopes are replaced first can
be made before or after. -/
theorem recast_modifyProvider_of_into (p : Nat) {f : Provider α → Provider α}
    (h : ∀ provider, f (m.into p provider) = m.into p (f provider)) :
    (sys.recast m).modifyProvider p f = (sys.modifyProvider p f).recast m := by
  have hproviders : (sys.recast m).providers.modify p f =
      (sys.providers.modify p f).modify m.provider fun provider =>
        { provider with scopes := m.scopes } := by
    refine List.ext_getElem? fun q => ?_
    show ((sys.recast m).providers.modify p f)[q]? = _
    rw [List.getElem?_modify, List.getElem?_modify, List.getElem?_modify, getElem?_recast]
    cases sys.providers[q]? with
    | none => rfl
    | some provider =>
      by_cases hq : p = q
      · subst hq
        simpa [Memory.into] using h provider
      · simp [hq, Memory.into]
  simp only [modifyProvider, hproviders]
  rfl

/-- A change of a provider that does not touch its scopes can be made before or after. -/
theorem recast_modifyProvider (p : Nat) {f : Provider α → Provider α}
    (h : ∀ (provider : Provider α) scopes,
      f { provider with scopes } = { f provider with scopes }) :
    (sys.recast m).modifyProvider p f = (sys.modifyProvider p f).recast m := by
  refine recast_modifyProvider_of_into m sys p fun provider => ?_
  unfold Memory.into
  split
  · exact h provider m.scopes
  · rfl

/-- A change of a provider whose scopes are not replaced can be made before or after. -/
theorem recast_modifyProvider_of_ne {p : Nat} (h : m.provider ≠ p) (f : Provider α → Provider α) :
    (sys.recast m).modifyProvider p f = (sys.modifyProvider p f).recast m := by
  refine recast_modifyProvider_of_into m sys p fun provider => ?_
  unfold Memory.into
  rw [if_neg h, if_neg h]

theorem recast_foldl {β : Type} {f : System α → β → System α}
    (h : ∀ sys x, f (sys.recast m) x = (f sys x).recast m) (xs : List β) :
    xs.foldl f (sys.recast m) = (xs.foldl f sys).recast m := by
  induction xs generalizing sys with
  | nil => rfl
  | cons x rest ih =>
    rw [List.foldl_cons, h]
    exact ih _

/-! ## References -/

theorem recast_acquire (i : Nat) (f : Flavour) :
    (sys.recast m).acquire i f = ((sys.acquire i f).1, (sys.acquire i f).2.recast m) := by
  simp only [acquire, recast_instruments]
  cases sys.instruments[i]? <;> rfl

theorem recast_relinquish (i : Nat) (f : Flavour) :
    (sys.recast m).relinquish i f = ((sys.relinquish i f).1, (sys.relinquish i f).2.recast m) := by
  simp only [relinquish, recast_instruments]
  cases sys.instruments[i]? <;> rfl

theorem recast_teardown (i : Nat) : (sys.recast m).teardown i = (sys.teardown i).recast m := by
  simp only [teardown, recast_instruments]
  cases sys.instruments[i]? with
  | none => rfl
  | some b =>
    simp only
    rw [recast_modifyProvider]
    · exact recast_foldl m _ (fun _ _ => rfl) _
    · intro provider scopes
      simp only [Provider.uncache]
      split <;> rfl

theorem recast_adopt (i : Nat) :
    (sys.recast m).adopt i = ((sys.adopt i).1, (sys.adopt i).2.recast m) := rfl

theorem recast_release (i : Nat) (f : Flavour) :
    (sys.recast m).release i f = (sys.release i f).recast m := by
  simp only [release, recast_relinquish]
  exact recast_foldl m _ (recast_teardown m) _

/-! ## Handles and callbacks -/

theorem recast_cloneHandle (handle : Nat) :
    (sys.recast m).cloneHandle handle =
      ((sys.cloneHandle handle).1, (sys.cloneHandle handle).2.recast m) := by
  simp only [cloneHandle, recast_handles]
  cases sys.handles.find? handle with
  | none => rfl
  | some i =>
    simp only [recast_acquire]
    rfl

theorem recast_cloneHandles (handles : List Nat) :
    (sys.recast m).cloneHandles handles =
      ((sys.cloneHandles handles).1, (sys.cloneHandles handles).2.recast m) := by
  induction handles generalizing sys with
  | nil => rfl
  | cons handle rest ih => simp only [cloneHandles, recast_cloneHandle, ih]

theorem recast_dropHandle (handle : Nat) :
    (sys.recast m).dropHandle handle = (sys.dropHandle handle).recast m := by
  simp only [dropHandle, recast_handles]
  cases sys.handles.find? handle with
  | none => rfl
  | some i => exact recast_release m { sys with handles := sys.handles.erase handle } i .transient

theorem recast_acquireAll (is : List Nat) :
    (sys.recast m).acquireAll is = ((sys.acquireAll is).1, (sys.acquireAll is).2.recast m) := by
  induction is generalizing sys with
  | nil => rfl
  | cons i rest ih => simp only [acquireAll, recast_acquire, ih]

theorem recast_registerCallback (p : Nat) (feed : Feed) (is captured : List Nat) :
    (sys.recast m).registerCallback p feed is captured =
      ((sys.registerCallback p feed is captured).1,
        (sys.registerCallback p feed is captured).2.recast m) := by
  have hnumber : (sys.recast m).providers[p]?.map (·.nextCallback) =
      sys.providers[p]?.map (·.nextCallback) :=
    map_getElem?_of_map_eq (map_providers_recast m sys fun _ _ => rfl) p
  simp only [registerCallback, recast_acquireAll, hnumber]
  split
  · rw [recast_write, recast_modifyProvider _ _ _ fun _ _ => rfl]
  · rw [recast_modifyProvider _ _ _ fun _ _ => rfl]

theorem recast_registerSingles (p number i n : Nat) :
    (sys.recast m).registerSingles p number i n =
      ((sys.registerSingles p number i n).1, (sys.registerSingles p number i n).2.recast m) := by
  induction n generalizing sys with
  | zero => rfl
  | succ n ih => simp only [registerSingles, recast_registerCallback, ih]

theorem recast_register (handle : Nat) :
    (sys.recast m).register handle = ((sys.register handle).1, (sys.register handle).2.recast m) := by
  simp only [register, recast_instrument?]
  cases sys.instrument? handle with
  | none => rfl
  | some x =>
    obtain ⟨i, b⟩ := x
    simp only [recast_registerCallback]
    cases b.observer <;> rfl

theorem recast_detach (c : CallbackRef) : (sys.recast m).detach c = (sys.detach c).recast m := by
  have hfound : (sys.recast m).providers[c.provider]?.bind (·.callbacks.find? c.number) =
      sys.providers[c.provider]?.bind (·.callbacks.find? c.number) := by
    rw [getElem?_recast]
    cases sys.providers[c.provider]? with
    | none => rfl
    | some provider =>
      obtain ⟨scopes, hinto⟩ := m.exists_into c.provider provider
      simp [hinto]
  simp only [detach, hfound]
  cases sys.providers[c.provider]?.bind (·.callbacks.find? c.number) with
  | none => rfl
  | some registration =>
    simp only [dissolve]
    rw [recast_modifyProvider _ _ _ fun _ _ => rfl,
      recast_foldl m _ (fun sys i => recast_release m sys i .persistent)]
    exact recast_foldl m _ (recast_dropHandle m) _

/-! ## What is let go -/

theorem keepsReader_recast (r : Nat) : (sys.recast m).keepsReader r = sys.keepsReader r := by
  have hany (providers : List (Provider α)) :
      providers.any (fun p => p.held && p.readers.contains r) =
        (providers.map fun p => p.held && p.readers.contains r).any id := by
    rw [List.any_map]
    rfl
  simp only [keepsReader]
  rw [hany, hany, map_providers_recast m sys fun _ _ => rfl]
  rfl

theorem recast_clearReaders : (sys.recast m).clearReaders = sys.clearReaders.recast m := by
  simp only [clearReaders, keepsReader_recast]
  rfl

theorem keepsCallbacks_recast (p : Nat) : (sys.recast m).keepsCallbacks p = sys.keepsCallbacks p := by
  have hheld : (sys.recast m).providers[p]?.any (·.held) = sys.providers[p]?.any (·.held) := by
    rw [getElem?_recast]
    cases sys.providers[p]? with
    | none => rfl
    | some provider =>
      obtain ⟨scopes, hinto⟩ := m.exists_into p provider
      simp [hinto]
  simp only [keepsCallbacks, hheld]
  rfl

theorem abandoned?_recast :
    (sys.recast m).abandoned? = sys.abandoned?.map fun found => (found.1, m.into found.1 found.2) := by
  have hnumbered : (sys.recast m).providers.zipIdx =
      sys.providers.zipIdx.map fun e => (m.into e.2 e.1, e.2) := by
    refine List.ext_getElem? fun q => ?_
    simp only [List.getElem?_zipIdx, List.getElem?_map, getElem?_recast, Option.map_map,
      Nat.zero_add]
    rfl
  simp only [abandoned?, hnumbered, List.find?_map, Option.map_map, keepsCallbacks_recast]
  have hsame (e : Provider α × Nat) :
      (m.into e.2 e.1).callbacks.entries.isEmpty = e.1.callbacks.entries.isEmpty := by
    obtain ⟨scopes, hinto⟩ := m.exists_into e.2 e.1
    rw [hinto]
  simp only [Function.comp_def, hsame]

theorem recast_clearCallbacks (n : Nat) :
    (sys.recast m).clearCallbacks n = (sys.clearCallbacks n).recast m := by
  induction n generalizing sys with
  | zero => rfl
  | succ n ih =>
    simp only [clearCallbacks, abandoned?_recast]
    cases sys.abandoned? with
    | none => rfl
    | some found =>
      obtain ⟨p, provider⟩ := found
      obtain ⟨scopes, hinto⟩ := m.exists_into p provider
      simp only [Option.map_some, hinto]
      rw [recast_modifyProvider _ _ _ fun _ _ => rfl, recast_foldl m _ (recast_dropHandle m)]
      exact ih _

theorem recast_reclaim : (sys.recast m).reclaim = sys.reclaim.recast m := by
  have hall (providers : List (Provider α)) :
      providers.all (·.held) = (providers.map (·.held)).all id := by
    rw [List.all_map]
    rfl
  have hlength : (sys.recast m).providers.length = sys.providers.length := List.length_modify ..
  simp only [reclaim, hlength]
  rw [hall, hall, map_providers_recast m sys fun _ _ => rfl]
  split
  · rfl
  · rw [recast_clearReaders, recast_clearCallbacks]

theorem recast_dropProvider (p : Nat) :
    (sys.recast m).dropProvider p = (sys.dropProvider p).recast m := by
  simp only [dropProvider]
  rw [recast_modifyProvider _ _ _ fun _ _ => rfl, recast_reclaim]

theorem recast_dropReader (r : Nat) : (sys.recast m).dropReader r = (sys.dropReader r).recast m :=
  recast_reclaim m (sys.modifyReader r fun reader => { reader with held := false })

/-! ## Measurements and passes -/

variable [Quantity α]

theorem recast_writeTo (value : α) (attributes : Attributes) (draw : Nat → Nat)
    (streams : List (Nat × Nat)) :
    (sys.recast m).writeTo value attributes draw streams =
      (sys.writeTo value attributes draw streams).recast m :=
  recast_foldl m sys (fun _ _ => rfl) streams.zipIdx

theorem recast_record (handle : Nat) (value : α) (attributes : List Attribute) (draw : Nat → Nat) :
    (sys.recast m).record handle value attributes draw =
      (sys.record handle value attributes draw).recast m := by
  simp only [record, recast_instrument?]
  cases sys.instrument? handle with
  | none => rfl
  | some x =>
    simp only
    split
    · exact recast_write ..
    · exact recast_writeTo ..

omit [Quantity α] in
theorem calls_recast (reader : Reader α) : (sys.recast m).calls reader = sys.calls reader := by
  unfold calls
  refine List.map_congr_left fun e _ => ?_
  rw [getElem?_recast]
  cases sys.providers[e.1]? with
  | none => rfl
  | some provider =>
    obtain ⟨scopes, hinto⟩ := m.exists_into e.1 provider
    simp only [Option.map_some, hinto]
    rfl

section Passes

variable {σ : Type} (respond : Responder σ α) (known : σ)

theorem recast_pass (r : Nat) :
    (sys.recast m).pass respond known r =
      ((sys.pass respond known r).1, (sys.pass respond known r).2.1,
        (sys.pass respond known r).2.2.recast m) := by
  simp only [pass, recast_readers]
  cases sys.readers[r]? with
  | none => rfl
  | some reader =>
    simp only [calls_recast, exportPass]
    rw [show (sys.recast m).now = sys.now from rfl]
    refine Prod.ext rfl (Prod.ext rfl ?_)
    exact recast_write m (sys.modifyReader r _) _

theorem recast_collect (r : Nat) :
    (sys.recast m).collect respond known r =
      ((sys.collect respond known r).1, (sys.collect respond known r).2.1,
        (sys.collect respond known r).2.2.recast m) := by
  show (if sys.isClosed r then _ else _) = _
  unfold collect
  split
  · rfl
  · exact recast_pass ..

theorem recast_flushReader (r : Nat) :
    (sys.recast m).flushReader respond known r =
      ((sys.flushReader respond known r).1, (sys.flushReader respond known r).2.1,
        (sys.flushReader respond known r).2.2.recast m) := by
  show (if sys.isClosed r then _ else _) = _
  unfold flushReader
  split
  · rfl
  · simp only [recast_pass, recast_write]
    rfl

theorem recast_shutdownReader (r : Nat) :
    (sys.recast m).shutdownReader respond known r =
      ((sys.shutdownReader respond known r).1, (sys.shutdownReader respond known r).2.1,
        (sys.shutdownReader respond known r).2.2.recast m) := by
  show (if sys.isClosed r then _ else _) = _
  unfold shutdownReader
  split
  · rfl
  · have hpass := recast_pass m (sys.modifyReader r fun reader => { reader with closed := true })
      respond known r
    have hclosed : (sys.recast m).modifyReader r (fun reader => { reader with closed := true }) =
        (sys.modifyReader r fun reader => { reader with closed := true }).recast m := rfl
    simp only [hclosed, hpass, recast_write]
    rfl

omit [Quantity α] in
theorem recast_eachReader {act : σ → System α → Nat → Bool × σ × System α}
    (hact : ∀ known sys r, act known (recast sys m) r =
      ((act known sys r).1, (act known sys r).2.1, (act known sys r).2.2.recast m))
    (readers : List Nat) :
    eachReader act known (sys.recast m) readers =
      ((eachReader act known sys readers).1, (eachReader act known sys readers).2.1,
        (eachReader act known sys readers).2.2.recast m) := by
  induction readers generalizing sys known with
  | nil => rfl
  | cons r rest ih => simp only [eachReader, hact, ih]

theorem recast_flush (p : Nat) :
    (sys.recast m).flush respond known p =
      ((sys.flush respond known p).1, (sys.flush respond known p).2.1,
        (sys.flush respond known p).2.2.recast m) := by
  unfold flush
  rw [getElem?_recast]
  cases sys.providers[p]? with
  | none => rfl
  | some provider =>
    obtain ⟨scopes, hinto⟩ := m.exists_into p provider
    simp only [Option.map_some, hinto]
    split
    · rfl
    · exact recast_eachReader m sys known
        (fun known sys r => recast_flushReader m sys respond known r) provider.readers

theorem recast_shutdown (p : Nat) :
    (sys.recast m).shutdown respond known p =
      ((sys.shutdown respond known p).1, (sys.shutdown respond known p).2.1,
        (sys.shutdown respond known p).2.2.recast m) := by
  unfold shutdown
  rw [getElem?_recast]
  cases sys.providers[p]? with
  | none => rfl
  | some provider =>
    obtain ⟨scopes, hinto⟩ := m.exists_into p provider
    simp only [Option.map_some, hinto]
    split
    · rfl
    · rw [recast_modifyProvider _ _ _ fun _ _ => rfl]
      exact recast_eachReader m _ known
        (fun known sys r => recast_shutdownReader m sys respond known r) provider.readers

end Passes

/-! ## Requests -/

theorem planStreams_recast (scope : Scope) (i : Instrument α) (pairs : List (Projection α × Nat)) :
    (sys.recast m).planStreams scope i pairs = sys.planStreams scope i pairs := by
  induction pairs with
  | nil => rfl
  | cons pair rest ih =>
    simp only [planStreams, ih]
    rfl

omit [Quantity α] in
theorem recast_openStreams (resource : Resource) (scope : Scope) (observer : Option ObserverRef)
    (plans : List (StreamPlan α)) :
    (sys.recast m).openStreams resource scope observer plans =
      ((sys.openStreams resource scope observer plans).1,
        (sys.openStreams resource scope observer plans).2.recast m) := by
  induction plans generalizing sys with
  | nil => rfl
  | cons plan rest ih =>
    have hrest := ih (sys.modifyReader plan.reader fun r =>
      (r.register (plan.stream sys.now resource scope observer)).2)
    have hplaced : (sys.recast m).modifyReader plan.reader (fun r =>
        (r.register (plan.stream (sys.recast m).now resource scope observer)).2) =
        (sys.modifyReader plan.reader fun r =>
          (r.register (plan.stream sys.now resource scope observer)).2).recast m := rfl
    simp only [openStreams, hplaced, hrest]
    rfl

omit [Quantity α] in
theorem recast_build (p : Nat) (provider : Provider α) (scopes : List Scope) (key : InstrumentKey)
    (plans : List (StreamPlan α)) :
    (sys.recast m).build p { provider with scopes } key plans =
      ((sys.build p provider key plans).1, (sys.build p provider key plans).2.recast m) := by
  simp only [build, recast_openStreams]
  generalize sys.openStreams _ _ _ plans = result
  obtain ⟨streams, opened⟩ := result
  refine Prod.ext rfl (Eq.trans ?_ (recast_modifyProvider m { opened with instruments := _ } p ?_))
  · rfl
  · exact fun _ _ => rfl

theorem recast_findOrBuild (p : Nat) (provider : Provider α) (scopes : List Scope) (scope : Scope)
    (i : Instrument α) :
    (sys.recast m).findOrBuild p { provider with scopes } scope i =
      ((sys.findOrBuild p provider scope i).1, (sys.findOrBuild p provider scope i).2.recast m) := by
  have hplan : (sys.recast m).plan { provider with scopes } scope i = sys.plan provider scope i :=
    planStreams_recast ..
  have halive : (sys.recast m).isAlive = sys.isAlive := rfl
  simp only [findOrBuild, hplan, halive]
  cases (provider.cache.find? ⟨scope, i.identity⟩).filter sys.isAlive with
  | some found => rfl
  | none =>
    rcases sys.plan provider scope i with ⟨entries, plans⟩
    cases plans with
    | error e => exact Prod.ext rfl (recast_write m sys entries)
    | ok plans => simp only [recast_write, recast_build]

theorem recast_procure (p : Nat) (provider : Provider α) (scopes : List Scope) (scope : Scope)
    (i : Instrument α) :
    (sys.recast m).procure p { provider with scopes } scope i =
      ((sys.procure p provider scope i).1, (sys.procure p provider scope i).2.recast m) := by
  simp only [procure, recast_findOrBuild]
  rcases sys.findOrBuild p provider scope i with ⟨found | found, after⟩
  · rfl
  · simp only [recast_acquire]

end System

end Metering
