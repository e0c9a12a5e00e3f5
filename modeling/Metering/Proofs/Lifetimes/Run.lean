import Metering.Proofs.Lifetimes.Collection
import Metering.Proofs.StreamLaws

/-!
# Lifetimes along a Run

Every command keeps a coherent system coherent, as long as no provider is dropped, and a system
starts coherent. So after any run the references counted are the references held, caches and
registries hold the living instruments, and what one instrument is torn down with was never
another's.
-/

namespace Metering

variable {α : Type}

/-- Whether a command lets go of a provider. -/
def Command.dropsProvider : Command α → Bool
  | .dropProvider _ => true
  | _ => false

namespace System

/-- A system of new readers and new providers. -/
def launched (readers : List (Exporter α × Nat)) (providers : List (Resource × List Nat)) : System α :=
  opened (readers.map fun e => .opened e.1 e.2) (providers.map fun e => .opened e.1 e.2)

theorem getElem?_launched_readers {readers : List (Exporter α × Nat)}
    {providers : List (Resource × List Nat)} {r : Nat} {reader : Reader α}
    (h : (launched readers providers).readers[r]? = some reader) :
    ∃ e : Exporter α × Nat, reader = .opened e.1 e.2 := by
  have h : (readers.map fun e => Reader.opened e.1 e.2)[r]? = some reader := h
  rw [List.getElem?_map] at h
  obtain ⟨e, -, rfl⟩ := Option.map_eq_some_iff.mp h
  exact ⟨e, rfl⟩

theorem getElem?_launched_providers {readers : List (Exporter α × Nat)}
    {providers : List (Resource × List Nat)} {p : Nat} {provider : Provider α}
    (h : (launched readers providers).providers[p]? = some provider) :
    ∃ e : Resource × List Nat, provider = .opened e.1 e.2 := by
  have h : (providers.map fun e => Provider.opened e.1 e.2)[p]? = some provider := h
  rw [List.getElem?_map] at h
  obtain ⟨e, -, rfl⟩ := Option.map_eq_some_iff.mp h
  exact ⟨e, rfl⟩

theorem coherent_launched (readers : List (Exporter α × Nat))
    (providers : List (Resource × List Nat)) : Coherent (launched readers providers) := by
  have hnone (i : Nat) : (launched readers providers).instruments[i]? = none := rfl
  have hcallbacks : ∀ c ∈ (launched readers providers).roster.callbacks,
      c = (Table.empty, 0, true) := by
    intro c hc
    obtain ⟨provider, hprovider, rfl⟩ := List.mem_map.mp hc
    obtain ⟨p, hp⟩ := List.mem_iff_getElem?.mp hprovider
    obtain ⟨e, rfl⟩ := getElem?_launched_providers hp
    rfl
  refine ⟨⟨?_, ?_, ?_, ?_, ?_, ?_⟩, ⟨?_, ?_, ?_, ?_, ?_, ?_⟩⟩
  · intro i b hb
    cases (hnone i).symm.trans hb
  · intro i b hb
    cases (hnone i).symm.trans hb
  · intro i b hb
    cases (hnone i).symm.trans hb
  · intro i b hb
    cases (hnone i).symm.trans hb
  · intro p provider hp k i
    obtain ⟨e, rfl⟩ := getElem?_launched_providers hp
    constructor
    · intro hmem
      cases hmem
    · rintro ⟨b, hb, -⟩
      cases (hnone i).symm.trans hb
  · refine ⟨?_, ?_, List.nodup_nil, ?_⟩
    · intro r reader hr
      obtain ⟨e, rfl⟩ := getElem?_launched_readers hr
      rfl
    · intro s hs
      cases hs
    · intro s hs
      cases hs
  · intro h hh
    cases hh
  · intro i hi
    cases hi
  · intro c hc n hn
    rw [hcallbacks c hc] at hn
    cases hn
  · intro c hc registration hr
    rw [hcallbacks c hc] at hr
    cases hr
  · intro x hx
    cases hx
  · intro c hc
    rw [hcallbacks c hc]

/-! ## Steps and runs -/

variable [Quantity α] {sys : System α}

section

variable {σ : Type} (respond : Responder σ α) (known : σ)

/-- Every command but the dropping of a provider keeps the system coherent. -/
theorem Coherent.perform (h : Coherent sys) {c : Command α} (hc : c.dropsProvider = false) :
    Coherent (sys.perform respond known c).2.2 := by
  cases c with
  | advance nanos => exact h.of_frame_eq rfl
  | rewind nanos => exact h.of_frame_eq rfl
  | registerView p view =>
    simp only [System.perform, System.registerView]
    cases view.check with
    | error e => exact h
    | ok _ => exact h.of_frame_eq (frame_modifyProvider (fun _ => rfl) (fun _ => rfl) (fun _ => rfl) fun _ => rfl)
  | meter p scope => exact h.of_frame_eq (frame_withScope p scope)
  | create p scope i callbacks =>
    have hcreate := h.create p scope i callbacks
    simp only [System.perform]
    rcases hresult : sys.create p scope i callbacks with ⟨_ | _ | _, _⟩ <;>
      simpa [hresult] using hcreate
  | clone handle =>
    have hclone := h.cloneHandle handle
    simp only [System.perform]
    rcases hresult : sys.cloneHandle handle with ⟨_ | _, _⟩ <;> simpa [hresult] using hclone
  -- Whatever gives references back also reclaims, which changes nothing while providers are held.
  | drop handle => exact (h.dropHandle handle).reclaim
  | record handle value attributes draw => exact h.of_frame_eq (frame_record ..)
  | register handle =>
    have hregister := h.register handle
    simp only [System.perform]
    rcases hresult : sys.register handle with ⟨_ | _, _⟩ <;> simpa [hresult] using hregister
  | registerBatch p scope handles used =>
    have hbatch := h.registerBatch p scope handles used
    simp only [System.perform]
    rcases hresult : sys.registerBatch p scope handles used with ⟨_ | _, _⟩ <;>
      simpa [hresult] using hbatch
  | detach callback => exact (h.detach callback).reclaim
  | collect r => exact h.of_frame_eq (frame_collect respond known sys r)
  | flushReader r => exact h.of_frame_eq (frame_flushReader respond known sys r)
  | shutdownReader r => exact (h.shutdownReader respond known r).reclaim
  | flush p => exact h.flush respond known p
  | shutdown p => exact (h.shutdown respond known p).reclaim
  | empty r => exact h.of_frame_eq (frame_modifyReader fun _ => rfl)
  | dropProvider p => cases hc
  | dropReader r => exact h.dropReader r

/-- Coherence lasts, by induction on the commands of a run. -/
theorem Coherent.run (h : Coherent sys) {commands : List (Command α)}
    (hcommands : ∀ c ∈ commands, c.dropsProvider = false) :
    Coherent (sys.run respond known commands).2.2 := by
  induction commands generalizing sys known with
  | nil => exact h
  | cons c rest ih =>
    have hstep := h.perform respond known (hcommands c (List.mem_cons_self ..))
    exact ih _ hstep fun c' hc' => hcommands c' (List.mem_cons_of_mem _ hc')

end

/-! ## What lifetimes keep -/

omit [Quantity α] in
/-- Of two instruments, neither has a stream that the other was built with. -/
theorem streams_disjoint (h : sys.builtStreams.Nodup) {i j : Nat} {b b' : BuiltInstrument}
    (hne : i ≠ j) (hi : sys.instruments[i]? = some b) (hj : sys.instruments[j]? = some b')
    {s : Nat × Nat} (hs : s ∈ b'.streams) : s ∉ b.streams := by
  obtain ⟨hilt, rfl⟩ := List.getElem?_eq_some_iff.mp hi
  obtain ⟨hjlt, rfl⟩ := List.getElem?_eq_some_iff.mp hj
  have hpairwise := List.pairwise_iff_getElem.mp (List.nodup_flatMap.mp h).2
  intro hs'
  rcases Nat.lt_or_gt_of_ne hne with hlt | hlt
  · exact hpairwise i j hilt hjlt hlt hs' hs
  · exact hpairwise j i hjlt hilt hlt hs hs'

/-- References, staleness, caches and registries as they should be: references are counted for
handles and for attached callbacks, an instrument is stale when nothing refers to it, and whatever
is not stale is found under its key and in the registries of its open readers. -/
structure LifetimesHold (sys : System α) : Prop where
  transient : ∀ (i : Nat) (b : BuiltInstrument), sys.instruments[i]? = some b →
    b.lifetime.transient = sys.handles.values.count i
  persistent : ∀ (i : Nat) (b : BuiltInstrument), sys.instruments[i]? = some b →
    b.lifetime.persistent = sys.attached.count i
  stale_iff : ∀ (i : Nat) (b : BuiltInstrument), sys.instruments[i]? = some b →
    (b.lifetime.stale = true ↔ b.lifetime.transient = 0 ∧ b.lifetime.persistent = 0)
  /-- An entry of a cache is a living instrument of the provider under its own key. -/
  cached : ∀ (p : Nat) (provider : Provider α), sys.providers[p]? = some provider → ∀ k i,
    (k, i) ∈ provider.cache.entries ↔
      ∃ b : BuiltInstrument, sys.instruments[i]? = some b ∧ b.lifetime.stale = false ∧
        b.provider = p ∧ b.key = k
  cached_once : ∀ (p : Nat) (provider : Provider α), sys.providers[p]? = some provider →
    provider.cache.values.Nodup
  owned : ∀ (i : Nat) (b : BuiltInstrument), sys.instruments[i]? = some b →
    b.provider < sys.providers.length
  /-- A reader lists the streams of living instruments in build order, and none once it is closed. -/
  listed : ∀ (r : Nat) (reader : Reader α), sys.readers[r]? = some reader →
    reader.streams.keys = if reader.closed then [] else numbersOn r sys.liveStreams
  /-- A teardown leaves the streams of every other instrument where they are. -/
  apart : ∀ (i j : Nat) (b : BuiltInstrument), i ≠ j → sys.instruments[j]? = some b →
    ∀ s ∈ b.streams, streamAt (sys.teardown i).readers s = streamAt sys.readers s
  /-- Through a handle further references can be taken, and its own can be given back. -/
  handles : ∀ handle i, sys.handles.find? handle = some i →
    (∀ f, (sys.acquire i f).1 = true) ∧
      ∃ b, sys.instruments[i]? = some b ∧ (b.lifetime.release .transient).1 = true
  /-- A callback holds one reference for each instrument that it feeds, and can give each back. -/
  callbacks : ∀ provider ∈ sys.providers, ∀ registration ∈ provider.callbacks.values,
    registration.references.map (fun i => sys.instruments[i]?.bind (·.observer)) =
        registration.feed.numbers.map some ∧
      ∀ i ∈ registration.references,
        ∃ b, sys.instruments[i]? = some b ∧ (b.lifetime.release .persistent).1 = true

omit [Quantity α] in
theorem Coherent.stale_iff (h : Coherent sys) {i : Nat} {b : BuiltInstrument}
    (hb : sys.instruments[i]? = some b) :
    b.lifetime.stale = true ↔ b.lifetime.transient = 0 ∧ b.lifetime.persistent = 0 := by
  have hcounts := h.balanced.counts i b hb
  rw [h.balanced.stale_iff i b hb]
  constructor
  · intro hzero
    exact ⟨(hcounts .transient).trans (hzero .transient),
      (hcounts .persistent).trans (hzero .persistent)⟩
  · rintro ⟨htransient, hpersistent⟩ f
    rw [← hcounts f]
    cases f
    · exact htransient
    · exact hpersistent

omit [Quantity α] in
/-- A reference that is claimed can be given back. -/
theorem Balanced.release_fst {claims : Claims} (h : Balanced sys claims) {i : Nat} {f : Flavour}
    (hbuilt : i < sys.instruments.length) (hclaim : 0 < claims i f) :
    ∃ b, sys.instruments[i]? = some b ∧ (b.lifetime.release f).1 = true := by
  have hb : sys.instruments[i]? = some sys.instruments[i] := List.getElem?_eq_getElem hbuilt
  have hcount : sys.instruments[i].lifetime.count f ≠ 0 := by
    rw [h.counts i _ hb]
    exact Nat.ne_of_gt hclaim
  exact ⟨_, hb, by simp [Lifetime.release, hcount]⟩

omit [Quantity α] in
theorem Coherent.lifetimesHold (h : Coherent sys) : LifetimesHold sys := by
  have hlength : sys.roster.instruments.length = sys.instruments.length := by simp [roster]
  refine ⟨?_, ?_, ?_, ?_, ?_, ?_, ?_, ?_, ?_, ?_⟩
  · intro i b hb
    exact h.balanced.counts i b hb .transient
  · intro i b hb
    rw [← references_roster]
    exact h.balanced.counts i b hb .persistent
  · intro i b hb
    exact h.stale_iff hb
  · exact h.balanced.housed.cached
  · intro p provider hp
    -- Two entries for one instrument have its key, so they are one entry.
    refine List.Nodup.map_on ?_ (Table.nodup_entries provider.cache)
    rintro ⟨k, i⟩ hx ⟨k', i'⟩ hy rfl
    obtain ⟨b, hb, -, -, rfl⟩ := (h.balanced.housed.cached p provider hp k i).mp hx
    obtain ⟨b', hb', -, -, rfl⟩ := (h.balanced.housed.cached p provider hp k' i).mp hy
    obtain rfl := Option.some.inj (hb.symm.trans hb')
    rfl
  · exact h.balanced.housed.owned
  · exact h.balanced.housed.registered.listed
  · -- What is torn down are the instrument's own streams, and no other instrument has any of them.
    intro i j b hne hb s hs
    cases hi : sys.instruments[i]? with
    | none => simp [teardown, hi]
    | some torn =>
      rw [teardown_eq hi, streamAt_unregisterAll]
      exact if_neg (streams_disjoint h.balanced.housed.registered.nodup hne hi hb hs)
  · -- A handle is a claim, so its instrument is alive and its count is not zero.
    intro handle i hh
    have hmem : i ∈ sys.handles.values := List.mem_map_of_mem (Table.find?_eq_some_iff_mem.mp hh)
    obtain ⟨b, hb, halive⟩ := isAlive_iff.mp (h.isAlive_of_handle hh)
    refine ⟨fun f => (h.balanced.acquire hb halive f).1, ?_⟩
    exact h.balanced.release_fst (hlength ▸ h.formed.handles_built i hmem) (List.count_pos_iff.mpr hmem)
  · -- An attached callback is a claim for each of its references.
    intro provider hprovider registration hregistration
    have hc : (provider.callbacks, provider.nextCallback, provider.held) ∈ sys.roster.callbacks :=
      List.mem_map_of_mem hprovider
    have hfeeds := h.formed.feeds _ hc registration hregistration
    rw [show sys.roster.observer? = fun i => sys.instruments[i]?.bind (·.observer) from
      funext (observer?_roster sys)] at hfeeds
    refine ⟨hfeeds, fun i hi => ?_⟩
    have hmem : i ∈ sys.roster.references :=
      List.mem_flatMap.mpr ⟨_, hc, List.mem_flatMap.mpr ⟨registration, hregistration, hi⟩⟩
    exact h.balanced.release_fst (hlength ▸ h.formed.lt_of_reference hmem)
      (List.count_pos_iff.mpr hmem)

/-- Lifetimes hold after every run in which no provider is dropped. -/
theorem lifetimesHold_run {σ : Type} (respond : Responder σ α) (known : σ)
    (readers : List (Exporter α × Nat)) (providers : List (Resource × List Nat))
    (commands : List (Command α)) (hcommands : ∀ c ∈ commands, c.dropsProvider = false) :
    LifetimesHold ((launched readers providers).run respond known commands).2.2 :=
  ((coherent_launched readers providers).run respond known hcommands).lifetimesHold

/-- One asynchronous instrument under a batch callback that lists it twice and keeps a clone of its
handle, after its own handle and its first callback are gone. -/
theorem lifetimesHold_run_batch :
    let commands : List (Command Int) :=
      [.create 0 (.named "m") ⟨⟨.asynchronousCounter, "a", none, none⟩, ⟨none, none⟩⟩ 1,
        .registerBatch 0 (.named "m") [0, 0] [0], .drop 0, .collect 0, .detach ⟨0, 0⟩]
    let sys := ((launched [(.memory .cumulative, 1000)] [(KeyMap.empty, [0])]).run
      (fun _ _ => (⟨[], .returned⟩, ())) () commands).2.2
    (∀ c ∈ commands, c.dropsProvider = false) ∧ LifetimesHold sys ∧
      sys.instruments.map (fun b => (b.lifetime.transient, b.lifetime.persistent)) = [(1, 2)] := by
  intro commands sys
  have hcommands : ∀ c ∈ commands, c.dropsProvider = false := by simp [commands, Command.dropsProvider]
  exact ⟨hcommands, lifetimesHold_run _ _ _ _ commands hcommands, by decide +kernel⟩

end System

end Metering
