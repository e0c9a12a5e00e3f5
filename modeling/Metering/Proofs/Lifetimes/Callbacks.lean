import Metering.Proofs.Lifetimes.Handles

/-!
# Registering and Detaching Callbacks

A registration is entered in its provider's list together with the persistent references that it
takes, and is taken off the list before it gives them back, so the references listed by attached
callbacks are at every moment the ones that lifetimes count.
-/

namespace Metering.System

variable {α : Type} {sys : System α} {i p : Nat} {provider : Provider α}

/-! ## Registering -/

/-- The system in which a provider has one more callback, under the next number. -/
def enrol (sys : System α) (p n : Nat) (registration : Registration) : System α :=
  sys.modifyProvider p fun provider =>
    { provider with callbacks := provider.callbacks.insert n registration, nextCallback := n + 1 }

theorem registerCallback_snd (hp : sys.providers[p]? = some provider) (feed : Feed)
    {is : List Nat} (captured : List Nat) (htaken : (sys.acquireAll is).1 = is) :
    (sys.registerCallback p feed is captured).2 =
      (sys.acquireAll is).2.enrol p provider.nextCallback ⟨feed, is, captured⟩ := by
  have hpair : sys.acquireAll is = (is, (sys.acquireAll is).2) := Prod.ext htaken rfl
  simp only [registerCallback, hp, Option.map_some, Option.getD_some]
  rw [hpair]
  simp [enrol]

theorem mem_callbacks_enrol {c : Table Nat Registration × Nat × Bool}
    {n : Nat} {registration : Registration} (hp : sys.providers[p]? = some provider)
    (hc : c ∈ (sys.enrol p n registration).roster.callbacks) :
    c ∈ sys.roster.callbacks ∨
      c = (provider.callbacks.insert n registration, n + 1, provider.held) := by
  obtain ⟨x, hx, rfl⟩ := List.mem_map.mp hc
  obtain ⟨q, hq⟩ := List.mem_iff_getElem?.mp hx
  rcases getElem?_modify_cases hq with ⟨rfl, y, hy, rfl⟩ | ⟨-, hq⟩
  · obtain rfl := Option.some.inj (hy.symm.trans hp)
    exact .inr rfl
  · exact .inl (List.mem_map_of_mem (List.mem_of_getElem? hq))

theorem mem_callbacks_of_getElem? (hp : sys.providers[p]? = some provider) :
    (provider.callbacks, provider.nextCallback, provider.held) ∈ sys.roster.callbacks :=
  List.mem_map_of_mem (List.mem_of_getElem? hp)

/-- No callback of a provider has the provider's next number yet. -/
theorem Roster.Formed.forall_ne_nextCallback (hformed : sys.roster.Formed)
    (hp : sys.providers[p]? = some provider) :
    ∀ e ∈ provider.callbacks.entries, (e.1 == provider.nextCallback) = false :=
  Table.forall_ne_of_lt (hformed.callbacks_lt _ (mem_callbacks_of_getElem? hp))

theorem claims_enrol (hformed : sys.roster.Formed) (hp : sys.providers[p]? = some provider)
    (registration : Registration) :
    (sys.enrol p provider.nextCallback registration).roster.claims =
      sys.roster.claims.add registration.references .persistent := by
  have hnew := Roster.Formed.forall_ne_nextCallback hformed hp
  -- The registration stands at the end of its own provider's list, so only the order is another.
  have hperm : (sys.enrol p provider.nextCallback registration).attached.Perm
      (registration.references ++ sys.attached) := by
    apply flatMap_modify_perm hp
    simp only [Table.values_insert_of_new hnew, List.flatMap_append]
    simpa using List.perm_append_comm
  funext j g
  cases g with
  | transient => simp [Roster.claims, roster, enrol, modifyProvider, Claims.add]
  | persistent =>
    simp only [Roster.claims, Claims.add, references_roster, if_true, hperm.count_eq,
      List.count_append]
    exact Nat.add_comm _ _

/-- Registering a callback for living instruments takes a persistent reference for each. -/
theorem Coherent.registerCallback (h : Coherent sys) (hp : sys.providers[p]? = some provider)
    {feed : Feed} {is captured : List Nat} (halive : ∀ i ∈ is, sys.isAlive i = true)
    (hfeed : is.map sys.roster.observer? = feed.numbers.map some) :
    Coherent (sys.registerCallback p feed is captured).2 := by
  obtain ⟨htaken, hbalanced⟩ := h.balanced.acquireAll halive
  rw [registerCallback_snd hp feed captured htaken]
  let taken := (sys.acquireAll is).2
  have hroster : taken.roster = sys.roster := roster_acquireAll sys is
  have hformed : taken.roster.Formed := hroster ▸ h.formed
  have hp' : taken.providers[p]? = some provider := by
    show (sys.acquireAll is).2.providers[p]? = _
    rw [providers_acquireAll, hp]
  have hnew := Roster.Formed.forall_ne_nextCallback hformed hp'
  have hmember := mem_callbacks_of_getElem? hp'
  refine ⟨?_, ?_⟩
  · -- Entering the registration touches no instrument, cache or reader.
    rw [claims_enrol hformed hp', hroster]
    refine hbalanced.congr rfl ?_ rfl
    show (taken.providers.modify p _).map _ = _
    exact map_modify_of_eq fun _ _ => rfl
  · refine ⟨hformed.handles_lt, hformed.handles_built, ?_, ?_, hformed.observers, ?_⟩
    · intro c hc n hn
      rcases mem_callbacks_enrol hp' hc with hc | rfl
      · exact hformed.callbacks_lt c hc n hn
      · simp only [Table.keys_insert_of_new hnew] at hn
        rcases List.mem_append.mp hn with hn | hn
        · exact Nat.lt_succ_of_lt (hformed.callbacks_lt _ hmember n hn)
        · exact List.mem_singleton.mp hn ▸ Nat.lt_succ_self _
    · intro c hc registration hr
      rcases mem_callbacks_enrol hp' hc with hc | rfl
      · exact hformed.feeds c hc registration hr
      · simp only [Table.values_insert_of_new hnew] at hr
        rcases List.mem_append.mp hr with hr | hr
        · exact hformed.feeds _ hmember registration hr
        · obtain rfl := List.mem_singleton.mp hr
          rw [← hroster] at hfeed
          exact hfeed
    · intro c hc
      rcases mem_callbacks_enrol hp' hc with hc | rfl
      · exact hformed.held c hc
      · have hheld := hformed.held _ hmember
        exact hheld

/-- What stays the same when a callback is registered, besides the references. -/
theorem registerCallback_frame (h : Coherent sys) (hp : sys.providers[p]? = some provider)
    (feed : Feed) {is : List Nat} (captured : List Nat) (halive : ∀ i ∈ is, sys.isAlive i = true) :
    (sys.registerCallback p feed is captured).2.roster.instruments = sys.roster.instruments ∧
      (sys.registerCallback p feed is captured).2.providers.length = sys.providers.length ∧
      ∀ j, (sys.registerCallback p feed is captured).2.isAlive j = sys.isAlive j := by
  obtain ⟨htaken, -⟩ := h.balanced.acquireAll halive
  rw [registerCallback_snd hp feed captured htaken]
  refine ⟨?_, ?_, ?_⟩
  · show (sys.acquireAll is).2.roster.instruments = _
    rw [roster_acquireAll]
  · simp [enrol, modifyProvider, providers_acquireAll]
  · intro j
    show (sys.acquireAll is).2.isAlive j = _
    -- The list grows one by one, so what is known of the whole is in the way.
    clear htaken halive h hp
    induction is generalizing sys with
    | nil => rfl
    | cons i rest ih =>
      exact ih.trans (isAlive_congr (profile_acquire _ i .persistent) j)

theorem observer?_roster (sys : System α) (i : Nat) :
    sys.roster.observer? i = sys.instruments[i]?.bind (·.observer) := by
  simp only [Roster.observer?, roster, List.getElem?_map]
  cases sys.instruments[i]? <;> rfl

/-- A living asynchronous instrument of a provider, with its number there, for which callbacks can be
registered. -/
structure Feedable (sys : System α) (p number i : Nat) : Prop where
  coherent : Coherent sys
  provided : p < sys.providers.length
  alive : sys.isAlive i = true
  observed : sys.roster.observer? i = some number

/-- One more callback leaves an instrument as feedable as it was. -/
theorem Feedable.registerCallback {number : Nat} (h : Feedable sys p number i) :
    Feedable (sys.registerCallback p (.single number) [i] []).2 p number i := by
  have hprovider := List.getElem?_eq_getElem h.provided
  have hall : ∀ j ∈ [i], sys.isAlive j = true := by simpa using h.alive
  obtain ⟨hinstruments, hlength, halive⟩ :=
    registerCallback_frame h.coherent hprovider (.single number) [] hall
  -- Registering ends no life and leaves numbers and providers where they are.
  refine ⟨h.coherent.registerCallback hprovider hall ?_, ?_, ?_, ?_⟩
  · simp [Feed.numbers, h.observed]
  · rw [hlength]
    exact h.provided
  · rw [halive i]
    exact h.alive
  · have hobserved := h.observed
    simp only [Roster.observer?, hinstruments] at hobserved ⊢
    exact hobserved

/-- Callbacks for one instrument, one after the other. -/
theorem Feedable.registerSingles {number : Nat} (h : Feedable sys p number i) (n : Nat) :
    Coherent (sys.registerSingles p number i n).2 := by
  induction n generalizing sys with
  | zero => exact h.coherent
  | succ n ih => exact ih h.registerCallback

theorem Coherent.register (h : Coherent sys) (handle : Nat) : Coherent (sys.register handle).2 := by
  unfold System.register
  cases hinstrument : sys.instrument? handle with
  | none => exact h
  | some target =>
    obtain ⟨i, b⟩ := target
    obtain ⟨hh, hb⟩ : sys.handles.find? handle = some i ∧ sys.instruments[i]? = some b := by
      simpa [instrument?, Option.bind_eq_some_iff] using hinstrument
    cases hobserver : b.observer with
    | none => simpa [hobserver] using h
    | some number =>
      simp only [hobserver]
      refine h.registerCallback (List.getElem?_eq_getElem (h.balanced.housed.owned i b hb)) ?_ ?_
      · simpa using h.isAlive_of_handle hh
      · simp [Feed.numbers, observer?_roster, hb, hobserver]

theorem providers_cloneHandle (handle : Nat) :
    (sys.cloneHandle handle).2.providers = sys.providers := by
  unfold cloneHandle
  split
  · rfl
  · exact providers_acquire ..

theorem providers_cloneHandles (handles : List Nat) :
    (sys.cloneHandles handles).2.providers = sys.providers := by
  induction handles generalizing sys with
  | nil => rfl
  | cons handle rest ih => exact ih.trans (providers_cloneHandle handle)

/-- The asynchronous instruments behind handles, each with its number. -/
theorem mem_targets {handles : List Nat} {t : Nat × Nat}
    (ht : t ∈ (handles.filterMap sys.instrument?).filterMap fun x => x.2.observer.map (x.1, ·)) :
    (∃ handle, sys.handles.find? handle = some t.1) ∧ sys.roster.observer? t.1 = some t.2 := by
  obtain ⟨x, hx, hxt⟩ := List.mem_filterMap.mp ht
  obtain ⟨handle, -, hhandle⟩ := List.mem_filterMap.mp hx
  obtain ⟨i, b⟩ := x
  obtain ⟨hh, hb⟩ : sys.handles.find? handle = some i ∧ sys.instruments[i]? = some b := by
    simpa [instrument?, Option.bind_eq_some_iff] using hhandle
  obtain ⟨number, hnumber, rfl⟩ := Option.map_eq_some_iff.mp hxt
  have hnumber : b.observer = some number := hnumber
  exact ⟨⟨handle, hh⟩, by simp [observer?_roster, hb, hnumber]⟩

/-- A batch callback first clones the handles that it uses, and then takes a reference for every
asynchronous instrument that it was given, once for each time it was given. -/
theorem Coherent.registerBatch (h : Coherent sys) (p : Nat) (scope : Scope)
    (handles used : List Nat) : Coherent (sys.registerBatch p scope handles used).2 := by
  unfold System.registerBatch
  cases hp : sys.providers[p]? with
  | none => exact h
  | some provider =>
    let cloned := ((sys.modifyProvider p (·.withScope scope)).cloneHandles used).2
    have hcloned : Coherent cloned := (h.of_frame_eq (frame_withScope p scope)).cloneHandles used
    have hp' : cloned.providers[p]? = some (provider.withScope scope) := by
      show (System.cloneHandles _ used).2.providers[p]? = _
      rw [providers_cloneHandles]
      exact getElem?_modify_of_some _ hp
    -- The handles that the batch was given are still held, so what is behind them is alive.
    refine hcloned.registerCallback hp' ?_ ?_
    · intro i hi
      obtain ⟨t, ht, rfl⟩ := List.mem_map.mp hi
      obtain ⟨⟨handle, hh⟩, -⟩ := mem_targets ht
      exact hcloned.isAlive_of_handle hh
    · rw [Feed.numbers, List.map_map, List.map_map]
      apply List.map_congr_left
      intro t ht
      exact (mem_targets ht).2

/-! ## Detaching -/

/-- The system in which a provider has one callback less. -/
def strike (sys : System α) (p n : Nat) : System α :=
  sys.modifyProvider p fun provider => { provider with callbacks := provider.callbacks.erase n }

theorem claims_strike (hp : sys.providers[p]? = some provider) {n : Nat}
    {registration : Registration} (hn : provider.callbacks.find? n = some registration) :
    sys.roster.claims =
      (sys.strike p n).roster.claims.add registration.references .persistent := by
  -- Wherever the registration stood, its references are the ones that are gone.
  have hperm : sys.attached.Perm (registration.references ++ (sys.strike p n).attached) := by
    apply flatMap_perm_modify hp
    have hvalues := (Table.values_perm_erase hn).flatMap_right (·.references)
    simpa using hvalues
  funext j g
  cases g with
  | transient => simp [Roster.claims, roster, strike, modifyProvider, Claims.add]
  | persistent =>
    simp only [Roster.claims, Claims.add, references_roster, if_true, hperm.count_eq,
      List.count_append]
    exact Nat.add_comm _ _

theorem Roster.Formed.strike (hformed : sys.roster.Formed) (p n : Nat) :
    (sys.strike p n).roster.Formed := by
  -- Every provider lists callbacks that it, or the one it was, listed before.
  have hcallbacks : ∀ c ∈ (sys.strike p n).roster.callbacks, ∃ c' ∈ sys.roster.callbacks,
      c.2 = c'.2 ∧ ∀ e ∈ c.1.entries, e ∈ c'.1.entries := by
    intro c hc
    obtain ⟨x, hx, rfl⟩ := List.mem_map.mp hc
    obtain ⟨q, hq⟩ := List.mem_iff_getElem?.mp hx
    rcases getElem?_modify_cases hq with ⟨rfl, y, hy, rfl⟩ | ⟨-, hq⟩
    · exact ⟨_, mem_callbacks_of_getElem? hy, rfl, fun e he => (Table.mem_erase.mp he).1⟩
    · exact ⟨_, mem_callbacks_of_getElem? hq, rfl, fun e he => he⟩
  refine ⟨hformed.handles_lt, hformed.handles_built, ?_, ?_, hformed.observers, ?_⟩
  · intro c hc k hk
    obtain ⟨c', hc', hsame, hsub⟩ := hcallbacks c hc
    obtain ⟨e, he, rfl⟩ := List.mem_map.mp hk
    rw [hsame]
    exact hformed.callbacks_lt c' hc' _ (List.mem_map_of_mem (hsub e he))
  · intro c hc registration hr
    obtain ⟨c', hc', hsame, hsub⟩ := hcallbacks c hc
    obtain ⟨e, he, rfl⟩ := List.mem_map.mp hr
    exact hformed.feeds c' hc' _ (List.mem_map_of_mem (hsub e he))
  · intro c hc
    obtain ⟨c', hc', hsame, -⟩ := hcallbacks c hc
    rw [hsame]
    exact hformed.held c' hc'

/-- Detaching a callback gives its references back and then drops the handles it kept, whichever
of them are the last. -/
theorem Coherent.detach (h : Coherent sys) (c : CallbackRef) : Coherent (sys.detach c) := by
  unfold System.detach
  cases hp : sys.providers[c.provider]? with
  | none => exact h
  | some provider =>
    simp only [Option.bind_some]
    cases hn : provider.callbacks.find? c.number with
    | none => exact h
    | some registration =>
      have hbalanced : Balanced (sys.strike c.provider c.number)
          ((sys.strike c.provider c.number).roster.claims.add registration.references
            .persistent) := by
        rw [← claims_strike hp hn]
        refine h.balanced.congr rfl ?_ rfl
        exact map_modify_of_eq fun _ _ => rfl
      -- No teardown changes the roster, so the references can be given back one by one.
      have hroster := roster_releaseAll (sys.strike c.provider c.number) .persistent
        registration.references
      have hreleased : Coherent (registration.references.foldl
          (fun sys i => sys.release i .persistent) (sys.strike c.provider c.number)) :=
        ⟨hroster ▸ hbalanced.releaseAll, hroster ▸ Roster.Formed.strike h.formed _ _⟩
      -- The captured handles are dropped from a coherent system, as if by the program.
      exact hreleased.dropHandles registration.captured

end Metering.System
