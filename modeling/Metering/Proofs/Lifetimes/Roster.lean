import Metering.Proofs.Lifetimes.Balance
import Metering.System.Command

/-!
# The Roster of a System

Who holds references: the handles, the registered callbacks, and the instruments that they are
held on. A system is coherent when its roster is well formed and its lifetimes are balanced with
the claims that the roster makes: one transient reference for every handle, and one persistent
reference for every time an attached callback lists an instrument.

Most operations leave the frame of a system alone, which is all that coherence looks at.
-/

namespace Metering

variable {α : Type}

/-! ## Rosters -/

/-- Who holds references on what. -/
structure Roster where
  handles : Table Nat Nat
  nextHandle : Nat
  /-- Of every provider: its callbacks, the number of the next one, and whether it is held. -/
  callbacks : List (Table Nat Registration × Nat × Bool)
  /-- Of every instrument: its provider, its key, its number as an observer, and its streams. -/
  instruments : List (Nat × InstrumentKey × Option Nat × List (Nat × Nat))

namespace Roster

/-- The instruments listed by attached callbacks, each as often as it is listed. -/
def references (r : Roster) : List Nat :=
  r.callbacks.flatMap fun c => c.1.values.flatMap (·.references)

/-- The references that handles and attached callbacks hold. -/
def claims (r : Roster) : Claims
  | i, .transient => r.handles.values.count i
  | i, .persistent => r.references.count i

/-- The number of an instrument among its provider's asynchronous ones. -/
def observer? (r : Roster) (i : Nat) : Option Nat := r.instruments[i]?.bind (·.2.2.1)

/-- Numbers are used once, handles and callbacks refer to instruments that were built, and a
callback holds a reference for each instrument that it feeds. -/
structure Formed (r : Roster) : Prop where
  handles_lt : ∀ h ∈ r.handles.keys, h < r.nextHandle
  handles_built : ∀ i ∈ r.handles.values, i < r.instruments.length
  callbacks_lt : ∀ c ∈ r.callbacks, ∀ n ∈ c.1.keys, n < c.2.1
  feeds : ∀ c ∈ r.callbacks, ∀ registration ∈ c.1.values,
    registration.references.map r.observer? = registration.feed.numbers.map some
  observers : ∀ x ∈ r.instruments, x.2.2.1.isSome = x.2.1.identity.kind.isAsynchronous
  held : ∀ c ∈ r.callbacks, c.2.2 = true

variable {roster : Roster} {i : Nat}

/-- No handle has the next number yet. -/
theorem Formed.forall_ne_nextHandle (h : roster.Formed) :
    ∀ e ∈ roster.handles.entries, (e.1 == roster.nextHandle) = false :=
  Table.forall_ne_of_lt h.handles_lt

/-- An instrument that an attached callback lists has a number among the asynchronous ones. -/
theorem Formed.observer?_of_reference (h : roster.Formed) (hi : i ∈ roster.references) :
    ∃ n, roster.observer? i = some n := by
  obtain ⟨c, hc, hi⟩ := List.mem_flatMap.mp hi
  obtain ⟨registration, hr, hi⟩ := List.mem_flatMap.mp hi
  -- References are matched, in order, with the numbers that the callback feeds.
  have hmem : roster.observer? i ∈ registration.references.map roster.observer? :=
    List.mem_map_of_mem hi
  rw [h.feeds c hc registration hr] at hmem
  obtain ⟨n, -, hn⟩ := List.mem_map.mp hmem
  exact ⟨n, hn.symm⟩

theorem Formed.lt_of_reference (h : roster.Formed) (hi : i ∈ roster.references) :
    i < roster.instruments.length := by
  obtain ⟨n, hn⟩ := h.observer?_of_reference hi
  obtain ⟨x, hx, -⟩ := Option.bind_eq_some_iff.mp hn
  exact (List.getElem?_eq_some_iff.mp hx).1

/-- Nobody claims an instrument that was never built. -/
theorem Formed.claims_eq_zero (h : roster.Formed) (hi : roster.instruments.length ≤ i)
    (f : Flavour) : roster.claims i f = 0 := by
  cases f with
  | transient =>
    apply List.count_eq_zero_of_not_mem
    intro hmem
    exact Nat.not_lt_of_le hi (h.handles_built i hmem)
  | persistent =>
    apply List.count_eq_zero_of_not_mem
    intro hmem
    exact Nat.not_lt_of_le hi (h.lt_of_reference hmem)

end Roster

namespace System

/-- The roster of a system. -/
def roster (sys : System α) : Roster :=
  { handles := sys.handles
    nextHandle := sys.nextHandle
    callbacks := sys.providers.map fun p => (p.callbacks, p.nextCallback, p.held)
    instruments := sys.instruments.map fun b => (b.provider, b.key, b.observer, b.streams) }

/-- The instruments listed by the attached callbacks of all providers. -/
def attached (sys : System α) : List Nat :=
  sys.providers.flatMap fun p => p.callbacks.values.flatMap (·.references)

theorem references_roster (sys : System α) : sys.roster.references = sys.attached := by
  simp [roster, Roster.references, attached, List.flatMap_map]

/-- Lifetimes, caches and registries agree with the roster. -/
structure Coherent (sys : System α) : Prop where
  balanced : Balanced sys sys.roster.claims
  formed : sys.roster.Formed

/-! ## Frames -/

/-- All that coherence looks at. -/
def frame (sys : System α) :
    List BuiltInstrument × List (Table InstrumentKey Nat) × List (List Nat × Nat × Bool) × Roster :=
  (sys.instruments, sys.providers.map (·.cache), sys.readers.map (·.outline), sys.roster)

variable {sys sys' : System α} {claims : Claims}

theorem Balanced.congr (h : Balanced sys claims) (hinstruments : sys'.instruments = sys.instruments)
    (hcaches : sys'.providers.map (·.cache) = sys.providers.map (·.cache))
    (hreaders : sys'.readers.map (·.outline) = sys.readers.map (·.outline)) :
    Balanced sys' claims := by
  refine ⟨?_, ?_, ?_, h.housed.congr (by rw [hinstruments]) hcaches hreaders⟩
  · rw [hinstruments]
    exact h.counts
  · rw [hinstruments]
    exact h.stale_iff
  · rw [hinstruments]
    exact h.waiting

/-- Systems with one frame are coherent together. -/
theorem Coherent.of_frame_eq (h : Coherent sys) (heq : sys'.frame = sys.frame) : Coherent sys' := by
  have hroster : sys'.roster = sys.roster := congrArg (·.2.2.2) heq
  refine ⟨?_, hroster ▸ h.formed⟩
  rw [hroster]
  exact h.balanced.congr (congrArg (·.1) heq) (congrArg (·.2.1) heq) (congrArg (·.2.2.1) heq)

@[simp]
theorem frame_write (sys : System α) (entries : List (JournalEntry α)) :
    (sys.write entries).frame = sys.frame := rfl

theorem frame_modifyReader {r : Nat} {f : Reader α → Reader α}
    (h : ∀ reader, (f reader).outline = reader.outline) : (sys.modifyReader r f).frame = sys.frame := by
  simp only [frame, modifyReader, roster]
  rw [map_modify_of_eq fun reader _ => h reader]

theorem frame_modifyProvider {p : Nat} {f : Provider α → Provider α}
    (hcache : ∀ provider, (f provider).cache = provider.cache)
    (hcallbacks : ∀ provider, (f provider).callbacks = provider.callbacks)
    (hnext : ∀ provider, (f provider).nextCallback = provider.nextCallback)
    (hheld : ∀ provider, (f provider).held = provider.held) :
    (sys.modifyProvider p f).frame = sys.frame := by
  simp only [frame, modifyProvider, roster]
  rw [map_modify_of_eq fun provider _ => hcache provider, map_modify_of_eq]
  intro provider _
  rw [hcallbacks, hnext, hheld]

theorem frame_withScope (p : Nat) (scope : Scope) :
    (sys.modifyProvider p (·.withScope scope)).frame = sys.frame := by
  have hscope (provider : Provider α) : provider.withScope scope =
      { provider with scopes := (provider.withScope scope).scopes } := by
    unfold Provider.withScope
    split <;> rfl
  refine frame_modifyProvider ?_ ?_ ?_ ?_ <;>
    · intro provider
      rw [hscope]

theorem cache_withScope (provider : Provider α) (scope : Scope) :
    (provider.withScope scope).cache = provider.cache := by
  unfold Provider.withScope
  split <;> rfl

theorem frame_closeProvider (p : Nat) :
    (sys.modifyProvider p fun provider => { provider with closed := true }).frame = sys.frame :=
  frame_modifyProvider (fun _ => rfl) (fun _ => rfl) (fun _ => rfl) fun _ => rfl

/-! ## What leaves the roster alone -/

theorem roster_setLifetime (i : Nat) (l : Lifetime Nat) : (sys.setLifetime i l).roster = sys.roster := by
  simp only [roster, setLifetime]
  rw [map_modify_of_eq]
  intro _ _
  rfl

theorem roster_teardown (i : Nat) : (sys.teardown i).roster = sys.roster := by
  cases hb : sys.instruments[i]? with
  | none => simp [teardown, hb]
  | some b =>
    rw [teardown_eq hb]
    simp only [roster]
    rw [map_modify_of_eq]
    intro provider _
    -- The cache is not part of the roster.
    unfold Provider.uncache
    split <;> rfl

theorem roster_acquire (sys : System α) (i : Nat) (f : Flavour) :
    (sys.acquire i f).2.roster = sys.roster := by
  unfold acquire
  split
  · rfl
  · exact roster_setLifetime ..

theorem roster_relinquish (i : Nat) (f : Flavour) : (sys.relinquish i f).2.roster = sys.roster := by
  unfold relinquish
  split
  · rfl
  · exact roster_setLifetime ..

theorem roster_release (i : Nat) (f : Flavour) : (sys.release i f).roster = sys.roster := by
  -- Neither the reference nor the teardowns that it sets off show in the roster.
  have hfold (tasks : List Nat) (sys : System α) : (tasks.foldl teardown sys).roster = sys.roster := by
    induction tasks generalizing sys with
    | nil => rfl
    | cons i rest ih => exact (ih _).trans (roster_teardown i)
  exact (hfold _ _).trans (roster_relinquish i f)

end System

end Metering
