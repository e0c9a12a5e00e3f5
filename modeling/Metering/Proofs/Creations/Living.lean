import Metering.Proofs.Steps.Basic

/-!
# Living Instruments

A provider's cache has the living instruments of the provider under their keys and nothing else, in
every state that a run reaches, whatever is let go of on the way. So to look a key up is to ask for
the living instrument with an equal key, of which there is at most one.
-/

namespace Metering

variable {α : Type}

/-- What caches and the end of an instrument depend on. -/
def BuiltInstrument.vitals (b : BuiltInstrument) :
    (Bool × Nat × InstrumentKey × List (Nat × Nat)) × List Nat :=
  (b.profile, b.lifetime.pending)

namespace System

variable {sys sys' : System α} {i : Nat} {b : BuiltInstrument} {p : Nat} {provider : Provider α}
  {key : InstrumentKey}

/-- Caches have the living instruments and no others, and the teardown of a living instrument is
waiting. -/
structure Living (sys : System α) : Prop where
  cached : Cached sys
  waiting : ∀ (i : Nat) (b : BuiltInstrument), sys.instruments[i]? = some b →
    b.lifetime.stale = false → b.lifetime.pending = [i]

namespace Living

theorem congr (h : Living sys)
    (hvitals : sys'.instruments.map (·.vitals) = sys.instruments.map (·.vitals))
    (hcaches : sys'.providers.map (·.cache) = sys.providers.map (·.cache)) : Living sys' := by
  have hprofile : sys'.instruments.map (·.profile) = sys.instruments.map (·.profile) := by
    simpa [BuiltInstrument.vitals, Function.comp_def] using congrArg (List.map (·.1)) hvitals
  refine ⟨h.cached.congr hprofile hcaches, fun i b' hb' halive => ?_⟩
  have hsame := map_getElem?_of_map_eq hvitals i
  rw [hb'] at hsame
  obtain ⟨b, hb, heq⟩ := Option.map_eq_some_iff.mp hsame.symm
  have hstale : b.lifetime.stale = b'.lifetime.stale := congrArg (·.1.1) heq
  have hpending : b.lifetime.pending = b'.lifetime.pending := congrArg (·.2) heq
  rw [← hpending]
  exact h.waiting i b hb (hstale.trans halive)

/-- A lifetime that is neither ended nor begun again keeps what is alive. -/
theorem setLifetime (h : Living sys) (hb : sys.instruments[i]? = some b) {l : Lifetime Nat}
    (hstale : l.stale = b.lifetime.stale) (hpending : l.pending = b.lifetime.pending) :
    Living (sys.setLifetime i l) := by
  refine h.congr (map_modify_of_eq fun x hx => ?_) rfl
  obtain rfl := Option.some.inj (hx.symm.trans hb)
  simp only [BuiltInstrument.vitals, BuiltInstrument.profile, hstale, hpending]

theorem acquire (h : Living sys) (i : Nat) (f : Flavour) : Living (sys.acquire i f).2 := by
  unfold System.acquire
  split
  · exact h
  · rename_i b hb
    -- Granted or refused, a request changes no more than a count.
    refine h.setLifetime hb ?_ ?_ <;> unfold Lifetime.acquire <;> split <;> simp

theorem release (h : Living sys) (i : Nat) (f : Flavour) : Living (sys.release i f) := by
  cases hb : sys.instruments[i]? with
  | none =>
    have hsame : sys.release i f = sys := by simp [System.release, relinquish, hb]
    rw [hsame]
    exact h
  | some b =>
    have hrelease : sys.release i f = (b.lifetime.release f).2.1.foldl System.teardown
        (sys.setLifetime i (b.lifetime.release f).2.2) := by
      simp only [System.release, relinquish, hb]
    rw [hrelease]
    rcases b.lifetime.release_cases f with ⟨hnone, hstale, hpending⟩ | ⟨halive, hall, hended⟩
    · rw [hnone]
      exact h.setLifetime hb hstale hpending
    · -- The one task of a living instrument is its own teardown.
      rw [hall, h.waiting i b hb halive, List.foldl_cons, List.foldl_nil]
      refine ⟨h.cached.expire hb halive hended, fun j x hx hxs => ?_⟩
      have hb' : (sys.setLifetime i (b.lifetime.release f).2.2).instruments[i]? =
          some { b with lifetime := (b.lifetime.release f).2.2 } := getElem?_modify_of_some _ hb
      rw [teardown_eq hb'] at hx
      rcases getElem?_modify_cases hx with ⟨rfl, y, -, rfl⟩ | ⟨-, hx⟩
      · -- The instrument itself is over, so nothing has to wait any more.
        rw [hended] at hxs
        cases hxs
      · exact h.waiting j x hx hxs

theorem withNewborn (h : Living sys) {plans : List (StreamPlan α)} {q : Provider α}
    (hp : sys.providers[p]? = some q) (hnew : (q.cache.find? key).filter sys.isAlive = none) :
    Living (sys.withNewborn p provider key plans) := by
  refine ⟨h.cached.withNewborn hp (forall_ne_of_filter_isAlive h.cached hp hnew), ?_⟩
  intro j b hb halive
  rcases getElem?_withNewborn hb with ⟨rfl, rfl⟩ | ⟨-, hb⟩
  · rfl
  · exact h.waiting j b hb halive

variable [Quantity α] {ends : Endings}

/-- Every step keeps caches right. -/
theorem step (h : Living sys) (hstep : Step ends sys sys') : Living sys' := by
  cases hstep with
  | clock | hold | note | reader | clear | pass | close | finish => exact h.congr rfl rfl
  | provider p same =>
    exact h.congr rfl (map_modify_of_eq fun provider _ => congrArg (·.2.2.1) (same provider))
  | quit p => exact h.congr rfl (map_modify_of_eq fun _ _ => rfl)
  | acquire i f => exact h.acquire i f
  | release i f => exact h.release i f
  | @build p current provider key plans owner same unknown =>
    -- Nothing living was found under the key, so the newborn is the only one under it.
    have hcache : provider.cache = current.cache := congrArg (·.2.2.1) same
    exact h.withNewborn owner (hcache ▸ unknown)
  | record built taken attributes draw =>
    rw [writeTo_eq]
    exact h.congr rfl rfl

/-- Any steps keep caches right, by induction on their number. -/
theorem steps (h : Living sys) (hsteps : Steps ends sys sys') : Living sys' := by
  induction hsteps with
  | refl => exact h
  | tail _ hstep ih => exact ih.step hstep

omit [Quantity α] in
/-- Nothing is cached when a system is launched. -/
theorem launched (readers : List (Exporter α × Nat)) (providers : List (Resource × List Nat)) :
    Living (launched readers providers) :=
  ⟨(coherent_launched readers providers).balanced.housed.cached,
    (coherent_launched readers providers).balanced.waiting⟩

omit [Quantity α] in
/-- Under a key there is the living instrument whose key is equal. -/
theorem find?_eq_some_iff (h : Living sys) (hp : sys.providers[p]? = some provider) :
    provider.cache.find? key = some i ↔ ∃ b, sys.instruments[i]? = some b ∧
      b.lifetime.stale = false ∧ b.provider = p ∧ (b.key == key) = true := by
  constructor
  · intro hfind
    obtain ⟨k, hmem, hk⟩ := Table.exists_of_find?_eq_some hfind
    obtain ⟨b, hb, halive, hprovider, rfl⟩ := (h.cached p provider hp k i).mp hmem
    exact ⟨b, hb, halive, hprovider, hk⟩
  · rintro ⟨b, hb, halive, hprovider, hk⟩
    have hmem := (h.cached p provider hp b.key i).mpr ⟨b, hb, halive, hprovider, rfl⟩
    exact Table.find?_eq_some_of_mem hmem hk

end Living

end System

end Metering
