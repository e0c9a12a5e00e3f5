import Metering.Proofs.Lifetimes.Creation

/-!
# Caches with Teardowns to Come

The end of an instrument is one thing and its teardown another. In between the instrument may be cached
still, although no reference can be taken on it any more, and a request may put another one in its
place. So caches have the living instruments, and besides only such as wait for their teardown. When
that runs it takes out what its own instrument has there, if anything, and nothing else.
-/

namespace Metering

variable {α : Type}

/-- What a cache has once it forgot an instrument that it had under one key only: all the others. -/
theorem Provider.mem_uncache {provider : Provider α} {key : InstrumentKey} {i : Nat}
    (hkey : ∀ e ∈ provider.cache.entries, e.2 = i → (key == e.1) = true) {e : InstrumentKey × Nat} :
    e ∈ (provider.uncache key i).cache.entries ↔ e ∈ provider.cache.entries ∧ e.2 ≠ i := by
  unfold uncache
  split
  · rename_i hfound
    rw [Table.mem_erase]
    refine and_congr_right fun he => ⟨?_, fun hne => ?_⟩
    · rintro hek rfl
      rw [BEq.symm (hkey e he rfl)] at hek
      cases hek
    · cases hek : e.1 == key with
      | false => rfl
      | true => exact absurd (Option.some.inj ((Table.find?_eq_some_of_mem he hek).symm.trans hfound)) hne
  · rename_i hother
    refine ⟨fun he => ⟨he, ?_⟩, And.left⟩
    rintro rfl
    exact hother (Table.find?_eq_some_of_mem he (BEq.symm (hkey e he rfl)))

namespace System

variable {sys sys' : System α} {pending : List Nat} {i p : Nat} {b : BuiltInstrument}

/-- Living instruments are found under their keys, and whatever else is cached waits for its
teardown. -/
structure Outstanding (sys : System α) (pending : List Nat) : Prop where
  ended : ∀ i ∈ pending, ∃ b, sys.instruments[i]? = some b ∧ b.lifetime.stale = true
  found : ∀ (i : Nat) (b : BuiltInstrument), sys.instruments[i]? = some b → b.lifetime.stale = false →
    ∃ provider, sys.providers[b.provider]? = some provider ∧ provider.cache.find? b.key = some i
  listed : ∀ (p : Nat) (provider : Provider α), sys.providers[p]? = some provider →
    ∀ e ∈ provider.cache.entries, ∃ b, sys.instruments[e.2]? = some b ∧ b.provider = p ∧
      (b.key == e.1) = true ∧ (b.lifetime.stale = true → e.2 ∈ pending)

namespace Outstanding

/-- No teardown of what lives is to come. -/
theorem not_mem_pending (h : Outstanding sys pending) (hb : sys.instruments[i]? = some b)
    (halive : b.lifetime.stale = false) : i ∉ pending := by
  intro hi
  obtain ⟨x, hx, hended⟩ := h.ended i hi
  obtain rfl := Option.some.inj (hx.symm.trans hb)
  rw [hended] at halive
  cases halive

/-- Only profiles and caches matter. -/
theorem congr (h : Outstanding sys pending)
    (hprofile : sys'.instruments.map (·.profile) = sys.instruments.map (·.profile))
    (hcaches : sys'.providers.map (·.cache) = sys.providers.map (·.cache)) :
    Outstanding sys' pending := by
  have hbefore {j : Nat} {b' : BuiltInstrument} (hb' : sys'.instruments[j]? = some b') :
      ∃ b, sys.instruments[j]? = some b ∧ b.profile = b'.profile := by
    have hj := map_getElem?_of_map_eq hprofile j
    rw [hb'] at hj
    exact Option.map_eq_some_iff.mp hj.symm
  have hafter {j : Nat} {b : BuiltInstrument} (hb : sys.instruments[j]? = some b) :
      ∃ b', sys'.instruments[j]? = some b' ∧ b'.profile = b.profile := by
    have hj := map_getElem?_of_map_eq hprofile j
    rw [hb] at hj
    exact Option.map_eq_some_iff.mp hj
  refine ⟨fun i hi => ?_, fun i b' hb' halive => ?_, fun p provider' hp' e he => ?_⟩
  · obtain ⟨b, hb, hstale⟩ := h.ended i hi
    obtain ⟨b', hb', hsame⟩ := hafter hb
    exact ⟨b', hb', (congrArg (·.1) hsame).trans hstale⟩
  · obtain ⟨b, hb, hsame⟩ := hbefore hb'
    obtain ⟨provider, hp, hfind⟩ := h.found i b hb ((congrArg (·.1) hsame).trans halive)
    have hcache := map_getElem?_of_map_eq hcaches b.provider
    rw [hp] at hcache
    obtain ⟨provider', hp', hcache⟩ := Option.map_eq_some_iff.mp hcache
    have hprovider : b.provider = b'.provider := congrArg (·.2.1) hsame
    have hkey : b.key = b'.key := congrArg (·.2.2.1) hsame
    exact ⟨provider', hprovider ▸ hp', hkey ▸ hcache ▸ hfind⟩
  · have hcache := map_getElem?_of_map_eq hcaches p
    rw [hp'] at hcache
    obtain ⟨provider, hp, hcache⟩ := Option.map_eq_some_iff.mp hcache.symm
    have hcache : provider.cache = provider'.cache := hcache
    obtain ⟨b, hb, hprovider, hkey, hwaits⟩ := h.listed p provider hp e (hcache ▸ he)
    obtain ⟨b', hb', hsame⟩ := hafter hb
    have hkeys : b'.key = b.key := congrArg (·.2.2.1) hsame
    exact ⟨b', hb', (congrArg (·.2.1) hsame).trans hprovider, hkeys ▸ hkey,
      fun hstale => hwaits ((congrArg (·.1) hsame).symm.trans hstale)⟩

/-- A lifetime that goes on as it was changes nothing. -/
theorem withLifetime (h : Outstanding sys pending) (hb : sys.instruments[i]? = some b)
    {l : Lifetime Nat} (hstale : l.stale = b.lifetime.stale) :
    Outstanding (sys.setLifetime i l) pending := by
  refine h.congr (map_modify_of_eq fun x hx => ?_) rfl
  obtain rfl := Option.some.inj (hx.symm.trans hb)
  simp [BuiltInstrument.profile, hstale]

/-- An instrument that ended stays where it is, and waits. -/
theorem expire (h : Outstanding sys pending) (hb : sys.instruments[i]? = some b) {l : Lifetime Nat}
    (hstale : l.stale = true) : Outstanding (sys.setLifetime i l) (pending ++ [i]) := by
  have hended : (sys.setLifetime i l).instruments[i]? = some { b with lifetime := l } :=
    getElem?_modify_of_some _ hb
  have hothers {j : Nat} (hne : i ≠ j) :
      (sys.setLifetime i l).instruments[j]? = sys.instruments[j]? :=
    List.getElem?_modify_ne _ _ hne
  refine ⟨fun j hj => ?_, fun j x hx halive => ?_, fun p provider hp e he => ?_⟩
  · by_cases hij : i = j
    · subst hij
      exact ⟨_, hended, hstale⟩
    · rw [hothers hij]
      rcases List.mem_append.mp hj with hj | hj
      · exact h.ended j hj
      · exact absurd (List.mem_singleton.mp hj).symm hij
  · rcases getElem?_modify_cases hx with ⟨rfl, y, -, rfl⟩ | ⟨-, hx⟩
    · rw [hstale] at halive
      cases halive
    · exact h.found j x hx halive
  · obtain ⟨x, hx, hprovider, hkey, hwaits⟩ := h.listed p provider hp e he
    by_cases hie : i = e.2
    · subst hie
      obtain rfl := Option.some.inj (hx.symm.trans hb)
      exact ⟨_, hended, hprovider, hkey, fun _ =>
        List.mem_append_right _ (List.mem_singleton_self _)⟩
    · rw [hothers hie]
      exact ⟨x, hx, hprovider, hkey, fun hover => List.mem_append_left _ (hwaits hover)⟩

/-! ## Teardowns -/

/-- A teardown takes out of caches what they have of its instrument, and nothing else. -/
theorem mem_teardown (h : Outstanding sys pending) {provider provider' : Provider α}
    (hp : sys.providers[p]? = some provider) (hp' : (sys.teardown i).providers[p]? = some provider')
    {e : InstrumentKey × Nat} :
    e ∈ provider'.cache.entries ↔ e ∈ provider.cache.entries ∧ e.2 ≠ i := by
  cases hb : sys.instruments[i]? with
  | none =>
    -- What was never built is not cached.
    have hsame : sys.teardown i = sys := by simp [System.teardown, hb]
    rw [hsame] at hp'
    obtain rfl := Option.some.inj (hp.symm.trans hp')
    refine ⟨fun he => ⟨he, ?_⟩, And.left⟩
    rintro rfl
    obtain ⟨x, hx, -⟩ := h.listed p provider hp e he
    rw [hb] at hx
    cases hx
  | some b =>
    rw [teardown_eq hb] at hp'
    rcases getElem?_modify_cases hp' with ⟨rfl, q, hq, rfl⟩ | ⟨hne, hq⟩
    · obtain rfl := Option.some.inj (hp.symm.trans hq)
      refine Provider.mem_uncache fun e he hei => ?_
      obtain ⟨x, hx, -, hkey, -⟩ := h.listed b.provider provider hp e he
      rw [hei] at hx
      obtain rfl := Option.some.inj (hx.symm.trans hb)
      exact hkey
    · -- Other providers never had the instrument.
      obtain rfl := Option.some.inj (hp.symm.trans hq)
      refine ⟨fun he => ⟨he, ?_⟩, And.left⟩
      rintro rfl
      obtain ⟨x, hx, hprovider, -⟩ := h.listed p provider hp e he
      obtain rfl := Option.some.inj (hx.symm.trans hb)
      exact hne hprovider

theorem instruments_teardown (sys : System α) (i : Nat) :
    (sys.teardown i).instruments = sys.instruments := by
  cases hb : sys.instruments[i]? with
  | none => simp [System.teardown, hb]
  | some b => rw [teardown_eq hb]

/-- A teardown leaves providers where they are. -/
theorem exists_provider_teardown_iff :
    (∃ provider, (sys.teardown i).providers[p]? = some provider) ↔
      ∃ provider, sys.providers[p]? = some provider := by
  have hlength : (sys.teardown i).providers.length = sys.providers.length := by
    cases hb : sys.instruments[i]? with
    | none => simp [System.teardown, hb]
    | some b =>
      rw [teardown_eq hb]
      exact List.length_modify ..
  simp only [← Option.isSome_iff_exists, isSome_getElem?, hlength]

/-- A teardown that was waited for is not waited for any more. -/
theorem teardown (h : Outstanding sys pending) (hi : i ∈ pending) :
    Outstanding (sys.teardown i) (pending.erase i) := by
  have hinstruments := instruments_teardown sys i
  refine ⟨fun j hj => ?_, fun j b hb halive => ?_, fun p provider' hp' e he => ?_⟩
  · rw [hinstruments]
    exact h.ended j (List.mem_of_mem_erase hj)
  · rw [hinstruments] at hb
    obtain ⟨provider, hp, hfind⟩ := h.found j b hb halive
    obtain ⟨provider', hp'⟩ := exists_provider_teardown_iff.mpr ⟨provider, hp⟩
    refine ⟨provider', hp', ?_⟩
    -- What lives is not what is torn down.
    have hne : j ≠ i := fun hji => h.not_mem_pending hb halive (hji ▸ hi)
    obtain ⟨k, hmem, hk⟩ := Table.exists_of_find?_eq_some hfind
    exact Table.find?_eq_some_of_mem ((h.mem_teardown hp hp').mpr ⟨hmem, hne⟩) hk
  · obtain ⟨provider, hp⟩ := exists_provider_teardown_iff.mp ⟨provider', hp'⟩
    obtain ⟨he, hne⟩ := (h.mem_teardown hp hp').mp he
    obtain ⟨b, hb, hprovider, hkey, hwaits⟩ := h.listed p provider hp e he
    rw [hinstruments]
    exact ⟨b, hb, hprovider, hkey, fun hstale => (List.mem_erase_of_ne hne).mpr (hwaits hstale)⟩

/-- After all teardowns that are waited for, in any order, none is. -/
theorem teardowns (h : Outstanding sys pending) {order : List Nat} (horder : order.Perm pending) :
    Outstanding (order.foldl System.teardown sys) [] ∧
      (order.foldl System.teardown sys).instruments = sys.instruments := by
  induction order generalizing sys pending with
  | nil =>
    obtain rfl := List.nil_perm.mp horder
    exact ⟨h, rfl⟩
  | cons i rest ih =>
    obtain ⟨hi, hrest⟩ := List.cons_perm_iff_perm_erase.mp horder
    obtain ⟨hlast, hinstruments⟩ := ih (h.teardown hi) hrest
    exact ⟨hlast, hinstruments.trans (instruments_teardown sys i)⟩

/-! ## Requests -/

/-- An instrument is built where nothing living was found, and takes the place of what waits there. -/
theorem withNewborn (h : Outstanding sys pending) {current provider : Provider α} {key : InstrumentKey}
    {plans : List (StreamPlan α)} (hp : sys.providers[p]? = some current)
    (hnew : (current.cache.find? key).filter sys.isAlive = none) :
    Outstanding (sys.withNewborn p provider key plans) pending := by
  have hold {j : Nat} {b : BuiltInstrument} (hb : sys.instruments[j]? = some b) :
      (sys.withNewborn p provider key plans).instruments[j]? = some b := by
    rw [getElem?_withNewborn_of_lt (List.getElem?_eq_some_iff.mp hb).1, hb]
  have hnewborn := getElem?_withNewborn_last sys p provider key plans
  refine ⟨fun j hj => ?_, fun j b hb halive => ?_, fun q provider' hq e he => ?_⟩
  · obtain ⟨b, hb, hended⟩ := h.ended j hj
    exact ⟨b, hold hb, hended⟩
  · have howner {f : Provider α → Provider α} := getElem?_modify_of_some f hp
    rcases getElem?_withNewborn hb with ⟨rfl, rfl⟩ | ⟨-, hj⟩
    · refine ⟨_, howner, ?_⟩
      show (current.cache.insert key _).find? key = _
      rw [Table.find?_insert, BEq.rfl, if_pos rfl]
    · obtain ⟨holder, hholder, hfind⟩ := h.found j b hj halive
      by_cases hpb : p = b.provider
      · -- Nothing living was found under the key, so this one has another.
        subst hpb
        obtain rfl := Option.some.inj (hp.symm.trans hholder)
        refine ⟨_, howner, ?_⟩
        show (current.cache.insert key _).find? b.key = _
        rw [Table.find?_insert]
        cases hkey : key == b.key with
        | false => exact hfind
        | true =>
          have halive : sys.isAlive j = true := isAlive_iff.mpr ⟨b, hj, halive⟩
          rw [Table.find?_congr _ hkey, hfind, Option.filter_some, halive] at hnew
          cases hnew
      · refine ⟨holder, ?_, hfind⟩
        show (sys.providers.modify p _)[b.provider]? = _
        rw [List.getElem?_modify_ne _ _ hpb, hholder]
  · rcases getElem?_modify_cases hq with ⟨rfl, x, hx, rfl⟩ | ⟨-, hq⟩
    · obtain rfl := Option.some.inj (hx.symm.trans hp)
      rcases Table.mem_update_cases he with ⟨hkey, hvalue⟩ | ⟨-, he⟩
      · exact ⟨_, hvalue ▸ hnewborn, rfl, BEq.symm hkey, fun hstale => by cases hstale⟩
      · obtain ⟨b, hb, hrest⟩ := h.listed p x hp e he
        exact ⟨b, hold hb, hrest⟩
    · obtain ⟨b, hb, hrest⟩ := h.listed q provider' hq e he
      exact ⟨b, hold hb, hrest⟩

/-! ## What is cached -/

/-- At most one living instrument of a provider has a key. -/
theorem unique (h : Outstanding sys pending) {j : Nat} {c : BuiltInstrument}
    (hb : sys.instruments[i]? = some b) (hc : sys.instruments[j]? = some c)
    (hbalive : b.lifetime.stale = false) (hcalive : c.lifetime.stale = false)
    (hprovider : b.provider = c.provider) (hkey : (b.key == c.key) = true) : i = j := by
  obtain ⟨q, hq, hfindb⟩ := h.found i b hb hbalive
  obtain ⟨r, hr, hfindc⟩ := h.found j c hc hcalive
  rw [hprovider] at hq
  obtain rfl := Option.some.inj (hq.symm.trans hr)
  rw [Table.find?_congr _ hkey, hfindc] at hfindb
  exact (Option.some.inj hfindb).symm

end Outstanding

end System

end Metering
