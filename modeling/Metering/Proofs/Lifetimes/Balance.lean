import Metering.Proofs.LifetimeLaws
import Metering.Proofs.Lifetimes.Registry
import Metering.System.Callbacks

/-!
# The Balance of References

The references that an instrument's lifetime counts, against a list of claims on it. A system is
balanced with given claims when every lifetime counts exactly what is claimed, has ended exactly
when nothing is claimed, and when caches and registries hold the living instruments and nothing
else.

Taking a reference adds a claim. Giving one back removes a claim, and when it was the last one, the
teardown that it sets off brings caches and registries up to date, so the balance holds again.
-/

namespace Metering

variable {α : Type}

/-! ## Claims -/

/-- How many references of each flavour are claimed on each instrument. -/
abbrev Claims := Nat → Flavour → Nat

/-- The claims with one more on an instrument. -/
def Claims.bump (claims : Claims) (i : Nat) (f : Flavour) : Claims :=
  fun j g => claims j g + if j = i ∧ g = f then 1 else 0

theorem Claims.bump_self (claims : Claims) (i : Nat) (f : Flavour) :
    claims.bump i f i f = claims i f + 1 := by
  simp [bump]

theorem Claims.bump_of_flavour_ne (claims : Claims) (i : Nat) {f g : Flavour} (h : g ≠ f) :
    claims.bump i f i g = claims i g := by
  simp [bump, h]

theorem Claims.bump_of_ne (claims : Claims) {i j : Nat} (f : Flavour) (h : j ≠ i) :
    claims.bump i f j = claims j := by
  funext g
  simp [bump, h]

/-! ## Tallies -/

/-- Every lifetime counts what is claimed and has ended exactly when nothing is; the teardown of a
living instrument is still waiting. -/
structure Tallied (instruments : List BuiltInstrument) (claims : Claims) : Prop where
  counts : ∀ (i : Nat) (b : BuiltInstrument), instruments[i]? = some b →
    ∀ f, b.lifetime.count f = claims i f
  stale_iff : ∀ (i : Nat) (b : BuiltInstrument), instruments[i]? = some b →
    (b.lifetime.stale = true ↔ ∀ f, claims i f = 0)
  waiting : ∀ (i : Nat) (b : BuiltInstrument), instruments[i]? = some b →
    b.lifetime.stale = false → b.lifetime.pending = [i]

namespace Tallied

variable {instruments : List BuiltInstrument} {claims claims' : Claims} {i : Nat}
  {b : BuiltInstrument} {l : Lifetime Nat} {f : Flavour}

/-- Only the claims on built instruments matter. -/
theorem congr_claims (h : Tallied instruments claims)
    (heq : ∀ (j : Nat) (x : BuiltInstrument), instruments[j]? = some x → claims' j = claims j) :
    Tallied instruments claims' := by
  refine ⟨?_, ?_, h.waiting⟩
  · intro j x hx f
    rw [heq j x hx]
    exact h.counts j x hx f
  · intro j x hx
    rw [heq j x hx]
    exact h.stale_iff j x hx

/-- A lifetime may change as the claims on its instrument do. -/
theorem modify (h : Tallied instruments claims) (hcounts : ∀ f, l.count f = claims' i f)
    (hstale : l.stale = true ↔ ∀ f, claims' i f = 0) (hwaiting : l.stale = false → l.pending = [i])
    (hothers : ∀ j, j ≠ i → claims' j = claims j) :
    Tallied (instruments.modify i fun b => { b with lifetime := l }) claims' := by
  refine ⟨?_, ?_, ?_⟩
  · intro j x hx f
    rcases getElem?_modify_cases hx with ⟨rfl, y, -, rfl⟩ | ⟨hne, hx⟩
    · exact hcounts f
    · rw [hothers j (Ne.symm hne)]
      exact h.counts j x hx f
  · intro j x hx
    rcases getElem?_modify_cases hx with ⟨rfl, y, -, rfl⟩ | ⟨hne, hx⟩
    · exact hstale
    · rw [hothers j (Ne.symm hne)]
      exact h.stale_iff j x hx
  · intro j x hx hxs
    rcases getElem?_modify_cases hx with ⟨rfl, y, -, rfl⟩ | ⟨-, hx⟩
    · exact hwaiting hxs
    · exact h.waiting j x hx hxs

/-- One more instrument comes with the one reference that is taken on it. -/
theorem concat (h : Tallied instruments claims)
    (hlifetime : b.lifetime = ⟨1, 0, false, [instruments.length]⟩)
    (hunclaimed : ∀ f, claims instruments.length f = 0) :
    Tallied (instruments ++ [b]) (claims.bump instruments.length .transient) := by
  have hfirst : claims.bump instruments.length .transient instruments.length .transient = 1 := by
    rw [Claims.bump_self, hunclaimed]
  have hcases {j : Nat} {x : BuiltInstrument} (hx : (instruments ++ [b])[j]? = some x) :
      (j = instruments.length ∧ x = b) ∨ (j ≠ instruments.length ∧ instruments[j]? = some x) := by
    rw [List.getElem?_append] at hx
    split at hx
    · exact .inr ⟨by omega, hx⟩
    · obtain ⟨hlt, rfl⟩ := List.getElem?_eq_some_iff.mp hx
      rw [List.length_singleton] at hlt
      exact .inl ⟨by omega, by simp⟩
  refine ⟨?_, ?_, ?_⟩
  · intro j x hx f
    rcases hcases hx with ⟨rfl, rfl⟩ | ⟨hne, hx⟩
    · rw [hlifetime]
      cases f with
      | transient => exact hfirst.symm
      | persistent =>
        rw [Claims.bump_of_flavour_ne _ _ (by decide), hunclaimed]
        rfl
    · rw [Claims.bump_of_ne _ _ hne]
      exact h.counts j x hx f
  · intro j x hx
    rcases hcases hx with ⟨rfl, rfl⟩ | ⟨hne, hx⟩
    · rw [hlifetime]
      refine ⟨fun hstale => (by cases hstale), fun hzero => ?_⟩
      have := hzero .transient
      rw [hfirst] at this
      cases this
    · rw [Claims.bump_of_ne _ _ hne]
      exact h.stale_iff j x hx
  · intro j x hx halive
    rcases hcases hx with ⟨rfl, rfl⟩ | ⟨-, hx⟩
    · rw [hlifetime]
    · exact h.waiting j x hx halive

/-- A living lifetime counts one more reference with one more claim. -/
theorem acquire (h : Tallied instruments claims) (hb : instruments[i]? = some b)
    (halive : b.lifetime.stale = false) (f : Flavour) :
    Tallied (instruments.modify i fun x =>
        { x with lifetime := b.lifetime.withCount (b.lifetime.count f + 1) f })
      (claims.bump i f) := by
  refine h.modify ?_ ⟨?_, fun hzero => ?_⟩ ?_ fun j hj => Claims.bump_of_ne _ _ hj
  · intro g
    by_cases hg : g = f
    · subst hg
      rw [Lifetime.count_withCount_self, h.counts i b hb, Claims.bump_self]
    · rw [Lifetime.count_withCount_of_ne _ _ hg, h.counts i b hb, Claims.bump_of_flavour_ne _ _ hg]
  · intro hstale
    rw [Lifetime.stale_withCount, halive] at hstale
    cases hstale
  · have := hzero f
    rw [Claims.bump_self] at this
    cases this
  · intro _
    rw [Lifetime.pending_withCount]
    exact h.waiting i b hb halive

/-- What is claimed lives. Given back, it is counted once less; and if nothing is claimed any more,
its lifetime ends and hands out the teardown. -/
theorem release (h : Tallied instruments (claims.bump i f)) (hb : instruments[i]? = some b) :
    b.lifetime.stale = false ∧
    ((b.lifetime.release f).2.1 = [] ∧ (b.lifetime.release f).2.2.stale = false ∨
      (b.lifetime.release f).2.1 = [i] ∧ (b.lifetime.release f).2.2.stale = true) ∧
    Tallied (instruments.modify i fun x => { x with lifetime := (b.lifetime.release f).2.2 })
      claims := by
  have hcount : b.lifetime.count f = claims i f + 1 := by
    rw [h.counts i b hb, Claims.bump_self]
  have halive : b.lifetime.stale = false := by
    cases hs : b.lifetime.stale with
    | false => rfl
    | true =>
      have := (h.stale_iff i b hb).mp hs f
      rw [Claims.bump_self] at this
      cases this
  have hlowered (g : Flavour) : (b.lifetime.withCount (claims i f) f).count g = claims i g := by
    by_cases hg : g = f
    · subst hg
      exact Lifetime.count_withCount_self ..
    · rw [Lifetime.count_withCount_of_ne _ _ hg, h.counts i b hb, Claims.bump_of_flavour_ne _ _ hg]
  have hothers (j : Nat) (hj : j ≠ i) : claims j = claims.bump i f j :=
    (Claims.bump_of_ne claims f hj).symm
  have hgiven : b.lifetime.release f = (true, (b.lifetime.withCount (claims i f) f).settle) := by
    rw [Lifetime.release_of_ne_zero (hcount ▸ Nat.succ_ne_zero _), hcount, Nat.add_sub_cancel]
  refine ⟨halive, ?_⟩
  rcases Lifetime.settle_cases (b.lifetime.withCount (claims i f) f) with
    ⟨hsettle, hheld⟩ | ⟨hsettle, -, hunreferenced⟩
  · -- Another reference is left, so the lifetime goes on.
    rw [hgiven, hsettle]
    have hlasts : (b.lifetime.withCount (claims i f) f).stale = false := by simpa using halive
    refine ⟨.inl ⟨rfl, hlasts⟩, h.modify hlowered ?_ (fun _ => ?_) hothers⟩
    · rw [hlasts]
      exact ⟨fun hstale => (by cases hstale), fun hzero =>
        absurd ⟨hlasts, fun g => (hlowered g).trans (hzero g)⟩ hheld⟩
    · rw [Lifetime.pending_withCount]
      exact h.waiting i b hb halive
  · -- The last reference: the lifetime ends.
    rw [hgiven, hsettle]
    have hzero (g : Flavour) : claims i g = 0 := (hlowered g).symm.trans (hunreferenced g)
    refine ⟨.inr ⟨?_, rfl⟩, h.modify ?_ ⟨fun _ => hzero, fun _ => rfl⟩ ?_ hothers⟩
    · rw [Lifetime.pending_withCount]
      exact h.waiting i b hb halive
    · exact fun g => (Lifetime.count_expired g).trans (hzero g).symm
    · intro hlasts
      cases hlasts

end Tallied

/-! ## Housekeeping -/

/-- What caches and registries depend on: whether the instrument is stale, where it belongs, and
which streams it was built with. -/
def BuiltInstrument.profile (b : BuiltInstrument) : Bool × Nat × InstrumentKey × List (Nat × Nat) :=
  (b.lifetime.stale, b.provider, b.key, b.streams)

/-- The streams of an instrument that is alive. -/
def BuiltInstrument.liveStreams (b : BuiltInstrument) : List (Nat × Nat) :=
  if b.lifetime.stale then [] else b.streams

namespace System

/-- All streams that were ever built, in build order. -/
def builtStreams (sys : System α) : List (Nat × Nat) := sys.instruments.flatMap (·.streams)

/-- The streams of all living instruments, in build order. -/
def liveStreams (sys : System α) : List (Nat × Nat) := sys.instruments.flatMap (·.liveStreams)

/-- Caches hold the living instruments of their provider under their keys, registries hold their
streams, and neither holds anything else. -/
structure Housed (sys : System α) : Prop where
  owned : ∀ (i : Nat) (b : BuiltInstrument), sys.instruments[i]? = some b → b.provider < sys.providers.length
  cached : ∀ (p : Nat) (provider : Provider α), sys.providers[p]? = some provider → ∀ k i,
    (k, i) ∈ provider.cache.entries ↔
      ∃ b : BuiltInstrument, sys.instruments[i]? = some b ∧ b.lifetime.stale = false ∧ b.provider = p ∧ b.key = k
  registered : Registered sys.readers sys.builtStreams sys.liveStreams

/-- Every lifetime counts what is claimed and has ended exactly when nothing is; the teardown of a
living instrument is still waiting. -/
structure Balanced (sys : System α) (claims : Claims) : Prop where
  counts : ∀ (i : Nat) (b : BuiltInstrument), sys.instruments[i]? = some b →
    ∀ f, b.lifetime.count f = claims i f
  stale_iff : ∀ (i : Nat) (b : BuiltInstrument), sys.instruments[i]? = some b →
    (b.lifetime.stale = true ↔ ∀ f, claims i f = 0)
  waiting : ∀ (i : Nat) (b : BuiltInstrument), sys.instruments[i]? = some b →
    b.lifetime.stale = false → b.lifetime.pending = [i]
  housed : Housed sys

variable {sys sys' : System α} {claims claims' : Claims} {i : Nat} {b : BuiltInstrument}
  {l : Lifetime Nat}

theorem Balanced.tallied (h : Balanced sys claims) : Tallied sys.instruments claims :=
  ⟨h.counts, h.stale_iff, h.waiting⟩

theorem Balanced.of_tallied (h : Tallied sys.instruments claims) (housed : Housed sys) :
    Balanced sys claims :=
  ⟨h.counts, h.stale_iff, h.waiting, housed⟩

/-! ## Teardowns -/

theorem foldl_modifyReader (streams : List (Nat × Nat)) (f : Nat → Reader α → Reader α)
    (sys : System α) :
    streams.foldl (fun sys s => sys.modifyReader s.1 (f s.2)) sys =
      { sys with readers := streams.foldl (fun rs s => rs.modify s.1 (f s.2)) sys.readers } := by
  induction streams generalizing sys with
  | nil => rfl
  | cons s rest ih => exact ih _

/-- A teardown takes the instrument out of its provider's cache and its streams out of their
readers, and touches nothing else. -/
theorem teardown_eq (hb : sys.instruments[i]? = some b) :
    sys.teardown i =
      { sys with
        readers := b.streams.foldl (fun rs s => rs.modify s.1 fun r => r.unregister s.2) sys.readers
        providers := sys.providers.modify b.provider fun p => p.uncache b.key i } := by
  simp only [teardown, hb]
  exact foldl_modifyReader b.streams (fun n r => r.unregister n) _

/-! ## Caches -/

/-- Whether caches hold the living instruments of their provider under their keys, and nothing
else. -/
def Cached (sys : System α) : Prop :=
  ∀ (p : Nat) (provider : Provider α), sys.providers[p]? = some provider → ∀ k i,
    (k, i) ∈ provider.cache.entries ↔
      ∃ b : BuiltInstrument, sys.instruments[i]? = some b ∧ b.lifetime.stale = false ∧ b.provider = p ∧ b.key = k

/-- Caches are right as long as they and the profiles stay. -/
theorem Cached.congr (h : Cached sys)
    (hprofile : sys'.instruments.map (·.profile) = sys.instruments.map (·.profile))
    (hcaches : sys'.providers.map (·.cache) = sys.providers.map (·.cache)) : Cached sys' := by
  have hget := map_getElem?_of_map_eq hprofile
  intro p provider' hp' k i
  have hcache := map_getElem?_of_map_eq hcaches p
  rw [hp'] at hcache
  obtain ⟨provider, hp, hsame⟩ := Option.map_eq_some_iff.mp hcache.symm
  have hsame : provider.cache = provider'.cache := hsame
  rw [← hsame, h p provider hp k i]
  -- Profiles name staleness, provider and key, which is all that the right side asks for.
  constructor
  · rintro ⟨b, hb, hstale, hprovider, hkey⟩
    have hi := hget i
    rw [hb] at hi
    obtain ⟨b', hb', heq⟩ := Option.map_eq_some_iff.mp hi
    exact ⟨b', hb', (congrArg (·.1) heq).trans hstale, (congrArg (·.2.1) heq).trans hprovider,
      (congrArg (·.2.2.1) heq).trans hkey⟩
  · rintro ⟨b', hb', hstale, hprovider, hkey⟩
    have hi := hget i
    rw [hb'] at hi
    obtain ⟨b, hb, heq⟩ := Option.map_eq_some_iff.mp hi.symm
    exact ⟨b, hb, (congrArg (·.1) heq).trans hstale, (congrArg (·.2.1) heq).trans hprovider,
      (congrArg (·.2.2.1) heq).trans hkey⟩

/-- Besides an instrument whose lifetime is over, those that were alive are alive. -/
theorem exists_alive_setLifetime_iff (hstale : l.stale = true) {j p : Nat} {k : InstrumentKey} :
    (∃ x, (sys.setLifetime i l).instruments[j]? = some x ∧ x.lifetime.stale = false ∧
        x.provider = p ∧ x.key = k) ↔
      j ≠ i ∧ ∃ x, sys.instruments[j]? = some x ∧ x.lifetime.stale = false ∧ x.provider = p ∧
        x.key = k := by
  constructor
  · rintro ⟨x, hx, halive, hrest⟩
    rcases getElem?_modify_cases hx with ⟨rfl, y, -, rfl⟩ | ⟨hne, hx⟩
    · rw [hstale] at halive
      cases halive
    · exact ⟨Ne.symm hne, x, hx, halive, hrest⟩
  · rintro ⟨hne, x, hx, hrest⟩
    refine ⟨x, ?_, hrest⟩
    show (sys.instruments.modify i _)[j]? = some x
    rw [List.getElem?_modify_ne _ _ (Ne.symm hne), hx]

/-- What an instrument's own provider has cached once it forgot the instrument. -/
theorem Cached.mem_uncache (h : Cached sys) (hb : sys.instruments[i]? = some b)
    (halive : b.lifetime.stale = false) {provider : Provider α}
    (hp : sys.providers[b.provider]? = some provider) {k : InstrumentKey} {j : Nat} :
    (k, j) ∈ (provider.uncache b.key i).cache.entries ↔
      j ≠ i ∧ (k, j) ∈ provider.cache.entries := by
  -- The key leads to the instrument, so the entry erased is the instrument's.
  have hentry : (b.key, i) ∈ provider.cache.entries :=
    (h b.provider provider hp b.key i).mpr ⟨b, hb, halive, rfl, rfl⟩
  have hfound : provider.cache.find? b.key = some i := Table.find?_eq_some_of_mem hentry BEq.rfl
  simp only [Provider.uncache, hfound, if_true, Table.mem_erase]
  constructor
  · rintro ⟨hmem, hk⟩
    refine ⟨?_, hmem⟩
    rintro rfl
    obtain ⟨x, hx, -, -, rfl⟩ := (h b.provider provider hp k j).mp hmem
    obtain rfl := Option.some.inj (hx.symm.trans hb)
    rw [BEq.rfl] at hk
    cases hk
  · rintro ⟨hne, hmem⟩
    refine ⟨hmem, ?_⟩
    cases hk : k == b.key with
    | false => rfl
    | true =>
      -- Under an equal key the instrument is found, which is another one.
      have hsame := Table.find?_eq_some_of_mem hmem hk
      exact absurd (Option.some.inj (hsame.symm.trans hfound)) hne

/-- The teardown of an instrument whose lifetime is over brings the caches up to date. -/
theorem Cached.expire (h : Cached sys) (hb : sys.instruments[i]? = some b)
    (halive : b.lifetime.stale = false) (hstale : l.stale = true) :
    Cached ((sys.setLifetime i l).teardown i) := by
  have hb' : (sys.setLifetime i l).instruments[i]? = some { b with lifetime := l } :=
    getElem?_modify_of_some _ hb
  rw [teardown_eq hb']
  intro p provider' hp' k j
  show _ ↔ ∃ x, (sys.setLifetime i l).instruments[j]? = some x ∧ _
  rw [exists_alive_setLifetime_iff hstale]
  rcases getElem?_modify_cases hp' with ⟨rfl, provider, hp, rfl⟩ | ⟨hne, hp⟩
  · show (k, j) ∈ (provider.uncache b.key i).cache.entries ↔ _
    rw [h.mem_uncache hb halive hp, h b.provider provider hp k j]
  · -- Another provider's cache never had the instrument.
    rw [h p provider' hp k j]
    constructor
    · rintro ⟨x, hx, hxs, rfl, hk⟩
      refine ⟨?_, x, hx, hxs, rfl, hk⟩
      rintro rfl
      obtain rfl := Option.some.inj (hx.symm.trans hb)
      exact hne rfl
    · exact fun hx => hx.2

/-! ## Housekeeping of readers -/

/-- Housekeeping looks at profiles, caches and outlines only. -/
theorem Housed.congr (h : Housed sys)
    (hprofile : sys'.instruments.map (·.profile) = sys.instruments.map (·.profile))
    (hcaches : sys'.providers.map (·.cache) = sys.providers.map (·.cache))
    (hreaders : sys'.readers.map (·.outline) = sys.readers.map (·.outline)) : Housed sys' := by
  have hlength : sys'.providers.length = sys.providers.length := by
    simpa using congrArg List.length hcaches
  refine ⟨?_, Cached.congr h.cached hprofile hcaches, ?_⟩
  · intro i b' hb'
    have hsame := map_getElem?_of_map_eq hprofile i
    rw [hb'] at hsame
    obtain ⟨b, hb, heq⟩ := Option.map_eq_some_iff.mp hsame.symm
    have hprovider : b.provider = b'.provider := congrArg (·.2.1) heq
    rw [hlength, ← hprovider]
    exact h.owned i b hb
  · -- Both books are read off the profiles.
    have hbuilt : sys'.builtStreams = sys.builtStreams := by
      have := congrArg (List.flatMap fun x => x.2.2.2) hprofile
      simpa [List.flatMap_map, builtStreams, BuiltInstrument.profile] using this
    have hlive : sys'.liveStreams = sys.liveStreams := by
      have := congrArg (List.flatMap fun x => if x.1 then [] else x.2.2.2) hprofile
      simpa [List.flatMap_map, liveStreams, BuiltInstrument.liveStreams, BuiltInstrument.profile]
        using this
    rw [hbuilt, hlive]
    exact h.registered.of_outline_eq hreaders

/-! ## Taking references -/

/-- Of a lifetime, housekeeping sees only whether it is over. -/
theorem Housed.withLifetime (h : Housed sys) (hb : sys.instruments[i]? = some b)
    (hstale : l.stale = b.lifetime.stale) : Housed (sys.setLifetime i l) := by
  refine h.congr (map_modify_of_eq fun x hx => ?_) rfl rfl
  obtain rfl := Option.some.inj (hx.symm.trans hb)
  simp [BuiltInstrument.profile, hstale]

/-- Taking a reference on a living instrument succeeds. -/
theorem acquire_of_alive (hb : sys.instruments[i]? = some b) (halive : b.lifetime.stale = false)
    (f : Flavour) : sys.acquire i f =
      (true, sys.setLifetime i (b.lifetime.withCount (b.lifetime.count f + 1) f)) := by
  simp [System.acquire, hb, Lifetime.acquire, halive]

/-- Taking a reference on a living instrument succeeds, and adds a claim. -/
theorem Balanced.acquire (h : Balanced sys claims) (hb : sys.instruments[i]? = some b)
    (halive : b.lifetime.stale = false) (f : Flavour) :
    (sys.acquire i f).1 = true ∧ Balanced (sys.acquire i f).2 (claims.bump i f) := by
  rw [acquire_of_alive hb halive]
  exact ⟨rfl, .of_tallied (h.tallied.acquire hb halive f) (h.housed.withLifetime hb (by simp))⟩

/-! ## The end of a lifetime -/

/-- The teardown of an instrument whose lifetime is over brings the housekeeping up to date. -/
theorem Housed.expire (h : Housed sys) (hb : sys.instruments[i]? = some b)
    (halive : b.lifetime.stale = false) (hstale : l.stale = true) :
    Housed ((sys.setLifetime i l).teardown i) := by
  have hb' : (sys.setLifetime i l).instruments[i]? = some { b with lifetime := l } :=
    getElem?_modify_of_some _ hb
  have hcached := Cached.expire h.cached hb halive hstale
  rw [teardown_eq hb'] at hcached ⊢
  refine ⟨?_, hcached, ?_⟩
  · intro j x hx
    show x.provider < (sys.providers.modify b.provider _).length
    rw [List.length_modify]
    rcases getElem?_modify_cases hx with ⟨-, y, hy, rfl⟩ | ⟨-, hx⟩
    · exact h.owned j y hy
    · exact h.owned j x hx
  · have hbuilt : (sys.instruments.modify i fun b => { b with lifetime := l }).flatMap (·.streams) =
        sys.builtStreams := flatMap_modify_of_eq fun _ _ => rfl
    -- No two instruments share a stream, so the living ones lose the instrument's own and no other.
    have hlive : (sys.instruments.modify i fun b => { b with lifetime := l }).flatMap
        (·.liveStreams) = sys.liveStreams.filter (· ∉ b.streams) := by
      have hnodup : (sys.instruments.flatMap fun x : BuiltInstrument => x.streams).Nodup :=
        h.registered.nodup
      refine flatMap_modify_of_emptied hb ?_ ?_ hnodup
      · simp [BuiltInstrument.liveStreams, hstale]
      · intro y s hs
        unfold BuiltInstrument.liveStreams at hs
        split at hs
        · simp at hs
        · exact hs
    show Registered _ _ _
    simp only [builtStreams, liveStreams, setLifetime] at hbuilt hlive ⊢
    rw [hbuilt, hlive]
    exact h.registered.unregisterAll b.streams

/-! ## Giving references back -/

/-- Giving a reference back removes a claim. If it was the last one the instrument is torn down,
and the balance holds again. -/
theorem Balanced.release {f : Flavour} (h : Balanced sys (claims.bump i f)) :
    Balanced (sys.release i f) claims := by
  cases hb : sys.instruments[i]? with
  | none =>
    have hsame : sys.release i f = sys := by simp [System.release, relinquish, hb]
    rw [hsame]
    refine .of_tallied (h.tallied.congr_claims fun j x hx => ?_) h.housed
    apply (Claims.bump_of_ne claims f _).symm
    rintro rfl
    rw [hb] at hx
    cases hx
  | some b =>
    have hrelease : sys.release i f = (b.lifetime.release f).2.1.foldl System.teardown
        (sys.setLifetime i (b.lifetime.release f).2.2) := by
      simp only [System.release, relinquish, hb]
    obtain ⟨halive, ⟨hnone, hlasts⟩ | ⟨hall, hended⟩, htallied⟩ := h.tallied.release hb
    · -- Another reference is left, so the lifetime goes on.
      rw [hrelease, hnone]
      exact .of_tallied htallied (h.housed.withLifetime hb (hlasts.trans halive.symm))
    · -- The last reference: the teardown that waited for it runs.
      rw [hrelease, hall, List.foldl_cons, List.foldl_nil]
      refine .of_tallied ?_ (h.housed.expire hb halive hended)
      have hb' : (sys.setLifetime i (b.lifetime.release f).2.2).instruments[i]? =
          some { b with lifetime := (b.lifetime.release f).2.2 } := getElem?_modify_of_some _ hb
      rw [teardown_eq hb']
      exact htallied

end System

end Metering
