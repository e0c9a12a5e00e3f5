import Metering.Proofs.Creations.Resolution
import Metering.Proofs.Teardowns.References

/-!
# Late Teardowns are Harmless

However late teardowns run, and in whatever order, requests, handles and caches do not suffer from it. A
request is answered with a living instrument, there is at most one for a key, handles with one key share
it, a teardown spares what took the place of its instrument, and once all teardowns have run caches have
exactly the living instruments.
-/

namespace Metering

variable {α : Type}

namespace System

variable {sys sys' : System α} {pending : List Nat} {p j : Nat} {current provider : Provider α}
  {key : InstrumentKey} {b : BuiltInstrument}

/-- The transient references that an instrument counts; none if it was not built. -/
def transients (sys : System α) (i : Nat) : Nat :=
  (sys.instruments[i]?.map (·.lifetime.transient)).getD 0

/-- The living instruments of a provider. -/
def livingOf (sys : System α) (p : Nat) : List Nat :=
  (List.range sys.instruments.length).filter fun i =>
    sys.instruments[i]?.any fun b => !b.lifetime.stale && b.provider == p

theorem mem_livingOf {i : Nat} : i ∈ sys.livingOf p ↔
    ∃ b, sys.instruments[i]? = some b ∧ b.lifetime.stale = false ∧ b.provider = p := by
  rw [livingOf, List.mem_filter, List.mem_range]
  constructor
  · rintro ⟨hlt, hany⟩
    refine ⟨sys.instruments[i], List.getElem?_eq_getElem hlt, ?_⟩
    simpa [List.getElem?_eq_getElem hlt] using hany
  · rintro ⟨b, hb, hrest⟩
    exact ⟨(List.getElem?_eq_some_iff.mp hb).1, by simpa [hb] using hrest⟩

theorem nodup_livingOf (sys : System α) (p : Nat) : (sys.livingOf p).Nodup :=
  List.nodup_range.filter _

/-! ## Requests -/

/-- What becomes of a request for an instrument: it is refused if none lives and none can be built, and
nothing is changed then; or it is granted with a living instrument, the one that lived if there was one,
on which there is one more reference. -/
inductive Answered [Quantity α] (sys : System α) (p : Nat) (provider : Provider α) (scope : Scope)
    (i : Instrument α) : Except (Error α) Nat × System α → Prop
  | refused {e : Error α} {sys' : System α} (plan : (sys.plan provider scope i).2 = .error e)
      (nobody : ∀ j b, ¬sys.Serves p ⟨scope, i.identity⟩ j b) (same : sys'.footing = sys.footing) :
      Answered sys p provider scope i (.error e, sys')
  | granted {found : Nat} {b : BuiltInstrument} {sys' : System α}
      (serves : sys'.Serves p ⟨scope, i.identity⟩ found b)
      (counted : b.lifetime.transient = sys.transients found + 1)
      (shared : ∀ j c, sys.Serves p ⟨scope, i.identity⟩ j c → found = j)
      (cached : ∃ holder, sys'.providers[p]? = some holder ∧
        holder.cache.find? ⟨scope, i.identity⟩ = some found) :
      Answered sys p provider scope i (.ok found, sys')

namespace Outstanding

/-- What serves a key is found under it. -/
theorem find?_of_serves (h : Outstanding sys pending) (hp : sys.providers[p]? = some current)
    (hserves : sys.Serves p key j b) : current.cache.find? key = some j := by
  obtain ⟨hb, halive, rfl, hkey⟩ := hserves
  obtain ⟨holder, hholder, hfind⟩ := h.found j b hb halive
  obtain rfl := Option.some.inj (hp.symm.trans hholder)
  rw [← Table.find?_congr _ hkey, hfind]

/-- What is found under a key and lives serves it. -/
theorem serves_of_find? (h : Outstanding sys pending) (hp : sys.providers[p]? = some current)
    (hfind : current.cache.find? key = some j) (halive : sys.isAlive j = true) :
    ∃ b, sys.Serves p key j b := by
  obtain ⟨k, hmem, hk⟩ := Table.exists_of_find?_eq_some hfind
  obtain ⟨b, hb, hprovider, hkey, -⟩ := h.listed p current hp (k, j) hmem
  obtain ⟨x, hx, hstale⟩ := isAlive_iff.mp halive
  obtain rfl := Option.some.inj (hx.symm.trans hb)
  exact ⟨x, hb, hstale, hprovider, BEq.trans hkey hk⟩

/-- Every request is answered. -/
theorem answered_procure [Quantity α] (h : Outstanding sys pending)
    (hp : sys.providers[p]? = some current) (same : provider.cache = current.cache) (scope : Scope)
    (i : Instrument α) :
    Answered sys p provider scope i (sys.procure p provider scope i) := by
  -- Whatever serves the key is found in the cache, and alive.
  have hlooked {j : Nat} {c : BuiltInstrument} (hserves : sys.Serves p ⟨scope, i.identity⟩ j c) :
      (provider.cache.find? ⟨scope, i.identity⟩).filter sys.isAlive = some j := by
    have halive : sys.isAlive j = true := isAlive_iff.mpr ⟨c, hserves.1, hserves.2.1⟩
    rw [same, h.find?_of_serves hp hserves, Option.filter_some, halive, if_pos rfl]
  rcases procure_cases sys p provider scope i with
    ⟨e, entries, hplan, heq⟩ | ⟨found, hfound, halive, heq⟩ | ⟨entries, plans, hnone, hplan, heq⟩
  · rw [heq]
    refine .refused (congrArg (·.2) hplan) (fun j c hserves => ?_) rfl
    have hgranted : (sys.procure p provider scope i).1 = .ok j := by
      unfold procure findOrBuild
      simp only [hlooked hserves]
    rw [heq] at hgranted
    cases hgranted
  · rw [heq]
    rw [same] at hfound
    obtain ⟨b, hb, hstale, hprovider, hkey⟩ := h.serves_of_find? hp hfound halive
    rw [acquire_of_alive hb hstale]
    refine .granted ⟨getElem?_modify_of_some _ hb, ?_, hprovider, hkey⟩ ?_ (fun j c hserves => ?_)
      ⟨current, hp, hfound⟩
    · simpa using hstale
    · rw [transients, hb]
      rfl
    · exact Option.some.inj (hfound.symm.trans (h.find?_of_serves hp hserves))
  · rw [heq]
    have hnobody : sys.transients sys.instruments.length = 0 := by simp [transients]
    refine .granted ⟨getElem?_withNewborn_last (sys.write entries) .., rfl, rfl, BEq.rfl⟩ ?_
      (fun j c hserves => ?_) ⟨_, getElem?_modify_of_some _ hp, ?_⟩
    · rw [hnobody]
      rfl
    · rw [hlooked hserves] at hnone
      cases hnone
    · show (current.cache.insert _ _).find? _ = _
      rw [Table.find?_insert, BEq.rfl, if_pos rfl]
      rfl

/-! ## Caches without teardowns to come -/

/-- What is found is what serves the key, once no teardown is to come. -/
theorem find?_eq_some_iff (h : Outstanding sys []) (hp : sys.providers[p]? = some provider) :
    provider.cache.find? key = some j ↔ ∃ b, sys.Serves p key j b := by
  refine ⟨fun hfind => ?_, fun ⟨b, hserves⟩ => h.find?_of_serves hp hserves⟩
  obtain ⟨k, hmem, -⟩ := Table.exists_of_find?_eq_some hfind
  obtain ⟨b, hb, -, -, hwaits⟩ := h.listed p provider hp (k, j) hmem
  have halive : b.lifetime.stale = false := Bool.eq_false_iff.mpr fun hstale => by cases hwaits hstale
  exact h.serves_of_find? hp hfind (isAlive_iff.mpr ⟨b, hb, halive⟩)

/-- No instrument is cached twice. -/
theorem nodup_values (h : Outstanding sys pending) (hp : sys.providers[p]? = some provider) :
    provider.cache.values.Nodup := by
  refine List.pairwise_map.mpr (provider.cache.distinct.imp_of_mem fun {d e} hd he hne heq => ?_)
  obtain ⟨b, hb, -, hkey, -⟩ := h.listed p provider hp d hd
  obtain ⟨c, hc, -, hkey', -⟩ := h.listed p provider hp e he
  -- The one instrument has one key, which both entries have.
  rw [heq] at hb
  obtain rfl := Option.some.inj (hb.symm.trans hc)
  rw [BEq.trans (BEq.symm hkey) hkey'] at hne
  cases hne

/-- What is cached is what lives, once no teardown is to come. -/
theorem values_perm (h : Outstanding sys []) (hp : sys.providers[p]? = some provider) :
    provider.cache.values.Perm (sys.livingOf p) := by
  refine (List.perm_ext_iff_of_nodup (h.nodup_values hp) (sys.nodup_livingOf p)).mpr fun i => ?_
  rw [mem_livingOf]
  constructor
  · intro hi
    obtain ⟨e, he, rfl⟩ := List.mem_map.mp hi
    obtain ⟨b, hb, hprovider, -, hwaits⟩ := h.listed p provider hp e he
    exact ⟨b, hb, Bool.eq_false_iff.mpr fun hstale => (by cases hwaits hstale), hprovider⟩
  · rintro ⟨b, hb, halive, hprovider⟩
    have hfind := h.find?_of_serves hp ⟨hb, halive, hprovider, BEq.rfl⟩
    obtain ⟨k, hmem, -⟩ := Table.exists_of_find?_eq_some hfind
    exact List.mem_map_of_mem hmem

end Outstanding

end System

namespace Backlog

/-- What holds in spite of teardowns that are late. -/
structure Harmless [Quantity α] (s : Backlog α) : Prop where
  /-- Requests are answered with living instruments. -/
  answered : ∀ (p : Nat) (current provider : Provider α) (scope : Scope) (i : Instrument α),
    s.system.providers[p]? = some current → provider.cache = current.cache →
      s.system.Answered p provider scope i (s.system.procure p provider scope i)
  /-- At most one living instrument of a provider has a key. -/
  unique : ∀ (p : Nat) (key : InstrumentKey) (j k : Nat) (b c : BuiltInstrument),
    s.system.Serves p key j b → s.system.Serves p key k c → j = k
  /-- What a handle refers to lives, and is found under its key. -/
  held : ∀ handle j, s.system.handles.find? handle = some j →
    ∃ (b : BuiltInstrument) (provider : Provider α), s.system.Serves b.provider b.key j b ∧
      s.system.providers[b.provider]? = some provider ∧ provider.cache.find? b.key = some j
  /-- Handles on instruments of one provider with equal keys share the instrument. -/
  shared : ∀ (handle other j k : Nat) (b c : BuiltInstrument),
    s.system.handles.find? handle = some j → s.system.instruments[j]? = some b →
    s.system.handles.find? other = some k → s.system.instruments[k]? = some c →
      b.provider = c.provider → (b.key == c.key) = true → j = k
  /-- A teardown to come is that of an instrument that is over, and will take out of caches what they
  have of it, and nothing else. -/
  spared : ∀ i ∈ s.pending, (∃ b, s.system.instruments[i]? = some b ∧ b.lifetime.stale = true) ∧
    ∀ (p : Nat) (provider : Provider α), s.system.providers[p]? = some provider →
      ∃ provider' : Provider α, (s.system.teardown i).providers[p]? = some provider' ∧
        ∀ e, e ∈ provider'.cache.entries ↔ e ∈ provider.cache.entries ∧ e.2 ≠ i
  /-- Once the teardowns to come have run, in any order, each cache has exactly the living instruments
  of its provider, under their keys. -/
  settled : ∀ order : List Nat, order.Perm s.pending →
    let sys' := order.foldl System.teardown s.system
    sys'.instruments = s.system.instruments ∧
    ∀ (p : Nat) (provider : Provider α), sys'.providers[p]? = some provider →
      provider.cache.values.Perm (sys'.livingOf p) ∧
      ∀ key j, provider.cache.find? key = some j ↔ ∃ b, sys'.Serves p key j b

variable {s : Backlog α}

/-- Where the books are kept, late teardowns are harmless. -/
theorem Kept.harmless [Quantity α] (h : Kept s) : Harmless s := by
  have houtstanding := h.sound.outstanding
  refine ⟨?_, ?_, ?_, ?_, ?_, ?_⟩
  · exact fun p current provider scope i hp same => houtstanding.answered_procure hp same scope i
  · rintro p key j k b c ⟨hb, hbalive, rfl, hbkey⟩ ⟨hc, hcalive, hprovider, hckey⟩
    exact houtstanding.unique hb hc hbalive hcalive hprovider.symm (BEq.trans hbkey (BEq.symm hckey))
  · intro handle j hfind
    obtain ⟨b, hb, halive⟩ := h.exists_alive_of_handle hfind
    obtain ⟨provider, hp, hcached⟩ := houtstanding.found j b hb halive
    exact ⟨b, provider, ⟨hb, halive, rfl, BEq.rfl⟩, hp, hcached⟩
  · intro handle other j k b c hj hb hk hc hprovider hkey
    obtain ⟨b', hb', hbalive⟩ := h.exists_alive_of_handle hj
    obtain ⟨c', hc', hcalive⟩ := h.exists_alive_of_handle hk
    obtain rfl := Option.some.inj (hb.symm.trans hb')
    obtain rfl := Option.some.inj (hc.symm.trans hc')
    exact houtstanding.unique hb hc hbalive hcalive hprovider hkey
  · intro i hi
    refine ⟨houtstanding.ended i hi, fun p provider hp => ?_⟩
    obtain ⟨provider', hp'⟩ :=
      (System.Outstanding.exists_provider_teardown_iff (i := i)).mpr ⟨provider, hp⟩
    exact ⟨provider', hp', fun e => houtstanding.mem_teardown hp hp'⟩
  · intro order horder sys'
    obtain ⟨hlast, hinstruments⟩ := houtstanding.teardowns horder
    exact ⟨hinstruments, fun p provider hp => ⟨hlast.values_perm hp, fun key j =>
      hlast.find?_eq_some_iff hp⟩⟩

/-- The books are kept when a system is launched: there are no instruments and no handles. -/
theorem Kept.launched (readers : List (Exporter α × Nat)) (providers : List (Resource × List Nat)) :
    Kept ⟨System.launched readers providers, [], []⟩ := by
  have hnone {i : Nat} {b : BuiltInstrument}
      (hb : (System.launched readers providers).instruments[i]? = some b) : False := by cases hb
  refine ⟨⟨⟨?_, ?_, ?_⟩, ?_, ?_, ?_, ?_⟩, ?_⟩
  · exact fun i b hb => (hnone hb).elim
  · exact fun i b hb => (hnone hb).elim
  · exact fun i b hb => (hnone hb).elim
  · exact fun r hr => by cases hr
  · exact fun i hi => by cases hi
  · exact fun i b hb => (hnone hb).elim
  · intro p provider hp e he
    obtain ⟨x, rfl⟩ := System.getElem?_launched_providers hp
    cases he
  · exact fun handle hhandle => by cases hhandle

/-- Late teardowns are harmless. Whatever turns follow on the launch of a system, with any number of
teardowns that were handed out and have not run, and whenever these run: a request is answered with a
living instrument on which it takes one more reference, unless none can be built; at most one
instrument with a key lives, and handles with one key share it; a teardown takes nothing out of caches
but its own instrument, which is over; and once all teardowns have run, caches have exactly the living
instruments. -/
theorem late_teardowns [Quantity α] (readers : List (Exporter α × Nat))
    (providers : List (Resource × List Nat)) {s : Backlog α}
    (h : Turns ⟨System.launched readers providers, [], []⟩ s) : Harmless s :=
  ((Kept.launched readers providers).turns h).harmless

/-- A counter is asked for again after its only handle is gone and before its teardown has run. Another
one takes its place, and the teardown of the first one leaves it there. -/
theorem late_teardowns_replaced :
    let counter : Instrument Int := ⟨⟨.counter, "c", none, none⟩, ⟨none, none⟩⟩
    let answer (s : Backlog Int) :=
      s.system.procure 0 (s.system.providers[0]?.getD (.opened KeyMap.empty [])) (.named "m") counter
    let asked (s : Backlog Int) (found : Nat) : Backlog Int :=
      { s with system := ((answer s).2.adopt found).2 }
    let start : Backlog Int :=
      ⟨System.launched [(.memory .delta, 1000)] [(KeyMap.empty, [0])], [], []⟩
    let first := asked start 0
    let dropped := first.leave
      ({ first.system with handles := first.system.handles.erase 0 }.relinquish 0 .transient)
    let second := asked dropped 1
    Turns start second ∧ Harmless second ∧ second.pending = [0] ∧
      second.system.handles.entries = [(1, 1)] ∧
      (second.system.teardown 0).providers.map (·.cache.values) = [[1]] := by
  intro counter answer asked start first dropped second
  have hasked {s : Backlog Int} {found : Nat} (hp : s.system.providers[0]?.isSome = true)
      (hfound : (answer s).1.toOption = some found) : Turn s (asked s found) := by
    obtain ⟨current, hcurrent⟩ := Option.isSome_iff_exists.mp hp
    have hprovider : s.system.providers[0]?.getD (.opened KeyMap.empty []) = current := by
      rw [hcurrent, Option.getD_some]
    have hgranted : answer s = (.ok found, (answer s).2) := by
      rcases h : answer s with ⟨_ | granted, after⟩
      · rw [h] at hfound
        cases hfound
      · rw [h] at hfound
        obtain rfl : granted = found := Option.some.inj hfound
        rfl
    exact .request s hcurrent (congrArg Provider.cache hprovider) hgranted
  have hturns : Turns start second := by
    refine ((Relation.ReflTransGen.single (hasked ?_ ?_)).tail (.drop first ?_)).tail (hasked ?_ ?_)
    all_goals decide +kernel
  exact ⟨hturns, late_teardowns _ _ hturns, by decide +kernel, by decide +kernel, by decide +kernel⟩

end Backlog

end Metering
