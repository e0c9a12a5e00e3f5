import Mathlib.Logic.Relation
import Metering.Proofs.Teardowns.Caches

/-!
# References while Teardowns are Late

A reference that is given back may be the last one. Then a teardown is handed out, and it may run
whenever somebody gets to it. Until then whatever else may happen: requests are answered, handles are
made and let go of, references are lent and given back, other teardowns run. Each of these is a turn of
the system with its backlog, which is the references that are out besides those of handles, and the
teardowns that have not run.

Every turn keeps the books: lifetimes count the references that are held, and have ended exactly if none
is; living instruments are found under their keys, and what else is cached waits for its teardown.
Requests for instruments, with their callbacks, are made of such turns, and so is letting go of a handle
with the teardown run at once.
-/

namespace Metering

variable {α : Type}

/-! ## Listed references -/

/-- The claims that listed references make. -/
def Claims.of (references : List (Nat × Flavour)) : Claims := fun i f => references.count (i, f)

theorem Claims.of_cons (i : Nat) (f : Flavour) (references : List (Nat × Flavour)) :
    of ((i, f) :: references) = (of references).bump i f := by
  funext j g
  have hsame : ((i, f) == (j, g)) = true ↔ j = i ∧ g = f := by
    rw [beq_iff_eq, Prod.mk.injEq, eq_comm (a := i), eq_comm (a := f)]
  rw [of, List.count_cons, bump, of]
  simp only [hsame]

theorem Claims.of_perm {references others : List (Nat × Flavour)} (h : references.Perm others) :
    of references = of others := by
  funext i f
  exact h.count_eq (i, f)

namespace System

variable {sys sys' : System α} {references : List (Nat × Flavour)} {pending : List Nat} {i p : Nat}
  {f : Flavour} {b : BuiltInstrument}

/-- Lifetimes agree with the references that are held, and caches with the teardowns to come. -/
structure Sound (sys : System α) (references : List (Nat × Flavour)) (pending : List Nat) : Prop where
  tallied : Tallied sys.instruments (.of references)
  built : ∀ r ∈ references, r.1 < sys.instruments.length
  outstanding : sys.Outstanding pending

namespace Sound

theorem perm (h : Sound sys references pending) {others : List (Nat × Flavour)}
    (hperm : references.Perm others) : Sound sys others pending :=
  ⟨Claims.of_perm hperm ▸ h.tallied, fun r hr => h.built r (hperm.mem_iff.mpr hr), h.outstanding⟩

theorem congr (h : Sound sys references pending) (hinstruments : sys'.instruments = sys.instruments)
    (hcaches : sys'.providers.map (·.cache) = sys.providers.map (·.cache)) :
    Sound sys' references pending :=
  ⟨hinstruments ▸ h.tallied, hinstruments ▸ h.built,
    h.outstanding.congr (by rw [hinstruments]) hcaches⟩

/-- What a reference is held on lives. -/
theorem exists_alive (h : Sound sys references pending) (hr : (i, f) ∈ references) :
    ∃ b, sys.instruments[i]? = some b ∧ b.lifetime.stale = false := by
  have hlt : i < sys.instruments.length := h.built (i, f) hr
  have hb : sys.instruments[i]? = some sys.instruments[i] := List.getElem?_eq_getElem hlt
  refine ⟨_, hb, Bool.eq_false_iff.mpr fun hstale => ?_⟩
  have hzero : references.count (i, f) = 0 := (h.tallied.stale_iff i _ hb).mp hstale f
  exact List.count_eq_zero.mp hzero hr

/-- A reference on a living instrument is granted. -/
theorem acquire (h : Sound sys references pending) (hb : sys.instruments[i]? = some b)
    (halive : b.lifetime.stale = false) (f : Flavour) :
    Sound (sys.acquire i f).2 ((i, f) :: references) pending := by
  rw [acquire_of_alive hb halive]
  refine ⟨?_, fun r hr => ?_, h.outstanding.withLifetime hb (by simp)⟩
  · rw [Claims.of_cons]
    exact h.tallied.acquire hb halive f
  · show r.1 < (sys.instruments.modify i _).length
    rw [List.length_modify]
    rcases List.mem_cons.mp hr with rfl | hr
    · exact (List.getElem?_eq_some_iff.mp hb).1
    · exact h.built r hr

/-- A reference that is given back is not held any more, and if it was the last one, the teardown of
its instrument is to come. -/
theorem relinquish (h : Sound sys ((i, f) :: references) pending) :
    Sound (sys.relinquish i f).2 references (pending ++ (sys.relinquish i f).1) := by
  obtain ⟨b, hb, -⟩ := h.exists_alive (List.mem_cons_self ..)
  have hrelinquish : sys.relinquish i f =
      ((b.lifetime.release f).2.1, sys.setLifetime i (b.lifetime.release f).2.2) := by
    simp [System.relinquish, hb]
  have hbuilt : ∀ r ∈ references,
      r.1 < (sys.setLifetime i (b.lifetime.release f).2.2).instruments.length := by
    intro r hr
    show r.1 < (sys.instruments.modify i _).length
    rw [List.length_modify]
    exact h.built r (List.mem_cons_of_mem _ hr)
  rw [hrelinquish]
  obtain ⟨halive, hgiven, htallied⟩ := (Claims.of_cons i f references ▸ h.tallied).release hb
  refine ⟨htallied, hbuilt, ?_⟩
  rcases hgiven with ⟨hnone, hlasts⟩ | ⟨hown, hended⟩
  · rw [hnone, List.append_nil]
    exact h.outstanding.withLifetime hb (hlasts.trans halive.symm)
  · rw [hown]
    exact h.outstanding.expire hb hended

theorem teardown (h : Sound sys references pending) (hi : i ∈ pending) :
    Sound (sys.teardown i) references (pending.erase i) := by
  have hinstruments := Outstanding.instruments_teardown sys i
  exact ⟨hinstruments ▸ h.tallied, hinstruments ▸ h.built, h.outstanding.teardown hi⟩

/-- The instrument that is built when nothing living is found comes with one reference. -/
theorem withNewborn (h : Sound sys references pending) {current provider : Provider α}
    {key : InstrumentKey} {plans : List (StreamPlan α)} (hp : sys.providers[p]? = some current)
    (hnew : (current.cache.find? key).filter sys.isAlive = none) :
    Sound (sys.withNewborn p provider key plans)
      ((sys.instruments.length, .transient) :: references) pending := by
  have hunclaimed (f : Flavour) : Claims.of references sys.instruments.length f = 0 :=
    List.count_eq_zero.mpr fun hr => Nat.lt_irrefl _ (h.built _ hr)
  refine ⟨?_, fun r hr => ?_, h.outstanding.withNewborn hp hnew⟩
  · rw [Claims.of_cons]
    exact h.tallied.concat rfl hunclaimed
  · show r.1 < (sys.instruments ++ [_]).length
    rw [List.length_append, List.length_singleton]
    rcases List.mem_cons.mp hr with rfl | hr
    · exact Nat.lt_succ_self _
    · exact Nat.lt_succ_of_lt (h.built r hr)

/-- A request that is granted comes with one reference. -/
theorem procure [Quantity α] (h : Sound sys references pending) {current provider : Provider α}
    {scope : Scope} {instrument : Instrument α} {found : Nat} (hp : sys.providers[p]? = some current)
    (hsame : provider.cache = current.cache)
    (hgranted : sys.procure p provider scope instrument = (.ok found, sys')) :
    Sound sys' ((found, .transient) :: references) pending := by
  rcases procure_cases sys p provider scope instrument with
    ⟨e, entries, -, heq⟩ | ⟨shared, -, halive, heq⟩ | ⟨entries, plans, hnone, -, heq⟩
  · rw [heq] at hgranted
    cases (Prod.mk.inj hgranted).1
  · rw [heq] at hgranted
    obtain ⟨hshared, rfl⟩ := Prod.mk.inj hgranted
    obtain rfl := Except.ok.inj hshared
    obtain ⟨b, hb, hstale⟩ := isAlive_iff.mp halive
    exact h.acquire hb hstale .transient
  · rw [heq] at hgranted
    obtain ⟨hbuilt, rfl⟩ := Prod.mk.inj hgranted
    obtain rfl := Except.ok.inj hbuilt
    have hwritten : Sound (sys.write entries) references pending := h.congr rfl rfl
    exact hwritten.withNewborn hp (hsame ▸ hnone)

end Sound

/-- A reference is taken on what lives; otherwise nothing happens. -/
theorem acquire_cases (sys : System α) (i : Nat) (f : Flavour) :
    (∃ b, sys.instruments[i]? = some b ∧ b.lifetime.stale = false ∧ (sys.acquire i f).1 = true) ∨
      sys.acquire i f = (false, sys) := by
  cases hb : sys.instruments[i]? with
  | none => exact .inr (by simp [acquire, hb])
  | some b =>
    cases hstale : b.lifetime.stale with
    | false => exact .inl ⟨b, rfl, hstale, by rw [acquire_of_alive hb hstale]⟩
    | true =>
      refine .inr ?_
      simp only [acquire, hb, Lifetime.acquire, hstale, if_true, setLifetime]
      rw [modify_congr_of_some (g := fun _ => b) hb rfl, modify_const_of_some hb]

/-- What requests, references and teardowns deal with. -/
def footing (sys : System α) :
    List BuiltInstrument × Table Nat Nat × Nat × List (Table InstrumentKey Nat) :=
  (sys.instruments, sys.handles, sys.nextHandle, sys.providers.map (·.cache))

theorem footing_of_frame_eq (h : sys'.frame = sys.frame) : sys'.footing = sys.footing := by
  have hinstruments : sys'.instruments = sys.instruments := congrArg (·.1) h
  have hcaches : sys'.providers.map (·.cache) = sys.providers.map (·.cache) := congrArg (·.2.1) h
  have hhandles : sys'.handles = sys.handles := congrArg (·.2.2.2.handles) h
  have hnext : sys'.nextHandle = sys.nextHandle := congrArg (·.2.2.2.nextHandle) h
  simp only [footing, hinstruments, hcaches, hhandles, hnext]

theorem footing_modifyProvider (sys : System α) (p : Nat) {f : Provider α → Provider α}
    (hcache : ∀ provider, (f provider).cache = provider.cache) :
    (sys.modifyProvider p f).footing = sys.footing := by
  simp only [footing, modifyProvider]
  rw [map_modify_of_eq fun provider _ => hcache provider]

end System

/-! ## Turns -/

/-- A system with what is going on besides: the references that others than handles hold, and the
teardowns that were handed out and have not run. -/
structure Backlog (α : Type) where
  system : System α
  lent : List (Nat × Flavour)
  pending : List Nat

namespace Backlog

variable {s s' : Backlog α}

/-- All references that are held: one by each handle, and those that are lent. -/
def references (s : Backlog α) : List (Nat × Flavour) :=
  s.system.handles.values.map (·, .transient) ++ s.lent

theorem mem_references_of_handle {handle i : Nat} (h : s.system.handles.find? handle = some i) :
    (i, .transient) ∈ s.references := by
  obtain ⟨k, hmem, -⟩ := Table.exists_of_find?_eq_some h
  exact List.mem_append_left _ (List.mem_map_of_mem (List.mem_map_of_mem hmem))

/-- Gives a system the place of the one that there was, and leaves what it hands out for later. -/
def leave (s : Backlog α) (given : List Nat × System α) : Backlog α :=
  { s with system := given.2, pending := s.pending ++ given.1 }

/-- What may happen next. A teardown that is handed out is left for later, and any of those that were
left may run. -/
inductive Turn [Quantity α] : Backlog α → Backlog α → Prop
  /-- An instrument is asked for, and a handle is made of the reference that is granted. -/
  | request (s : Backlog α) {p found : Nat} {current provider : Provider α} {scope : Scope}
      {instrument : Instrument α} {sys' : System α}
      (owner : s.system.providers[p]? = some current) (same : provider.cache = current.cache)
      (granted : s.system.procure p provider scope instrument = (.ok found, sys')) :
      Turn s { s with system := (sys'.adopt found).2 }
  | clone (s : Backlog α) (handle : Nat) :
      Turn s { s with system := (s.system.cloneHandle handle).2 }
  /-- A handle is let go of. -/
  | drop (s : Backlog α) {handle i : Nat} (held : s.system.handles.find? handle = some i) :
      Turn s (s.leave
        ({ s.system with handles := s.system.handles.erase handle }.relinquish i .transient))
  /-- A reference is taken, by a callback or by whoever asks for it. -/
  | lend (s : Backlog α) {i : Nat} {f : Flavour} (taken : (s.system.acquire i f).1 = true) :
      Turn s { s with system := (s.system.acquire i f).2, lent := (i, f) :: s.lent }
  /-- A reference is given back. -/
  | giveBack (s : Backlog α) {i : Nat} {f : Flavour} (held : (i, f) ∈ s.lent) :
      Turn s ({ s with lent := s.lent.erase (i, f) }.leave (s.system.relinquish i f))
  | teardown (s : Backlog α) {i : Nat} (waits : i ∈ s.pending) :
      Turn s { s with system := s.system.teardown i, pending := s.pending.erase i }
  /-- Whatever has nothing to do with instruments, handles and caches, such as a request that is
  refused, a measurement or a collection. -/
  | other (s : Backlog α) {sys' : System α} (same : sys'.footing = s.system.footing) :
      Turn s { s with system := sys' }

/-- Any number of turns, one after the other. -/
abbrev Turns [Quantity α] : Backlog α → Backlog α → Prop := Relation.ReflTransGen Turn

/-! ## Requests as turns -/

/-- Whether it is taken or not, a reference takes a turn. -/
theorem turns_acquire [Quantity α] (s : Backlog α) (i : Nat) (f : Flavour) :
    ∃ lent, Turns s ⟨(s.system.acquire i f).2, lent, s.pending⟩ := by
  rcases System.acquire_cases s.system i f with ⟨b, -, -, htaken⟩ | hrefused
  · exact ⟨_, .single (.lend s htaken)⟩
  · rw [hrefused]
    exact ⟨s.lent, .refl⟩

theorem turns_acquireAll [Quantity α] (s : Backlog α) (is : List Nat) :
    ∃ lent, Turns s ⟨(s.system.acquireAll is).2, lent, s.pending⟩ := by
  induction is generalizing s with
  | nil => exact ⟨s.lent, .refl⟩
  | cons i rest ih =>
    obtain ⟨lent, hfirst⟩ := turns_acquire s i .persistent
    obtain ⟨all, hrest⟩ := ih ⟨(s.system.acquire i .persistent).2, lent, s.pending⟩
    exact ⟨all, hfirst.trans hrest⟩

theorem turns_registerCallback [Quantity α] (s : Backlog α) (p : Nat) (feed : Feed)
    (is captured : List Nat) :
    ∃ lent, Turns s ⟨(s.system.registerCallback p feed is captured).2, lent, s.pending⟩ := by
  obtain ⟨lent, hturns⟩ := turns_acquireAll s is
  refine ⟨lent, hturns.tail (.other _ ?_)⟩
  unfold System.registerCallback
  rw [System.footing_modifyProvider]
  · split <;> rfl
  · exact fun _ => rfl

theorem turns_registerSingles [Quantity α] (s : Backlog α) (p number i n : Nat) :
    ∃ lent, Turns s ⟨(s.system.registerSingles p number i n).2, lent, s.pending⟩ := by
  induction n generalizing s with
  | zero => exact ⟨s.lent, .refl⟩
  | succ n ih =>
    obtain ⟨lent, hfirst⟩ := turns_registerCallback s p (.single number) [i] []
    obtain ⟨all, hrest⟩ := ih ⟨(s.system.registerCallback p (.single number) [i] []).2, lent, s.pending⟩
    exact ⟨all, hfirst.trans hrest⟩

/-- A request takes turns: one for the instrument and its handle if it is granted, and some for the
callbacks that come with it. -/
theorem turns_create [Quantity α] (s : Backlog α) (p : Nat) (scope : Scope) (instrument : Instrument α)
    (callbacks : Nat) :
    ∃ lent, Turns s ⟨(s.system.create p scope instrument callbacks).2, lent, s.pending⟩ := by
  unfold System.create
  cases hp : s.system.providers[p]? with
  | none => exact ⟨s.lent, .refl⟩
  | some provider =>
    let asked : Backlog α := { s with system := s.system.modifyProvider p (·.withScope scope) }
    have hasked : Turn s asked :=
      .other s (System.footing_of_frame_eq (System.frame_withScope p scope))
    have hp' : asked.system.providers[p]? = some (provider.withScope scope) :=
      getElem?_modify_of_some _ hp
    simp only
    cases instrument.check with
    | error e => exact ⟨s.lent, .single hasked⟩
    | ok _ =>
      simp only
      rcases hresult : asked.system.procure p provider (provider.meterScope scope) instrument with
        ⟨_ | found, granted⟩
      · refine ⟨s.lent, .head hasked (.single (.other asked ?_))⟩
        rcases System.procure_cases asked.system p provider (provider.meterScope scope) instrument with
          ⟨e, entries, -, heq⟩ | ⟨shared, -, -, heq⟩ | ⟨entries, plans, -, -, heq⟩
        all_goals
          rw [heq] at hresult
          cases hresult
        rfl
      · have hgranted : Turn asked { asked with system := (granted.adopt found).2 } :=
          .request asked hp' (System.cache_withScope provider scope).symm hresult
        have hboth := (Relation.ReflTransGen.single hasked).tail hgranted
        simp only
        cases granted.instruments[found]?.bind (·.observer) with
        | none => exact ⟨s.lent, hboth⟩
        | some number =>
          obtain ⟨lent, hrest⟩ := turns_registerSingles
            { asked with system := (granted.adopt found).2 } p number found callbacks
          exact ⟨lent, hboth.trans hrest⟩

/-! ## The books -/

/-- The books are kept, and no handle has the next number yet. -/
structure Kept (s : Backlog α) : Prop where
  sound : s.system.Sound s.references s.pending
  numbered : ∀ h ∈ s.system.handles.keys, h < s.system.nextHandle

namespace Kept

/-- What a handle refers to lives. -/
theorem exists_alive_of_handle (h : Kept s) {handle i : Nat}
    (hh : s.system.handles.find? handle = some i) :
    ∃ b, s.system.instruments[i]? = some b ∧ b.lifetime.stale = false :=
  h.sound.exists_alive (mem_references_of_handle hh)

/-- A reference that was taken becomes a handle. -/
theorem adopt {sys : System α} {lent : List (Nat × Flavour)} {pending : List Nat} {i : Nat}
    (hnumbered : ∀ h ∈ sys.handles.keys, h < sys.nextHandle)
    (hsound : sys.Sound ((i, .transient) :: (⟨sys, lent, pending⟩ : Backlog α).references) pending) :
    Kept ⟨(sys.adopt i).2, lent, pending⟩ := by
  have hnew : ∀ e ∈ sys.handles.entries, (e.1 == sys.nextHandle) = false :=
    Table.forall_ne_of_lt hnumbered
  have hvalues : (sys.adopt i).2.handles.values = sys.handles.values ++ [i] :=
    Table.values_insert_of_new hnew i
  have hkeys : (sys.adopt i).2.handles.keys = sys.handles.keys ++ [sys.nextHandle] :=
    Table.keys_insert_of_new hnew i
  refine ⟨?_, fun h hh => ?_⟩
  · have hperm : ((i, Flavour.transient) :: (⟨sys, lent, pending⟩ : Backlog α).references).Perm
        (⟨(sys.adopt i).2, lent, pending⟩ : Backlog α).references := by
      simp only [references, hvalues, List.map_append, List.map_cons, List.map_nil,
        List.append_assoc, List.singleton_append]
      exact List.perm_middle.symm
    exact (hsound.perm hperm).congr rfl rfl
  · rw [hkeys] at hh
    show h < sys.nextHandle + 1
    rcases List.mem_append.mp hh with hh | hh
    · exact Nat.lt_succ_of_lt (hnumbered h hh)
    · exact List.mem_singleton.mp hh ▸ Nat.lt_succ_self _

theorem clone (h : Kept s) (handle : Nat) :
    Kept { s with system := (s.system.cloneHandle handle).2 } := by
  cases hh : s.system.handles.find? handle with
  | none =>
    have hsame : (s.system.cloneHandle handle).2 = s.system := by simp [System.cloneHandle, hh]
    rw [hsame]
    exact h
  | some i =>
    have hclone : (s.system.cloneHandle handle).2 = ((s.system.acquire i .transient).2.adopt i).2 := by
      simp [System.cloneHandle, hh]
    obtain ⟨b, hb, halive⟩ := h.exists_alive_of_handle hh
    have hacquired := h.sound.acquire hb halive .transient
    have hacquire := System.acquire_of_alive hb halive .transient
    rw [hclone]
    rw [hacquire] at hacquired ⊢
    exact adopt h.numbered hacquired

/-- Giving a reference back leaves its teardown for later, if it was the last one. -/
theorem leave (h : Kept s) {i : Nat} {f : Flavour} (handles : Table Nat Nat)
    (lent : List (Nat × Flavour))
    (hhandles : ∀ k ∈ handles.keys, k ∈ s.system.handles.keys)
    (hperm : s.references.Perm ((i, f) :: (handles.values.map (·, .transient) ++ lent))) :
    Kept (({ s with lent } : Backlog α).leave ({ s.system with handles }.relinquish i f)) := by
  let before : System α := { s.system with handles }
  have hunmoved : (before.relinquish i f).2.handles = handles ∧
      (before.relinquish i f).2.nextHandle = s.system.nextHandle := by
    unfold System.relinquish
    split <;> exact ⟨rfl, rfl⟩
  have hbefore : before.Sound _ s.pending := (h.sound.perm hperm).congr rfl rfl
  refine ⟨?_, fun k hk => ?_⟩
  · have hreferences : (({ s with lent } : Backlog α).leave (before.relinquish i f)).references =
        handles.values.map (·, .transient) ++ lent := by
      simp only [Backlog.references, Backlog.leave, hunmoved.1]
    rw [hreferences]
    exact hbefore.relinquish
  · have hk : k ∈ (before.relinquish i f).2.handles.keys := hk
    show k < (before.relinquish i f).2.nextHandle
    rw [hunmoved.1] at hk
    rw [hunmoved.2]
    exact h.numbered k (hhandles k hk)

theorem drop (h : Kept s) {handle i : Nat} (held : s.system.handles.find? handle = some i) :
    Kept (s.leave
      ({ s.system with handles := s.system.handles.erase handle }.relinquish i .transient)) := by
  refine h.leave _ s.lent (fun k hk => ?_) ?_
  · rw [Table.keys_erase] at hk
    exact List.mem_of_mem_filter hk
  · exact ((Table.values_perm_erase held).map _).append_right s.lent

theorem giveBack (h : Kept s) {i : Nat} {f : Flavour} (held : (i, f) ∈ s.lent) :
    Kept ({ s with lent := s.lent.erase (i, f) }.leave (s.system.relinquish i f)) :=
  h.leave s.system.handles _ (fun _ hk => hk)
    (((List.perm_cons_erase held).append_left _).trans List.perm_middle)

theorem lend (h : Kept s) {i : Nat} {f : Flavour} (taken : (s.system.acquire i f).1 = true) :
    Kept { s with system := (s.system.acquire i f).2, lent := (i, f) :: s.lent } := by
  rcases System.acquire_cases s.system i f with ⟨b, hb, halive, -⟩ | hrefused
  · have hacquired := h.sound.acquire hb halive f
    rw [System.acquire_of_alive hb halive] at hacquired ⊢
    exact ⟨hacquired.perm List.perm_middle.symm, h.numbered⟩
  · rw [hrefused] at taken
    cases taken

theorem teardown (h : Kept s) {i : Nat} (hi : i ∈ s.pending) :
    Kept { s with system := s.system.teardown i, pending := s.pending.erase i } := by
  have hunmoved : (s.system.teardown i).handles = s.system.handles ∧
      (s.system.teardown i).nextHandle = s.system.nextHandle := by
    obtain ⟨b, hb, -⟩ := h.sound.outstanding.ended i hi
    rw [System.teardown_eq hb]
    exact ⟨rfl, rfl⟩
  refine ⟨?_, ?_⟩
  · simp only [references, hunmoved.1]
    exact h.sound.teardown hi
  · simp only [hunmoved.1, hunmoved.2]
    exact h.numbered

theorem other (h : Kept s) {sys' : System α} (same : sys'.footing = s.system.footing) :
    Kept { s with system := sys' } := by
  have hhandles : sys'.handles = s.system.handles := congrArg (·.2.1) same
  have hnext : sys'.nextHandle = s.system.nextHandle := congrArg (·.2.2.1) same
  refine ⟨?_, ?_⟩
  · simp only [references, hhandles]
    exact h.sound.congr (congrArg (·.1) same) (congrArg (·.2.2.2) same)
  · simp only [hhandles, hnext]
    exact h.numbered

/-- A request changes no handle. -/
theorem unmoved_procure [Quantity α] {sys sys' : System α} {p : Nat} {provider : Provider α}
    {scope : Scope} {instrument : Instrument α} {outcome : Except (Error α) Nat}
    (h : sys.procure p provider scope instrument = (outcome, sys')) :
    sys'.handles = sys.handles ∧ sys'.nextHandle = sys.nextHandle := by
  rcases System.procure_cases sys p provider scope instrument with
    ⟨e, entries, -, heq⟩ | ⟨shared, -, halive, heq⟩ | ⟨entries, plans, -, -, heq⟩
  · rw [heq] at h
    obtain ⟨-, rfl⟩ := Prod.mk.inj h
    exact ⟨rfl, rfl⟩
  · rw [heq] at h
    obtain ⟨-, rfl⟩ := Prod.mk.inj h
    unfold System.acquire
    split <;> exact ⟨rfl, rfl⟩
  · rw [heq] at h
    obtain ⟨-, rfl⟩ := Prod.mk.inj h
    exact ⟨rfl, rfl⟩

/-- Every turn keeps the books. -/
theorem turn [Quantity α] (h : Kept s) (hturn : Turn s s') : Kept s' := by
  cases hturn with
  | @request p found current provider scope instrument sys' owner same granted =>
    have hunmoved := unmoved_procure granted
    have hprocured := h.sound.procure owner same granted
    refine adopt ?_ ?_
    · rw [hunmoved.1, hunmoved.2]
      exact h.numbered
    · simp only [references, hunmoved.1] at hprocured ⊢
      exact hprocured
  | clone handle => exact h.clone handle
  | drop held => exact h.drop held
  | @lend i f taken => exact h.lend taken
  | giveBack held => exact h.giveBack held
  | teardown waits => exact h.teardown waits
  | other same => exact h.other same

/-- Any turns keep the books, by induction on their number. -/
theorem turns [Quantity α] (h : Kept s) (hturns : Turns s s') : Kept s' := by
  induction hturns with
  | refl => exact h
  | tail _ hturn ih => exact ih.turn hturn

/-- A system that runs teardowns as soon as they are handed out takes turns too: a handle is let go of,
and the teardown follows if there is one. -/
theorem turns_dropHandle [Quantity α] (h : Kept s) (handle : Nat) :
    Turns s { s with system := s.system.dropHandle handle } := by
  cases hh : s.system.handles.find? handle with
  | none =>
    have hsame : s.system.dropHandle handle = s.system := by simp [System.dropHandle, hh]
    rw [hsame]
  | some i =>
    let given := { s.system with handles := s.system.handles.erase handle }.relinquish i .transient
    have hdrop : s.system.dropHandle handle = given.1.foldl System.teardown given.2 := by
      simp only [System.dropHandle, hh, System.release, given]
    obtain ⟨b, hb, halive⟩ := h.exists_alive_of_handle hh
    have hgiven : given.1 = (b.lifetime.release .transient).2.1 := by
      simp only [given, System.relinquish, hb]
    -- What lives is not waited for, so the teardown that is handed out is the only one of its kind.
    have hfresh : i ∉ s.pending := h.sound.outstanding.not_mem_pending hb halive
    have hfirst : Turn s (s.leave given) := .drop s hh
    rw [hdrop]
    rcases b.lifetime.release_cases .transient with ⟨hnone, -⟩ | ⟨-, hall, -⟩
    · have hleft : s.leave given = { s with system := given.2 } := by
        rw [Backlog.leave, hgiven, hnone, List.append_nil]
      rw [hgiven, hnone]
      exact .single (hleft ▸ hfirst)
    · have hown : given.1 = [i] :=
        (hgiven.trans hall).trans (h.sound.tallied.waiting i b hb halive)
      have hsecond : Turn (s.leave given)
          { s with system := given.2.teardown i } := by
        have hwaits : i ∈ (s.leave given).pending := by simp [Backlog.leave, hown]
        have hleft : (s.leave given).pending.erase i = s.pending := by
          simp [Backlog.leave, hown, List.erase_append_right _ hfresh]
        exact hleft ▸ .teardown (s.leave given) hwaits
      rw [hown]
      exact .head hfirst (.single hsecond)

end Kept

end Backlog

end Metering
