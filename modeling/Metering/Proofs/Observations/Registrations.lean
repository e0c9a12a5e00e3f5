import Metering.Proofs.Filters.Shared
import Metering.Proofs.Passes.Outcomes

/-!
# What a Callback is Registered for

Providers number their callbacks, and the number of a callback is not given to another one when the
first is gone. So whatever happens to a system, a callback that is still registered is registered for
what it was registered for first. This holds for every command, and for every system that a run
collects, also in the middle of a command.
-/

namespace Metering.System

variable {α : Type} {sys sys' sys'' : System α}

/-! ## Numbers of callbacks -/

/-- The number that the next callback of a provider gets. -/
def nextCallback (sys : System α) (p : Nat) : Nat := (sys.providers[p]?.map (·.nextCallback)).getD 0

/-- Whether numbers that were given out are not given to other callbacks. -/
structure Retains (sys sys' : System α) : Prop where
  next : ∀ p, sys.nextCallback p ≤ sys'.nextCallback p
  kept : ∀ c registration, c.number < sys.nextCallback c.provider →
    sys'.registration? c = some registration → sys.registration? c = some registration

namespace Retains

theorem refl (sys : System α) : Retains sys sys := ⟨fun _ => Nat.le_refl _, fun _ _ _ h => h⟩

theorem trans (h : Retains sys sys') (k : Retains sys' sys'') : Retains sys sys'' :=
  ⟨fun p => Nat.le_trans (h.next p) (k.next p), fun c registration hc hfound =>
    h.kept c registration hc (k.kept c registration (Nat.lt_of_lt_of_le hc (h.next c.provider)) hfound)⟩

theorem foldl {β : Type} {f : System α → β → System α} (h : ∀ sys x, Retains sys (f sys x))
    (xs : List β) (sys : System α) : Retains sys (xs.foldl f sys) :=
  List.foldlRecOn xs f (refl sys) fun _ hbefore x _ => hbefore.trans (h _ x)

/-- All that counts are the lists of callbacks in the roster. -/
theorem of_callbacks_eq (h : sys'.roster.callbacks = sys.roster.callbacks) : Retains sys sys' := by
  have hnext (sys : System α) (p : Nat) :
      sys.nextCallback p = (sys.roster.callbacks[p]?.map (·.2.1)).getD 0 := by
    simp [nextCallback, roster, Function.comp_def]
  have hfound (sys : System α) (c : CallbackRef) :
      sys.registration? c = sys.roster.callbacks[c.provider]?.bind (·.1.find? c.number) := by
    simp only [registration?, roster, List.getElem?_map, Option.bind_map, Function.comp_def]
  refine ⟨fun p => Nat.le_of_eq ?_, fun c registration _ hc => ?_⟩
  · rw [hnext, hnext, h]
  · rwa [hfound, ← h, ← hfound]

theorem of_roster_eq (h : sys'.roster = sys.roster) : Retains sys sys' :=
  of_callbacks_eq (congrArg (·.callbacks) h)

theorem of_frame_eq (h : sys'.frame = sys.frame) : Retains sys sys' :=
  of_roster_eq (congrArg (·.2.2.2) h)

/-- A provider may lose callbacks, and may have others under new numbers. -/
theorem modifyProvider {p : Nat} {f : Provider α → Provider α}
    (hnext : ∀ provider, sys.providers[p]? = some provider →
      provider.nextCallback ≤ (f provider).nextCallback)
    (hkept : ∀ provider, sys.providers[p]? = some provider → ∀ n registration,
      n < provider.nextCallback → (f provider).callbacks.find? n = some registration →
        provider.callbacks.find? n = some registration) :
    Retains sys (sys.modifyProvider p f) := by
  have hat (q : Nat) : (sys.modifyProvider p f).providers[q]? =
      if p = q then sys.providers[q]?.map f else sys.providers[q]? := by
    show (sys.providers.modify p f)[q]? = _
    rw [List.getElem?_modify]
    split
    · rfl
    · exact Option.map_id'
  refine ⟨fun q => ?_, fun c registration hc hfound => ?_⟩
  · simp only [nextCallback, hat]
    split
    · rename_i hpq
      cases hq : sys.providers[q]? with
      | none => exact Nat.le_refl _
      | some provider => exact hnext provider (hpq ▸ hq)
    · exact Nat.le_refl _
  · simp only [registration?, nextCallback, hat] at hfound hc ⊢
    split at hfound
    · rename_i hpc
      cases hq : sys.providers[c.provider]? with
      | none => simp [hq] at hfound
      | some provider =>
        simp only [hq, Option.map_some, Option.bind_some, Option.getD_some] at hfound hc ⊢
        exact hkept provider (hpc ▸ hq) c.number registration hc hfound
    · exact hfound

/-- A provider may lose callbacks. -/
theorem lose (sys : System α) (p : Nat) {f : Provider α → Provider α}
    (hnext : ∀ provider, (f provider).nextCallback = provider.nextCallback)
    (hkept : ∀ provider n registration, (f provider).callbacks.find? n = some registration →
      provider.callbacks.find? n = some registration) : Retains sys (sys.modifyProvider p f) :=
  modifyProvider (fun provider _ => Nat.le_of_eq (hnext provider).symm)
    fun provider _ n registration _ => hkept provider n registration

/-! ## Handles -/

theorem cloneHandles (sys : System α) (handles : List Nat) : Retains sys (sys.cloneHandles handles).2 :=
  of_callbacks_eq (congrArg (List.map _) (providers_cloneHandles handles))

theorem dropHandle (sys : System α) (handle : Nat) : Retains sys (sys.dropHandle handle) :=
  of_callbacks_eq (congrArg (·.callbacks) (roster_dropHandle sys handle))

/-! ## Callbacks -/

/-- A callback is registered under the next number. -/
theorem registerCallback (sys : System α) (p : Nat) (feed : Feed) (is captured : List Nat) :
    Retains sys (sys.registerCallback p feed is captured).2 := by
  let enter (provider : Provider α) : Provider α :=
    { provider with
      callbacks := provider.callbacks.insert (sys.nextCallback p) ⟨feed, (sys.acquireAll is).1, captured⟩
      nextCallback := sys.nextCallback p + 1 }
  have hnext {provider : Provider α} (hp : sys.providers[p]? = some provider) :
      sys.nextCallback p = provider.nextCallback := by simp [nextCallback, hp]
  have hentered : Retains sys (sys.modifyProvider p enter) := by
    refine modifyProvider (fun provider hp => ?_) fun provider hp n registration hn hfound => ?_
    · exact Nat.le_succ_of_le (Nat.le_of_eq (hnext hp).symm)
    · have hne : (sys.nextCallback p == n) = false := by simpa [hnext hp] using Nat.ne_of_gt hn
      simpa [enter, Table.find?_insert, hne] using hfound
  exact hentered.trans (of_callbacks_eq
    (congrArg (List.map _) (providers_registerCallback sys p feed is captured)))

theorem registerSingles (sys : System α) (p number i n : Nat) :
    Retains sys (sys.registerSingles p number i n).2 := by
  induction n generalizing sys with
  | zero => exact refl sys
  | succ n ih => exact (registerCallback sys p _ _ _).trans (ih _)

theorem register (sys : System α) (handle : Nat) : Retains sys (sys.register handle).2 := by
  unfold System.register
  split
  · split
    · exact registerCallback ..
    · exact refl sys
  · exact refl sys

theorem registerBatch (sys : System α) (p : Nat) (scope : Scope) (handles used : List Nat) :
    Retains sys (sys.registerBatch p scope handles used).2 := by
  unfold System.registerBatch
  split
  · exact refl sys
  · exact (of_frame_eq (frame_withScope p scope)).trans
      ((cloneHandles _ used).trans (registerCallback ..))

theorem detach (sys : System α) (c : CallbackRef) : Retains sys (sys.detach c) := by
  unfold System.detach
  split
  · exact refl sys
  · have hstrike : Retains sys (sys.strike c.provider c.number) := by
      refine lose sys _ (fun _ => rfl) fun provider n registration hfound => ?_
      rw [Table.find?_erase] at hfound
      split at hfound
      · cases hfound
      · exact hfound
    exact hstrike.trans ((of_roster_eq (roster_releaseAll ..)).trans (foldl dropHandle _ _))

/-! ## What is let go -/

theorem reclaim (sys : System α) : Retains sys sys.reclaim := by
  have hclear (n : Nat) (sys : System α) : Retains sys (sys.clearCallbacks n) := by
    induction n generalizing sys with
    | zero => exact refl sys
    | succ n ih =>
      unfold System.clearCallbacks
      split
      · exact refl sys
      · rename_i p _ _
        have hemptied := lose sys p (f := fun provider => { provider with callbacks := Table.empty })
          (fun _ => rfl) fun _ _ _ hfound => by simp at hfound
        exact hemptied.trans ((foldl dropHandle _ _).trans (ih _))
  unfold System.reclaim
  split
  · exact refl sys
  · exact (of_roster_eq rfl : Retains sys sys.clearReaders).trans (hclear _ _)

variable [Quantity α]

/-! ## Requests -/

theorem create (sys : System α) (p : Nat) (scope : Scope) (i : Instrument α) (callbacks : Nat) :
    Retains sys (sys.create p scope i callbacks).2 := by
  unfold System.create
  cases hp : sys.providers[p]? with
  | none => exact refl sys
  | some provider =>
    have hasked : Retains sys (sys.modifyProvider p (·.withScope scope)) :=
      of_frame_eq (frame_withScope p scope)
    have hprocured : Retains sys ((sys.modifyProvider p (·.withScope scope)).procure p provider
        (provider.meterScope scope) i).2 := by
      refine hasked.trans ?_
      rcases procure_cases (sys.modifyProvider p (·.withScope scope)) p provider
          (provider.meterScope scope) i with
        ⟨e, entries, -, heq⟩ | ⟨found, -, -, heq⟩ | ⟨entries, plans, -, -, heq⟩
      · rw [heq]
        exact of_roster_eq rfl
      · rw [heq]
        exact of_roster_eq (roster_acquire ..)
      · -- An instrument that is built is entered with its provider, but no callback is.
        rw [heq]
        exact of_callbacks_eq (map_modify_of_eq fun _ _ => rfl)
    simp only
    split
    · exact hasked
    · split
      · rename_i heq
        rw [heq] at hprocured
        exact hprocured
      · rename_i found after heq
        rw [heq] at hprocured
        have hadopted : Retains sys (after.adopt found).2 := hprocured.trans (of_callbacks_eq rfl)
        split
        · exact hadopted.trans (registerSingles ..)
        · exact hadopted

/-! ## Commands and runs -/

section

variable {σ : Type} (respond : Responder σ α) (known : σ)

theorem perform (sys : System α) (c : Command α) : Retains sys (sys.perform respond known c).2.2 := by
  cases c with
  | advance nanos => exact of_roster_eq rfl
  | rewind nanos => exact of_roster_eq rfl
  | registerView p view =>
    simp only [System.perform, System.registerView]
    cases view.check with
    | error e => exact refl sys
    | ok _ => exact of_callbacks_eq (map_modify_of_eq fun _ _ => rfl)
  | meter p scope => exact of_frame_eq (frame_withScope p scope)
  | create p scope i callbacks =>
    have hcreate := create sys p scope i callbacks
    simp only [System.perform]
    rcases hresult : sys.create p scope i callbacks with ⟨_ | _ | _, _⟩ <;>
      simpa [hresult] using hcreate
  | clone handle =>
    have hclone : Retains sys (sys.cloneHandle handle).2 :=
      of_callbacks_eq (congrArg (List.map _) (providers_cloneHandle handle))
    simp only [System.perform]
    rcases hresult : sys.cloneHandle handle with ⟨_ | _, _⟩ <;> simpa [hresult] using hclone
  | drop handle => exact (dropHandle sys handle).trans (reclaim _)
  | record handle value attributes draw => exact of_frame_eq (frame_record ..)
  | register handle =>
    have hregister := register sys handle
    simp only [System.perform]
    rcases hresult : sys.register handle with ⟨_ | _, _⟩ <;> simpa [hresult] using hregister
  | registerBatch p scope handles used =>
    have hbatch := registerBatch sys p scope handles used
    simp only [System.perform]
    rcases hresult : sys.registerBatch p scope handles used with ⟨_ | _, _⟩ <;>
      simpa [hresult] using hbatch
  | detach callback => exact (detach sys callback).trans (reclaim _)
  | collect r => exact of_frame_eq (frame_collect respond known sys r)
  | flushReader r => exact of_frame_eq (frame_flushReader respond known sys r)
  | shutdownReader r => exact (of_roster_eq (roster_shutdownReader respond known sys r)).trans (reclaim _)
  | flush p => exact of_roster_eq (roster_flush respond known sys p)
  | shutdown p => exact (of_roster_eq (roster_shutdown respond known sys p)).trans (reclaim _)
  | empty r => exact of_roster_eq rfl
  | dropProvider p =>
    exact (lose sys p (f := fun provider => { provider with held := false }) (fun _ => rfl)
      fun _ _ _ h => h).trans (reclaim _)
  | dropReader r => exact (of_roster_eq rfl : Retains sys (sys.modifyReader r _)).trans (reclaim _)

/-- No command that collects changes what callbacks are registered for before a pass. -/
theorem of_mem_passesOf {c : Command α} {pass : Pass σ α} (h : pass ∈ sys.passesOf respond known c) :
    Retains sys pass.system :=
  rel_of_mem_passesOf refl (fun h k => h.trans k) (fun _ _ => of_roster_eq rfl)
    (fun _ p => of_frame_eq (frame_closeProvider p))
    (fun known sys r => of_frame_eq (frame_flushReader respond known sys r))
    (fun known sys r => of_roster_eq (roster_shutdownReader respond known sys r)) h

/-- Up to every pass of a run, callbacks are registered for what they were. -/
theorem of_mem_passes {commands : List (Command α)} {pass : Pass σ α}
    (h : pass ∈ sys.passes respond known commands) : Retains sys pass.system := by
  induction commands generalizing sys known with
  | nil => cases h
  | cons c rest ih =>
    rcases List.mem_append.mp h with h | h
    · exact of_mem_passesOf respond known h
    · exact (perform respond known sys c).trans (ih _ h)

end

end Retains

end Metering.System
