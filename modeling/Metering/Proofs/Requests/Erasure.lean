import Metering.Proofs.Lifetimes.Run
import Metering.Proofs.Requests.Questions
import Metering.Proofs.Requests.Recast

/-!
# Requests that are Refused

A request for an instrument that is refused leaves nothing behind but questions to exporters in the
journal and, with the provider, the meter of its scope. No later command can tell that it was made,
up to one thing: equal scopes may be written differently, and a provider that has a meter for a
scope goes on with the scope as it was first written. So a run in which the request is left out,
and later requests write the scope as this one did, goes the same way.
-/

namespace Metering

/-! ## Meters -/

/-- The scope of the meter for a scope, given the scopes for which there are meters. -/
def meterAmong (scopes : List Scope) (t : Scope) : Scope := (scopes.find? (· == t)).getD t

/-- The scopes for which there are meters, once the meter of a scope is asked for. -/
def withMeter (scopes : List Scope) (t : Scope) : List Scope :=
  if scopes.any (· == t) then scopes else scopes ++ [t]

/-- Asking for a meter settles how the scopes that are equal to its scope are written. -/
theorem meterAmong_withMeter (scopes : List Scope) (t u : Scope) :
    meterAmong (withMeter scopes u) t =
      if t == u then meterAmong scopes u else meterAmong scopes t := by
  have hcongr (h : (t == u) = true) : scopes.find? (· == t) = scopes.find? (· == u) := by
    have hsame (x : Scope) : (x == t) = (x == u) := BEq.congr_right h
    simp only [hsame]
  unfold withMeter
  cases hany : scopes.any (· == u) with
  | true =>
    rw [if_pos rfl]
    cases htu : t == u with
    | false => rfl
    | true =>
      -- A meter is there, and it is found for both.
      obtain ⟨x, hx⟩ := Option.isSome_iff_exists.mp (List.find?_isSome.mpr (by simpa using hany))
      have hx : scopes.find? (· == u) = some x := hx
      simp [meterAmong, hcongr htu, hx]
  | false =>
    have hnone : scopes.find? (· == u) = none := by
      apply List.find?_eq_none.mpr
      intro x hx
      simpa using List.any_eq_false.mp hany x hx
    rw [if_neg (by simp)]
    cases htu : t == u with
    | true =>
      have hut : (u == t) = true := BEq.symm htu
      simp [meterAmong, List.find?_append, hcongr htu, hnone, hut]
    | false =>
      have hut : (u == t) = false := by rw [BEq.comm]; exact htu
      simp [meterAmong, List.find?_append, hut]

/-- The provider that a command asks for a meter. -/
def Command.asked? {α : Type} : Command α → Option Nat
  | .meter p _ | .create p _ _ _ | .registerBatch p _ _ _ => some p
  | _ => none

/-- How requests write a scope for it to make no difference whether a provider was asked for the
meter of a certain scope before: if it was the first to be asked for, equal scopes are written like
it. -/
def Provider.respell {α : Type} (provider : Provider α) (scope t : Scope) : Scope :=
  if provider.scopes.any (· == scope) then t else if t == scope then scope else t

namespace Provider

variable {α : Type} (provider : Provider α) (scope : Scope)

theorem respell_beq (t : Scope) : (provider.respell scope t == t) = true := by
  unfold respell
  split
  · exact BEq.rfl
  · split
    · rename_i h
      exact BEq.symm h
    · exact BEq.rfl

/-- Once the meter of the scope is asked for, a scope has the meter that its respelling had. -/
theorem meterAmong_withMeter_eq_respell (t : Scope) :
    meterAmong (withMeter provider.scopes scope) t =
      meterAmong provider.scopes (provider.respell scope t) := by
  unfold respell
  cases hany : provider.scopes.any (· == scope) with
  | true => rw [withMeter, hany, if_pos rfl, if_pos rfl]
  | false =>
    rw [meterAmong_withMeter]
    simp only [Bool.false_eq_true, if_false]
    split <;> rfl

end Provider

/-- Writes the scope for which a command asks one of the meters of a provider in another way. -/
def Command.respelled {α : Type} (p : Nat) (respell : Scope → Scope) : Command α → Command α
  | .meter q t => .meter q (if q = p then respell t else t)
  | .create q t i callbacks => .create q (if q = p then respell t else t) i callbacks
  | .registerBatch q t handles used =>
    .registerBatch q (if q = p then respell t else t) handles used
  | c => c

theorem Command.respelled_of_asked {α : Type} {p : Nat} {c : Command α} (h : c.asked? ≠ some p)
    (respell : Scope → Scope) : c.respelled p respell = c := by
  cases c with
  | meter q _ | create q _ _ _ | registerBatch q _ _ _ =>
    have hne : q ≠ p := fun heq => h (congrArg some heq)
    simp only [respelled, if_neg hne]
  | _ => rfl

namespace System

variable {α : Type}

/-! ## What follows once the meter is there -/

/-- Registers a batch callback with a provider whose meter was asked for. -/
def attachBatch (sys : System α) (p : Nat) (handles used : List Nat) : CallbackRef × System α :=
  let (captured, sys) := sys.cloneHandles used
  let targets := (handles.filterMap sys.instrument?).filterMap fun t => t.2.observer.map (t.1, ·)
  sys.registerCallback p (.batch (targets.map (·.2))) (targets.map (·.1)) captured

variable [Quantity α]

/-- Makes an instrument by a meter with a scope, for the provider as it was when it was asked. -/
def fulfil (sys : System α) (p : Nat) (provider : Provider α) (scope : Scope) (i : Instrument α)
    (callbacks : Nat) : Except (Error α) Creation × System α :=
  match i.check with
  | .error e => (.error e, sys)
  | .ok () =>
    match sys.procure p provider scope i with
    | (.error e, sys) => (.error e, sys)
    | (.ok found, sys) =>
      let observer := sys.instruments[found]?.bind (·.observer)
      let (handle, sys) := sys.adopt found
      let (cs, sys) := match observer with
        | some number => sys.registerSingles p number found callbacks
        | none => ([], sys)
      (.ok { handle, observer, callbacks := cs }, sys)

variable {sys : System α} {p : Nat} {provider : Provider α}

theorem create_eq_fulfil (hp : sys.providers[p]? = some provider) (scope : Scope) (i : Instrument α)
    (callbacks : Nat) :
    sys.create p scope i callbacks =
      let result := (sys.modifyProvider p (·.withScope scope)).fulfil p provider
        (provider.meterScope scope) i callbacks
      (some result.1, result.2) := by
  simp only [create, hp, fulfil]
  cases i.check with
  | error e => rfl
  | ok _ =>
    simp only
    rcases (sys.modifyProvider p (·.withScope scope)).procure p provider (provider.meterScope scope) i
      with ⟨found | found, after⟩ <;> rfl

omit [Quantity α] in
theorem registerBatch_eq_attachBatch (hp : sys.providers[p]? = some provider) (scope : Scope)
    (handles used : List Nat) :
    sys.registerBatch p scope handles used =
      let result := (sys.modifyProvider p (·.withScope scope)).attachBatch p handles used
      (some result.1, result.2) := by
  simp only [registerBatch, hp, attachBatch]

omit [Quantity α] in
theorem recast_attachBatch (m : Memory α) (sys : System α) (p : Nat) (handles used : List Nat) :
    (sys.recast m).attachBatch p handles used =
      ((sys.attachBatch p handles used).1, (sys.attachBatch p handles used).2.recast m) := by
  simp only [attachBatch, recast_cloneHandles]
  exact recast_registerCallback ..

theorem recast_fulfil (m : Memory α) (sys : System α) (p : Nat) (provider : Provider α)
    (scopes : List Scope) (scope : Scope) (i : Instrument α) (callbacks : Nat) :
    (sys.recast m).fulfil p { provider with scopes } scope i callbacks =
      ((sys.fulfil p provider scope i callbacks).1,
        (sys.fulfil p provider scope i callbacks).2.recast m) := by
  simp only [fulfil]
  cases i.check with
  | error e => rfl
  | ok _ =>
    simp only [recast_procure]
    rcases sys.procure p provider scope i with ⟨found | found, after⟩
    · rfl
    · simp only [recast_adopt, recast_instruments]
      cases after.instruments[found]?.bind (·.observer) with
      | none => rfl
      | some number => simp only [recast_registerSingles]

/-! ## Meters of recast systems -/

variable (m : Memory α)

omit [Quantity α] in
/-- Asking for a meter of the provider whose scopes are replaced adds to what they are replaced
by. -/
theorem recast_withScope (sys : System α) (t : Scope) :
    (sys.recast m).modifyProvider m.provider (·.withScope t) =
      sys.recast { m with scopes := withMeter m.scopes t } := by
  have hscopes (provider : Provider α) : { provider with scopes := m.scopes }.withScope t =
      { provider with scopes := withMeter m.scopes t } := by
    simp only [Provider.withScope, withMeter]
    split <;> rfl
  have hproviders : (sys.recast m).providers.modify m.provider (·.withScope t) =
      sys.providers.modify m.provider fun provider =>
        { provider with scopes := withMeter m.scopes t } := by
    show (sys.providers.modify _ _).modify _ _ = _
    rw [List.modify_modify_eq]
    exact congrArg (sys.providers.modify m.provider) (funext hscopes)
  simp only [modifyProvider, hproviders]
  rfl

/-- A request of the provider whose scopes are replaced is made by the meter that is found among
those. -/
theorem recast_create_self (sys : System α) (hp : sys.providers[m.provider]? = some provider)
    (t : Scope) (i : Instrument α) (callbacks : Nat) :
    (sys.recast m).create m.provider t i callbacks =
      let result := sys.fulfil m.provider provider (meterAmong m.scopes t) i callbacks
      (some result.1, result.2.recast { m with scopes := withMeter m.scopes t }) := by
  rw [create_eq_fulfil (getElem?_recast_self m sys hp), recast_withScope, recast_fulfil]
  rfl

omit [Quantity α] in
theorem recast_registerBatch_self (sys : System α)
    (hp : sys.providers[m.provider]? = some provider) (t : Scope) (handles used : List Nat) :
    (sys.recast m).registerBatch m.provider t handles used =
      let result := sys.attachBatch m.provider handles used
      (some result.1, result.2.recast { m with scopes := withMeter m.scopes t }) := by
  rw [registerBatch_eq_attachBatch (getElem?_recast_self m sys hp), recast_withScope, recast_attachBatch]

/-! ## Commands on recast systems -/

section

variable {σ : Type} (respond : Responder σ α) (known : σ)

theorem create_recast_of_none (sys : System α) {q : Nat} (h : sys.providers[q]? = none) (t : Scope)
    (i : Instrument α) (callbacks : Nat) :
    (sys.recast m).create q t i callbacks = (none, sys.recast m) := by
  simp only [create, getElem?_recast_of_none m sys h]

omit [Quantity α] in
theorem registerBatch_recast_of_none (sys : System α) {q : Nat} (h : sys.providers[q]? = none)
    (t : Scope) (handles used : List Nat) :
    (sys.recast m).registerBatch q t handles used = (none, sys.recast m) := by
  simp only [registerBatch, getElem?_recast_of_none m sys h]

theorem recast_create_of_ne (sys : System α) {q : Nat} (h : m.provider ≠ q) (t : Scope)
    (i : Instrument α) (callbacks : Nat) :
    (sys.recast m).create q t i callbacks =
      ((sys.create q t i callbacks).1, (sys.create q t i callbacks).2.recast m) := by
  cases hq : sys.providers[q]? with
  | none =>
    rw [create_recast_of_none m sys hq]
    simp only [create, hq]
  | some provider =>
    have hq' := (getElem?_recast_of_ne m sys h).trans hq
    rw [create_eq_fulfil hq', create_eq_fulfil hq, recast_modifyProvider_of_ne m sys h]
    exact congrArg (fun result => (some result.1, result.2)) (recast_fulfil m _ q provider _ _ i callbacks)

omit [Quantity α] in
theorem recast_registerBatch_of_ne (sys : System α) {q : Nat} (h : m.provider ≠ q) (t : Scope)
    (handles used : List Nat) :
    (sys.recast m).registerBatch q t handles used =
      ((sys.registerBatch q t handles used).1, (sys.registerBatch q t handles used).2.recast m) := by
  cases hq : sys.providers[q]? with
  | none =>
    rw [registerBatch_recast_of_none m sys hq]
    simp only [registerBatch, hq]
  | some provider =>
    have hq' := (getElem?_recast_of_ne m sys h).trans hq
    rw [registerBatch_eq_attachBatch hq', registerBatch_eq_attachBatch hq,
      recast_modifyProvider_of_ne m sys h, recast_attachBatch]

/-- A command that asks no meter of the provider does the same to a recast system. -/
theorem recast_perform (sys : System α) {c : Command α} (h : c.asked? ≠ some m.provider) :
    (sys.recast m).perform respond known c =
      ((sys.perform respond known c).1, (sys.perform respond known c).2.1,
        (sys.perform respond known c).2.2.recast m) := by
  cases c with
  | advance nanos => rfl
  | rewind nanos => rfl
  | registerView p view =>
    simp only [perform, registerView]
    cases view.check with
    | error e => rfl
    | ok _ =>
      simp only
      rw [recast_modifyProvider _ _ _ fun _ _ => rfl]
  | meter p scope =>
    have hne : m.provider ≠ p := fun heq => h (congrArg some heq.symm)
    simp only [perform, recast_modifyProvider_of_ne m sys hne]
  | create p scope i callbacks =>
    have hne : m.provider ≠ p := fun heq => h (congrArg some heq.symm)
    simp only [perform, recast_create_of_ne m sys hne]
    rcases sys.create p scope i callbacks with ⟨_ | _ | _, _⟩ <;> rfl
  | clone handle =>
    simp only [perform, recast_cloneHandle]
    rcases sys.cloneHandle handle with ⟨_ | _, _⟩ <;> rfl
  | drop handle => simp only [perform, recast_dropHandle, recast_reclaim]
  | record handle value attributes draw => simp only [perform, recast_record]
  | register handle =>
    simp only [perform, recast_register]
    rcases sys.register handle with ⟨_ | _, _⟩ <;> rfl
  | registerBatch p scope handles used =>
    have hne : m.provider ≠ p := fun heq => h (congrArg some heq.symm)
    simp only [perform, recast_registerBatch_of_ne m sys hne]
    rcases sys.registerBatch p scope handles used with ⟨_ | _, _⟩ <;> rfl
  | detach callback => simp only [perform, recast_detach, recast_reclaim]
  | collect r => simp only [perform, recast_collect]
  | flushReader r => simp only [perform, recast_flushReader]
  | shutdownReader r => simp only [perform, recast_shutdownReader, recast_reclaim]
  | flush p => simp only [perform, recast_flush]
  | shutdown p => simp only [perform, recast_shutdown, recast_reclaim]
  | empty r => rfl
  | dropProvider p => simp only [perform, recast_dropProvider]
  | dropReader r => simp only [perform, recast_dropReader]

end

/-! ## Systems that differ in their memories -/

/-- Two systems that differ only in older parts of their journals and in the scopes for which a
provider has meters, where the second finds the meter of a respelled scope whenever the first finds
that of the scope. -/
def Alike (p : Nat) (respell : Scope → Scope) (old old' : List (JournalEntry α))
    (sys sys' : System α) : Prop :=
  ∃ (core : System α) (scopes scopes' : List Scope),
    sys = core.recast ⟨p, scopes, old⟩ ∧ sys' = core.recast ⟨p, scopes', old'⟩ ∧
      ∀ t, meterAmong scopes t = meterAmong scopes' (respell t)

variable {respell : Scope → Scope} {old old' : List (JournalEntry α)} {sys' : System α} {σ : Type}
  (respond : Responder σ α) (known : σ)

/-- Scopes and respelled scopes go on finding the same meters. -/
theorem meterAmong_withMeter_respelled (hrespell : ∀ t, (respell t == t) = true)
    {scopes scopes' : List Scope} (h : ∀ t, meterAmong scopes t = meterAmong scopes' (respell t))
    (u t : Scope) :
    meterAmong (withMeter scopes u) t = meterAmong (withMeter scopes' (respell u)) (respell t) := by
  have hsame : (respell t == respell u) = (t == u) := by
    rw [BEq.congr_left (hrespell t), BEq.congr_right (hrespell u)]
  rw [meterAmong_withMeter, meterAmong_withMeter, hsame, h, h]

/-- A command gives the same on the first system as the respelled command on the second. -/
theorem Alike.perform (h : Alike p respell old old' sys sys')
    (hrespell : ∀ t, (respell t == t) = true) (c : Command α) :
    (sys.perform respond known c).1 = (sys'.perform respond known (c.respelled p respell)).1 ∧
      (sys.perform respond known c).2.1 =
        (sys'.perform respond known (c.respelled p respell)).2.1 ∧
      Alike p respell old old' (sys.perform respond known c).2.2
        (sys'.perform respond known (c.respelled p respell)).2.2 := by
  obtain ⟨core, scopes, scopes', rfl, rfl, hmeters⟩ := h
  by_cases hc : c.asked? = some p
  · have hmeters' := meterAmong_withMeter_respelled hrespell hmeters
    cases c with
    | meter q t =>
      obtain rfl := Option.some.inj hc
      simp only [Command.respelled, if_pos, System.perform]
      exact ⟨trivial, trivial, core, _, _, recast_withScope ⟨q, scopes, old⟩ core t,
        recast_withScope ⟨q, scopes', old'⟩ core (respell t), hmeters' t⟩
    | create q t i callbacks =>
      obtain rfl := Option.some.inj hc
      simp only [Command.respelled, if_pos, System.perform]
      cases hq : core.providers[q]? with
      | none =>
        simp only [create_recast_of_none _ core hq]
        exact ⟨trivial, trivial, core, scopes, scopes', rfl, rfl, hmeters⟩
      | some provider =>
        -- Both requests are made by meters with the same scope.
        simp only [recast_create_self ⟨q, scopes, old⟩ core hq,
          recast_create_self ⟨q, scopes', old'⟩ core hq, hmeters t]
        rcases core.fulfil q provider (meterAmong scopes' (respell t)) i callbacks with ⟨_ | _, after⟩
        · exact ⟨rfl, rfl, after, _, _, rfl, rfl, hmeters' t⟩
        · exact ⟨rfl, rfl, after, _, _, rfl, rfl, hmeters' t⟩
    | registerBatch q t handles used =>
      obtain rfl := Option.some.inj hc
      simp only [Command.respelled, if_pos, System.perform]
      cases hq : core.providers[q]? with
      | none =>
        simp only [registerBatch_recast_of_none _ core hq]
        exact ⟨trivial, trivial, core, scopes, scopes', rfl, rfl, hmeters⟩
      | some provider =>
        simp only [recast_registerBatch_self ⟨q, scopes, old⟩ core hq,
          recast_registerBatch_self ⟨q, scopes', old'⟩ core hq]
        exact ⟨trivial, trivial, _, _, _, rfl, rfl, hmeters' t⟩
    | _ => cases hc
  · rw [Command.respelled_of_asked hc, recast_perform _ respond known core hc,
      recast_perform _ respond known core hc]
    exact ⟨rfl, rfl, _, scopes, scopes', rfl, rfl, hmeters⟩

/-- A run gives the same on the first system as the respelled run on the second, by induction on its
commands. -/
theorem Alike.run (h : Alike p respell old old' sys sys')
    (hrespell : ∀ t, (respell t == t) = true) (commands : List (Command α)) :
    (sys.run respond known commands).1 =
        (sys'.run respond known (commands.map (·.respelled p respell))).1 ∧
      (sys.run respond known commands).2.1 =
        (sys'.run respond known (commands.map (·.respelled p respell))).2.1 ∧
      Alike p respell old old' (sys.run respond known commands).2.2
        (sys'.run respond known (commands.map (·.respelled p respell))).2.2 := by
  induction commands generalizing sys sys' known with
  | nil => exact ⟨rfl, rfl, h⟩
  | cons c rest ih =>
    obtain ⟨hreply, hknown, halike⟩ := h.perform respond known hrespell c
    obtain ⟨hreplies, hknown', halike'⟩ := ih (sys.perform respond known c).2.1 halike
    simp only [System.run, List.map_cons, ← hknown, hreply]
    exact ⟨congrArg _ hreplies, hknown', halike'⟩

omit [Quantity α] in
/-- Systems that are alike are the same up to the meters of the provider and the older journal. -/
theorem Alike.exists_eq (h : Alike p respell old old' sys sys') :
    ∃ scopes entries, sys'.journal = old' ++ entries ∧
      sys =
        { sys' with
          providers := sys'.providers.modify p fun provider => { provider with scopes }
          journal := old ++ entries } := by
  obtain ⟨core, scopes, scopes', rfl, rfl, -⟩ := h
  refine ⟨scopes, core.journal, rfl, ?_⟩
  have hproviders : (core.recast ⟨p, scopes', old'⟩).providers.modify p
      (fun provider => { provider with scopes }) =
        core.providers.modify p fun provider => { provider with scopes } := by
    show (core.providers.modify _ _).modify _ _ = _
    rw [List.modify_modify_eq]
    rfl
  rw [hproviders]
  rfl

omit [Quantity α] in
/-- After a provider was asked for the meter of a scope, and something was written, all is alike but
for the spelling of the scope. -/
theorem alike_withScope (hp : sys.providers[p]? = some provider) (scope : Scope)
    (questions : List (JournalEntry α)) :
    Alike p (provider.respell scope) (sys.journal ++ questions) sys.journal
      { sys with
        providers := sys.providers.modify p (·.withScope scope)
        journal := sys.journal ++ questions } sys := by
  have hasked : sys.providers.modify p (·.withScope scope) = sys.providers.modify p fun q =>
      { q with scopes := withMeter provider.scopes scope } := by
    apply modify_congr_of_some hp
    unfold Provider.withScope withMeter
    split <;> rfl
  have hunasked : (sys.providers.modify p fun q => { q with scopes := provider.scopes }) =
      sys.providers := by
    refine Eq.trans (modify_congr_of_some (g := id) hp ?_) (List.modify_id ..)
    rfl
  refine ⟨{ sys with journal := [] }, withMeter provider.scopes scope, provider.scopes, ?_, ?_,
    provider.meterAmong_withMeter_eq_respell scope⟩
  · simp only [recast, List.append_nil, hasked]
  · simp only [recast, List.append_nil, hunasked]

/-! ## Refused requests -/

/-- A request that is refused only asks questions, by a meter that the provider may not have had. -/
theorem create_of_refused {scope : Scope} {i : Instrument α} {callbacks : Nat} {e : Error α}
    (hp : sys.providers[p]? = some provider)
    (h : (sys.create p scope i callbacks).1 = some (.error e)) :
    ∃ questions : List (JournalEntry α), (∀ entry ∈ questions, entry.AsksOneOf provider.readers) ∧
      (sys.create p scope i callbacks).2 =
        { sys with
          providers := sys.providers.modify p (·.withScope scope)
          journal := sys.journal ++ questions } := by
  rw [create_eq_fulfil hp] at h ⊢
  let asked := sys.modifyProvider p (·.withScope scope)
  have hnothing : asked = { sys with
      providers := sys.providers.modify p (·.withScope scope)
      journal := sys.journal ++ [] } := by
    rw [List.append_nil]
    rfl
  simp only [fulfil] at h ⊢
  cases hcheck : i.check with
  | error e' => exact ⟨[], by simp, hnothing⟩
  | ok _ =>
    simp only [hcheck] at h ⊢
    rcases procure_cases asked p provider (provider.meterScope scope) i with
      ⟨e', entries, hplan, heq⟩ | ⟨found, -, -, heq⟩ | ⟨entries, plans, -, -, heq⟩
    · -- Refused while streams were planned.
      have hentries := asks_plan asked provider (provider.meterScope scope) i
      rw [hplan] at hentries
      refine ⟨entries, hentries, ?_⟩
      rw [heq]
      rfl
    · rw [heq] at h
      cases h
    · rw [heq] at h
      cases h

/-- In every state, a request for an instrument that is refused leaves everything as it is, except
for questions to exporters of the provider's readers and the meter of the scope. Whatever commands
follow, they give the same as without the request, if those that ask for a meter of an equal scope
write the scope as the request did, had the provider no such meter before; and the systems that they
lead to have the same in everything, the provider's meters and the questions aside. -/
theorem refused_create {σ : Type} (respond : Responder σ α) (known : σ) (sys : System α) (p : Nat)
    (scope : Scope) (i : Instrument α) (callbacks : Nat) (e : Error α)
    (h : (sys.create p scope i callbacks).1 = some (.error e)) :
    ∃ (provider : Provider α) (questions : List (JournalEntry α)),
      sys.providers[p]? = some provider ∧
        (∀ entry ∈ questions, entry.AsksOneOf provider.readers) ∧
          let refused := sys.perform respond known (.create p scope i callbacks)
          refused = (.refused e, known,
              { sys with
                providers := sys.providers.modify p (·.withScope scope)
                journal := sys.journal ++ questions }) ∧
            ∀ following : List (Command α),
              let kept := refused.2.2.run respond known following
              let erased := sys.run respond known
                (following.map (·.respelled p (provider.respell scope)))
              kept.1 = erased.1 ∧ kept.2.1 = erased.2.1 ∧
                ∃ scopes entries, erased.2.2.journal = sys.journal ++ entries ∧
                  kept.2.2 =
                    { erased.2.2 with
                      providers := erased.2.2.providers.modify p fun provider =>
                        { provider with scopes }
                      journal := sys.journal ++ questions ++ entries } := by
  cases hp : sys.providers[p]? with
  | none =>
    simp only [create, hp] at h
    cases h
  | some provider =>
    obtain ⟨questions, hquestions, hleft⟩ := create_of_refused hp h
    have hrefused : sys.perform respond known (.create p scope i callbacks) = (.refused e, known,
        { sys with
          providers := sys.providers.modify p (·.withScope scope)
          journal := sys.journal ++ questions }) := by
      have hresult : sys.create p scope i callbacks =
          ((sys.create p scope i callbacks).1, (sys.create p scope i callbacks).2) := rfl
      rw [h, hleft] at hresult
      simp only [perform, hresult]
    refine ⟨provider, questions, rfl, hquestions, hrefused, fun following => ?_⟩
    have halike : Alike p (provider.respell scope) (sys.journal ++ questions) sys.journal
        (sys.perform respond known (.create p scope i callbacks)).2.2 sys := by
      rw [hrefused]
      exact alike_withScope hp scope questions
    obtain ⟨hreplies, hknown, halike'⟩ :=
      halike.run respond known (provider.respell_beq scope) following
    exact ⟨hreplies, hknown, halike'.exists_eq⟩

/-- An instrument whose stream is refused for the second of two readers, whose exporter wants
histograms. The first reader has no stream of it either, its callback is not registered, and the
next one gets the numbers that it would have had. -/
theorem refused_create_second_reader :
    let wanting : Exporter Int :=
      .scripted ⟨[], [], some .delta, [(.asynchronousCounter, .histogram [1] true)], [], true, true⟩
    let sys := launched [(.memory .cumulative, 1000), (wanting, 1000)] [(KeyMap.empty, [0, 1])]
    let instrument (kind : Kind) : Instrument Int := ⟨⟨kind, "a", none, none⟩, ⟨none, none⟩⟩
    let respond : Responder Unit Int := fun _ _ => (⟨[], .returned⟩, ())
    let following : List (Command Int) :=
      [.create 0 (.named "m") (instrument .counter) 0, .record 0 2 [] id, .flush 0]
    let refused := sys.perform respond () (.create 0 (.named "m") (instrument .asynchronousCounter) 1)
    (∃ (provider : Provider Int) (questions : List (JournalEntry Int)) (e : Error Int),
      refused = (.refused e, (),
        { sys with
          providers := sys.providers.modify 0 (·.withScope (.named "m"))
          journal := sys.journal ++ questions }) ∧
        (refused.2.2.run respond () following).1 =
          (sys.run respond () (following.map (·.respelled 0 (provider.respell (.named "m"))))).1) ∧
      refused.2.2.journal.length = 4 ∧
      refused.2.2.readers.map (·.streams.entries.length) = [0, 0] ∧
      ((refused.2.2.run respond () following).2.2.readers.map fun reader =>
        reader.exporter.kept.map (·.map (·.name))) = [[["a"]], []] := by
  intro wanting sys instrument respond following refused
  refine ⟨?_, by decide +kernel, by decide +kernel, by decide +kernel⟩
  have herror : (sys.create 0 (.named "m") (instrument .asynchronousCounter) 1).1.map Except.isOk =
      some false := by decide +kernel
  obtain ⟨answer, hanswer, hnone⟩ := Option.map_eq_some_iff.mp herror
  cases answer with
  | ok made => cases hnone
  | error e =>
    obtain ⟨provider, questions, -, -, hrefused, herased⟩ :=
      refused_create respond () sys 0 _ _ 1 e hanswer
    exact ⟨provider, questions, e, hrefused, (herased following).1⟩

/-- A refused request may settle how a scope is written: the zeros of the two scopes are equal, and
what is exported has the sign of the zero that was written first. -/
theorem not_erased_respelled_scope :
    let sys : System Int := launched [(.memory .cumulative, 1000)] [(KeyMap.empty, [0])]
    let instrument (name : String) : Instrument Int := ⟨⟨.counter, name, none, none⟩, ⟨none, none⟩⟩
    let scope (x : UInt64) : Scope := ⟨"m", none, none, KeyMap.ofList [("k", .real (Float.ofBits x))]⟩
    let respond : Responder Unit Int := fun _ _ => (⟨[], .returned⟩, ())
    let refused : Command Int := .create 0 (scope 0x8000000000000000) (instrument "1") 0
    let following : List (Command Int) :=
      [.create 0 (scope 0) (instrument "a") 0, .record 0 1 [] id, .collect 0]
    let signs (sys : System Int) := sys.readers.map fun reader => reader.exporter.kept.map fun batch =>
      batch.map fun m => m.scope.attributes.entries.map fun e => match e.2 with
        | .real x => x.toBits
        | _ => 0
    (match (sys.perform respond () refused).1 with
      | .refused (.invalidName name) => name == "1"
      | _ => false) = true ∧
      signs ((sys.perform respond () refused).2.2.run respond () following).2.2 =
        [[[[0x8000000000000000]]]] ∧
      signs (sys.run respond () following).2.2 = [[[[0]]]] := by
  decide +kernel

end System

end Metering
