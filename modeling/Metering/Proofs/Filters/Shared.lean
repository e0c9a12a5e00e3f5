import Metering.Proofs.Moves.Roots
import Metering.Proofs.Steps.Basic

/-!
# One Account for All Streams of an Instrument

Whatever views make of an instrument, each of its measurements goes to all of its streams. So as long
as a synchronous instrument lives there is one account, of measurements that the instrument accepts,
which every stream of it recounts. This holds after any steps, and so in every system that a run
collects, also in the middle of a command.
-/

namespace Metering.System

variable {α : Type}

/-! ## Systems that are collected -/

theorem Descends.clearReaders [Quantity α] (sys : System α) : Descends sys sys.clearReaders :=
  ⟨rfl, (refl sys).alive, fun _ rs hrs =>
    ⟨rs, streamAt_of_sheds (Sheds.clearReaders sys).readers hrs, .refl rs⟩⟩

section

variable [Quantity α] {σ : Type} {respond : Responder σ α} {known : σ} {sys : System α}
  {pass : Pass σ α}

omit [Quantity α] in
/-- What a reader's pass collects is the system that it finds. -/
theorem system_of_mem_passOf {r : Nat} (h : pass ∈ passOf known sys r) : pass.system = sys := by
  unfold passOf at h
  split at h
  · cases h
  · exact congrArg Pass.system (List.mem_singleton.mp h)

omit [Quantity α] in
/-- What a reader's last pass collects is the system in which it is closed. -/
theorem system_of_mem_lastPassOf {r : Nat} (h : pass ∈ lastPassOf known sys r) :
    pass.system = sys.modifyReader r fun reader => { reader with closed := true } := by
  unfold lastPassOf at h
  split at h
  · cases h
  · exact congrArg Pass.system (List.mem_singleton.mp h)

omit [Quantity α] in
/-- A relation that holds along the way from reader to reader holds up to every pass. -/
theorem rel_of_mem_eachPassOf {rel : System α → System α → Prop}
    (htrans : ∀ {sys sys' sys''}, rel sys sys' → rel sys' sys'' → rel sys sys'')
    {passOf : σ → System α → Nat → List (Pass σ α)} {act : σ → System α → Nat → Bool × σ × System α}
    (hpass : ∀ known sys r, ∀ pass ∈ passOf known sys r, rel sys pass.system)
    (hact : ∀ known sys r, rel sys (act known sys r).2.2) {readers : List Nat}
    (h : pass ∈ eachPassOf passOf act known sys readers) : rel sys pass.system := by
  induction readers generalizing known sys with
  | nil => cases h
  | cons r rest ih =>
    rcases List.mem_append.mp h with h | h
    · exact hpass known sys r pass h
    · exact htrans (hact known sys r) (ih h)

/-- A relation that holds along the way through a command holds up to every pass that it makes. -/
theorem rel_of_mem_passesOf {rel : System α → System α → Prop} (hrefl : ∀ sys, rel sys sys)
    (htrans : ∀ {sys sys' sys''}, rel sys sys' → rel sys' sys'' → rel sys sys'')
    (hclose : ∀ sys r, rel sys (sys.modifyReader r fun reader => { reader with closed := true }))
    (hquit : ∀ sys p, rel sys (sys.modifyProvider p fun provider => { provider with closed := true }))
    (hflush : ∀ known sys r, rel sys (sys.flushReader respond known r).2.2)
    (hshutdown : ∀ known sys r, rel sys (sys.shutdownReader respond known r).2.2) {c : Command α}
    (h : pass ∈ sys.passesOf respond known c) : rel sys pass.system := by
  have hpass (known : σ) (sys : System α) (r : Nat) :
      ∀ pass ∈ passOf known sys r, rel sys pass.system :=
    fun pass h => system_of_mem_passOf h ▸ hrefl sys
  have hlast (known : σ) (sys : System α) (r : Nat) :
      ∀ pass ∈ lastPassOf known sys r, rel sys pass.system :=
    fun pass h => system_of_mem_lastPassOf h ▸ hclose sys r
  cases c with
  | collect r => exact hpass known sys r pass h
  | flushReader r => exact hpass known sys r pass h
  | shutdownReader r => exact hlast known sys r pass h
  | flush p =>
    simp only [passesOf] at h
    split at h
    · cases h
    · split at h
      · cases h
      · exact rel_of_mem_eachPassOf htrans hpass hflush h
  | shutdown p =>
    simp only [passesOf] at h
    split at h
    · cases h
    · split at h
      · cases h
      · -- The provider is closed before the first of its readers is collected.
        exact htrans (hquit sys p) (rel_of_mem_eachPassOf htrans hlast hshutdown h)
  | _ => cases h

theorem steps_of_mem_passesOf {c : Command α} (h : pass ∈ sys.passesOf respond known c) :
    Steps .all sys pass.system :=
  rel_of_mem_passesOf .refl (fun h k => h.trans k) (fun sys r => .single (.close sys r trivial))
    (fun sys p => .single (.quit sys p trivial)) (fun known sys r => .flushReader respond known sys r)
    (fun known sys _ => .shutdownReader respond known sys trivial) h

/-- Steps lead to every system that a run collects. -/
theorem steps_of_mem_passes {commands : List (Command α)}
    (h : pass ∈ sys.passes respond known commands) : Steps .all sys pass.system := by
  induction commands generalizing sys known with
  | nil => cases h
  | cons c rest ih =>
    rcases List.mem_append.mp h with h | h
    · exact steps_of_mem_passesOf h
    · exact (Steps.perform respond known sys c).weaken.trans (ih h)

end

/-! ## Shared accounts -/

variable [Quantity α] {ends : Endings} {sys sys' : System α}

/-- Whether all streams of an instrument recount an account of measurements that it accepts. -/
structure Shares (sys : System α) (b : BuiltInstrument) (account : Account α) : Prop where
  accepted : ∀ m ∈ account.measurements, objection b.key m.value = none
  recounts : sys.Recounted b.streams account

/-- The streams of every living synchronous instrument recount one account. -/
def Accounted (sys : System α) : Prop :=
  ∀ (i : Nat) (b : BuiltInstrument), sys.instruments[i]? = some b → b.lifetime.stale = false →
    b.observer = none → ∃ account, sys.Shares b account

/-- Numbers of streams are given out once. -/
theorem Rooted.opensAnew {test : Nat → α → Prop} (h : Rooted test sys) {p : Nat}
    {provider : Provider α} {key : InstrumentKey} {plans : List (StreamPlan α)} :
    OpensAnew sys p provider key plans := by
  refine ⟨fun s rs hrs => ?_, (numbered_openStreams h.numbered ..).nodup⟩
  -- What is found stems from an instrument that has it.
  obtain ⟨i, b, hb, hs, -⟩ := h.streams s rs hrs
  exact List.mem_flatMap.mpr ⟨b, List.mem_of_getElem? hb, hs⟩

namespace Accounted

/-- Descent keeps the accounts. -/
theorem descend (h : Accounted sys) (hdescends : Descends sys sys') : Accounted sys' := by
  intro i b' hb' halive' hsync'
  obtain ⟨b, hb, halive, hident⟩ := hdescends.alive i b' hb' halive'
  have hkey : b.key = b'.key := congrArg (·.2.1) hident
  have hobserver : b.observer = b'.observer := congrArg (·.2.2.1) hident
  have hstreams : b.streams = b'.streams := congrArg (·.2.2.2) hident
  obtain ⟨account, haccepted, hrecounted⟩ := h i b hb halive (hobserver.trans hsync')
  exact ⟨account, hkey ▸ haccepted, (hstreams ▸ hrecounted).descend hdescends⟩

/-- An instrument that is built has an empty account, and the others have theirs. -/
theorem withNewborn (h : Accounted sys) {p : Nat} {provider : Provider α} {key : InstrumentKey}
    {plans : List (StreamPlan α)} (hanew : OpensAnew sys p provider key plans) :
    Accounted (sys.withNewborn p provider key plans) := by
  intro i b hb halive hsync
  rcases getElem?_withNewborn hb with ⟨rfl, rfl⟩ | ⟨-, hb⟩
  · exact ⟨.opened sys.now, nofun, hanew.recounted hsync⟩
  · obtain ⟨account, haccepted, hrecounted⟩ := h i b hb halive hsync
    exact ⟨account, haccepted, .withNewborn hanew hb hrecounted⟩

/-- A measurement is entered in the account of its instrument, and in no other. -/
theorem writeTo (h : Accounted sys) (hnodup : sys.builtStreams.Nodup) {i : Nat} {b : BuiltInstrument}
    (hb : sys.instruments[i]? = some b) {value : α} (htaken : objection b.key value = none)
    (attributes : Attributes) (draw : Nat → Nat) :
    Accounted (sys.writeTo value attributes draw b.streams) := by
  have hstreams : b.streams.Nodup := (List.nodup_flatMap.mp hnodup).1 b (List.mem_of_getElem? hb)
  intro j b' hb' halive' hsync'
  rw [writeTo_eq] at hb'
  obtain ⟨account, haccepted, hrecounted⟩ := h j b' hb' halive' hsync'
  by_cases hij : j = i
  · subst hij
    obtain rfl := Option.some.inj (hb.symm.trans hb')
    refine ⟨account.enter ⟨value, attributes, sys.now⟩, fun m hm => ?_,
      hrecounted.writeTo hstreams value attributes draw⟩
    rcases List.mem_append.mp hm with hm | hm
    · exact haccepted m hm
    · obtain rfl := List.mem_singleton.mp hm
      exact htaken
  · -- Instruments have no streams in common.
    have hdisjoint : ∀ s ∈ b'.streams, s ∉ b.streams :=
      fun s hs => streams_disjoint hnodup (Ne.symm hij) hb hb' hs
    exact ⟨account, haccepted, hrecounted.writeTo_other hstreams hdisjoint value attributes draw⟩

/-- Every step keeps accounts: all but three kinds of them descend. -/
theorem step (h : Accounted sys) (hrooted : Rooted (fun _ _ => True) sys) (hstep : Step ends sys sys') :
    Accounted sys' := by
  cases hstep with
  | clock =>
    -- Accounts hold times of their own, and no part of them is the current one.
    exact fun i b hb halive hsync =>
      (h i b hb halive hsync).imp fun _ hshares => ⟨hshares.accepted, hshares.recounts⟩
  | hold => exact h.descend (.of_eq rfl rfl fun _ => rfl)
  | note => exact h.descend (.write sys _)
  | provider p => exact h.descend (.modifyProvider sys p _)
  | reader r same => exact h.descend (.modifyReader fun reader => congrArg (·.1) (same reader))
  | acquire i f => exact h.descend (.acquire sys i f)
  | release i f => exact h.descend (.release sys i f)
  | clear => exact h.descend (.clearReaders sys)
  | build => exact h.withNewborn hrooted.opensAnew
  | record built taken attributes draw =>
    exact h.writeTo hrooted.numbered.nodup built taken attributes draw
  | pass found _ performances => exact h.descend (.exportPass found performances)
  | close r => exact h.descend (.modifyReader fun _ => rfl)
  | finish r => exact h.descend ((Descends.write sys [.call r .shutdown]).trans (.emptyReader _ r))
  | quit p => exact h.descend (.modifyProvider sys p _)

/-- Any steps keep accounts, by induction on their number. -/
theorem steps (h : Accounted sys) (hrooted : Rooted (fun _ _ => True) sys)
    (hsteps : Steps ends sys sys') : Accounted sys' := by
  induction hsteps with
  | refl => exact h
  | tail hbefore hstep ih => exact ih.step (hrooted.moves (Steps.moves hbefore)) hstep

end Accounted

theorem accounted_launched (readers : List (Exporter α × Nat))
    (providers : List (Resource × List Nat)) : Accounted (launched readers providers) :=
  fun _ _ hb => by cases hb

end Metering.System
