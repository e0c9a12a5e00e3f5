import Metering.Proofs.Accounts.Passes

/-!
# Accounts along a Run

Every command keeps the ledger booked with the system, and so does every run. Whatever is collected
at the end of a run is therefore faithful to the ledger of the run's history.
-/

namespace Metering

variable {α : Type}

/-- Whether a command collects readers. -/
def Command.collects : Command α → Bool
  | .collect _ | .flushReader _ | .shutdownReader _ | .flush _ | .shutdown _ => true
  | _ => false

namespace System

/-- The readers that a command collects, in their order. A shutdown closes what it collects, so it
collects no reader twice. -/
def collectedBy (sys : System α) : Command α → List Nat
  | .collect r | .flushReader r | .shutdownReader r => sys.openAmong [r]
  | .flush p => sys.openAmong (sys.readersOf p)
  | .shutdown p => (sys.openAmong (sys.readersOf p)).eraseDups
  | _ => []

variable [Quantity α] {sys : System α} {l : Ledger α}

section

variable {σ : Type} (respond : Responder σ α) (known : σ)

/-! ## Collections -/

/-- A command that collects delivers one faithful batch to each reader that it collects. -/
theorem Booked.delivers (h : Booked l sys) (hcoherent : Coherent sys) {c : Command α}
    (hc : c.collects = true) :
    Delivers l sys (sys.perform respond known c).2.2 (sys.collectedBy c) := by
  cases c with
  | collect r => exact h.delivers_collect respond known hcoherent r
  | flushReader r => exact h.delivers_flushReader respond known hcoherent r
  | shutdownReader r =>
    have hshutdown := hcoherent.shutdownReader respond known r
    show Delivers l sys (sys.shutdownReader respond known r).2.2.reclaim _
    rw [reclaim_eq hshutdown.formed]
    exact h.delivers_shutdownReader respond known hcoherent r
  | flush p => exact h.delivers_flush respond known hcoherent p
  | shutdown p =>
    have hshutdown := hcoherent.shutdown respond known p
    show Delivers l sys (sys.shutdown respond known p).2.2.reclaim _
    rw [reclaim_eq hshutdown.formed]
    exact h.delivers_shutdown respond known hcoherent p
  | advance _ | rewind _ | registerView _ _ | meter _ _ | create _ _ _ _ | clone _ | drop _
  | record _ _ _ _ | register _ | registerBatch _ _ _ _ | detach _ | empty _ | dropProvider _
  | dropReader _ => cases hc

/-! ## Steps and runs -/

theorem booked_launched (readers : List (Exporter α × Nat)) (providers : List (Resource × List Nat)) :
    Booked Ledger.opened (launched readers providers) := by
  refine ⟨rfl, ⟨rfl, fun handle => .none, ?_⟩, ?_⟩
  · intro c
    rw [kept_roster]
    cases hp : (launched readers providers).providers[c.provider]? with
    | none => rfl
    | some provider =>
      obtain ⟨e, rfl⟩ := getElem?_launched_providers hp
      rfl
  · intro i b hb
    have hnone : (launched readers providers).instruments[i]? = none := rfl
    cases hnone.symm.trans hb

/-- A batch callback is entered with the copies of the handles that it uses. -/
theorem Booked.registerBatch (h : Booked l sys) (p : Nat) (scope : Scope)
    (handles used : List Nat) :
    Booked (l.step (.registerBatch p scope handles used)
        (sys.perform respond known (.registerBatch p scope handles used)).1)
      (sys.perform respond known (.registerBatch p scope handles used)).2.2 := by
  have hdescends := Descends.registerBatch sys p scope handles used
  cases hp : sys.providers[p]? with
  | none => simpa [System.perform, System.registerBatch, hp, Ledger.step] using h
  | some provider =>
    let asked := sys.modifyProvider p (·.withScope scope)
    have hroster : asked.roster = sys.roster := congrArg (·.2.2.2) (frame_withScope p scope)
    have hasked : Mirrors l asked.roster := hroster ▸ h.mirrors
    obtain ⟨hcopies, hmirrors⟩ := mirrors_cloneHandles hasked used
    have hp' : (asked.cloneHandles used).2.providers[p]? = some (provider.withScope scope) := by
      rw [providers_cloneHandles]
      exact getElem?_modify_of_some _ hp
    -- Descent keeps the accounts; the mirror follows the copies and the entry of the callback.
    simp only [System.perform, System.registerBatch, hp] at hdescends ⊢
    refine h.descend hdescends ?_ (l.now_copyAll used) (l.accounts_copyAll used)
    simp only [Ledger.step, ← hcopies]
    exact mirrors_registerCapturing hmirrors hp' _ _ _

/-- Every command but the dropping of a provider has the effect on the accounts that the ledger
gives it. -/
theorem Booked.perform (h : Booked l sys) (hcoherent : Coherent sys) {c : Command α}
    (hc : c.dropsProvider = false) :
    Booked (l.step c (sys.perform respond known c).1) (sys.perform respond known c).2.2 := by
  cases c with
  | advance nanos =>
    simp only [Ledger.step, h.now]
    exact h.withNow _
  | rewind nanos =>
    simp only [Ledger.step, h.now]
    exact h.withNow _
  | registerView p view =>
    simp only [System.perform, System.registerView]
    cases view.check with
    | error e => exact h
    | ok _ =>
      have hframe : (sys.modifyProvider p fun provider =>
          { provider with views := provider.views ++ [view] }).frame = sys.frame :=
        frame_modifyProvider (fun _ => rfl) (fun _ => rfl) (fun _ => rfl) fun _ => rfl
      exact h.descend_of_roster_eq (.modifyProvider sys p _) (congrArg (·.2.2.2) hframe)
  | meter p scope =>
    exact h.descend_of_roster_eq (.modifyProvider sys p _) (congrArg (·.2.2.2) (frame_withScope p scope))
  | create p scope i callbacks =>
    have hcreate := h.create hcoherent p scope i callbacks
    simp only [System.perform]
    rcases hresult : sys.create p scope i callbacks with ⟨_ | _ | _, _⟩ <;>
      simpa [hresult, Ledger.step] using hcreate
  | clone handle =>
    obtain ⟨-, hmirrors⟩ := mirrors_cloneHandle h.mirrors handle
    have hclone : Booked (l.copy handle).2 (sys.cloneHandle handle).2 :=
      h.descend (.cloneHandle sys handle) hmirrors (l.now_copy handle) (l.accounts_copy handle)
    simp only [System.perform]
    rcases hresult : sys.cloneHandle handle with ⟨_ | _, _⟩ <;>
      simpa [hresult, Ledger.step] using hclone
  -- Nothing is reclaimed while providers are held, and the ledger lets go of the same handle.
  | drop handle =>
    have hdrop := hcoherent.dropHandle handle
    show Booked (l.drop handle) (sys.dropHandle handle).reclaim
    rw [reclaim_eq hdrop.formed]
    refine h.descend (.dropHandle sys handle) ?_ rfl rfl
    rw [roster_dropHandle]
    exact h.mirrors.drop handle
  | record handle value attributes draw => exact h.record hcoherent handle value attributes draw
  | register handle =>
    have hregister : Booked l (sys.register handle).2 :=
      h.descend (.register sys handle) (mirrors_register h.mirrors hcoherent handle) rfl rfl
    simp only [System.perform]
    rcases hresult : sys.register handle with ⟨_ | _, _⟩ <;>
      simpa [hresult, Ledger.step] using hregister
  | registerBatch p scope handles used => exact h.registerBatch respond known p scope handles used
  | detach callback =>
    have hdetach := hcoherent.detach callback
    show Booked (l.detach callback) (sys.detach callback).reclaim
    rw [reclaim_eq hdetach.formed]
    exact h.descend (.detach sys callback) (mirrors_detach h.mirrors callback)
      (l.now_detach callback) (l.accounts_detach callback)
  -- Collections stay within one roster, and what they leave descends.
  | collect r =>
    exact h.descend_of_roster_eq (.collect respond known sys r)
      (congrArg (·.2.2.2) (frame_collect respond known sys r))
  | flushReader r =>
    exact h.descend_of_roster_eq (.flushReader respond known sys r) (roster_flushReader ..)
  | shutdownReader r =>
    have hshutdown := hcoherent.shutdownReader respond known r
    show Booked l (sys.shutdownReader respond known r).2.2.reclaim
    rw [reclaim_eq hshutdown.formed]
    exact h.descend_of_roster_eq (.shutdownReader respond known sys r) (roster_shutdownReader ..)
  | flush p =>
    exact h.descend_of_roster_eq (.flush respond known sys p) (roster_flush ..)
  | shutdown p =>
    have hshutdown := hcoherent.shutdown respond known p
    show Booked l (sys.shutdown respond known p).2.2.reclaim
    rw [reclaim_eq hshutdown.formed]
    exact h.descend_of_roster_eq (.shutdown respond known sys p) (roster_shutdown ..)
  | empty r => exact h.descend_of_roster_eq (.modifyReader fun _ => rfl) rfl
  | dropProvider p => cases hc
  | dropReader r =>
    let dropped := sys.modifyReader r fun reader => { reader with held := false }
    have hdropped : Coherent dropped := hcoherent.of_frame_eq (frame_modifyReader fun _ => rfl)
    show Booked l dropped.reclaim
    rw [reclaim_eq hdropped.formed]
    exact h.descend_of_roster_eq (.modifyReader fun _ => rfl) rfl

/-- The ledger of a run's history is booked with the system that the run ends in. -/
theorem Booked.run (h : Booked l sys) (hcoherent : Coherent sys) {commands : List (Command α)}
    (hcommands : ∀ c ∈ commands, c.dropsProvider = false) :
    Booked (l.follow (commands.zip (sys.run respond known commands).1))
      (sys.run respond known commands).2.2 := by
  induction commands generalizing sys l known with
  | nil => exact h
  | cons c rest ih =>
    have hc := hcommands c (List.mem_cons_self ..)
    exact ih _ (h.perform respond known hcoherent hc) (hcoherent.perform respond known hc)
      fun c' hc' => hcommands c' (List.mem_cons_of_mem _ hc')

end

/-- What a collection delivers after a run is what the history of the run makes of it. -/
theorem delivers_run {σ : Type} (respond : Responder σ α) (known : σ)
    (readers : List (Exporter α × Nat)) (providers : List (Resource × List Nat))
    (commands : List (Command α)) (hcommands : ∀ c ∈ commands, c.dropsProvider = false)
    (c : Command α) (hc : c.collects = true) :
    let played := (launched readers providers).run respond known commands
    Delivers (Ledger.opened.follow (commands.zip played.1)) played.2.2
      (played.2.2.perform respond played.2.1 c).2.2 (played.2.2.collectedBy c) := by
  have hlaunched := coherent_launched readers providers
  exact ((booked_launched readers providers).run respond known hlaunched hcommands).delivers respond _
    (hlaunched.run respond known hcommands) hc

/-- A counter that is measured through two handles, let go, and asked for again: the collection
shows one series of the second account, and neither a decrement nor the first account. -/
theorem delivers_run_reborn :
    let counter : Instrument Int := ⟨⟨.counter, "a", none, none⟩, ⟨none, none⟩⟩
    let commands : List (Command Int) :=
      [.create 0 (.named "m") counter 0, .clone 0, .record 0 2 [] id, .record 1 3 [] id, .drop 0,
        .drop 1, .create 0 (.named "m") counter 0, .record 2 5 [] id, .record 2 (-1) [] id]
    let played := (launched [(.memory .cumulative, 1000)] [(KeyMap.empty, [0])]).run
      (fun _ _ => (⟨[], .returned⟩, ())) () commands
    let after := (played.2.2.perform (fun _ _ => (⟨[], .returned⟩, ())) played.2.1 (.collect 0)).2.2
    (∀ c ∈ commands, c.dropsProvider = false) ∧
      (Command.collect 0 : Command Int).collects = true ∧
      Delivers (Ledger.opened.follow (commands.zip played.1)) played.2.2 after [0] ∧
      (deliveries after.journal).map (fun d => d.2.map fun m => match m.data with
        | .sum points _ _ => points.map (·.value)
        | _ => []) = [[[5]]] := by
  intro counter commands played after
  have hcommands : ∀ c ∈ commands, c.dropsProvider = false := by
    simp [commands, Command.dropsProvider]
  have hcollects : (Command.collect 0 : Command Int).collects = true := rfl
  have hcollected : played.2.2.collectedBy (.collect 0) = [0] := by decide +kernel
  have hplayed : (launched [(.memory .cumulative, 1000)] [(KeyMap.empty, [0])]).run
      (fun _ _ => ((⟨[], .returned⟩ : Performance Int), ())) () commands = played := rfl
  have hdelivers := delivers_run (fun _ _ => (⟨[], .returned⟩, ())) ()
    [(.memory .cumulative, 1000)] [(KeyMap.empty, [0])] commands hcommands (.collect 0) hcollects
  simp only [hplayed, hcollected] at hdelivers
  exact ⟨hcommands, hcollects, hdelivers, by decide +kernel⟩

end System

end Metering
