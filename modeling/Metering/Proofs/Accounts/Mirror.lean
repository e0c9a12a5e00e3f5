import Metering.Proofs.Accounts.Ledger
import Metering.Proofs.Lifetimes.Run

/-!
# The Ledger Mirrors the Roster

The handles of a ledger are those of the system's roster, and each has the address of its
instrument; the handles that callbacks keep are known under the same callbacks. Every operation on
handles and callbacks has its counterpart in the ledger.
-/

namespace Metering

variable {α : Type}

/-! ## Views of a roster -/

namespace Roster

/-- Where an instrument lives. -/
def address? (r : Roster) (i : Nat) : Option Address := r.instruments[i]?.map fun x => ⟨x.1, x.2.1⟩

/-- The handles that a registered callback keeps. -/
def kept (r : Roster) (c : CallbackRef) : List Nat :=
  ((r.callbacks[c.provider]?.bind (·.1.find? c.number)).map (·.captured)).getD []

/-- The roster with one more handle. -/
def hand (r : Roster) (i : Nat) : Roster :=
  { r with handles := r.handles.insert r.nextHandle i, nextHandle := r.nextHandle + 1 }

/-- Whether an address is, up to equality of keys, that of an instrument. -/
def Names (r : Roster) (a : Address) (i : Nat) : Prop := ∃ a', r.address? i = some a' ∧ (a == a') = true

end Roster

/-- The ledger's handles are the roster's, at the addresses of their instruments, and callbacks keep
the same handles in both. -/
structure Mirrors (l : Ledger α) (r : Roster) : Prop where
  next : l.nextHandle = r.nextHandle
  handles : ∀ h, Option.Rel r.Names (l.handles.find? h) (r.handles.find? h)
  captured : ∀ c, (l.captured.find? c).getD [] = r.kept c

namespace Mirrors

variable {l l' : Ledger α} {r r' : Roster}

/-- The ledger knows a handle when the roster does, and under an address of its instrument. -/
theorem cases_handle (h : Mirrors l r) (handle : Nat) :
    (l.handles.find? handle = none ∧ r.handles.find? handle = none) ∨
      ∃ a i, l.handles.find? handle = some a ∧ r.handles.find? handle = some i ∧ r.Names a i := by
  have hrel := h.handles handle
  revert hrel
  cases l.handles.find? handle <;> cases r.handles.find? handle <;> intro hrel <;> cases hrel
  · exact .inl ⟨rfl, rfl⟩
  · rename_i hnames
    exact .inr ⟨_, _, rfl, rfl, hnames⟩

theorem hand (h : Mirrors l r) {a : Address} {i : Nat} (hnames : r.Names a i) :
    Mirrors (l.hand a) (r.hand i) := by
  refine ⟨congrArg (· + 1) h.next, ?_, h.captured⟩
  intro handle
  simp only [Ledger.hand, Roster.hand, Table.find?_insert, h.next]
  split
  · exact .some hnames
  · exact h.handles handle

theorem drop (h : Mirrors l r) (handle : Nat) :
    Mirrors (l.drop handle) { r with handles := r.handles.erase handle } := by
  refine ⟨h.next, ?_, h.captured⟩
  intro j
  simp only [Ledger.drop, Table.find?_erase]
  split
  · exact .none
  · exact h.handles j

/-- Accounts are of no concern to the mirror. -/
theorem withAccounts (h : Mirrors l r) (accounts : Table Address (Account α)) :
    Mirrors { l with accounts := accounts } r := ⟨h.next, h.handles, h.captured⟩

theorem withNow (h : Mirrors l r) (now : Time) : Mirrors { l with now := now } r :=
  ⟨h.next, h.handles, h.captured⟩

/-- Another roster with the same handles, in which instruments keep their addresses and callbacks
the handles that they keep. -/
theorem of_eq (h : Mirrors l r) (hhandles : r'.handles = r.handles)
    (hnext : r'.nextHandle = r.nextHandle)
    (hinstruments : ∀ i a, r.address? i = some a → r'.address? i = some a)
    (hkept : ∀ c, r'.kept c = r.kept c) : Mirrors l r' := by
  refine ⟨h.next.trans hnext.symm, ?_, ?_⟩
  · intro handle
    rw [hhandles]
    rcases h.cases_handle handle with ⟨hl, hr⟩ | ⟨a, i, hl, hr, a', ha', haa'⟩
    · rw [hl, hr]
      exact .none
    · rw [hl, hr]
      exact .some ⟨a', hinstruments i a' ha', haa'⟩
  · intro c
    rw [hkept]
    exact h.captured c

/-- An address is live in the ledger when a handle is held on an instrument there. -/
theorem isLive_iff (h : Mirrors l r) (a : Address) :
    l.isLive a = true ↔ ∃ handle i, r.handles.find? handle = some i ∧ r.Names a i := by
  simp only [Ledger.isLive, List.any_eq_true]
  constructor
  · rintro ⟨b, hb, hba⟩
    obtain ⟨⟨handle, b⟩, hmem, rfl⟩ := List.mem_map.mp hb
    have hfound := Table.find?_eq_some_iff_mem.mpr hmem
    -- What the ledger has for the handle is, up to equality, its instrument's address.
    rcases h.cases_handle handle with ⟨hl, -⟩ | ⟨b', i, hl, hr, a', ha', hba'⟩
    · rw [hl] at hfound
      cases hfound
    · obtain rfl := Option.some.inj (hl.symm.trans hfound)
      exact ⟨handle, i, hr, a', ha', BEq.trans (BEq.symm hba) hba'⟩
  · rintro ⟨handle, i, hr, a', ha', haa'⟩
    rcases h.cases_handle handle with ⟨-, hnone⟩ | ⟨b, j, hl, hr', b', hb', hbb'⟩
    · rw [hnone] at hr
      cases hr
    · obtain rfl := Option.some.inj (hr'.symm.trans hr)
      obtain rfl := Option.some.inj (ha'.symm.trans hb')
      refine ⟨b, List.mem_map_of_mem (Table.find?_eq_some_iff_mem.mp hl), ?_⟩
      exact BEq.trans hbb' (BEq.symm haa')

end Mirrors

/-! ## Handles -/

namespace System

variable {sys : System α} {l : Ledger α}

theorem address?_roster (sys : System α) (i : Nat) :
    sys.roster.address? i = sys.instruments[i]?.map fun b => ⟨b.provider, b.key⟩ := by
  simp only [Roster.address?, roster, List.getElem?_map, Option.map_map]
  rfl

theorem roster_adopt (sys : System α) (i : Nat) : (sys.adopt i).2.roster = sys.roster.hand i := rfl

theorem roster_dropHandle (sys : System α) (handle : Nat) :
    (sys.dropHandle handle).roster =
      { sys.roster with handles := sys.roster.handles.erase handle } := by
  unfold dropHandle
  cases hh : sys.handles.find? handle with
  | none =>
    -- There is nothing to erase for a handle that is not held.
    have hsame : sys.handles.erase handle = sys.handles := by
      refine Table.ext (List.filter_eq_self.mpr fun e he => ?_)
      simpa using Table.find?_eq_none_iff.mp hh e he
    show sys.roster = { sys.roster with handles := sys.handles.erase handle }
    rw [hsame]
    rfl
  | some i => exact roster_release ..

/-- Cloning a handle in the system and copying it in the ledger go together. -/
theorem mirrors_cloneHandle (h : Mirrors l sys.roster) (handle : Nat) :
    (sys.cloneHandle handle).1.toList = (l.copy handle).1 ∧
      Mirrors (l.copy handle).2 (sys.cloneHandle handle).2.roster := by
  unfold cloneHandle Ledger.copy
  rcases h.cases_handle handle with ⟨hl, hr⟩ | ⟨a, i, hl, hr, hnames⟩
  · have hr : sys.handles.find? handle = none := hr
    rw [hl, hr]
    exact ⟨rfl, h⟩
  · have hr : sys.handles.find? handle = some i := hr
    -- The reference does not show in the roster, only the new handle does.
    have hroster := roster_acquire sys i .transient
    have hnext : (sys.acquire i .transient).2.nextHandle = sys.nextHandle :=
      congrArg Roster.nextHandle hroster
    rw [hl, hr]
    refine ⟨?_, ?_⟩
    · show [(sys.acquire i .transient).2.nextHandle] = _
      rw [hnext, h.next]
      rfl
    · show Mirrors (l.hand a) ((sys.acquire i .transient).2.adopt i).2.roster
      rw [roster_adopt, hroster]
      exact h.hand hnames

theorem mirrors_cloneHandles (h : Mirrors l sys.roster) (handles : List Nat) :
    (sys.cloneHandles handles).1 = (l.copyAll handles).1 ∧
      Mirrors (l.copyAll handles).2 (sys.cloneHandles handles).2.roster := by
  induction handles generalizing sys l with
  | nil => exact ⟨rfl, h⟩
  | cons handle rest ih =>
    obtain ⟨hlist, hmirrors⟩ := mirrors_cloneHandle h handle
    obtain ⟨hrest, hall⟩ := ih hmirrors
    refine ⟨?_, hall⟩
    show (sys.cloneHandle handle).1.toList ++ ((sys.cloneHandle handle).2.cloneHandles rest).1 = _
    rw [hlist, hrest]
    rfl

theorem mirrors_dropHandles (h : Mirrors l sys.roster) (handles : List Nat) :
    Mirrors (handles.foldl Ledger.drop l) (handles.foldl dropHandle sys).roster := by
  induction handles generalizing sys l with
  | nil => exact h
  | cons handle rest ih =>
    refine ih (?_ : Mirrors (l.drop handle) (sys.dropHandle handle).roster)
    rw [roster_dropHandle]
    exact h.drop handle

/-! ## Callbacks -/

theorem kept_roster (sys : System α) (c : CallbackRef) :
    sys.roster.kept c =
      ((sys.providers[c.provider]?.bind (·.callbacks.find? c.number)).map (·.captured)).getD [] := by
  simp only [Roster.kept, roster, List.getElem?_map]
  cases sys.providers[c.provider]? <;> rfl

/-- A registration is entered with its provider under the next number. -/
theorem providers_registerCallback (sys : System α) (p : Nat) (feed : Feed) (is captured : List Nat) :
    (sys.registerCallback p feed is captured).2.providers =
      sys.providers.modify p fun provider =>
        { provider with
          callbacks := provider.callbacks.insert ((sys.providers[p]?.map (·.nextCallback)).getD 0)
            ⟨feed, (sys.acquireAll is).1, captured⟩
          nextCallback := ((sys.providers[p]?.map (·.nextCallback)).getD 0) + 1 } := by
  -- References that could not be taken are a matter of the journal only.
  unfold registerCallback
  simp only
  split <;> simp only [modifyProvider, write, providers_acquireAll]

/-- A registration changes the list of callbacks only, at the number that it is given. -/
theorem registerCallback_roster {p : Nat} {provider : Provider α}
    (hp : sys.providers[p]? = some provider) (feed : Feed) (is captured : List Nat) :
    (sys.registerCallback p feed is captured).1 = ⟨p, provider.nextCallback⟩ ∧
    (sys.registerCallback p feed is captured).2.roster =
      { sys.roster with
        callbacks := (sys.registerCallback p feed is captured).2.roster.callbacks } ∧
    ∀ c, (sys.registerCallback p feed is captured).2.roster.kept c =
      if c = ⟨p, provider.nextCallback⟩ then captured else sys.roster.kept c := by
  have hroster := roster_acquireAll sys is
  refine ⟨?_, ?_, ?_⟩
  · simp [registerCallback, hp]
  · have hsame : (sys.registerCallback p feed is captured).2.roster =
        { (sys.acquireAll is).2.roster with
          callbacks := (sys.registerCallback p feed is captured).2.roster.callbacks } := by
      unfold registerCallback
      simp only
      split <;> rfl
    rw [hroster] at hsame
    exact hsame
  · rintro ⟨q, n⟩
    rw [kept_roster, kept_roster, providers_registerCallback, hp]
    simp only [Option.map_some, Option.getD_some, CallbackRef.mk.injEq]
    by_cases hq : p = q
    · subst hq
      rw [getElem?_modify_of_some _ hp, hp]
      simp only [Option.bind_some, Table.find?_insert, true_and]
      by_cases hn : n = provider.nextCallback
      · simp [hn]
      · have hne : (provider.nextCallback == n) = false := by simpa using fun h => hn h.symm
        simp [hn, hne]
    · rw [List.getElem?_modify_ne _ _ hq, if_neg (fun h => hq h.1.symm)]

/-- A callback that keeps no handle needs no entry in the ledger. -/
theorem mirrors_registerCallback (h : Mirrors l sys.roster) (hformed : sys.roster.Formed)
    {p : Nat} {provider : Provider α} (hp : sys.providers[p]? = some provider) (feed : Feed)
    (is : List Nat) : Mirrors l (sys.registerCallback p feed is []).2.roster := by
  obtain ⟨-, hroster, hkept⟩ := registerCallback_roster hp feed is []
  refine h.of_eq ?_ ?_ ?_ ?_
  · rw [hroster]
  · rw [hroster]
  · rw [hroster]
    exact fun _ _ ha => ha
  · intro c
    rw [hkept]
    split
    · -- The number is new, so nothing was kept under it.
      rename_i hc
      have hnew := Table.find?_eq_none_iff.mpr (Roster.Formed.forall_ne_nextCallback hformed hp)
      rw [hc, kept_roster, hp, Option.bind_some, hnew]
      rfl
    · rfl

theorem mirrors_register (h : Mirrors l sys.roster) (hcoherent : Coherent sys) (handle : Nat) :
    Mirrors l (sys.register handle).2.roster := by
  unfold System.register
  cases hinstrument : sys.instrument? handle with
  | none => exact h
  | some target =>
    obtain ⟨i, b⟩ := target
    obtain ⟨-, hb⟩ : sys.handles.find? handle = some i ∧ sys.instruments[i]? = some b := by
      simpa [instrument?, Option.bind_eq_some_iff] using hinstrument
    cases hobserver : b.observer with
    | none => simpa [hobserver] using h
    | some number =>
      have hprovider := List.getElem?_eq_getElem (hcoherent.balanced.housed.owned i b hb)
      simp only [hobserver]
      exact mirrors_registerCallback h hcoherent.formed hprovider (.single number) [i]

theorem Feedable.mirrors_registerSingles {p number i : Nat} (hfeedable : Feedable sys p number i)
    (h : Mirrors l sys.roster) (n : Nat) : Mirrors l (sys.registerSingles p number i n).2.roster := by
  induction n generalizing sys with
  | zero => exact h
  | succ n ih =>
    have hprovider := List.getElem?_eq_getElem hfeedable.provided
    exact ih hfeedable.registerCallback
      (mirrors_registerCallback h hfeedable.coherent.formed hprovider (.single number) [i])

/-- A callback that keeps handles is entered with them. -/
theorem mirrors_registerCapturing (h : Mirrors l sys.roster) {p : Nat} {provider : Provider α}
    (hp : sys.providers[p]? = some provider) (feed : Feed) (is captured : List Nat) :
    Mirrors { l with
        captured := l.captured.insert (sys.registerCallback p feed is captured).1 captured }
      (sys.registerCallback p feed is captured).2.roster := by
  obtain ⟨hnumber, hroster, hkept⟩ := registerCallback_roster hp feed is captured
  refine ⟨?_, ?_, ?_⟩
  · rw [hroster]
    exact h.next
  · rw [hroster]
    exact h.handles
  · intro c
    rw [hkept, hnumber, Table.find?_insert]
    by_cases hc : c = ⟨p, provider.nextCallback⟩
    · simp [hc]
    · have hne : ((⟨p, provider.nextCallback⟩ : CallbackRef) == c) = false := by
        simpa using fun h => hc h.symm
      rw [hne, if_neg hc]
      exact h.captured c

theorem kept_strike (sys : System α) (c d : CallbackRef) :
    (sys.strike c.provider c.number).roster.kept d = if d = c then [] else sys.roster.kept d := by
  obtain ⟨p, n⟩ := c
  obtain ⟨q, m⟩ := d
  rw [kept_roster, kept_roster]
  simp only [strike, modifyProvider, CallbackRef.mk.injEq]
  by_cases hq : p = q
  · subst hq
    rw [List.getElem?_modify_eq]
    by_cases hn : m = n
    · subst hn
      cases sys.providers[p]? <;> simp [Table.find?_erase]
    · have hnm : (n == m) = false := by simpa using fun h => hn h.symm
      cases sys.providers[p]? <;> simp [Table.find?_erase, hn, hnm]
  · rw [List.getElem?_modify_ne _ _ hq, if_neg (fun h => hq h.1.symm)]

/-- Detaching a callback drops in both the handles that it kept. -/
theorem mirrors_detach (h : Mirrors l sys.roster) (c : CallbackRef) :
    Mirrors (l.detach c) (sys.detach c).roster := by
  have hstruck : Mirrors { l with captured := l.captured.erase c }
      (sys.strike c.provider c.number).roster := by
    refine ⟨h.next, h.handles, ?_⟩
    intro d
    rw [kept_strike, Table.find?_erase]
    by_cases hd : d = c
    · simp [hd]
    · have hne : (c == d) = false := by simpa using fun h => hd h.symm
      rw [hne, if_neg hd]
      exact h.captured d
  unfold Ledger.detach detach
  rw [h.captured c, kept_roster]
  cases hfound : sys.providers[c.provider]?.bind (·.callbacks.find? c.number) with
  | none =>
    -- Nothing was kept under a callback that is not registered.
    refine ⟨h.next, h.handles, fun d => ?_⟩
    rw [Option.map_none, Option.getD_none, List.foldl_nil]
    rw [hstruck.captured d, kept_strike]
    split
    · rename_i hd
      rw [hd, kept_roster, hfound]
      rfl
    · rfl
  | some registration =>
    have hreleased : Mirrors { l with captured := l.captured.erase c }
        (registration.references.foldl (fun sys i => sys.release i .persistent)
          (sys.strike c.provider c.number)).roster := by
      rw [roster_releaseAll]
      exact hstruck
    exact mirrors_dropHandles hreleased registration.captured

end System

end Metering
