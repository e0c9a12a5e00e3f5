import Metering.Proofs.Accounts.Descent
import Metering.Proofs.Accounts.Mirror

/-!
# Books that Agree with the System

A ledger is booked with a system when it mirrors the roster and when every living synchronous
instrument has an account under its address, which each of its streams that is still on a reader
recounts. Whatever descends from a booked system is booked with the same accounts. The two
operations that change accounts are the making of an instrument, which opens one, and the making of
a measurement, which enters it in one.
-/

namespace Metering

variable {α : Type}

/-- Where an instrument lives. -/
def BuiltInstrument.address (b : BuiltInstrument) : Address := ⟨b.provider, b.key⟩

namespace System

variable {sys sys' : System α} {l l' : Ledger α} {i j : Nat} {b b' : BuiltInstrument}

/-! ## Living instruments and their addresses -/

/-- No two living instruments share an address. -/
theorem Housed.eq_of_address (h : Housed sys) (hb : sys.instruments[i]? = some b)
    (halive : b.lifetime.stale = false) (hb' : sys.instruments[j]? = some b')
    (halive' : b'.lifetime.stale = false) (heq : (b.address == b'.address) = true) : i = j := by
  obtain ⟨hprovider, hkey⟩ := Address.beq_iff.mp heq
  have hprovider : b.provider = b'.provider := hprovider
  have hkey : (b.key == b'.key) = true := hkey
  -- Both are cached by the one provider, and their keys find the same entry.
  have hp := List.getElem?_eq_getElem (h.owned i b hb)
  have hmem := (h.cached b.provider _ hp b.key i).mpr ⟨b, hb, halive, rfl, rfl⟩
  have hmem' := (h.cached b.provider _ hp b'.key j).mpr ⟨b', hb', halive', hprovider.symm, rfl⟩
  have hfound := Table.find?_eq_some_of_mem hmem hkey
  have hfound' := Table.find?_eq_some_of_mem hmem' BEq.rfl
  exact Option.some.inj (hfound.symm.trans hfound')

/-- Nothing but handles keeps a synchronous instrument alive. -/
theorem Coherent.exists_handle (h : Coherent sys) (hb : sys.instruments[i]? = some b)
    (halive : b.lifetime.stale = false) (hsync : b.observer = none) :
    ∃ handle, sys.handles.find? handle = some i := by
  -- Callbacks list asynchronous instruments, so it has no persistent reference.
  have hpersistent : sys.roster.claims i .persistent = 0 := by
    apply List.count_eq_zero_of_not_mem
    intro hmem
    obtain ⟨n, hn⟩ := h.formed.observer?_of_reference hmem
    rw [observer?_roster, hb, Option.bind_some, hsync] at hn
    cases hn
  -- Without a transient one it would be stale.
  have htransient : sys.roster.claims i .transient ≠ 0 := by
    intro hzero
    have hstale := (h.balanced.stale_iff i b hb).mpr fun f => by
      cases f
      · exact hzero
      · exact hpersistent
    rw [halive] at hstale
    cases hstale
  have hmem : i ∈ sys.handles.values := List.count_pos_iff.mp (Nat.pos_of_ne_zero htransient)
  obtain ⟨⟨handle, i⟩, he, rfl⟩ := List.mem_map.mp hmem
  exact ⟨handle, Table.find?_eq_some_iff_mem.mpr he⟩

theorem names_iff {a : Address} :
    sys.roster.Names a i ↔ ∃ b, sys.instruments[i]? = some b ∧ (a == b.address) = true := by
  rw [Roster.Names, address?_roster]
  constructor
  · rintro ⟨a', ha', haa'⟩
    obtain ⟨b, hb, rfl⟩ := Option.map_eq_some_iff.mp ha'
    exact ⟨b, hb, haa'⟩
  · rintro ⟨b, hb, hab⟩
    exact ⟨_, by rw [hb]; rfl, hab⟩

/-! ## Booked systems -/

variable [Quantity α]

/-- The ledger mirrors the roster, and the streams of every living synchronous instrument recount
the account at its address. -/
structure Booked (l : Ledger α) (sys : System α) : Prop where
  now : l.now = sys.now
  mirrors : Mirrors l sys.roster
  accounts : ∀ (i : Nat) (b : BuiltInstrument), sys.instruments[i]? = some b →
    b.lifetime.stale = false → b.observer = none →
      ∃ account, l.accounts.find? b.address = some account ∧
        ∀ s ∈ b.streams, ∀ rs, streamAt sys.readers s = some rs → rs.Recounts account

/-- Descent keeps the accounts. -/
theorem Booked.descend (h : Booked l sys) (hdescends : Descends sys sys')
    (hmirrors : Mirrors l' sys'.roster) (hnow : l'.now = l.now)
    (haccounts : l'.accounts = l.accounts) : Booked l' sys' := by
  refine ⟨hnow.trans (h.now.trans hdescends.now.symm), hmirrors, ?_⟩
  intro i b' hb' halive' hsync'
  obtain ⟨b, hb, halive, hident⟩ := hdescends.alive i b' hb' halive'
  -- What an account is found by and recounted by is all in the ident.
  have hobserver : b.observer = b'.observer := congrArg (·.2.2.1) hident
  have hstreams : b.streams = b'.streams := congrArg (·.2.2.2) hident
  have haddress : b.address = b'.address := by
    have hprovider : b.provider = b'.provider := congrArg (·.1) hident
    have hkey : b.key = b'.key := congrArg (·.2.1) hident
    rw [BuiltInstrument.address, hprovider, hkey, BuiltInstrument.address]
  obtain ⟨account, haccount, hrecounts⟩ := h.accounts i b hb halive (hobserver.trans hsync')
  have hrecounts : sys.Recounted b'.streams account := hstreams ▸ hrecounts
  exact ⟨account, haccounts ▸ haddress ▸ haccount, hrecounts.descend hdescends⟩

/-- Descent within one roster needs nothing more. -/
theorem Booked.descend_of_roster_eq (h : Booked l sys) (hdescends : Descends sys sys')
    (hroster : sys'.roster = sys.roster) : Booked l sys' :=
  h.descend hdescends (hroster ▸ h.mirrors) rfl rfl

theorem Booked.withNow (h : Booked l sys) (now : Time) :
    Booked { l with now := now } { sys with now := now } :=
  ⟨rfl, h.mirrors.withNow now, h.accounts⟩

/-! ## Opening accounts -/

/-- The address of a living synchronous instrument is live, so asking for it again opens nothing. -/
theorem Booked.isLive_of_address (h : Booked l sys) (hcoherent : Coherent sys) {a : Address}
    (hb : sys.instruments[i]? = some b) (halive : b.lifetime.stale = false)
    (hsync : b.observer = none) (heq : (a == b.address) = true) : l.isLive a = true := by
  obtain ⟨handle, hhandle⟩ := hcoherent.exists_handle hb halive hsync
  exact (h.mirrors.isLive_iff a).mpr ⟨handle, i, hhandle, names_iff.mpr ⟨b, hb, heq⟩⟩

theorem Booked.find?_accountsWith (h : Booked l sys) (hcoherent : Coherent sys) (a : Address)
    (hb : sys.instruments[i]? = some b) (halive : b.lifetime.stale = false)
    (hsync : b.observer = none) :
    (l.accountsWith a).find? b.address = l.accounts.find? b.address := by
  unfold Ledger.accountsWith
  split
  · rfl
  · -- This address is live, so it is not the one for which an account was opened.
    rename_i hdead
    rw [Table.find?_insert]
    split
    · rename_i heq
      exact absurd (h.isLive_of_address hcoherent hb halive hsync heq) hdead
    · rfl

/-- Asking for an instrument leaves the accounts of those that are alive as they are. -/
theorem Booked.withAccounts (h : Booked l sys) (hcoherent : Coherent sys) (a : Address) :
    Booked { l with accounts := l.accountsWith a } sys := by
  refine ⟨h.now, h.mirrors.withAccounts _, ?_⟩
  intro i b hb halive hsync
  obtain ⟨account, haccount, hrecounts⟩ := h.accounts i b hb halive hsync
  exact ⟨account, (h.find?_accountsWith hcoherent a hb halive hsync).trans haccount, hrecounts⟩

end System

end Metering
