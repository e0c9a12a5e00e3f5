import Metering.Proofs.Accounts.Recount
import Metering.System.Command

/-!
# The Ledger of a History

A ledger is computed from what was commanded and what was replied, and from nothing else. It knows
the time, the address of every handle that is held, the handles that callbacks keep, and for each
address an account of the instrument that lives there.

An account is opened when an instrument is asked for at an address on which no handle is held: the
instrument that may have lived there before is gone. So this says of synchronous instruments when
they begin anew; asynchronous ones can outlive their handles, but no measurement is ever made on
them.
-/

namespace Metering

/-! ## Addresses -/

/-- What identifies an instrument: its provider and its key there. -/
structure Address where
  provider : Nat
  key : InstrumentKey

namespace Address

instance : BEq Address := ⟨fun a b => decide (a.provider = b.provider) && a.key == b.key⟩

/-- Addresses are equal when the providers are the same and the keys are equal. -/
theorem beq_iff {a b : Address} :
    (a == b) = true ↔ a.provider = b.provider ∧ (a.key == b.key) = true := by
  show (decide (a.provider = b.provider) && a.key == b.key) = true ↔ _
  simp

instance : EquivBEq Address where
  rfl := beq_iff.mpr ⟨rfl, BEq.rfl⟩
  symm h :=
    have ⟨hprovider, hkey⟩ := beq_iff.mp h
    beq_iff.mpr ⟨hprovider.symm, BEq.symm hkey⟩
  trans h k :=
    have ⟨hprovider, hkey⟩ := beq_iff.mp h
    have ⟨hprovider', hkey'⟩ := beq_iff.mp k
    beq_iff.mpr ⟨hprovider.trans hprovider', BEq.trans hkey hkey'⟩

end Address

/-! ## Ledgers -/

/-- What is known from a history. -/
structure Ledger (α : Type) where
  now : Time
  nextHandle : Nat
  /-- The handles that are held, each with the address of its instrument. -/
  handles : Table Nat Address
  /-- The handles that registered callbacks keep. -/
  captured : Table CallbackRef (List Nat)
  accounts : Table Address (Account α)

namespace Ledger

variable {α : Type}

/-- The ledger of no history. -/
def opened : Ledger α :=
  { now := 0, nextHandle := 0, handles := Table.empty, captured := Table.empty, accounts := Table.empty }

/-- Whether a handle on the instrument at an address is held. -/
def isLive (l : Ledger α) (a : Address) : Bool := l.handles.values.any (· == a)

/-- Hands out the next handle. -/
def hand (l : Ledger α) (a : Address) : Ledger α :=
  { l with handles := l.handles.insert l.nextHandle a, nextHandle := l.nextHandle + 1 }

/-- The account book after an instrument was asked for. -/
def accountsWith (l : Ledger α) (a : Address) : Table Address (Account α) :=
  if l.isLive a then l.accounts else l.accounts.insert a (.opened l.now)

/-- Hands out a handle on the instrument at an address, with a new account unless one is live. -/
def grant (l : Ledger α) (a : Address) : Ledger α := { l with accounts := l.accountsWith a }.hand a

/-- Makes a second handle of a handle; lists it. -/
def copy (l : Ledger α) (handle : Nat) : List Nat × Ledger α :=
  match l.handles.find? handle with
  | none => ([], l)
  | some a => ([l.nextHandle], l.hand a)

/-- Makes second handles of several handles. -/
def copyAll (l : Ledger α) : List Nat → List Nat × Ledger α
  | [] => ([], l)
  | h :: rest => ((l.copy h).1 ++ ((l.copy h).2.copyAll rest).1, ((l.copy h).2.copyAll rest).2)

/-- Lets go of a handle. -/
def drop (l : Ledger α) (handle : Nat) : Ledger α := { l with handles := l.handles.erase handle }

/-- Lets go of a callback and of the handles that it kept. -/
def detach (l : Ledger α) (c : CallbackRef) : Ledger α :=
  ((l.captured.find? c).getD []).foldl drop { l with captured := l.captured.erase c }

variable [Quantity α]

/-- Whether an instrument takes a value: it has to be a number, and a counter does not go down. -/
def accepts (kind : Kind) (value : α) : Bool :=
  !Quantity.isNaN value && !(kind == .counter && Quantity.below value 0)

/-- Enters a measurement that was made through a handle. -/
def enter (l : Ledger α) (handle : Nat) (value : α) (attributes : List Attribute) : Ledger α :=
  match l.handles.find? handle with
  | none => l
  | some a =>
    if accepts a.key.identity.kind value then
      { l with
        accounts := l.accounts.modify a fun account =>
          account.enter ⟨value, KeyMap.ofList attributes, l.now⟩ }
    else l

/-- The ledger after a command and its reply. -/
def step (l : Ledger α) : Command α → Reply α → Ledger α
  | .advance nanos, _ => { l with now := Clock.advance l.now nanos }
  | .rewind nanos, _ => { l with now := Clock.rewind l.now nanos }
  -- A request that was refused has another reply and opens nothing.
  | .create p scope i _, .created _ => l.grant ⟨p, ⟨scope, i.identity⟩⟩
  | .clone handle, _ => (l.copy handle).2
  | .drop handle, _ => l.drop handle
  | .record handle value attributes _, _ => l.enter handle value attributes
  | .registerBatch _ _ _ used, .callback c =>
    { (l.copyAll used).2 with captured := (l.copyAll used).2.captured.insert c (l.copyAll used).1 }
  | .detach c, _ => l.detach c
  | _, _ => l

/-- The ledger after commands with their replies, one after the other. -/
def follow (l : Ledger α) (history : List (Command α × Reply α)) : Ledger α :=
  history.foldl (fun l e => l.step e.1 e.2) l

/-! ## What leaves the accounts alone -/

omit [Quantity α] in
theorem now_copy (l : Ledger α) (handle : Nat) : (l.copy handle).2.now = l.now := by
  unfold copy
  split <;> rfl

omit [Quantity α] in
theorem accounts_copy (l : Ledger α) (handle : Nat) : (l.copy handle).2.accounts = l.accounts := by
  unfold copy
  split <;> rfl

omit [Quantity α] in
theorem now_copyAll (l : Ledger α) (handles : List Nat) : (l.copyAll handles).2.now = l.now := by
  induction handles generalizing l with
  | nil => rfl
  | cons h rest ih => exact (ih _).trans (now_copy l h)

omit [Quantity α] in
theorem accounts_copyAll (l : Ledger α) (handles : List Nat) :
    (l.copyAll handles).2.accounts = l.accounts := by
  induction handles generalizing l with
  | nil => rfl
  | cons h rest ih => exact (ih _).trans (accounts_copy l h)

omit [Quantity α] in
/-- Letting go of handles changes which handles are held, and nothing else. -/
theorem foldl_drop (l : Ledger α) (handles : List Nat) :
    handles.foldl drop l =
      { l with handles := handles.foldl (fun held h => held.erase h) l.handles } := by
  induction handles generalizing l with
  | nil => rfl
  | cons h rest ih => exact ih (l.drop h)

omit [Quantity α] in
theorem now_detach (l : Ledger α) (c : CallbackRef) : (l.detach c).now = l.now := by
  rw [detach, foldl_drop]

omit [Quantity α] in
theorem accounts_detach (l : Ledger α) (c : CallbackRef) : (l.detach c).accounts = l.accounts := by
  rw [detach, foldl_drop]

end Ledger

end Metering
