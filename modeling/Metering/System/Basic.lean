import Metering.Event
import Metering.Lifetime.Basic
import Metering.Provider
import Metering.Reader

/-!
# The system

Everything there is at one moment: the clock, the readers, the providers, every instrument ever built with its
references, and the handles that programs hold on them. A journal lists what was said to exporters and to the log.

Instruments are shared, so handles and callbacks only refer to them. The release of the last reference ends the
lifetime of an instrument and hands out its teardown, which takes the instrument out of its provider's cache and its
streams out of their readers.
-/

namespace Metering

/-- An instrument that was built. -/
structure BuiltInstrument where
  provider : Nat
  key : InstrumentKey
  /-- Its number among the provider's asynchronous instruments, if it is one. -/
  observer : Option Nat
  /-- Its streams, each by reader and number. -/
  streams : List (Nat × Nat)
  /-- Its references; what waits for their end is the teardown of the instrument with the given index. -/
  lifetime : Lifetime Nat

/-- An entry of the journal. -/
inductive JournalEntry (α : Type) where
  | call (reader : Nat) (call : ExporterCall α)
  | event (event : Event α)

/-- The state of all providers and readers. -/
structure System (α : Type) where
  now : Time
  readers : List (Reader α)
  providers : List (Provider α)
  instruments : List BuiltInstrument
  /-- The handles that are held, each with the index of its instrument. -/
  handles : Table Nat Nat
  nextHandle : Nat
  journal : List (JournalEntry α)

namespace System

variable {α : Type}

/-- The system before anything has happened. -/
def opened (readers : List (Reader α)) (providers : List (Provider α)) : System α :=
  { now := 0, readers, providers, instruments := [], handles := Table.empty, nextHandle := 0, journal := [] }

/-! ## Parts -/

/-- Changes one reader. -/
def modifyReader (sys : System α) (r : Nat) (f : Reader α → Reader α) : System α :=
  { sys with readers := sys.readers.modify r f }

/-- Changes one provider. -/
def modifyProvider (sys : System α) (p : Nat) (f : Provider α → Provider α) : System α :=
  { sys with providers := sys.providers.modify p f }

/-- Sets the references of an instrument. -/
def setLifetime (sys : System α) (i : Nat) (l : Lifetime Nat) : System α :=
  { sys with instruments := sys.instruments.modify i fun b => { b with lifetime := l } }

/-- Adds entries to the journal. -/
def write (sys : System α) (entries : List (JournalEntry α)) : System α :=
  { sys with journal := sys.journal ++ entries }

/-- The instrument behind a handle, with its index. -/
def instrument? (sys : System α) (handle : Nat) : Option (Nat × BuiltInstrument) := do
  let i ← sys.handles.find? handle
  let b ← sys.instruments[i]?
  pure (i, b)

/-- Whether an instrument is alive. -/
def isAlive (sys : System α) (i : Nat) : Bool := sys.instruments[i]?.any fun b => !b.lifetime.stale

/-! ## References -/

/-- Takes an instrument out of its provider's cache and its streams out of their readers. -/
def teardown (sys : System α) (i : Nat) : System α :=
  match sys.instruments[i]? with
  | none => sys
  | some b =>
    b.streams.foldl (fun sys s => sys.modifyReader s.1 fun r => r.unregister s.2)
      (sys.modifyProvider b.provider fun p => p.uncache b.key i)

/-- Takes a reference on an instrument, unless it is torn down; says whether it was taken. -/
def acquire (sys : System α) (i : Nat) (f : Flavour) : Bool × System α :=
  match sys.instruments[i]? with
  | none => (false, sys)
  | some b => ((b.lifetime.acquire f).1, sys.setLifetime i (b.lifetime.acquire f).2)

/-- Gives a reference back without running what that sets off: the teardowns are left to be run. -/
def relinquish (sys : System α) (i : Nat) (f : Flavour) : List Nat × System α :=
  match sys.instruments[i]? with
  | none => ([], sys)
  | some b =>
    let released := (b.lifetime.release f).2
    (released.1, sys.setLifetime i released.2)

/-- Gives a reference back and runs what that sets off. -/
def release (sys : System α) (i : Nat) (f : Flavour) : System α :=
  let (teardowns, sys) := sys.relinquish i f
  teardowns.foldl teardown sys

/-! ## Handles -/

/-- Makes a handle of a transient reference that has been taken on an instrument. -/
def adopt (sys : System α) (i : Nat) : Nat × System α :=
  (sys.nextHandle, { sys with handles := sys.handles.insert sys.nextHandle i, nextHandle := sys.nextHandle + 1 })

/-- Makes a second handle on the instrument of a handle. -/
def cloneHandle (sys : System α) (handle : Nat) : Option Nat × System α :=
  match sys.handles.find? handle with
  | none => (none, sys)
  | some i =>
    let (h, sys) := (sys.acquire i .transient).2.adopt i
    (some h, sys)

/-- Lets go of a handle. -/
def dropHandle (sys : System α) (handle : Nat) : System α :=
  match sys.handles.find? handle with
  | none => sys
  | some i => { sys with handles := sys.handles.erase handle }.release i .transient

end System

end Metering
