import Metering.System.Callbacks

/-!
# What is left when providers and readers are let go

A reader lives while the program or a provider that the program holds refers to it; with it go its streams. The
callbacks of a provider live while the program holds the provider, while a handle on one of its asynchronous
instruments is held, by the program or by a callback, and while a living reader has a stream that they feed. When
callbacks go this way their persistent references are not given back, but the handles they kept are dropped.
-/

namespace Metering.System

variable {α : Type}

/-- Whether anything keeps a reader. -/
def keepsReader (sys : System α) (r : Nat) : Bool :=
  (sys.readers[r]?.any (·.held)) || sys.providers.any fun p => p.held && p.readers.contains r

/-- Empties the readers that nothing keeps. -/
def clearReaders (sys : System α) : System α :=
  { sys with
    readers := sys.readers.zipIdx.map fun e =>
      if sys.keepsReader e.2 then e.1 else { e.1 with streams := Table.empty } }

/-- Whether an instrument is an asynchronous one of the provider. -/
def observesFor (sys : System α) (p i : Nat) : Bool :=
  sys.instruments[i]?.any fun b => b.provider == p && b.observer.isSome

/-- Whether anything keeps the callbacks of a provider. -/
def keepsCallbacks (sys : System α) (p : Nat) : Bool :=
  (sys.providers[p]?.any (·.held)) || sys.handles.values.any (sys.observesFor p) ||
    sys.readers.any fun r => r.streams.values.any fun s => s.observer?.any (·.provider == p)

/-- The first provider that has callbacks which nothing keeps. -/
def abandoned? (sys : System α) : Option (Nat × Provider α) :=
  (sys.providers.zipIdx.find? fun e => !e.1.callbacks.entries.isEmpty && !sys.keepsCallbacks e.2).map fun e =>
    (e.2, e.1)

/-- Lets go of callbacks that nothing keeps, of one provider after the other. Dropping the handles they kept may set
others free, but no provider comes up twice. -/
def clearCallbacks (sys : System α) : Nat → System α
  | 0 => sys
  | n + 1 =>
    match sys.abandoned? with
    | none => sys
    | some (p, provider) =>
      -- The references go with the callbacks and are not given back.
      clearCallbacks
        ((provider.callbacks.values.flatMap (·.captured)).foldl dropHandle
          (sys.modifyProvider p fun provider => { provider with callbacks := Table.empty })) n

/-- Lets go of whatever nothing keeps; nothing is let go while the program holds every provider. -/
def reclaim (sys : System α) : System α :=
  if sys.providers.all (·.held) then sys
  else sys.clearReaders.clearCallbacks sys.providers.length

/-- The program lets go of a provider. -/
def dropProvider (sys : System α) (p : Nat) : System α :=
  (sys.modifyProvider p fun provider => { provider with held := false }).reclaim

/-- The program lets go of a reader. -/
def dropReader (sys : System α) (r : Nat) : System α :=
  (sys.modifyReader r fun reader => { reader with held := false }).reclaim

end Metering.System
