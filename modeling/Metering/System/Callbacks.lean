import Metering.System.Basic

/-!
# Callbacks of the system

A registered callback holds a persistent reference on every instrument it was registered for that was alive, so the
instruments outlive their handles until the callback is detached. It may also hold handles of its own.
-/

namespace Metering.System

variable {α : Type}

/-! ## Registering -/

/-- Takes persistent references on instruments; lists those that were taken. -/
def acquireAll (sys : System α) : List Nat → List Nat × System α
  | [] => ([], sys)
  | i :: rest =>
    let (taken, sys) := sys.acquire i .persistent
    let (references, sys) := sys.acquireAll rest
    (if taken then i :: references else references, sys)

/-- Registers a callback with a provider under the next number. -/
def registerCallback (sys : System α) (p : Nat) (feed : Feed) (instruments captured : List Nat) :
    CallbackRef × System α :=
  let number := (sys.providers[p]?.map (·.nextCallback)).getD 0
  let (references, sys) := sys.acquireAll instruments
  -- No reference is taken on what is torn down; the log has the number of those.
  let missing := instruments.length - references.length
  let sys := if 0 < missing then sys.write [.event (.registeredStale number missing)] else sys
  (⟨p, number⟩, sys.modifyProvider p fun provider =>
    { provider with
      callbacks := provider.callbacks.insert number { feed, references, captured }
      nextCallback := number + 1 })

/-- Registers callbacks for one asynchronous instrument, one after the other. -/
def registerSingles (sys : System α) (p number i : Nat) : Nat → List CallbackRef × System α
  | 0 => ([], sys)
  | n + 1 =>
    let (c, sys) := sys.registerCallback p (.single number) [i] []
    let (cs, sys) := sys.registerSingles p number i n
    (c :: cs, sys)

/-- Registers a callback for the asynchronous instrument of a handle. -/
def register (sys : System α) (handle : Nat) : Option CallbackRef × System α :=
  match sys.instrument? handle with
  | some (i, b) =>
    match b.observer with
    | some number =>
      let (c, sys) := sys.registerCallback b.provider (.single number) [i] []
      (some c, sys)
    | none => (none, sys)
  | none => (none, sys)

/-- Makes further handles on the instruments of some handles. -/
def cloneHandles (sys : System α) : List Nat → List Nat × System α
  | [] => ([], sys)
  | h :: rest =>
    let (clone, sys) := sys.cloneHandle h
    let (clones, sys) := sys.cloneHandles rest
    (clone.toList ++ clones, sys)

/-- Registers, through a meter of a provider, one callback for the asynchronous instruments of several handles, which
may be of any provider. The callback keeps clones of the handles it uses. With a provider that does not exist nothing
can be registered. -/
def registerBatch (sys : System α) (p : Nat) (scope : Scope) (handles used : List Nat) :
    Option CallbackRef × System α :=
  match sys.providers[p]? with
  | none => (none, sys)
  | some _ =>
    let sys := sys.modifyProvider p (·.withScope scope)
    let (captured, sys) := sys.cloneHandles used
    -- Synchronous instruments, and handles that are not held, are passed over.
    let targets := (handles.filterMap sys.instrument?).filterMap fun t => t.2.observer.map (t.1, ·)
    let (c, sys) := sys.registerCallback p (.batch (targets.map (·.2))) (targets.map (·.1)) captured
    (some c, sys)

/-! ## Detaching -/

/-- Lets go of a registration that is no longer in its provider's list: of its references, then of its handles. -/
def dissolve (sys : System α) (registration : Registration) : System α :=
  registration.captured.foldl dropHandle
    (registration.references.foldl (fun sys i => sys.release i .persistent) sys)

/-- Detaches a callback; a callback that is not registered any more is left alone. -/
def detach (sys : System α) (c : CallbackRef) : System α :=
  match sys.providers[c.provider]?.bind (·.callbacks.find? c.number) with
  | none => sys
  | some registration =>
    (sys.modifyProvider c.provider fun p => { p with callbacks := p.callbacks.erase c.number }).dissolve registration

end Metering.System
