import Metering.System.Collection
import Metering.System.Creation
import Metering.System.Reclaim
import Metering.System.Recording

/-!
# Commands

Everything that can be done to a system, as one type, with one function that does it. A run is a list of commands done
in order.
-/

namespace Metering

/-- Something to do. Providers and readers go by index, handles and callbacks by what was replied when they were
made. -/
inductive Command (α : Type) where
  | advance (nanos : Nat)
  | rewind (nanos : Nat)
  | registerView (p : Nat) (view : View α)
  /-- Asks for the meter of a scope. -/
  | meter (p : Nat) (scope : Scope)
  /-- Asks a meter for an instrument, with a number of callbacks for it. -/
  | create (p : Nat) (scope : Scope) (instrument : Instrument α) (callbacks : Nat)
  | clone (handle : Nat)
  | drop (handle : Nat)
  /-- Makes a measurement; each stream of the instrument has a draw of its own for its reservoir. -/
  | record (handle : Nat) (value : α) (attributes : List Attribute) (draw : Nat → Nat)
  | register (handle : Nat)
  /-- Registers a callback for the instruments of handles; it keeps clones of those that it uses. -/
  | registerBatch (p : Nat) (scope : Scope) (handles used : List Nat)
  | detach (callback : CallbackRef)
  | collect (r : Nat)
  | flushReader (r : Nat)
  | shutdownReader (r : Nat)
  | flush (p : Nat)
  | shutdown (p : Nat)
  /-- Empties the memory of a reader's exporter. -/
  | empty (r : Nat)
  | dropProvider (p : Nat)
  | dropReader (r : Nat)

/-- What a command gives back. -/
inductive Reply (α : Type) where
  | done
  | refused (e : Error α)
  | created (c : System.Creation)
  | handle (h : Nat)
  | callback (c : CallbackRef)
  | verdict (ok : Bool)
  /-- What was asked for does not exist. -/
  | missing

namespace System

variable {α : Type} [Quantity α]

/-- Adds a view to a provider, unless it is refused; it counts for instruments that are built later. -/
def registerView (sys : System α) (p : Nat) (v : View α) : Except (Error α) Unit × System α :=
  match v.check with
  | .error e => (.error e, sys)
  | .ok () => (.ok (), sys.modifyProvider p fun provider => { provider with views := provider.views ++ [v] })

/-- Does what a command says. Calls of callbacks are answered by `respond`, starting from what it knows. -/
def perform {σ : Type} (respond : Responder σ α) (known : σ) (sys : System α) :
    Command α → Reply α × σ × System α
  | .advance nanos => (.done, known, { sys with now := Clock.advance sys.now nanos })
  | .rewind nanos => (.done, known, { sys with now := Clock.rewind sys.now nanos })
  | .registerView p v =>
    match sys.registerView p v with
    | (.ok (), sys) => (.done, known, sys)
    | (.error e, sys) => (.refused e, known, sys)
  | .meter p scope => (.done, known, sys.modifyProvider p (·.withScope scope))
  | .create p scope i callbacks =>
    match sys.create p scope i callbacks with
    | (some (.ok c), sys) => (.created c, known, sys)
    | (some (.error e), sys) => (.refused e, known, sys)
    | (none, sys) => (.missing, known, sys)
  | .clone h =>
    match sys.cloneHandle h with
    | (some clone, sys) => (.handle clone, known, sys)
    | (none, sys) => (.missing, known, sys)
  | .drop h => (.done, known, (sys.dropHandle h).reclaim)
  | .record h value attributes draw => (.done, known, sys.record h value attributes draw)
  | .register h =>
    match sys.register h with
    | (some c, sys) => (.callback c, known, sys)
    | (none, sys) => (.missing, known, sys)
  | .registerBatch p scope handles used =>
    match sys.registerBatch p scope handles used with
    | (some c, sys) => (.callback c, known, sys)
    | (none, sys) => (.missing, known, sys)
  | .detach c => (.done, known, (sys.detach c).reclaim)
  | .collect r =>
    let (ok, known, sys) := sys.collect respond known r
    (.verdict ok, known, sys)
  | .flushReader r =>
    let (ok, known, sys) := sys.flushReader respond known r
    (.verdict ok, known, sys)
  | .shutdownReader r =>
    let (ok, known, sys) := sys.shutdownReader respond known r
    (.verdict ok, known, sys.reclaim)
  | .flush p =>
    let (ok, known, sys) := sys.flush respond known p
    (.verdict ok, known, sys)
  | .shutdown p =>
    let (ok, known, sys) := sys.shutdown respond known p
    (.verdict ok, known, sys.reclaim)
  | .empty r => (.done, known, sys.modifyReader r fun reader => { reader with exporter := reader.exporter.emptied })
  | .dropProvider p => (.done, known, sys.dropProvider p)
  | .dropReader r => (.done, known, sys.dropReader r)

/-- Does a list of commands, and lists the replies. -/
def run {σ : Type} (respond : Responder σ α) (known : σ) (sys : System α) :
    List (Command α) → List (Reply α) × σ × System α
  | [] => ([], known, sys)
  | c :: rest =>
    let (reply, known, sys) := sys.perform respond known c
    let (replies, known, sys) := run respond known sys rest
    (reply :: replies, known, sys)

end System

end Metering
