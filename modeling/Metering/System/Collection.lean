import Metering.System.Basic

/-!
# Collecting

A collection pass of a reader: the callbacks that feed the reader's streams are called, each once; their results are
merged provider by provider; and one batch with the data of all streams goes to the exporter, whatever became of
the callbacks. The pass succeeds when the exporter accepts the batch and no callback failed.

What callbacks do comes from outside, as an answer to each call in turn. The calls of a pass may be under way at the
same time, and results are merged as they arrive; here they arrive in the order in which the callbacks were
registered, which is one of the orders that there can be. `Metering.Proofs.Observations.Arrivals` is about all of
them.
-/

namespace Metering

/-- What answers the calls of callbacks: from what it knows, and the callback called, it gives the performance and what
it knows afterwards. -/
abbrev Responder (σ α : Type) := σ → CallbackRef → Performance α × σ

/-- A callback to be called, with what it is registered for. -/
structure Call where
  callback : CallbackRef
  feed : Feed
  deriving DecidableEq

/-- Calls callbacks one after the other, and lists the performances in the order of the calls. For the callbacks of a
provider that is the order of registration, one of those in which their results may arrive; what is collected in any
other order is compared with this one in `Metering.Proofs.Observations.Arrivals`. -/
def callAll {σ α : Type} (respond : Responder σ α) (known : σ) : List Call → List (Call × Performance α) × σ
  | [] => ([], known)
  | c :: rest =>
    let (performance, known) := respond known c.callback
    let (performances, known) := callAll respond known rest
    ((c, performance) :: performances, known)

/-- What the log says about a call: each observation outside the registration, then how the call failed. -/
def Performance.events {α : Type} (timeout : Nat) (c : Call) (p : Performance α) : List (Event α) :=
  (c.feed.outsiders p.observations).map .droppedOutsider ++
    match p.ending with
    | .returned => []
    | .panicked message => [.callbackPanicked c.callback.number message]
    | .overran => [.callbackTimedOut c.callback.number timeout]

namespace System

variable {α : Type}

/-! ## Calls -/

/-- The calls of a pass of a reader, by provider: the callbacks that feed an instrument with a stream on the
reader. -/
def calls (sys : System α) (reader : Reader α) : List (List Call) :=
  reader.wanted.entries.map fun e =>
    match sys.providers[e.1]? with
    | none => []
    | some p => (p.feeding e.2).map fun c => ⟨⟨e.1, c.1⟩, c.2.feed⟩

/-- Calls the callbacks of one provider after those of another, as a pass does: it waits for the last result of a
provider before it calls a callback of the next. -/
def callProviders {σ : Type} (respond : Responder σ α) (known : σ) :
    List (List Call) → List (List (Call × Performance α)) × σ
  | [] => ([], known)
  | calls :: rest =>
    let (performances, known) := callAll respond known calls
    let (others, known) := callProviders respond known rest
    (performances :: others, known)

/-- The pass over the callbacks of one provider. -/
def observationPass (performances : List (Call × Performance α)) : ObservationPass α :=
  .ofResults (performances.map fun c => c.2.result c.1.feed)

/-- All that was observed in the passes over several providers: one table by instrument number, in which the
observations of a later provider take the place of an earlier one's. -/
def observed (passes : List (ObservationPass α)) : Table Nat (Observations α) :=
  passes.foldl (fun t pass => t.insertAll pass.observations.entries) Table.empty

variable [Quantity α]

/-! ## Passes -/

/-- Exports what a pass of a reader collected, given the performances of its callbacks, provider by provider in the
order in which their results arrived. -/
def exportPass (sys : System α) (r : Nat) (reader : Reader α) (performances : List (List (Call × Performance α))) :
    Bool × System α :=
  let passes := performances.map observationPass
  let failures : Nat := passes.foldl (fun n pass => n + pass.failures) 0
  let table := observed passes
  let batch := reader.batch table sys.now
  -- The batch goes out whatever became of the callbacks.
  let accepted := (reader.exporter.deliver batch).1
  let entries : List (JournalEntry α) :=
    performances.flatten.flatMap (fun c => (c.2.events reader.timeout c.1).map .event) ++
      [.call r (.deliver batch)] ++
      (if accepted then [] else [.event (.exportFailed batch.length)]) ++
      (if 0 < failures then [.event (.callbacksFailed failures)] else [])
  (accepted && failures == 0,
    (sys.modifyReader r fun reader =>
      { reader.collected table sys.now with exporter := (reader.exporter.deliver batch).2 }).write entries)

/-- One pass of a reader. The results of a provider's callbacks are merged in the order of registration, which is one
of the orders in which they may arrive. If no two callbacks that succeed observe one attribute set on one instrument,
then any other order leads to the same verdict, the same number of failures and, in every stream that keeps all
attributes, the same points and baseline but for their order: see `Metering.Proofs.Observations.Arrivals`. -/
def pass {σ : Type} (respond : Responder σ α) (known : σ) (sys : System α) (r : Nat) : Bool × σ × System α :=
  match sys.readers[r]? with
  | none => (false, known, sys)
  | some reader =>
    let (performances, known) := callProviders respond known (sys.calls reader)
    let (ok, sys) := sys.exportPass r reader performances
    (ok, known, sys)

/-! ## Readers -/

/-- Whether a reader is closed; a reader that does not exist is. -/
def isClosed (sys : System α) (r : Nat) : Bool := (sys.readers[r]?.map (·.closed)).getD true

/-- Collects a reader; a closed reader does nothing. -/
def collect {σ : Type} (respond : Responder σ α) (known : σ) (sys : System α) (r : Nat) : Bool × σ × System α :=
  if sys.isClosed r then (false, known, sys) else sys.pass respond known r

/-- Collects a reader and flushes its exporter. -/
def flushReader {σ : Type} (respond : Responder σ α) (known : σ) (sys : System α) (r : Nat) : Bool × σ × System α :=
  if sys.isClosed r then (false, known, sys)
  else
    let (collected, known, sys) := sys.pass respond known r
    let flushed := (sys.readers[r]?.map (·.exporter.flushes)).getD false
    (collected && flushed, known, sys.write [.call r .flush])

/-- Closes a reader: a last pass, the end of its exporter, and none of its streams are left. -/
def shutdownReader {σ : Type} (respond : Responder σ α) (known : σ) (sys : System α) (r : Nat) :
    Bool × σ × System α :=
  if sys.isClosed r then (false, known, sys)
  else
    -- Closed before the last pass, the reader takes no stream while it runs.
    let (collected, known, sys) := (sys.modifyReader r fun reader => { reader with closed := true }).pass respond known r
    let ended := (sys.readers[r]?.map (·.exporter.shutsDown)).getD false
    (collected && ended, known,
      (sys.write [.call r .shutdown]).modifyReader r fun reader => { reader with streams := Table.empty })

/-! ## Providers -/

/-- Does something with each of a list of readers, all of them even when some fail; succeeds when all do. -/
def eachReader {σ : Type} (act : σ → System α → Nat → Bool × σ × System α) (known : σ) (sys : System α) :
    List Nat → Bool × σ × System α
  | [] => (true, known, sys)
  | r :: rest =>
    let (ok, known, sys) := act known sys r
    let (others, known, sys) := eachReader act known sys rest
    (ok && others, known, sys)

/-- Flushes every reader of a provider, unless the provider is closed. -/
def flush {σ : Type} (respond : Responder σ α) (known : σ) (sys : System α) (p : Nat) : Bool × σ × System α :=
  match sys.providers[p]? with
  | none => (false, known, sys)
  | some provider =>
    if provider.closed then (false, known, sys)
    else eachReader (flushReader respond) known sys provider.readers

/-- Closes a provider and every reader of it, unless it is closed already. -/
def shutdown {σ : Type} (respond : Responder σ α) (known : σ) (sys : System α) (p : Nat) : Bool × σ × System α :=
  match sys.providers[p]? with
  | none => (false, known, sys)
  | some provider =>
    if provider.closed then (false, known, sys)
    else
      eachReader (shutdownReader respond) known
        (sys.modifyProvider p fun provider => { provider with closed := true }) provider.readers

end System

end Metering
