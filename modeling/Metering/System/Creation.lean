import Metering.System.Callbacks

/-!
# Making instruments

An instrument that is asked for is looked up first: if one with the same key is alive, the answer is a handle on it.
Otherwise its streams are planned, one for each projection and each open reader that wants it, and only when every
one of them could be planned is the instrument built. So a request that fails leaves nothing behind but the
questions put to exporters, and the provider's memory of the scope.
-/

namespace Metering

/-- A stream to be opened. -/
structure StreamPlan (α : Type) where
  reader : Nat
  projection : Projection α
  temporality : Temporality
  aggregator : Aggregator α

namespace StreamPlan

variable {α : Type}

/-- The settings of the planned stream, which begins at a time. -/
def settings (plan : StreamPlan α) (start : Time) : StreamSettings α :=
  { aggregator := plan.aggregator
    filter := plan.projection.filter
    reservoir := plan.projection.reservoir
    temporality := plan.temporality
    start }

/-- The planned stream: synchronous, or fed by the observer with the given number. -/
def stream (plan : StreamPlan α) (start : Time) (resource : Resource) (scope : Scope) (observer : Option ObserverRef) :
    RegisteredStream α :=
  { scope, resource
    name := plan.projection.name
    unit := plan.projection.unit
    description := plan.projection.description
    source := match observer with
      | none => .synchronous (.opened (plan.settings start))
      | some o => .asynchronous (.opened (plan.settings start)) o }

end StreamPlan

namespace System

variable {α : Type} [Quantity α]

/-! ## Planning -/

/-- The aggregation of a projection, or else the exporter's, which is checked first. -/
def chooseAggregation (e : Exporter α) (kind : Kind) (pr : Projection α) :
    List (ExporterCall α) × Except (Error α) (Aggregation α) :=
  match pr.aggregation with
  | some a => ([], .ok a)
  | none => ([.aggregation kind], do (e.aggregation kind).check; pure (e.aggregation kind))

/-- Plans the stream of one projection on one open reader, unless the exporter has no use for it; also lists the
questions put to the exporter. -/
def planStream (e : Exporter α) (reader : Nat) (scope : Scope) (i : Instrument α) (pr : Projection α) :
    List (ExporterCall α) × Except (Error α) (Option (StreamPlan α)) :=
  let asked := .temporality ⟨scope, i.identity⟩
  match e.temporality ⟨scope, i.identity⟩ with
  -- The exporter has no use for the instrument.
  | none => ([asked], .ok none)
  | some temporality =>
    let (calls, choice) := chooseAggregation e i.identity.kind pr
    (asked :: calls, do
      let aggregator ← (← choice).resolve i
      -- When measurements are to be dropped there is no stream.
      pure (aggregator.map fun a => { reader, projection := pr, temporality, aggregator := a }))

/-- Plans the streams of projections on readers one after the other, up to the first error. -/
def planStreams (sys : System α) (scope : Scope) (i : Instrument α) :
    List (Projection α × Nat) → List (JournalEntry α) × Except (Error α) (List (StreamPlan α))
  | [] => ([], .ok [])
  | (pr, r) :: rest =>
    match sys.readers[r]? with
    | none => planStreams sys scope i rest
    | some reader =>
      if reader.closed then planStreams sys scope i rest
      else
        let (calls, planned) := planStream reader.exporter r scope i pr
        match planned with
        -- The readers that were to come are not asked.
        | .error e => (calls.map (.call r), .error e)
        | .ok plan =>
          let (entries, plans) := planStreams sys scope i rest
          (calls.map (.call r) ++ entries, plans.map (plan.toList ++ ·))

/-- Plans all streams of an instrument: projection by projection, reader by reader. -/
def plan (sys : System α) (p : Provider α) (scope : Scope) (i : Instrument α) :
    List (JournalEntry α) × Except (Error α) (List (StreamPlan α)) :=
  sys.planStreams scope i
    ((View.projections p.views scope i).flatMap fun pr => p.readers.map fun r => (pr, r))

/-! ## Building -/

omit [Quantity α] in
/-- Opens planned streams on their readers, and lists where each went. -/
def openStreams (sys : System α) (resource : Resource) (scope : Scope) (observer : Option ObserverRef) :
    List (StreamPlan α) → List (Nat × Nat) × System α
  | [] => ([], sys)
  | plan :: rest =>
    let stream := plan.stream sys.now resource scope observer
    let number := sys.readers[plan.reader]?.bind fun r => (r.register stream).1
    let (streams, sys) :=
      (sys.modifyReader plan.reader fun r => (r.register stream).2).openStreams resource scope observer rest
    (number.toList.map (plan.reader, ·) ++ streams, sys)

omit [Quantity α] in
/-- Builds an instrument from its plans, and leaves its teardown for the end of its lifetime. -/
def build (sys : System α) (p : Nat) (provider : Provider α) (key : InstrumentKey) (plans : List (StreamPlan α)) :
    Nat × System α :=
  let observer := if key.identity.kind.isAsynchronous then some provider.nextObserver else none
  let (streams, sys) := sys.openStreams provider.resource key.scope (observer.map (⟨p, ·⟩)) plans
  let i := sys.instruments.length
  -- The task that waits for the end of the lifetime is the teardown of this index.
  let built : BuiltInstrument :=
    { provider := p, key, observer, streams, lifetime := (Lifetime.fresh.await i).2 }
  (i, { sys with instruments := sys.instruments ++ [built] }.modifyProvider p fun provider =>
    { provider with
      cache := provider.cache.insert key i
      nextObserver := provider.nextObserver + observer.toList.length })

/-- The living instrument with a key, or one that is built now; no reference is taken yet. -/
def findOrBuild (sys : System α) (p : Nat) (provider : Provider α) (scope : Scope) (i : Instrument α) :
    Except (Error α) Nat × System α :=
  let key : InstrumentKey := ⟨scope, i.identity⟩
  -- What is cached but torn down counts for nothing.
  match (provider.cache.find? key).filter sys.isAlive with
  | some found => (.ok found, sys)
  | none =>
    let (entries, plans) := sys.plan provider scope i
    match plans with
    | .error e => (.error e, sys.write entries)
    | .ok plans =>
      let (built, sys) := (sys.write entries).build p provider key plans
      (.ok built, sys)

/-- The living instrument with a key, or one that is built now, with one more transient reference on it. -/
def procure (sys : System α) (p : Nat) (provider : Provider α) (scope : Scope) (i : Instrument α) :
    Except (Error α) Nat × System α :=
  match sys.findOrBuild p provider scope i with
  | (.error e, sys) => (.error e, sys)
  | (.ok found, sys) => (.ok found, (sys.acquire found .transient).2)

/-! ## Requests -/

/-- What a successful request gives: a handle, the number of the instrument if it is asynchronous, and the callbacks
that came with the request. -/
structure Creation where
  handle : Nat
  observer : Option Nat
  callbacks : List CallbackRef

/-- Asks a provider's meter for an instrument, with a number of callbacks for it. Of a provider that does not exist
nothing can be asked. -/
def create (sys : System α) (p : Nat) (scope : Scope) (i : Instrument α) (callbacks : Nat) :
    Option (Except (Error α) Creation) × System α :=
  match sys.providers[p]? with
  | none => (none, sys)
  | some provider =>
    let sys := sys.modifyProvider p (·.withScope scope)
    match i.check with
    | .error e => (some (.error e), sys)
    | .ok () =>
      -- The meter has the scope as it was first written, and so have the keys.
      match sys.procure p provider (provider.meterScope scope) i with
      | (.error e, sys) => (some (.error e), sys)
      | (.ok found, sys) =>
        let observer := sys.instruments[found]?.bind (·.observer)
        let (handle, sys) := sys.adopt found
        -- A synchronous instrument has no use for callbacks.
        let (cs, sys) := match observer with
          | some number => sys.registerSingles p number found callbacks
          | none => ([], sys)
        (some (.ok { handle, observer, callbacks := cs }), sys)

end System

end Metering
