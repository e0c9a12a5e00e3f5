import Metering.System.Basic
import Metering.Text.Duration

/-!
# Descriptions

Texts in which handles, readers, providers, meters and registrations show their state.
-/

namespace Metering

variable {α : Type}

/-- A reader with the number of its streams. -/
def Reader.described (r : Reader α) : String :=
  Text.record "MetricReader"
    [("registry", Text.record "MetricRegistry" [("streams", toString r.streams.size)]),
     ("closed", toString r.closed)]

/-- A registered callback, which does not keep its provider. -/
def CallbackRef.described (c : CallbackRef) : String :=
  Text.record "CallbackRegistration" [("id", toString c.number), ("registry", "(Weak)")]

/-- The meter of a scope. -/
def Scope.meterDescribed (s : Scope) : String := Text.record "Meter" [("scope", s.described)] ++ " " ++ s.plain

/-- The settings of a reader that is yet to be built; its exporter is not shown. -/
def Reader.draftDescribed (timeoutNanos : Nat) : String :=
  Text.partialRecord "MetricReaderBuilder" [("callback_timeout", Text.duration timeoutNanos)]

/-- A recipe for reservoirs, of which nothing is shown. -/
def Reservoir.recipeDescribed : String := "ExemplarReservoirFactory"

namespace System

/-- A provider with its readers. -/
def providerDescribed (sys : System α) (p : Provider α) : String :=
  Text.record "MeterProvider"
    [("resource", Resource.described p.resource),
     ("readers", Text.list (p.readers.filterMap fun r => sys.readers[r]?.map (·.described))),
     ("meters", toString p.scopes.length),
     ("is_shutdown", toString p.closed)]

/-- A handle: the references to its instrument, and where measurements go or come from. -/
def handleDescribed (sys : System α) (b : BuiltInstrument) : String :=
  match b.observer with
  | none =>
    Text.record b.key.identity.kind.handleName
      [("_instrument", b.lifetime.described),
       ("writer", Text.record "Writer"
         [("name", Text.quoted b.key.identity.name), ("streams", toString b.streams.length)])]
  | some number =>
    let callbacks := (sys.providers[b.provider]?.map (·.callbacks.size)).getD 0
    Text.record b.key.identity.kind.handleName
      [("instrument", b.lifetime.described),
       ("observer", Text.record "ObserverEntry"
         [("id", toString number),
          ("callbacks", Text.record "CallbackRegistry" [("callbacks", toString callbacks)])])]

end System

end Metering
