import Metering.Callback
import Metering.View.Basic

/-!
# Providers

A provider makes instruments for a fixed list of readers. It remembers the scopes it was asked for, the instruments
that are alive by what identifies them, its views, and its callbacks.
-/

namespace Metering

/-- A registered callback: what it feeds, the instruments it holds a persistent reference on, and the handles that it
keeps for its own use. -/
structure Registration where
  feed : Feed
  references : List Nat
  captured : List Nat

/-- A provider. -/
structure Provider (α : Type) where
  resource : Resource
  readers : List Nat
  views : List (View α)
  /-- The scopes for which a meter was made. -/
  scopes : List Scope
  /-- The instruments of the provider by what identifies them. -/
  cache : Table InstrumentKey Nat
  /-- The number of the next asynchronous instrument. -/
  nextObserver : Nat
  callbacks : Table Nat Registration
  /-- The number of the next callback. -/
  nextCallback : Nat
  closed : Bool
  /-- Whether the program still holds the provider. -/
  held : Bool

namespace Provider

variable {α : Type}

/-- A provider that has made nothing. -/
def opened (resource : Resource) (readers : List Nat) : Provider α :=
  { resource, readers
    views := []
    scopes := []
    cache := Table.empty
    nextObserver := 0
    callbacks := Table.empty
    nextCallback := 0
    closed := false
    held := true }

/-- The scope of the meter that the provider gives for a scope: the one that it was first asked for among equals. -/
def meterScope (p : Provider α) (scope : Scope) : Scope := (p.scopes.find? (· == scope)).getD scope

/-- The provider after it was asked for the meter of a scope; a scope asked for before changes nothing. -/
def withScope (p : Provider α) (scope : Scope) : Provider α :=
  if p.scopes.any (· == scope) then p else { p with scopes := p.scopes ++ [scope] }

/-- The callbacks that feed any of the numbered instruments, in the order of registration. -/
def feeding (p : Provider α) (wanted : List Nat) : List (Nat × Registration) :=
  p.callbacks.entries.filter fun e => e.2.feed.feedsAny wanted

/-- Forgets an instrument, if the entry under its key is still the instrument's own. -/
def uncache (p : Provider α) (key : InstrumentKey) (instrument : Nat) : Provider α :=
  if p.cache.find? key = some instrument then { p with cache := p.cache.erase key } else p

end Provider

end Metering
