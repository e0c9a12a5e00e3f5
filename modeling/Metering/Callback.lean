import Metering.Stream.Asynchronous

/-!
# Callbacks

What callbacks are registered for, and what they do when they are called: observations, and how the call ends. A call
that fails, by panicking or by missing its deadline, counts for nothing; the observations of the others are merged by
instrument, later values of an attribute set replacing earlier ones.
-/

namespace Metering

/-- An asynchronous instrument: its provider, and its number among the provider's asynchronous instruments. -/
structure ObserverRef where
  provider : Nat
  number : Nat
  deriving DecidableEq, Repr, Inhabited

/-- A registered callback: its provider, and its number among the provider's callbacks. -/
structure CallbackRef where
  provider : Nat
  number : Nat
  deriving DecidableEq, Repr, Inhabited

/-- A value observed on an instrument. -/
structure Observation (α : Type) where
  target : ObserverRef
  attributes : List Attribute
  value : α

/-- How a call of a callback ends. Every call can be begun: that there is nothing left to run it on is not among the
endings. -/
inductive Ending where
  | returned
  | panicked (message : String)
  /-- The callback has not returned when its deadline passes. -/
  | overran
  deriving DecidableEq

/-- A call of a callback: what it observes, and how it ends. It does nothing else to the system. -/
structure Performance (α : Type) where
  observations : List (Observation α)
  ending : Ending

/-- What a callback is registered for: one instrument, to which all it observes belongs, or several, by number. -/
inductive Feed where
  | single (number : Nat)
  | batch (numbers : List Nat)
  deriving DecidableEq

namespace Feed

/-- The numbers of the instruments that are fed. -/
def numbers : Feed → List Nat
  | single n => [n]
  | batch ns => ns

/-- Whether any of the numbered instruments is fed. -/
def feedsAny (f : Feed) (wanted : List Nat) : Bool := f.numbers.any wanted.contains

variable {α : Type}

/-- The number under which an observation is filed. -/
def fileUnder : Feed → Observation α → Nat
  | single n, _ => n
  | batch _, o => o.target.number

/-- Whether an observation is kept. -/
def keeps (f : Feed) (o : Observation α) : Bool := f.numbers.contains (f.fileUnder o)

/-- The observations of a call by instrument; every instrument of the registration has a table, if an empty one. -/
def gather (f : Feed) (observations : List (Observation α)) : Table Nat (Observations α) :=
  (observations.filter f.keeps).foldl
    (fun t o => t.modify (f.fileUnder o) fun found => found.insert (KeyMap.ofList o.attributes) o.value)
    (Table.ofList (f.numbers.map fun n => (n, Table.empty)))

/-- The numbers of the instruments whose observations are dropped. -/
def outsiders (f : Feed) (observations : List (Observation α)) : List Nat :=
  (observations.filter fun o => !f.keeps o).map f.fileUnder

end Feed

/-! ## Passes -/

/-- The merged observations of a pass over one provider's callbacks. -/
structure ObservationPass (α : Type) where
  observations : Table Nat (Observations α)
  failures : Nat

namespace ObservationPass

variable {α : Type}

/-- A pass without results. -/
def empty : ObservationPass α := ⟨Table.empty, 0⟩

/-- Takes in the result of one callback: its observations by instrument, or nothing if it failed. -/
def absorb (pass : ObservationPass α) : Option (Table Nat (Observations α)) → ObservationPass α
  | none => { pass with failures := pass.failures + 1 }
  | some observed =>
    { pass with
      observations := observed.entries.foldl
        (fun t e => t.update e.1 fun found => (found.getD Table.empty).insertAll e.2.entries) pass.observations }

/-- The pass of a list of results, in the order in which they arrive. -/
def ofResults (results : List (Option (Table Nat (Observations α)))) : ObservationPass α :=
  results.foldl absorb empty

end ObservationPass

/-- What a call contributes to a pass. -/
def Performance.result {α : Type} (p : Performance α) (f : Feed) : Option (Table Nat (Observations α)) :=
  match p.ending with
  | .returned => some (f.gather p.observations)
  | .panicked _ | .overran => none

end Metering
