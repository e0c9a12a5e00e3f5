import Metering.Text.Shape

/-!
# Lifetimes

References to an instrument, and what is to be done when the last one is gone. A lifetime counts references of two
flavours: transient ones, held by handles, and persistent ones, held by registered callbacks. When a release leaves
no reference of either flavour the lifetime is over: it is stale for good, cannot be acquired any more, and hands
out the tasks that were waiting for that moment, each of them once.
-/

namespace Metering

/-- The two kinds of references. -/
inductive Flavour where
  | transient
  | persistent
  deriving DecidableEq, Repr

/-- The references to one instrument, with the tasks that wait for the last one to go. -/
structure Lifetime (τ : Type) where
  transient : Nat
  persistent : Nat
  stale : Bool
  pending : List τ

namespace Lifetime

variable {τ : Type}

/-- A lifetime without references, which nobody has held yet. -/
def fresh : Lifetime τ := ⟨0, 0, false, []⟩

instance : Inhabited (Lifetime τ) := ⟨fresh⟩

/-- How many references of a flavour are held. -/
def count (l : Lifetime τ) : Flavour → Nat
  | .transient => l.transient
  | .persistent => l.persistent

/-- The lifetime with another number of references of a flavour. -/
def withCount (l : Lifetime τ) (n : Nat) : Flavour → Lifetime τ
  | .transient => { l with transient := n }
  | .persistent => { l with persistent := n }

/-- Whether no reference of either flavour is held. -/
def isUnreferenced (l : Lifetime τ) : Bool := l.transient == 0 && l.persistent == 0

/-- Takes a reference, unless the lifetime is over; says whether it was taken. -/
def acquire (l : Lifetime τ) (f : Flavour) : Bool × Lifetime τ :=
  if l.stale then (false, l) else (true, l.withCount (l.count f + 1) f)

/-- Ends the lifetime if nothing refers to the instrument any more, and hands out the waiting tasks if so. -/
def settle (l : Lifetime τ) : List τ × Lifetime τ :=
  if !l.stale && l.isUnreferenced then (l.pending, { l with stale := true, pending := [] })
  else ([], l)

/-- Gives a reference back; releasing one that is not held changes nothing. Says whether one was held, and hands out
the waiting tasks if it was the last. -/
def release (l : Lifetime τ) (f : Flavour) : Bool × List τ × Lifetime τ :=
  if l.count f = 0 then (false, [], l)
  else (true, (l.withCount (l.count f - 1) f).settle)

/-- Leaves a task for the end of the lifetime; if that is past, the task is handed out at once. -/
def await (l : Lifetime τ) (task : τ) : List τ × Lifetime τ :=
  if l.stale then ([task], l) else ([], { l with pending := l.pending ++ [task] })

/-- The lifetime with its counts. -/
def described (l : Lifetime τ) : String :=
  Text.record "StalenessHandler"
    [("transient", toString l.transient),
     ("persistent", toString l.persistent),
     ("stale", toString l.stale),
     ("callbacks", toString l.pending.length)]

end Lifetime

end Metering
