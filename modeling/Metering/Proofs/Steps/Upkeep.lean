import Mathlib.Logic.Relation
import Metering.Proofs.Requests.Questions

/-!
# Upkeep

Much of what a command does has no part in measuring or collecting: the clock is set, handles are
made and dropped, callbacks come and go, references are taken and given back, and what nothing keeps
is let go. Such work is a sequence of small steps that leave alone what every reader and every
provider holds, but for the references that come to an end.

What may come to an end on the way is a parameter, so that the steps of a command that ends nothing
can be told from those of a shutdown.
-/

namespace Metering

variable {α : Type}

/-- What may come to an end. -/
structure Endings where
  /-- The readers that may be closed. -/
  readers : Nat → Prop
  /-- The providers that may be closed. -/
  providers : Nat → Prop
  /-- Whether references may be given back, and readers that nothing keeps be emptied. -/
  release : Prop

/-- Nothing comes to an end. -/
def Endings.none : Endings := ⟨fun _ => False, fun _ => False, False⟩

/-- Anything may come to an end. -/
def Endings.all : Endings := ⟨fun _ => True, fun _ => True, True⟩

/-- What of a provider only changes when an instrument is built or torn down, or when the provider
is closed. -/
def Provider.holdings (p : Provider α) : Resource × List Nat × Table InstrumentKey Nat × Nat × Bool :=
  (p.resource, p.readers, p.cache, p.nextObserver, p.closed)

theorem Provider.holdings_withScope (p : Provider α) (scope : Scope) :
    (p.withScope scope).holdings = p.holdings := by
  unfold Provider.withScope
  split <;> rfl

theorem Provider.views_withScope (p : Provider α) (scope : Scope) :
    (p.withScope scope).views = p.views := by
  unfold Provider.withScope
  split <;> rfl

/-- What of a reader only changes with its streams, or when the reader is closed. -/
def Reader.holdings (r : Reader α) : Table Nat (RegisteredStream α) × Nat × Bool :=
  (r.streams, r.nextStream, r.closed)

namespace System

/-- Whether an entry of the journal is an event, or a question or a flush that goes to an open
reader's exporter. -/
def MayNote (sys : System α) : JournalEntry α → Prop
  | .event _ => True
  | .call r call => sys.isClosed r = false ∧ (call.asks = true ∨ call = .flush)

variable {ends : Endings} {sys sys' sys'' : System α}

/-- A small change of a system that no stream has a part in, unless it goes. -/
inductive Upkeep (ends : Endings) : System α → System α → Prop
  | clock (sys : System α) (time : Time) : Upkeep ends sys { sys with now := time }
  | hold (sys : System α) (handles : Table Nat Nat) (nextHandle : Nat) :
      Upkeep ends sys { sys with handles, nextHandle }
  | note (sys : System α) {entries : List (JournalEntry α)} (may : ∀ entry ∈ entries, sys.MayNote entry) :
      Upkeep ends sys (sys.write entries)
  | provider (sys : System α) (p : Nat) {f : Provider α → Provider α}
      (same : ∀ provider, (f provider).holdings = provider.holdings)
      (views : ∀ provider, (f provider).views = provider.views) :
      Upkeep ends sys (sys.modifyProvider p f)
  | reader (sys : System α) (r : Nat) {f : Reader α → Reader α}
      (same : ∀ reader, (f reader).holdings = reader.holdings) :
      Upkeep ends sys (sys.modifyReader r f)
  | acquire (sys : System α) (i : Nat) (f : Flavour) : Upkeep ends sys (sys.acquire i f).2
  | release (sys : System α) (i : Nat) (f : Flavour) (allowed : ends.release) :
      Upkeep ends sys (sys.release i f)
  | clear (sys : System α) (allowed : ends.release) : Upkeep ends sys sys.clearReaders

/-- Any amount of upkeep. -/
abbrev Upkeeps (ends : Endings) : System α → System α → Prop := Relation.ReflTransGen (Upkeep ends)

namespace Upkeeps

theorem refl (sys : System α) : Upkeeps ends sys sys := Relation.ReflTransGen.refl

theorem foldl {β : Type} {f : System α → β → System α} (h : ∀ sys x, Upkeeps ends sys (f sys x))
    (xs : List β) (sys : System α) : Upkeeps ends sys (xs.foldl f sys) :=
  List.foldlRecOn xs f (refl sys) fun _ hbefore x _ => hbefore.trans (h _ x)

theorem note_event (sys : System α) (event : Event α) : Upkeeps ends sys (sys.write [.event event]) := by
  refine .single (.note sys fun entry hentry => ?_)
  obtain rfl := List.mem_singleton.mp hentry
  trivial

theorem withScope (sys : System α) (p : Nat) (scope : Scope) :
    Upkeeps ends sys (sys.modifyProvider p (·.withScope scope)) :=
  .single (.provider sys p (fun provider => provider.holdings_withScope scope)
    fun provider => provider.views_withScope scope)

/-! ## Handles -/

theorem adopt (sys : System α) (i : Nat) : Upkeeps ends sys (sys.adopt i).2 :=
  .single (.hold sys _ _)

theorem cloneHandle (sys : System α) (handle : Nat) :
    Upkeeps ends sys (sys.cloneHandle handle).2 := by
  unfold System.cloneHandle
  split
  · exact refl sys
  · exact (Relation.ReflTransGen.single (.acquire sys _ .transient)).trans (adopt _ _)

theorem cloneHandles (sys : System α) (handles : List Nat) :
    Upkeeps ends sys (sys.cloneHandles handles).2 := by
  induction handles generalizing sys with
  | nil => exact refl sys
  | cons handle rest ih => exact (cloneHandle sys handle).trans (ih _)

theorem dropHandle (allowed : ends.release) (sys : System α) (handle : Nat) :
    Upkeeps ends sys (sys.dropHandle handle) := by
  unfold System.dropHandle
  split
  · exact refl sys
  · rename_i i _
    exact (Relation.ReflTransGen.single (.hold sys (sys.handles.erase handle) sys.nextHandle)).tail
      (.release _ i .transient allowed)

/-! ## Callbacks -/

theorem acquireAll (sys : System α) (is : List Nat) : Upkeeps ends sys (sys.acquireAll is).2 := by
  induction is generalizing sys with
  | nil => exact refl sys
  | cons i rest ih => exact .head (.acquire sys i .persistent) (ih _)

theorem registerCallback (sys : System α) (p : Nat) (feed : Feed) (is captured : List Nat) :
    Upkeeps ends sys (sys.registerCallback p feed is captured).2 := by
  apply (acquireAll sys is).trans
  unfold System.registerCallback
  simp only
  split
  · exact (note_event _ _).tail (.provider _ p (fun _ => rfl) fun _ => rfl)
  · exact .single (.provider _ p (fun _ => rfl) fun _ => rfl)

theorem registerSingles (sys : System α) (p number i n : Nat) :
    Upkeeps ends sys (sys.registerSingles p number i n).2 := by
  induction n generalizing sys with
  | zero => exact refl sys
  | succ n ih => exact (registerCallback sys p _ _ _).trans (ih _)

theorem register (sys : System α) (handle : Nat) : Upkeeps ends sys (sys.register handle).2 := by
  unfold System.register
  split
  · split
    · exact registerCallback ..
    · exact refl sys
  · exact refl sys

theorem registerBatch (sys : System α) (p : Nat) (scope : Scope) (handles used : List Nat) :
    Upkeeps ends sys (sys.registerBatch p scope handles used).2 := by
  unfold System.registerBatch
  split
  · exact refl sys
  · exact (withScope sys p scope).trans ((cloneHandles _ used).trans (registerCallback ..))

theorem detach (allowed : ends.release) (sys : System α) (c : CallbackRef) :
    Upkeeps ends sys (sys.detach c) := by
  unfold System.detach
  split
  · exact refl sys
  · refine .head (.provider sys c.provider (f := fun p =>
      { p with callbacks := p.callbacks.erase c.number }) (fun _ => rfl) fun _ => rfl) ?_
    have hrelease (sys : System α) (i : Nat) : Upkeeps ends sys (sys.release i .persistent) :=
      .single (.release sys i .persistent allowed)
    exact (foldl hrelease _ _).trans (foldl (dropHandle allowed) _ _)

/-! ## What is let go -/

theorem clearCallbacks (allowed : ends.release) (sys : System α) (n : Nat) :
    Upkeeps ends sys (sys.clearCallbacks n) := by
  induction n generalizing sys with
  | zero => exact refl sys
  | succ n ih =>
    unfold System.clearCallbacks
    split
    · exact refl sys
    · rename_i p _ _
      refine .head (.provider sys p (f := fun provider =>
        { provider with callbacks := Table.empty }) (fun _ => rfl) fun _ => rfl) ?_
      exact (foldl (dropHandle allowed) _ _).trans (ih _)

theorem reclaim (allowed : ends.release) (sys : System α) : Upkeeps ends sys sys.reclaim := by
  unfold System.reclaim
  split
  · exact refl sys
  · exact .head (.clear sys allowed) (clearCallbacks allowed _ _)

theorem dropProvider (allowed : ends.release) (sys : System α) (p : Nat) :
    Upkeeps ends sys (sys.dropProvider p) :=
  .head (.provider sys p (f := fun provider => { provider with held := false }) (fun _ => rfl) fun _ => rfl)
    (reclaim allowed _)

theorem dropReader (allowed : ends.release) (sys : System α) (r : Nat) :
    Upkeeps ends sys (sys.dropReader r) :=
  .head (.reader sys r (f := fun reader => { reader with held := false }) fun _ => rfl)
    (reclaim allowed _)

end Upkeeps

end System

end Metering
