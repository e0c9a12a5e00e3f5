import Metering.Proofs.Accounts.Recount
import Metering.Proofs.Lifetimes.Run

/-!
# Descent of Systems

What survives of accounts when no instrument is made and no measurement is taken: a later system
descends from an earlier one when whatever is alive later was alive before, and every stream that
is still there recounts whatever it recounted before. Descent is reflexive and transitive, so it is
shown for each small operation and composed for the larger ones.
-/

namespace Metering

variable {α : Type}

/-- What does not change about an instrument. -/
def BuiltInstrument.ident (b : BuiltInstrument) :
    Nat × InstrumentKey × Option Nat × List (Nat × Nat) :=
  (b.provider, b.key, b.observer, b.streams)

namespace RegisteredStream

/-- The settings of a synchronous stream. -/
def settings? (rs : RegisteredStream α) : Option (StreamSettings α) :=
  match rs.source with
  | .synchronous s => some s.settings
  | .asynchronous _ _ => none

variable [Quantity α]

/-- Whether a stream is a synchronous one that recounts an account. -/
def Recounts (account : Account α) (rs : RegisteredStream α) : Prop :=
  ∃ s, rs.source = .synchronous s ∧ Metering.Recounts account s

/-- A later form of a stream: it has the same settings, and recounts what it did. -/
structure Continues (rs rs' : RegisteredStream α) : Prop where
  settings : rs'.settings? = rs.settings?
  recounts : ∀ account, rs.Recounts account → rs'.Recounts account

theorem Continues.refl (rs : RegisteredStream α) : Continues rs rs := ⟨rfl, fun _ h => h⟩

theorem Continues.trans {rs rs' rs'' : RegisteredStream α} (h : Continues rs rs')
    (k : Continues rs' rs'') : Continues rs rs'' :=
  ⟨k.settings.trans h.settings, fun account hrs => k.recounts account (h.recounts account hrs)⟩

/-- A collection continues every stream. -/
theorem continues_collected (rs : RegisteredStream α) (observed : Table Nat (Observations α))
    (time : Time) : Continues rs (rs.collected observed time) := by
  unfold RegisteredStream.collected
  cases hsource : rs.source with
  | asynchronous s observer =>
    -- An asynchronous stream recounts nothing.
    refine ⟨by simp [settings?, hsource], ?_⟩
    rintro account ⟨s', hs', -⟩
    rw [hsource] at hs'
    cases hs'
  | synchronous s =>
    refine ⟨by simp [settings?, hsource, SynchronousStream.collected], ?_⟩
    rintro account ⟨s', hs', hrecounts⟩
    rw [hsource] at hs'
    obtain rfl := Source.synchronous.inj hs'
    exact ⟨_, rfl, hrecounts.collected time⟩

end RegisteredStream

namespace System

variable [Quantity α] {sys sys' sys'' : System α}

/-- Nothing came to life, and every stream that is still there continues the one it was. -/
structure Descends (sys sys' : System α) : Prop where
  now : sys'.now = sys.now
  alive : ∀ (i : Nat) (b' : BuiltInstrument), sys'.instruments[i]? = some b' →
    b'.lifetime.stale = false →
      ∃ b, sys.instruments[i]? = some b ∧ b.lifetime.stale = false ∧ b.ident = b'.ident
  streams : ∀ s rs', streamAt sys'.readers s = some rs' →
    ∃ rs, streamAt sys.readers s = some rs ∧ rs.Continues rs'

namespace Descends

theorem refl (sys : System α) : Descends sys sys :=
  ⟨rfl, fun _ b hb halive => ⟨b, hb, halive, rfl⟩, fun _ rs hrs => ⟨rs, hrs, .refl rs⟩⟩

theorem trans (h : Descends sys sys') (k : Descends sys' sys'') : Descends sys sys'' := by
  refine ⟨k.now.trans h.now, ?_, ?_⟩
  · intro i b'' hb'' halive''
    obtain ⟨b', hb', halive', hident'⟩ := k.alive i b'' hb'' halive''
    obtain ⟨b, hb, halive, hident⟩ := h.alive i b' hb' halive'
    exact ⟨b, hb, halive, hident.trans hident'⟩
  · intro s rs'' hrs''
    obtain ⟨rs', hrs', hcontinues'⟩ := k.streams s rs'' hrs''
    obtain ⟨rs, hrs, hcontinues⟩ := h.streams s rs' hrs'
    exact ⟨rs, hrs, hcontinues.trans hcontinues'⟩

/-- A system with the same time, instruments and streams. -/
theorem of_eq (hnow : sys'.now = sys.now) (hinstruments : sys'.instruments = sys.instruments)
    (hstreams : ∀ s, streamAt sys'.readers s = streamAt sys.readers s) : Descends sys sys' := by
  refine ⟨hnow, ?_, ?_⟩
  · rw [hinstruments]
    exact (refl sys).alive
  · intro s rs hrs
    rw [hstreams] at hrs
    exact ⟨rs, hrs, .refl rs⟩

theorem write (sys : System α) (entries : List (JournalEntry α)) :
    Descends sys (sys.write entries) :=
  of_eq rfl rfl fun _ => rfl

theorem modifyProvider (sys : System α) (p : Nat) (f : Provider α → Provider α) :
    Descends sys (sys.modifyProvider p f) :=
  of_eq rfl rfl fun _ => rfl

theorem foldl {β : Type} {f : System α → β → System α} (h : ∀ sys x, Descends sys (f sys x))
    (xs : List β) (sys : System α) : Descends sys (xs.foldl f sys) :=
  List.foldlRecOn xs f (refl sys) fun _ hbefore x _ => hbefore.trans (h _ x)

/-! ## References -/

/-- A lifetime that does not revive can be put in the place of another. -/
theorem setLifetime {i : Nat} {l : Lifetime Nat}
    (h : ∀ b, sys.instruments[i]? = some b → l.stale = false → b.lifetime.stale = false) :
    Descends sys (sys.setLifetime i l) := by
  refine ⟨rfl, ?_, (refl sys).streams⟩
  intro j b' hb' halive'
  rcases getElem?_modify_cases hb' with ⟨rfl, b, hb, rfl⟩ | ⟨-, hb⟩
  · exact ⟨b, hb, h b hb halive', rfl⟩
  · exact ⟨b', hb, halive', rfl⟩

theorem acquire (sys : System α) (i : Nat) (f : Flavour) : Descends sys (sys.acquire i f).2 := by
  unfold System.acquire
  cases hb : sys.instruments[i]? with
  | none => exact refl sys
  | some b =>
    apply setLifetime
    intro x hx halive
    obtain rfl := Option.some.inj (hb.symm.trans hx)
    -- Granted or not, the request changes no more than a count.
    unfold Lifetime.acquire at halive
    split at halive
    · exact halive
    · simpa using halive

theorem relinquish (sys : System α) (i : Nat) (f : Flavour) :
    Descends sys (sys.relinquish i f).2 := by
  unfold System.relinquish
  cases hb : sys.instruments[i]? with
  | none => exact refl sys
  | some b =>
    apply setLifetime
    intro x hx halive
    obtain rfl := Option.some.inj (hb.symm.trans hx)
    -- A release may end a lifetime, but it revives none.
    unfold Lifetime.release Lifetime.settle at halive
    split at halive
    · exact halive
    · split at halive
      · cases halive
      · simpa using halive

theorem teardown (sys : System α) (i : Nat) : Descends sys (sys.teardown i) := by
  cases hb : sys.instruments[i]? with
  | none =>
    have hsame : sys.teardown i = sys := by simp [System.teardown, hb]
    rw [hsame]
    exact refl sys
  | some b =>
    -- Streams are taken away, and those that are left are as they were.
    rw [teardown_eq hb]
    refine ⟨rfl, (refl sys).alive, ?_⟩
    intro s rs hrs
    rw [streamAt_unregisterAll] at hrs
    split at hrs
    · cases hrs
    · exact ⟨rs, hrs, .refl rs⟩

theorem release (sys : System α) (i : Nat) (f : Flavour) : Descends sys (sys.release i f) :=
  (relinquish sys i f).trans (foldl teardown _ _)

/-! ## Handles and callbacks -/

theorem adopt (sys : System α) (i : Nat) : Descends sys (sys.adopt i).2 :=
  of_eq rfl rfl fun _ => rfl

theorem cloneHandle (sys : System α) (handle : Nat) : Descends sys (sys.cloneHandle handle).2 := by
  unfold System.cloneHandle
  split
  · exact refl sys
  · exact (acquire sys _ .transient).trans (adopt _ _)

theorem cloneHandles (sys : System α) (handles : List Nat) :
    Descends sys (sys.cloneHandles handles).2 := by
  induction handles generalizing sys with
  | nil => exact refl sys
  | cons handle rest ih => exact (cloneHandle sys handle).trans (ih _)

theorem dropHandle (sys : System α) (handle : Nat) : Descends sys (sys.dropHandle handle) := by
  unfold System.dropHandle
  split
  · exact refl sys
  · have herase : Descends sys { sys with handles := sys.handles.erase handle } :=
      of_eq rfl rfl fun _ => rfl
    exact herase.trans (release _ _ _)

theorem acquireAll (sys : System α) (is : List Nat) : Descends sys (sys.acquireAll is).2 := by
  induction is generalizing sys with
  | nil => exact refl sys
  | cons i rest ih => exact (acquire sys i .persistent).trans (ih _)

theorem registerCallback (sys : System α) (p : Nat) (feed : Feed) (is captured : List Nat) :
    Descends sys (sys.registerCallback p feed is captured).2 := by
  apply (acquireAll sys is).trans
  unfold System.registerCallback
  simp only
  split
  · exact (write _ _).trans (modifyProvider _ _ _)
  · exact modifyProvider _ _ _

theorem registerSingles (sys : System α) (p number i n : Nat) :
    Descends sys (sys.registerSingles p number i n).2 := by
  induction n generalizing sys with
  | zero => exact refl sys
  | succ n ih => exact (registerCallback sys p _ _ _).trans (ih _)

theorem register (sys : System α) (handle : Nat) : Descends sys (sys.register handle).2 := by
  unfold System.register
  split
  · split
    · exact registerCallback ..
    · exact refl sys
  · exact refl sys

theorem registerBatch (sys : System α) (p : Nat) (scope : Scope) (handles used : List Nat) :
    Descends sys (sys.registerBatch p scope handles used).2 := by
  unfold System.registerBatch
  split
  · exact refl sys
  · apply (modifyProvider sys p (·.withScope scope)).trans
    exact (cloneHandles _ used).trans (registerCallback ..)

theorem detach (sys : System α) (c : CallbackRef) : Descends sys (sys.detach c) := by
  unfold System.detach
  split
  · exact refl sys
  · refine (modifyProvider sys c.provider fun p =>
      { p with callbacks := p.callbacks.erase c.number }).trans ?_
    exact (foldl (fun sys i => release sys i .persistent) _ _).trans (foldl dropHandle _ _)

/-! ## Readers -/

/-- A change of a reader that keeps its streams. -/
theorem modifyReader {r : Nat} {f : Reader α → Reader α}
    (h : ∀ reader, (f reader).streams = reader.streams) : Descends sys (sys.modifyReader r f) :=
  of_eq rfl rfl fun s => streamAt_modify_of_eq (fun rd _ => h rd) s

theorem emptyReader (sys : System α) (r : Nat) :
    Descends sys (sys.modifyReader r fun reader => { reader with streams := Table.empty }) := by
  refine ⟨rfl, (refl sys).alive, ?_⟩
  intro s rs hrs
  have hrs : streamAt (sys.readers.modify r _) s = some rs := hrs
  rw [streamAt_modify] at hrs
  split at hrs
  · cases hreader : sys.readers[s.1]? <;> simp [hreader] at hrs
  · exact ⟨rs, hrs, .refl rs⟩

theorem exportPass {r : Nat} {reader : Reader α} (hr : sys.readers[r]? = some reader)
    (performances : List (List (Call × Performance α))) :
    Descends sys (sys.exportPass r reader performances).2 := by
  refine ⟨rfl, (refl sys).alive, ?_⟩
  intro s rs' hrs'
  have hrs' : streamAt (sys.readers.modify r _) s = some rs' := hrs'
  -- On its own reader a pass maps every stream to the collected one.
  rw [streamAt_mapValues (g := fun rs => rs.collected (observed (performances.map observationPass))
    sys.now)] at hrs'
  · split at hrs'
    · obtain ⟨rs, hrs, rfl⟩ := Option.map_eq_some_iff.mp hrs'
      exact ⟨rs, hrs, rs.continues_collected ..⟩
    · exact ⟨rs', hrs', .refl rs'⟩
  · intro rd hrd
    obtain rfl := Option.some.inj (hr.symm.trans hrd)
    rfl

section Passes

variable {σ : Type} (respond : Responder σ α) (known : σ)

theorem pass (sys : System α) (r : Nat) : Descends sys (sys.pass respond known r).2.2 := by
  unfold System.pass
  cases hr : sys.readers[r]? with
  | none => exact refl sys
  | some reader => exact exportPass hr _

theorem collect (sys : System α) (r : Nat) : Descends sys (sys.collect respond known r).2.2 := by
  unfold System.collect
  split
  · exact refl sys
  · exact pass ..

theorem flushReader (sys : System α) (r : Nat) :
    Descends sys (sys.flushReader respond known r).2.2 := by
  unfold System.flushReader
  split
  · exact refl sys
  · exact (pass respond known sys r).trans (write _ _)

theorem shutdownReader (sys : System α) (r : Nat) :
    Descends sys (sys.shutdownReader respond known r).2.2 := by
  unfold System.shutdownReader
  split
  · exact refl sys
  · apply (modifyReader (r := r) (f := fun reader => { reader with closed := true }) fun _ => rfl).trans
    apply (pass respond known _ r).trans
    exact (write _ [.call r .shutdown]).trans (emptyReader _ r)

theorem eachReader {act : σ → System α → Nat → Bool × σ × System α}
    (hact : ∀ known sys r, Descends sys (act known sys r).2.2) (sys : System α)
    (readers : List Nat) : Descends sys (System.eachReader act known sys readers).2.2 :=
  eachReader_induction known (fun r _ known _ h => h.trans (hact known _ r)) (refl sys)

theorem flush (sys : System α) (p : Nat) : Descends sys (sys.flush respond known p).2.2 := by
  unfold System.flush
  split
  · exact refl sys
  · split
    · exact refl sys
    · exact eachReader known (flushReader respond) sys _

theorem shutdown (sys : System α) (p : Nat) : Descends sys (sys.shutdown respond known p).2.2 := by
  unfold System.shutdown
  split
  · exact refl sys
  · split
    · exact refl sys
    · exact (modifyProvider sys p _).trans (eachReader known (shutdownReader respond) _ _)

end Passes

end Descends

/-! ## Recounted accounts -/

/-- Whether every one of some streams that is still there recounts an account. -/
def Recounted (sys : System α) (streams : List (Nat × Nat)) (account : Account α) : Prop :=
  ∀ s ∈ streams, ∀ rs, streamAt sys.readers s = some rs → rs.Recounts account

theorem Recounted.descend {streams : List (Nat × Nat)} {account : Account α}
    (h : sys.Recounted streams account) (hdescends : Descends sys sys') :
    sys'.Recounted streams account := by
  intro s hs rs' hrs'
  obtain ⟨rs, hrs, hcontinues⟩ := hdescends.streams s rs' hrs'
  exact hcontinues.recounts account (h s hs rs hrs)

end System

end Metering
