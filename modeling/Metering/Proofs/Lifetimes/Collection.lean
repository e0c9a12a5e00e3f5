import Metering.Proofs.Lifetimes.Creation

/-!
# Measuring and Collecting

Measurements and collections change what streams hold, never which streams there are: they leave
the frame alone. The one exception is the end of a reader, which empties its registry for good and
leaves every instrument with the streams that it was built with.

While every provider is held there is nothing to reclaim.
-/

namespace Metering.System

variable {α : Type} {sys : System α} {r : Nat}

/-! ## Readers that end -/

theorem Balanced.withReaders {claims : Claims} {readers : List (Reader α)}
    (h : Balanced sys claims) (hr : Registered readers sys.builtStreams sys.liveStreams) :
    Balanced { sys with readers := readers } claims :=
  ⟨h.counts, h.stale_iff, h.waiting, ⟨h.housed.owned, h.housed.cached, hr⟩⟩

/-- A reader that is closed and emptied at once. -/
theorem Coherent.closeReader (h : Coherent sys) (r : Nat) :
    Coherent (sys.modifyReader r fun reader =>
      { reader with closed := true, streams := Table.empty }) := by
  have hregistered := h.balanced.housed.registered.close r
    (f := fun reader => { reader with closed := true, streams := Table.empty }) fun _ => rfl
  exact ⟨h.balanced.withReaders hregistered, h.formed⟩

/-- Emptying a reader is a change that outlines follow. -/
theorem frame_emptyReader (sys : System α) (r : Nat) :
    (sys.modifyReader r fun reader => { reader with streams := Table.empty }).frame =
      (sys.frame.1, sys.frame.2.1, sys.frame.2.2.1.modify r fun x => ([], x.2), sys.frame.2.2.2) := by
  have houtlines : (sys.readers.modify r fun reader => { reader with streams := Table.empty }).map
      (·.outline) = (sys.readers.map (·.outline)).modify r fun x => ([], x.2) :=
    map_modify_comm fun _ => rfl
  simp only [frame, modifyReader, roster]
  rw [houtlines]

/-! ## Nothing to reclaim -/

theorem reclaim_eq (h : sys.roster.Formed) : sys.reclaim = sys := by
  have hheld : sys.providers.all (·.held) = true := by
    apply List.all_eq_true.mpr
    intro provider hprovider
    exact h.held _ (List.mem_map_of_mem hprovider)
  rw [reclaim, if_pos hheld]

theorem Coherent.reclaim (h : Coherent sys) : Coherent sys.reclaim := by
  rw [reclaim_eq h.formed]
  exact h

/-- A reader that the program lets go of lives on with the providers. -/
theorem Coherent.dropReader (h : Coherent sys) (r : Nat) : Coherent (sys.dropReader r) := by
  refine Coherent.reclaim (h.of_frame_eq (frame_modifyReader fun _ => ?_))
  rfl

/-! ## Measuring -/

variable [Quantity α]

theorem outline_record (reader : Reader α) (stream draw : Nat) (value : α) (attributes : Attributes)
    (time : Time) : (reader.record stream draw value attributes time).outline = reader.outline := by
  simp [Reader.record, Reader.outline]

theorem frame_writeTo (sys : System α) (value : α) (attributes : Attributes) (draw : Nat → Nat)
    (streams : List (Nat × Nat)) :
    (sys.writeTo value attributes draw streams).frame = sys.frame := by
  unfold writeTo
  induction streams.zipIdx generalizing sys with
  | nil => rfl
  | cons s rest ih =>
    refine (ih _).trans (frame_modifyReader fun reader => ?_)
    exact outline_record reader ..

theorem frame_record (handle : Nat) (value : α) (attributes : List Attribute) (draw : Nat → Nat) :
    (sys.record handle value attributes draw).frame = sys.frame := by
  unfold record
  split
  · rfl
  · split
    · rfl
    · exact frame_writeTo ..

/-! ## Collecting -/

theorem outline_collected (reader : Reader α) (observed : Table Nat (Observations α)) (time : Time) :
    (reader.collected observed time).outline = reader.outline := by
  simp [Reader.collected, Reader.outline]

theorem frame_exportPass {reader : Reader α} (hr : sys.readers[r]? = some reader)
    (performances : List (List (Call × Performance α))) :
    (sys.exportPass r reader performances).2.frame = sys.frame := by
  simp only [exportPass, frame_write]
  simp only [frame, modifyReader, roster]
  rw [map_modify_of_eq]
  -- The reader is replaced by what it is after the collection.
  intro x hx
  obtain rfl := Option.some.inj (hx.symm.trans hr)
  exact outline_collected x ..

section Passes

variable {σ : Type} (respond : Responder σ α) (known : σ)

theorem frame_pass (sys : System α) (r : Nat) :
    (sys.pass respond known r).2.2.frame = sys.frame := by
  unfold pass
  cases hr : sys.readers[r]? with
  | none => rfl
  | some reader => exact frame_exportPass hr _

theorem frame_collect (sys : System α) (r : Nat) :
    (sys.collect respond known r).2.2.frame = sys.frame := by
  unfold collect
  split
  · rfl
  · exact frame_pass ..

theorem frame_flushReader (sys : System α) (r : Nat) :
    (sys.flushReader respond known r).2.2.frame = sys.frame := by
  unfold flushReader
  split
  · rfl
  · exact frame_pass ..

/-- The last pass of a reader happens between its closing and its emptying, and sees the same
outlines, so its end shows as a reader that was closed and emptied at once. -/
theorem frame_shutdownReader {r : Nat} (hopen : sys.isClosed r = false) :
    (sys.shutdownReader respond known r).2.2.frame =
      (sys.modifyReader r fun reader =>
        { reader with closed := true, streams := Table.empty }).frame := by
  let closed := sys.modifyReader r fun reader => { reader with closed := true }
  let passed := (closed.pass respond known r).2.2
  have hpassed : passed.frame = closed.frame := frame_pass respond known closed r
  have hsplit : (sys.modifyReader r fun reader =>
        { reader with closed := true, streams := Table.empty }) =
      closed.modifyReader r fun reader => { reader with streams := Table.empty } := by
    simp only [closed, modifyReader, List.modify_modify_eq]
    rfl
  simp only [System.shutdownReader, hopen, Bool.false_eq_true, if_false]
  -- The pass changes no outline, so closing and emptying can be made in one.
  rw [hsplit, frame_emptyReader closed, ← hpassed]
  exact frame_emptyReader (passed.write [.call r .shutdown]) r

theorem Coherent.shutdownReader (h : Coherent sys) (r : Nat) :
    Coherent (sys.shutdownReader respond known r).2.2 := by
  cases hclosed : sys.isClosed r with
  | true =>
    have hsame : (sys.shutdownReader respond known r).2.2 = sys := by
      simp [System.shutdownReader, hclosed]
    rw [hsame]
    exact h
  | false => exact (h.closeReader r).of_frame_eq (frame_shutdownReader respond known hclosed)

omit [Quantity α] in
/-- What is kept by what is done with each reader is kept by the whole, by induction on the readers. -/
theorem eachReader_induction {motive : System α → Prop} {act : σ → System α → Nat → Bool × σ × System α}
    {readers : List Nat}
    (hact : ∀ r ∈ readers, ∀ known sys, motive sys → motive (act known sys r).2.2) (h : motive sys) :
    motive (System.eachReader act known sys readers).2.2 := by
  induction readers generalizing sys known with
  | nil => exact h
  | cons r rest ih =>
    have hfirst := hact r (List.mem_cons_self ..) known sys h
    exact ih _ (fun q hq => hact q (List.mem_cons_of_mem _ hq)) hfirst

omit [Quantity α] in
theorem Coherent.eachReader {act : σ → System α → Nat → Bool × σ × System α}
    (hact : ∀ known sys r, Coherent sys → Coherent (act known sys r).2.2) (h : Coherent sys)
    (readers : List Nat) : Coherent (System.eachReader act known sys readers).2.2 :=
  eachReader_induction known (fun r _ known sys => hact known sys r) h

theorem Coherent.flush (h : Coherent sys) (p : Nat) : Coherent (sys.flush respond known p).2.2 := by
  unfold System.flush
  split
  · exact h
  · split
    · exact h
    · refine h.eachReader known (fun known sys r hsys => ?_) _
      exact hsys.of_frame_eq (frame_flushReader respond known sys r)

theorem Coherent.shutdown (h : Coherent sys) (p : Nat) :
    Coherent (sys.shutdown respond known p).2.2 := by
  unfold System.shutdown
  split
  · exact h
  · split
    · exact h
    · have hclosed : Coherent (sys.modifyProvider p fun provider => { provider with closed := true }) :=
        h.of_frame_eq (frame_closeProvider p)
      refine hclosed.eachReader known (fun known sys r hsys => ?_) _
      exact hsys.shutdownReader respond known r

end Passes

end Metering.System
