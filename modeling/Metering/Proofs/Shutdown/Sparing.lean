import Metering.Proofs.Steps.Basic

/-!
# What Exporters are Told

The calls that the exporter of one reader has received so far are read off the journal. A step that
may not close the reader tells its exporter nothing about an end; and when the reader is closed, it
tells it nothing at all and gives the reader no stream. What holds of one step holds of any number.
-/

namespace Metering

variable {α : Type}

/-- What an entry of the journal says to the exporter of a reader. -/
def JournalEntry.callTo? (r : Nat) : JournalEntry α → Option (ExporterCall α)
  | .call q said => if q = r then some said else none
  | .event _ => none

/-- All calls to the exporter of a reader, in their order. -/
def callsTo (r : Nat) (entries : List (JournalEntry α)) : List (ExporterCall α) :=
  entries.filterMap (·.callTo? r)

theorem callsTo_append (r : Nat) (xs ys : List (JournalEntry α)) :
    callsTo r (xs ++ ys) = callsTo r xs ++ callsTo r ys := List.filterMap_append

theorem callsTo_call (r : Nat) (call : ExporterCall α) : callsTo r [.call r call] = [call] := by
  simp [callsTo, JournalEntry.callTo?]

theorem callsTo_call_of_ne {r q : Nat} (h : q ≠ r) (call : ExporterCall α) :
    callsTo r [.call q call] = [] := by
  simp [callsTo, JournalEntry.callTo?, h]

theorem callsTo_events (r : Nat) (events : List (Event α)) :
    callsTo r (events.map .event) = [] := by
  induction events with
  | nil => rfl
  | cons event rest ih => exact (List.filterMap_cons_none rfl).trans ih

theorem mem_callsTo {r : Nat} {entries : List (JournalEntry α)} {call : ExporterCall α}
    (h : call ∈ callsTo r entries) : .call r call ∈ entries := by
  obtain ⟨entry, hentry, hcall⟩ := List.mem_filterMap.mp h
  cases entry with
  | event _ => cases hcall
  | call q c =>
    simp only [JournalEntry.callTo?] at hcall
    split at hcall
    · rename_i hq
      subst hq
      obtain rfl := Option.some.inj hcall
      exact hentry
    · cases hcall

/-! ## Readers that persist -/

/-- What becomes of a reader that may be closed or not: once closed it stays closed, and without
streams it stays without. -/
structure Reader.Persists (mayClose : Prop) (before after : Reader α) : Prop where
  closed : before.closed = true → after.closed = true
  running : after.closed = true → before.closed = true ∨ mayClose
  vacant : before.closed = true → before.streams.entries = [] → after.streams.entries = []

namespace Reader.Persists

variable {mayClose : Prop} {before after after' : Reader α}

theorem refl (reader : Reader α) : Persists mayClose reader reader :=
  ⟨id, .inl, fun _ h => h⟩

theorem trans (h : Persists mayClose before after) (k : Persists mayClose after after') :
    Persists mayClose before after' :=
  ⟨fun hclosed => k.closed (h.closed hclosed),
    fun hclosed => (k.running hclosed).elim h.running .inr,
    fun hclosed hvacant => k.vacant (h.closed hclosed) (h.vacant hclosed hvacant)⟩

/-- A reader whose flag stays and whose streams are among those that it had. -/
theorem of_subset (hclosed : after.closed = before.closed)
    (hstreams : after.streams.entries.Sublist before.streams.entries) :
    Persists mayClose before after :=
  ⟨fun h => hclosed.trans h, fun h => .inl (hclosed ▸ h),
    fun _ h => List.sublist_nil.mp (h ▸ hstreams)⟩

/-- A reader whose flag stays and whose streams are changed one by one. -/
theorem of_length_eq (hclosed : after.closed = before.closed)
    (hstreams : after.streams.entries.length = before.streams.entries.length) :
    Persists mayClose before after :=
  ⟨fun h => hclosed.trans h, fun h => .inl (hclosed ▸ h),
    fun _ h => List.length_eq_zero_iff.mp (hstreams.trans (List.length_eq_zero_iff.mpr h))⟩

/-- A closed reader takes no stream. -/
theorem register (reader : Reader α) (s : RegisteredStream α) :
    Persists mayClose reader (reader.register s).2 := by
  unfold Reader.register
  split
  · exact refl reader
  · rename_i hopen
    exact ⟨id, .inl, fun hclosed => absurd hclosed hopen⟩

end Reader.Persists

namespace System

variable {sys sys' sys'' : System α} {mayClose : Nat → Prop}

/-! ## Systems whose readers persist -/

/-- Whether every reader of a system persists in a later one. -/
def Persisting (mayClose : Nat → Prop) (sys sys' : System α) : Prop :=
  Pointwise (fun r => Reader.Persists (mayClose r)) sys.readers sys'.readers

namespace Persisting

theorem of_readers_eq (h : sys'.readers = sys.readers) : Persisting mayClose sys sys' :=
  Pointwise.of_eq (fun _ reader => .refl reader) h

theorem trans (h : Persisting mayClose sys sys') (k : Persisting mayClose sys' sys'') :
    Persisting mayClose sys sys'' :=
  Pointwise.trans (fun _ _ _ _ => .trans) h k

theorem modifyReader (sys : System α) (r : Nat) {f : Reader α → Reader α}
    (h : ∀ reader, Reader.Persists (mayClose r) reader (f reader)) :
    Persisting mayClose sys (sys.modifyReader r f) :=
  Pointwise.modify (fun _ reader => .refl reader) sys.readers r h

theorem foldl {β : Type} {f : System α → β → System α}
    (h : ∀ sys x, Persisting mayClose sys (f sys x)) (xs : List β) (sys : System α) :
    Persisting mayClose sys (xs.foldl f sys) :=
  List.foldlRecOn xs f (of_readers_eq rfl) fun _ hbefore x _ => hbefore.trans (h _ x)

theorem acquire (sys : System α) (i : Nat) (f : Flavour) :
    Persisting mayClose sys (sys.acquire i f).2 := by
  unfold System.acquire
  split <;> exact of_readers_eq rfl

theorem teardown (sys : System α) (i : Nat) : Persisting mayClose sys (sys.teardown i) := by
  unfold System.teardown
  split
  · exact of_readers_eq rfl
  · rename_i b _
    have huncached : Persisting mayClose sys (sys.modifyProvider b.provider fun p => p.uncache b.key i) :=
      of_readers_eq rfl
    -- The streams of the instrument go one by one, each from its reader.
    refine huncached.trans (foldl (fun sys (s : Nat × Nat) => modifyReader sys s.1 ?_) _ _)
    exact fun reader => .of_subset rfl (reader.sheds_unregister s.2).streams

theorem release (sys : System α) (i : Nat) (f : Flavour) :
    Persisting mayClose sys (sys.release i f) := by
  have hrelinquish : Persisting mayClose sys (sys.relinquish i f).2 := by
    unfold System.relinquish
    split <;> exact of_readers_eq rfl
  exact hrelinquish.trans (foldl teardown _ _)

theorem clearReaders (sys : System α) : Persisting mayClose sys sys.clearReaders :=
  fun r => Sheds.rel_clearReaders .refl (fun reader => .of_subset rfl reader.sheds_emptied.streams) sys r

theorem openStreams (sys : System α) (resource : Resource) (scope : Scope)
    (observer : Option ObserverRef) (plans : List (StreamPlan α)) :
    Persisting mayClose sys (sys.openStreams resource scope observer plans).2 := by
  induction plans generalizing sys with
  | nil => exact of_readers_eq rfl
  | cons plan rest ih =>
    exact (modifyReader sys plan.reader fun reader => .register reader _).trans (ih _)

variable [Quantity α]

theorem writeTo (sys : System α) (value : α) (attributes : Attributes) (draw : Nat → Nat)
    (streams : List (Nat × Nat)) :
    Persisting mayClose sys (sys.writeTo value attributes draw streams) := by
  refine foldl (fun sys (s : (Nat × Nat) × Nat) => modifyReader sys s.1.1 fun reader => ?_) _ sys
  exact .of_length_eq rfl (List.length_map ..)

theorem exportPass (sys : System α) (r : Nat) (reader : Reader α)
    (performances : List (List (Call × Performance α))) :
    Persisting mayClose sys (sys.exportPass r reader performances).2 := by
  refine Pointwise.modify (fun _ reader => .refl reader) sys.readers r ?_
  exact fun _ => .of_length_eq rfl (List.length_map ..)

end Persisting

variable [Quantity α] {ends : Endings} {r : Nat}

/-- Every step lets readers persist. -/
theorem Step.persisting (h : Step ends sys sys') : Persisting ends.readers sys sys' := by
  cases h with
  | clock | hold | note | provider | quit => exact .of_readers_eq rfl
  | reader r same =>
    refine .modifyReader sys r fun reader => .of_subset (congrArg (·.2.2) (same reader)) ?_
    have hstreams : _ = reader.streams.entries := congrArg (·.1.entries) (same reader)
    exact hstreams ▸ .refl _
  | acquire i f => exact .acquire sys i f
  | release i f => exact .release sys i f
  | clear => exact .clearReaders sys
  | build => exact .trans (.openStreams sys _ _ _ _) (.of_readers_eq rfl)
  | record => exact .writeTo sys _ _ _ _
  | pass => exact .exportPass sys _ _ _
  | close r allowed =>
    exact .modifyReader sys r fun _ => ⟨fun _ => rfl, fun _ => .inr allowed, fun _ h => h⟩
  | finish r =>
    exact .trans (.of_readers_eq rfl : Persisting _ sys (sys.write [.call r .shutdown]))
      (.modifyReader _ r fun reader => .of_subset rfl reader.sheds_emptied.streams)

theorem Steps.persisting (h : Steps ends sys sys') : Persisting ends.readers sys sys' := by
  induction h with
  | refl => exact .of_readers_eq rfl
  | tail _ hstep ih => exact ih.trans hstep.persisting

/-! ## What is said on the way -/

/-- Between two systems a reader's exporter hears of no end, and nothing if the reader was
closed. -/
def Spares (r : Nat) (sys sys' : System α) : Prop :=
  ∃ more, callsTo r sys'.journal = callsTo r sys.journal ++ more ∧ .shutdown ∉ more ∧
    (sys.isClosed r = true → more = [])

namespace Spares

omit [Quantity α] in
theorem of_journal_eq (h : sys'.journal = sys.journal) : Spares r sys sys' :=
  ⟨[], by rw [h, List.append_nil], List.not_mem_nil, fun _ => rfl⟩

omit [Quantity α] in
theorem trans (h : Spares r sys sys') (hclosed : sys.isClosed r = true → sys'.isClosed r = true)
    (k : Spares r sys' sys'') : Spares r sys sys'' := by
  obtain ⟨xs, hxs, hxs', hxs''⟩ := h
  obtain ⟨ys, hys, hys', hys''⟩ := k
  refine ⟨xs ++ ys, ?_, ?_, fun hr => ?_⟩
  · rw [hys, hxs, List.append_assoc]
  · exact fun hmem => (List.mem_append.mp hmem).elim hxs' hys'
  · rw [hxs'' hr, hys'' (hclosed hr)]
    rfl

omit [Quantity α] in
theorem write {entries : List (JournalEntry α)} (h : ∀ entry ∈ entries, sys.MayNote entry) :
    Spares r sys (sys.write entries) := by
  refine ⟨callsTo r entries, callsTo_append .., fun hmem => ?_, fun hclosed => ?_⟩
  · obtain ⟨-, hasks | hflush⟩ := h _ (mem_callsTo hmem)
    · cases hasks
    · cases hflush
  · -- Only an open reader's exporter is called.
    refine List.eq_nil_iff_forall_not_mem.mpr fun call hcall => ?_
    have hopen := (h _ (mem_callsTo hcall)).1
    rw [hclosed] at hopen
    cases hopen

end Spares

omit [Quantity α] in
theorem journal_acquire (sys : System α) (i : Nat) (f : Flavour) :
    (sys.acquire i f).2.journal = sys.journal := by
  unfold System.acquire
  split <;> rfl

omit [Quantity α] in
theorem journal_foldl {β : Type} {f : System α → β → System α}
    (h : ∀ sys x, (f sys x).journal = sys.journal) (xs : List β) (sys : System α) :
    (xs.foldl f sys).journal = sys.journal :=
  List.foldlRecOn (motive := fun after => after.journal = sys.journal) xs f rfl
    fun _ hbefore x _ => (h _ x).trans hbefore

omit [Quantity α] in
theorem journal_release (sys : System α) (i : Nat) (f : Flavour) :
    (sys.release i f).journal = sys.journal := by
  have hrelinquish : (sys.relinquish i f).2.journal = sys.journal := by
    unfold System.relinquish
    split <;> rfl
  refine (journal_foldl (fun sys j => ?_) _ _).trans hrelinquish
  unfold System.teardown
  split
  · rfl
  · rename_i b _
    let uncached := sys.modifyProvider b.provider fun p => p.uncache b.key j
    refine journal_foldl ?_ b.streams uncached
    exact fun _ _ => rfl

/-- A pass says one thing to the exporter of its reader: it hands over the batch. -/
theorem callsTo_exportPass (sys : System α) (q : Nat) (reader : Reader α)
    (performances : List (List (Call × Performance α))) (r : Nat) :
    callsTo r (sys.exportPass q reader performances).2.journal = callsTo r sys.journal ++
      if q = r then
        [.deliver (reader.batch (observed (performances.map observationPass)) sys.now)]
      else [] := by
  show callsTo r (sys.journal ++ (_ ++ _ ++ _ ++ _)) = _
  -- What the log says about calls, a refusal and failures goes to no exporter.
  rw [callsTo_append, callsTo_append, callsTo_append, callsTo_append, ← List.map_flatMap,
    callsTo_events, List.nil_append]
  refine congrArg (callsTo r sys.journal ++ ·) ?_
  have hcall (call : ExporterCall α) :
      callsTo r [.call q call] = if q = r then [call] else [] := by
    split
    · rename_i hq
      exact hq ▸ callsTo_call q call
    · rename_i hq
      exact callsTo_call_of_ne hq call
  rw [hcall]
  split <;> split <;> simp [callsTo, JournalEntry.callTo?]

/-- A step that may not close a reader spares it. -/
theorem Step.spares (h : Step ends sys sys') (hr : ¬ends.readers r) : Spares r sys sys' := by
  cases h with
  | clock | hold | provider | reader | clear | build | close | quit => exact .of_journal_eq rfl
  | note may => exact .write may
  | acquire i f => exact .of_journal_eq (journal_acquire sys i f)
  | release i f => exact .of_journal_eq (journal_release sys i f)
  | record => exact .of_journal_eq (congrArg (·.journal) (writeTo_eq sys _ _ _ _))
  | @pass q reader found running performances =>
    have hcalls := callsTo_exportPass sys q reader performances r
    by_cases hq : q = r
    · subst hq
      rw [if_pos rfl] at hcalls
      refine ⟨_, hcalls, by simp, fun hclosed => ?_⟩
      -- The reader may not be closed on the way, so it is open when it is collected.
      have hopen : reader.closed = false := running.resolve_right hr
      simp [isClosed, found, hopen] at hclosed
    · rw [if_neg hq] at hcalls
      exact ⟨[], hcalls, List.not_mem_nil, fun _ => rfl⟩
  | finish q allowed =>
    have hq : q ≠ r := fun hq => hr (hq ▸ allowed)
    refine ⟨[], ?_, List.not_mem_nil, fun _ => rfl⟩
    exact (callsTo_append r sys.journal [.call q .shutdown]).trans
      (congrArg (callsTo r sys.journal ++ ·) (callsTo_call_of_ne hq _))

omit [Quantity α] in
theorem Persisting.isClosed (h : Persisting mayClose sys sys') (hclosed : sys.isClosed r = true) :
    sys'.isClosed r = true := by
  unfold System.isClosed at hclosed ⊢
  cases hr' : sys'.readers[r]? with
  | none => rfl
  | some after =>
    obtain ⟨before, hbefore, hpersists⟩ := exists_of_rel_some (hr' ▸ h r)
    rw [hbefore] at hclosed
    exact hpersists.closed hclosed

/-- Steps that may not close a reader spare it, by induction on their number. -/
theorem Steps.spares (h : Steps ends sys sys') (hr : ¬ends.readers r) : Spares r sys sys' := by
  induction h with
  | refl => exact .of_journal_eq rfl
  | tail hsteps hstep ih => exact ih.trans (Steps.persisting hsteps).isClosed (hstep.spares hr)

end System

end Metering
