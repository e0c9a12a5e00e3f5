import Metering.Proofs.Parallel.Sight
import Metering.System.Command

/-!
# Systems that Agree about a Reader

Two systems agree about a reader when they differ in nothing but their journals and what does not
count about readers for it. Every operation leads to systems that agree, with the same result,
whatever the draws for reservoirs; and a pass of another reader leads to a system that agrees with
the one before.
-/

namespace Metering

variable {α : Type}

namespace System

variable {sys sys' sys'' : System α} {a : Nat}

/-- Whether two systems differ in nothing that counts for a reader. -/
structure Agree (a : Nat) (sys sys' : System α) : Prop where
  rest : sys' = { sys with readers := sys'.readers, journal := sys'.journal }
  readers : ∀ r : Nat, sys'.readers[r]?.map (·.seen (r == a)) = sys.readers[r]?.map (·.seen (r == a))

namespace Agree

theorem refl (sys : System α) : Agree a sys sys := ⟨rfl, fun _ => rfl⟩

theorem symm (h : Agree a sys sys') : Agree a sys' sys := by
  refine ⟨?_, fun r => (h.readers r).symm⟩
  rw [h.rest]

theorem trans (h : Agree a sys sys') (k : Agree a sys' sys'') : Agree a sys sys'' := by
  refine ⟨?_, fun r => (k.readers r).trans (h.readers r)⟩
  rw [k.rest, h.rest]

theorem now (h : Agree a sys sys') : sys'.now = sys.now := congrArg (·.now) h.rest

theorem providers (h : Agree a sys sys') : sys'.providers = sys.providers :=
  congrArg (·.providers) h.rest

theorem instruments (h : Agree a sys sys') : sys'.instruments = sys.instruments :=
  congrArg (·.instruments) h.rest

theorem handles (h : Agree a sys sys') : sys'.handles = sys.handles := congrArg (·.handles) h.rest

theorem nextHandle (h : Agree a sys sys') : sys'.nextHandle = sys.nextHandle :=
  congrArg (·.nextHandle) h.rest

theorem instrument? (h : Agree a sys sys') (handle : Nat) :
    sys'.instrument? handle = sys.instrument? handle := by
  rw [System.instrument?, System.instrument?, h.handles, h.instruments]

theorem isAlive (h : Agree a sys sys') : sys'.isAlive = sys.isAlive := by
  funext i
  rw [System.isAlive, System.isAlive, h.instruments]

/-- What is found of a reader agrees. -/
theorem reader_cases (h : Agree a sys sys') (r : Nat) :
    (sys.readers[r]? = none ∧ sys'.readers[r]? = none) ∨
      ∃ reader reader', sys.readers[r]? = some reader ∧ sys'.readers[r]? = some reader' ∧
        reader'.seen (r == a) = reader.seen (r == a) := by
  have hr := h.readers r
  cases hbefore : sys.readers[r]? with
  | none =>
    rw [hbefore] at hr
    exact .inl ⟨rfl, Option.map_eq_none_iff.mp hr⟩
  | some reader =>
    rw [hbefore] at hr
    obtain ⟨reader', hreader', hseen⟩ := Option.map_eq_some_iff.mp hr
    exact .inr ⟨reader, reader', rfl, hreader', hseen⟩

theorem map_readers {β : Type} {f : Reader α → β} (h : Agree a sys sys')
    (hf : ∀ own reader, f (Reader.seen own reader) = f reader) (r : Nat) :
    sys'.readers[r]?.map f = sys.readers[r]?.map f := by
  rcases h.reader_cases r with ⟨hr, hr'⟩ | ⟨reader, reader', hr, hr', hseen⟩
  · rw [hr, hr']
  · rw [hr, hr', Option.map_some, Option.map_some, ← hf (r == a) reader', hseen, hf]

theorem isClosed (h : Agree a sys sys') (r : Nat) : sys'.isClosed r = sys.isClosed r :=
  congrArg (·.getD true) (h.map_readers (fun _ _ => rfl) r)

/-! ## Parts -/

theorem write (h : Agree a sys sys') (entries entries' : List (JournalEntry α)) :
    Agree a (sys.write entries) (sys'.write entries') := by
  refine ⟨?_, h.readers⟩
  rw [h.rest]
  rfl

theorem write_unseen (sys : System α) (entries : List (JournalEntry α)) :
    Agree a sys (sys.write entries) := ⟨rfl, fun _ => rfl⟩

theorem modifyProvider (h : Agree a sys sys') (p : Nat) (f : Provider α → Provider α) :
    Agree a (sys.modifyProvider p f) (sys'.modifyProvider p f) :=
  ⟨congrArg (·.modifyProvider p f) h.rest, h.readers⟩

theorem setLifetime (h : Agree a sys sys') (i : Nat) (l : Lifetime Nat) :
    Agree a (sys.setLifetime i l) (sys'.setLifetime i l) :=
  ⟨congrArg (·.setLifetime i l) h.rest, h.readers⟩

theorem withHandles (h : Agree a sys sys') (handles : Table Nat Nat) :
    Agree a { sys with handles } { sys' with handles } :=
  ⟨congrArg (fun sys => { sys with handles }) h.rest, h.readers⟩

theorem withNow (h : Agree a sys sys') (now : Time) :
    Agree a { sys with now } { sys' with now } :=
  ⟨congrArg (fun sys => { sys with now }) h.rest, h.readers⟩

theorem withInstruments (h : Agree a sys sys') (instruments : List BuiltInstrument) :
    Agree a { sys with instruments } { sys' with instruments } :=
  ⟨congrArg (fun sys => { sys with instruments }) h.rest, h.readers⟩

/-- A change of a reader that makes of what is seen before what is seen after. -/
theorem modifyReader (h : Agree a sys sys') (r : Nat) {f f' : Reader α → Reader α}
    (hf : ∀ reader reader', reader'.seen (r == a) = reader.seen (r == a) →
      (f' reader').seen (r == a) = (f reader).seen (r == a)) :
    Agree a (sys.modifyReader r f) (sys'.modifyReader r f') := by
  refine ⟨?_, fun q => ?_⟩
  · rw [h.rest]
    rfl
  · show ((sys'.readers.modify r f')[q]?).map _ = ((sys.readers.modify r f)[q]?).map _
    rw [List.getElem?_modify, List.getElem?_modify]
    rcases h.reader_cases q with ⟨hq, hq'⟩ | ⟨reader, reader', hq, hq', hseen⟩
    · rw [hq, hq']
      rfl
    · -- The other readers are as they were, on both sides.
      rw [hq, hq']
      simp only [Option.map_eq_map, Option.map_some, Option.some.injEq]
      split
      · rename_i hrq
        subst hrq
        exact hf reader reader' hseen
      · exact hseen

/-- A change of a reader that is not seen. -/
theorem modifyReader_unseen (sys : System α) (r : Nat) {f : Reader α → Reader α}
    (hf : ∀ reader, (f reader).seen (r == a) = reader.seen (r == a)) :
    Agree a sys (sys.modifyReader r f) := by
  have hsame : sys.modifyReader r id = sys := by simp [System.modifyReader, List.modify_id]
  have hagree : Agree a (sys.modifyReader r id) (sys.modifyReader r f) :=
    (refl sys).modifyReader r fun reader reader' hseen => (hf reader').trans hseen
  rwa [hsame] at hagree

theorem foldl {β : Type} {f f' : System α → β → System α}
    (hf : ∀ {sys sys' : System α} x, Agree a sys sys' → Agree a (f sys x) (f' sys' x)) (xs : List β)
    (h : Agree a sys sys') : Agree a (xs.foldl f sys) (xs.foldl f' sys') := by
  induction xs generalizing sys sys' with
  | nil => exact h
  | cons x rest ih => exact ih (hf x h)

/-! ## References and handles -/

theorem acquire (h : Agree a sys sys') (i : Nat) (f : Flavour) :
    (sys'.acquire i f).1 = (sys.acquire i f).1 ∧ Agree a (sys.acquire i f).2 (sys'.acquire i f).2 := by
  unfold System.acquire
  rw [h.instruments]
  cases sys.instruments[i]? with
  | none => exact ⟨rfl, h⟩
  | some b => exact ⟨rfl, h.setLifetime i _⟩

theorem relinquish (h : Agree a sys sys') (i : Nat) (f : Flavour) :
    (sys'.relinquish i f).1 = (sys.relinquish i f).1 ∧
      Agree a (sys.relinquish i f).2 (sys'.relinquish i f).2 := by
  unfold System.relinquish
  rw [h.instruments]
  cases sys.instruments[i]? with
  | none => exact ⟨rfl, h⟩
  | some b => exact ⟨rfl, h.setLifetime i _⟩

theorem teardown (h : Agree a sys sys') (i : Nat) : Agree a (sys.teardown i) (sys'.teardown i) := by
  unfold System.teardown
  rw [h.instruments]
  cases sys.instruments[i]? with
  | none => exact h
  | some b =>
    refine foldl (fun s hs => hs.modifyReader s.1 fun reader reader' hseen => ?_) _
      (h.modifyProvider b.provider _)
    rw [Reader.seen_unregister, Reader.seen_unregister, hseen]

theorem release (h : Agree a sys sys') (i : Nat) (f : Flavour) :
    Agree a (sys.release i f) (sys'.release i f) := by
  obtain ⟨htasks, hagree⟩ := h.relinquish i f
  show Agree a ((sys.relinquish i f).1.foldl System.teardown _)
    ((sys'.relinquish i f).1.foldl System.teardown _)
  rw [htasks]
  exact foldl (fun i hs => hs.teardown i) _ hagree

theorem adopt (h : Agree a sys sys') (i : Nat) :
    (sys'.adopt i).1 = (sys.adopt i).1 ∧ Agree a (sys.adopt i).2 (sys'.adopt i).2 :=
  ⟨h.nextHandle, congrArg (fun sys => (sys.adopt i).2) h.rest, h.readers⟩

theorem cloneHandle (h : Agree a sys sys') (handle : Nat) :
    (sys'.cloneHandle handle).1 = (sys.cloneHandle handle).1 ∧
      Agree a (sys.cloneHandle handle).2 (sys'.cloneHandle handle).2 := by
  unfold System.cloneHandle
  rw [h.handles]
  cases sys.handles.find? handle with
  | none => exact ⟨rfl, h⟩
  | some i =>
    obtain ⟨hclone, hagree⟩ := (h.acquire i .transient).2.adopt i
    exact ⟨congrArg some hclone, hagree⟩

theorem cloneHandles (h : Agree a sys sys') (handles : List Nat) :
    (sys'.cloneHandles handles).1 = (sys.cloneHandles handles).1 ∧
      Agree a (sys.cloneHandles handles).2 (sys'.cloneHandles handles).2 := by
  induction handles generalizing sys sys' with
  | nil => exact ⟨rfl, h⟩
  | cons handle rest ih =>
    obtain ⟨hclone, hagree⟩ := h.cloneHandle handle
    obtain ⟨hclones, hrest⟩ := ih hagree
    exact ⟨congrArg₂ (fun clone clones => clone.toList ++ clones) hclone hclones, hrest⟩

theorem dropHandle (h : Agree a sys sys') (handle : Nat) :
    Agree a (sys.dropHandle handle) (sys'.dropHandle handle) := by
  unfold System.dropHandle
  rw [h.handles]
  cases sys.handles.find? handle with
  | none => exact h
  | some i => exact (h.withHandles _).release i .transient

/-! ## Callbacks -/

theorem acquireAll (h : Agree a sys sys') (is : List Nat) :
    (sys'.acquireAll is).1 = (sys.acquireAll is).1 ∧
      Agree a (sys.acquireAll is).2 (sys'.acquireAll is).2 := by
  induction is generalizing sys sys' with
  | nil => exact ⟨rfl, h⟩
  | cons i rest ih =>
    obtain ⟨htaken, hagree⟩ := h.acquire i .persistent
    obtain ⟨hreferences, hrest⟩ := ih hagree
    refine ⟨?_, hrest⟩
    simp only [System.acquireAll, htaken, hreferences]

theorem registerCallback (h : Agree a sys sys') (p : Nat) (feed : Feed) (is captured : List Nat) :
    (sys'.registerCallback p feed is captured).1 = (sys.registerCallback p feed is captured).1 ∧
      Agree a (sys.registerCallback p feed is captured).2
        (sys'.registerCallback p feed is captured).2 := by
  obtain ⟨hreferences, hagree⟩ := h.acquireAll is
  unfold System.registerCallback
  simp only [h.providers, hreferences]
  refine ⟨trivial, ?_⟩
  split
  · exact (hagree.write _ _).modifyProvider p _
  · exact hagree.modifyProvider p _

theorem registerSingles (h : Agree a sys sys') (p number i n : Nat) :
    (sys'.registerSingles p number i n).1 = (sys.registerSingles p number i n).1 ∧
      Agree a (sys.registerSingles p number i n).2 (sys'.registerSingles p number i n).2 := by
  induction n generalizing sys sys' with
  | zero => exact ⟨rfl, h⟩
  | succ n ih =>
    obtain ⟨hc, hagree⟩ := h.registerCallback p (.single number) [i] []
    obtain ⟨hcs, hrest⟩ := ih hagree
    exact ⟨congrArg₂ (· :: ·) hc hcs, hrest⟩

theorem register (h : Agree a sys sys') (handle : Nat) :
    (sys'.register handle).1 = (sys.register handle).1 ∧
      Agree a (sys.register handle).2 (sys'.register handle).2 := by
  unfold System.register
  rw [h.instrument?]
  split
  · rename_i i b _
    split
    · rename_i number _
      obtain ⟨hc, hagree⟩ := h.registerCallback b.provider (.single number) [i] []
      exact ⟨congrArg some hc, hagree⟩
    · exact ⟨rfl, h⟩
  · exact ⟨rfl, h⟩

theorem registerBatch (h : Agree a sys sys') (p : Nat) (scope : Scope) (handles used : List Nat) :
    (sys'.registerBatch p scope handles used).1 = (sys.registerBatch p scope handles used).1 ∧
      Agree a (sys.registerBatch p scope handles used).2
        (sys'.registerBatch p scope handles used).2 := by
  unfold System.registerBatch
  rw [h.providers]
  cases sys.providers[p]? with
  | none => exact ⟨rfl, h⟩
  | some provider =>
    obtain ⟨hclones, hagree⟩ := (h.modifyProvider p (·.withScope scope)).cloneHandles used
    -- Handles lead to the same instruments, so the callback feeds the same ones.
    have hfound : handles.filterMap ((sys'.modifyProvider p (·.withScope scope)).cloneHandles
        used).2.instrument? = handles.filterMap ((sys.modifyProvider p (·.withScope
          scope)).cloneHandles used).2.instrument? :=
      List.filterMap_congr fun handle _ => hagree.instrument? handle
    simp only [hfound, hclones]
    exact ⟨congrArg some (hagree.registerCallback p _ _ _).1, (hagree.registerCallback p _ _ _).2⟩

theorem detach (h : Agree a sys sys') (c : CallbackRef) :
    Agree a (sys.detach c) (sys'.detach c) := by
  unfold System.detach
  rw [h.providers]
  split
  · exact h
  · refine foldl (fun handle hs => hs.dropHandle handle) _ ?_
    exact foldl (fun i hs => hs.release i .persistent) _ (h.modifyProvider c.provider _)

/-! ## What is let go -/

theorem keepsReader (h : Agree a sys sys') (r : Nat) : sys'.keepsReader r = sys.keepsReader r := by
  have hheld := congrArg (·.getD false) (h.map_readers (f := (·.held)) (fun _ _ => rfl) r)
  have hany (readers : List (Reader α)) : readers[r]?.any (·.held) =
      (readers[r]?.map (·.held)).getD false := by cases readers[r]? <;> rfl
  rw [System.keepsReader, System.keepsReader, h.providers, hany, hany, hheld]

theorem clearReaders (h : Agree a sys sys') : Agree a sys.clearReaders sys'.clearReaders := by
  refine ⟨?_, fun r => ?_⟩
  · rw [System.clearReaders, System.clearReaders, h.rest]
  · show ((sys'.readers.zipIdx.map _)[r]?).map _ = ((sys.readers.zipIdx.map _)[r]?).map _
    rw [List.getElem?_map, List.getElem?_map, List.getElem?_zipIdx, List.getElem?_zipIdx]
    rcases h.reader_cases r with ⟨hr, hr'⟩ | ⟨reader, reader', hr, hr', hseen⟩
    · rw [hr, hr']
      rfl
    · rw [hr, hr']
      simp only [Option.map_some, Nat.zero_add, h.keepsReader, Option.some.injEq]
      split
      · exact hseen
      · exact congrArg (fun reader => { reader with streams := Table.empty }) hseen

theorem keepsCallbacks (h : Agree a sys sys') (p : Nat) :
    sys'.keepsCallbacks p = sys.keepsCallbacks p := by
  -- Which instruments feed a reader's streams is seen of every reader.
  let feeds (reader : Reader α) : Bool :=
    reader.streams.values.any fun s => s.observer?.any (·.provider == p)
  have hfeeds (own : Bool) (reader : Reader α) : feeds (reader.seen own) = feeds reader := by
    simp only [feeds, Reader.seen, Table.values, Table.mapValues, List.any_map]
    refine congrArg (fun test => reader.streams.entries.any test) (funext fun e => ?_)
    simp only [Function.comp_apply, RegisteredStream.observer?_seen]
  have hreaders : sys'.readers.map feeds = sys.readers.map feeds := by
    refine List.ext_getElem? fun r => ?_
    rw [List.getElem?_map, List.getElem?_map]
    exact h.map_readers hfeeds r
  have hany (readers : List (Reader α)) : readers.any feeds = (readers.map feeds).any id := by
    rw [List.any_map]
    rfl
  have hobserves : sys'.observesFor p = sys.observesFor p := by
    funext i
    rw [observesFor, observesFor, h.instruments]
  show (_ || _ || sys'.readers.any feeds) = (_ || _ || sys.readers.any feeds)
  rw [h.providers, h.handles, hobserves, hany, hany, hreaders]

theorem abandoned? (h : Agree a sys sys') : sys'.abandoned? = sys.abandoned? := by
  simp only [System.abandoned?, h.providers, h.keepsCallbacks]

theorem clearCallbacks (h : Agree a sys sys') (n : Nat) :
    Agree a (sys.clearCallbacks n) (sys'.clearCallbacks n) := by
  induction n generalizing sys sys' with
  | zero => exact h
  | succ n ih =>
    unfold System.clearCallbacks
    rw [h.abandoned?]
    split
    · exact h
    · rename_i p provider _
      exact ih (foldl (fun handle hs => hs.dropHandle handle) _ (h.modifyProvider p _))

theorem reclaim (h : Agree a sys sys') : Agree a sys.reclaim sys'.reclaim := by
  unfold System.reclaim
  rw [h.providers]
  split
  · exact h
  · exact h.clearReaders.clearCallbacks _

theorem dropProvider (h : Agree a sys sys') (p : Nat) :
    Agree a (sys.dropProvider p) (sys'.dropProvider p) :=
  (h.modifyProvider p _).reclaim

theorem dropReader (h : Agree a sys sys') (r : Nat) :
    Agree a (sys.dropReader r) (sys'.dropReader r) := by
  refine (h.modifyReader r fun reader reader' hseen => ?_).reclaim
  exact congrArg (fun reader => { reader with held := false }) hseen

/-! ## Measurements -/

variable [Quantity α]

/-- A measurement is taken alike whatever the draws. -/
theorem writeTo (h : Agree a sys sys') (value : α) (attributes : Attributes)
    (draw draw' : Nat → Nat) (streams : List (Nat × Nat)) :
    Agree a (sys.writeTo value attributes draw streams)
      (sys'.writeTo value attributes draw' streams) := by
  refine foldl (fun s hs => hs.modifyReader s.1.1 fun reader reader' hseen => ?_) streams.zipIdx h
  rw [hs.now]
  exact Reader.seen_record hseen s.1.2 _ _ value attributes _

theorem record (h : Agree a sys sys') (handle : Nat) (value : α) (attributes : List Attribute)
    (draw draw' : Nat → Nat) :
    Agree a (sys.record handle value attributes draw) (sys'.record handle value attributes draw') := by
  unfold System.record
  rw [h.instrument?]
  split
  · exact h
  · split
    · exact h.write _ _
    · exact h.writeTo value _ draw draw' _

/-! ## Requests -/

omit [Quantity α] in
theorem openStreams (h : Agree a sys sys') (resource : Resource) (scope : Scope)
    (observer : Option ObserverRef) (plans : List (StreamPlan α)) :
    (sys'.openStreams resource scope observer plans).1 =
        (sys.openStreams resource scope observer plans).1 ∧
      Agree a (sys.openStreams resource scope observer plans).2
        (sys'.openStreams resource scope observer plans).2 := by
  induction plans generalizing sys sys' with
  | nil => exact ⟨rfl, h⟩
  | cons plan rest ih =>
    let stream := plan.stream sys.now resource scope observer
    have hnumber : (sys'.readers[plan.reader]?.bind fun reader => (reader.register stream).1) =
        sys.readers[plan.reader]?.bind fun reader => (reader.register stream).1 := by
      rcases h.reader_cases plan.reader with ⟨hr, hr'⟩ | ⟨reader, reader', hr, hr', hseen⟩
      · rw [hr, hr']
      · rw [hr, hr']
        exact (Reader.seen_register hseen stream).1
    have hplaced : Agree a (sys.modifyReader plan.reader fun reader => (reader.register stream).2)
        (sys'.modifyReader plan.reader fun reader => (reader.register stream).2) :=
      h.modifyReader plan.reader fun _ _ hseen => (Reader.seen_register hseen stream).2
    obtain ⟨hstreams, hrest⟩ := ih hplaced
    unfold System.openStreams
    simp only [h.now]
    refine ⟨?_, hrest⟩
    rw [hstreams]
    exact congrArg (fun number => number.toList.map (plan.reader, ·) ++ _) hnumber

theorem planStreams (h : Agree a sys sys') (scope : Scope) (i : Instrument α)
    (pairs : List (Projection α × Nat)) :
    sys'.planStreams scope i pairs = sys.planStreams scope i pairs := by
  induction pairs with
  | nil => rfl
  | cons pair rest ih =>
    obtain ⟨pr, r⟩ := pair
    unfold System.planStreams
    rcases h.reader_cases r with ⟨hr, hr'⟩ | ⟨reader, reader', hr, hr', hseen⟩
    · simp only [hr, hr', ih]
    · have hclosed : reader'.closed = reader.closed := congrArg (·.closed) hseen
      -- An exporter answers questions as it did, whatever it was handed since.
      have hplan (e : Exporter α) (own : Bool) :
          planStream (e.seen own) r scope i pr = planStream e r scope i pr := by cases own <;> rfl
      have hexporter : planStream reader'.exporter r scope i pr =
          planStream reader.exporter r scope i pr := by
        rw [← hplan reader'.exporter (r == a), ← hplan reader.exporter (r == a)]
        exact congrArg (fun reader => planStream (Reader.exporter reader) r scope i pr) hseen
      simp only [hr, hr', hclosed, hexporter, ih]

omit [Quantity α] in
theorem build (h : Agree a sys sys') (p : Nat) (provider : Provider α) (key : InstrumentKey)
    (plans : List (StreamPlan α)) :
    (sys'.build p provider key plans).1 = (sys.build p provider key plans).1 ∧
      Agree a (sys.build p provider key plans).2 (sys'.build p provider key plans).2 := by
  unfold System.build
  obtain ⟨hstreams, hagree⟩ := h.openStreams provider.resource key.scope
    ((if key.identity.kind.isAsynchronous then some provider.nextObserver else none).map (⟨p, ·⟩)) plans
  simp only [hstreams, hagree.instruments]
  exact ⟨trivial, (hagree.withInstruments _).modifyProvider p _⟩

theorem findOrBuild (h : Agree a sys sys') (p : Nat) (provider : Provider α) (scope : Scope)
    (i : Instrument α) :
    (sys'.findOrBuild p provider scope i).1 = (sys.findOrBuild p provider scope i).1 ∧
      Agree a (sys.findOrBuild p provider scope i).2 (sys'.findOrBuild p provider scope i).2 := by
  have hplan : sys'.plan provider scope i = sys.plan provider scope i := h.planStreams scope i _
  unfold System.findOrBuild
  simp only [h.isAlive, hplan]
  split
  · exact ⟨rfl, h⟩
  · split
    · exact ⟨rfl, h.write _ _⟩
    · rename_i plans _
      obtain ⟨hbuilt, hagree⟩ := (h.write _ _).build p provider ⟨scope, i.identity⟩ plans
      exact ⟨congrArg Except.ok hbuilt, hagree⟩

theorem procure (h : Agree a sys sys') (p : Nat) (provider : Provider α) (scope : Scope)
    (i : Instrument α) :
    (sys'.procure p provider scope i).1 = (sys.procure p provider scope i).1 ∧
      Agree a (sys.procure p provider scope i).2 (sys'.procure p provider scope i).2 := by
  obtain ⟨hfound, hagree⟩ := h.findOrBuild p provider scope i
  unfold System.procure
  generalize sys.findOrBuild p provider scope i = before at hfound hagree ⊢
  generalize sys'.findOrBuild p provider scope i = before' at hfound hagree ⊢
  obtain ⟨found, after⟩ := before
  obtain ⟨found', after'⟩ := before'
  obtain rfl : found' = found := hfound
  cases found' with
  | error e => exact ⟨rfl, hagree⟩
  | ok found => exact ⟨rfl, (hagree.acquire found .transient).2⟩

theorem create (h : Agree a sys sys') (p : Nat) (scope : Scope) (i : Instrument α)
    (callbacks : Nat) :
    (sys'.create p scope i callbacks).1 = (sys.create p scope i callbacks).1 ∧
      Agree a (sys.create p scope i callbacks).2 (sys'.create p scope i callbacks).2 := by
  unfold System.create
  rw [h.providers]
  cases sys.providers[p]? with
  | none => exact ⟨rfl, h⟩
  | some provider =>
    have hasked := h.modifyProvider p (·.withScope scope)
    obtain ⟨hfound, hagree⟩ := hasked.procure p provider (provider.meterScope scope) i
    simp only
    split
    · exact ⟨rfl, hasked⟩
    · generalize (sys.modifyProvider p (·.withScope scope)).procure p provider
        (provider.meterScope scope) i = before at hfound hagree ⊢
      generalize (sys'.modifyProvider p (·.withScope scope)).procure p provider
        (provider.meterScope scope) i = before' at hfound hagree ⊢
      obtain ⟨found, granted⟩ := before
      obtain ⟨found', granted'⟩ := before'
      obtain rfl : found' = found := hfound
      cases found' with
      | error e => exact ⟨rfl, hagree⟩
      | ok found =>
        obtain ⟨hhandle, hadopted⟩ := hagree.adopt found
        have hinstruments : granted'.instruments = granted.instruments := hagree.instruments
        simp only [hinstruments]
        cases granted.instruments[found]?.bind (·.observer) with
        | none =>
          refine ⟨?_, hadopted⟩
          exact congrArg (fun handle => some (Except.ok (⟨handle, none, []⟩ : Creation))) hhandle
        | some number =>
          obtain ⟨hcs, hfed⟩ := hadopted.registerSingles p number found callbacks
          refine ⟨?_, hfed⟩
          exact congrArg₂
            (fun handle cs => some (Except.ok (⟨handle, some number, cs⟩ : Creation))) hhandle hcs

/-! ## Passes -/

omit [Quantity α] in
/-- A reader waits for the same callbacks. -/
theorem calls (h : Agree a sys sys') {own : Bool} {reader reader' : Reader α}
    (hseen : reader'.seen own = reader.seen own) : sys'.calls reader' = sys.calls reader := by
  have hwanted : reader'.wanted = reader.wanted := by
    rw [← Reader.wanted_seen own reader', hseen, Reader.wanted_seen]
  rw [System.calls, System.calls, hwanted, h.providers]

/-- The pass of the reader itself goes the same way, if callbacks perform alike. -/
theorem exportPass_own (h : Agree a sys sys') {reader reader' : Reader α}
    (hseen : reader'.seen true = reader.seen true)
    (performances : List (List (Call × Performance α))) :
    (sys'.exportPass a reader' performances).1 = (sys.exportPass a reader performances).1 ∧
      Agree a (sys.exportPass a reader performances).2 (sys'.exportPass a reader' performances).2 := by
  let table := observed (performances.map observationPass)
  constructor
  · -- Whether a batch is accepted depends on how many there were, not on what is in it.
    have haccepted : reader'.exporter.accepts reader'.exporter.exports =
        reader.exporter.accepts reader.exporter.exports :=
      congrArg (fun reader => reader.exporter.accepts reader.exporter.exports) hseen
    show (reader'.exporter.accepts reader'.exporter.exports && _) = _
    rw [haccepted]
    rfl
  · -- What is seen of the reader afterwards is the collection of what was seen before.
    let after (reader : Reader α) : Reader α :=
      { reader.collected table sys.now with exporter := (reader.exporter.deliver []).2.seen true }
    have hafter (reader : Reader α) (batch : List (Metric α)) :
        Reader.seen true { reader.collected table sys.now with
          exporter := (reader.exporter.deliver batch).2 } = after (reader.seen true) :=
      congrArg (fun collected : Reader α =>
          { collected with exporter := ((reader.seen true).exporter.deliver []).2.seen true })
        (reader.seen_true_collected table sys.now)
    refine Agree.write (h.modifyReader a fun reader reader' hseen => ?_) _ _
    rw [beq_self_eq_true] at hseen ⊢
    simp only [h.now]
    exact (hafter reader' _).trans ((congrArg after hseen).trans (hafter reader _).symm)

/-- The pass of another reader leads to a system that agrees with the one before. -/
theorem exportPass_other (sys : System α) {r : Nat} (hr : r ≠ a) (reader : Reader α)
    (performances : List (List (Call × Performance α))) :
    Agree a sys (sys.exportPass r reader performances).2 := by
  let table := observed (performances.map observationPass)
  have hother : (r == a) = false := beq_eq_false_iff_ne.mpr hr
  refine (modifyReader_unseen sys r fun reader => ?_).trans (write_unseen _ _)
  rw [hother]
  exact congrArg (fun after : Reader α => { after with exporter := reader.exporter.seen false })
    (reader.seen_false_collected table sys.now)

end Agree

end System

end Metering
