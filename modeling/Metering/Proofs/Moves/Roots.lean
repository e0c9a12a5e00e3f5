import Metering.Proofs.Moves.Basic

/-!
# Where Streams Come From

Every stream that is found on a reader stems from one instrument: it was planned for it, and since
then only took measurements that the instrument accepts and was collected. Numbers of streams and
of asynchronous instruments are given out once, so no other instrument has the stream, and an
asynchronous stream leads to one instrument. All of this is kept by every move.
-/

namespace Metering

variable {α : Type}

/-! ## Growth of one stream -/

namespace RegisteredStream

/-- What a stream is exported as, and the instrument whose observations feed it. -/
def label (rs : RegisteredStream α) :
    Scope × Resource × String × Option String × Option String × Option ObserverRef :=
  (rs.scope, rs.resource, rs.name, rs.unit, rs.description, rs.observer?)

variable [Quantity α] {accepts accepts' : α → Prop} {rs rs' rs'' : RegisteredStream α}

/-- A later form of a stream, after measurements with accepted values and after collections. -/
inductive Grows (accepts : α → Prop) (rs : RegisteredStream α) : RegisteredStream α → Prop
  | refl : Grows accepts rs rs
  | record {rs' : RegisteredStream α} (h : Grows accepts rs rs') (draw : Nat) {value : α}
      (accepted : accepts value) (attributes : Attributes) (time : Time) :
      Grows accepts rs (rs'.record draw value attributes time)
  | collected {rs' : RegisteredStream α} (h : Grows accepts rs rs')
      (observed : Table Nat (Observations α)) (time : Time) :
      Grows accepts rs (rs'.collected observed time)

theorem Grows.trans (h : Grows accepts rs rs') (k : Grows accepts rs' rs'') :
    Grows accepts rs rs'' := by
  induction k with
  | refl => exact h
  | record _ draw accepted attributes time ih => exact ih.record draw accepted attributes time
  | collected _ observed time ih => exact ih.collected observed time

theorem label_record (rs : RegisteredStream α) (draw : Nat) (value : α) (attributes : Attributes)
    (time : Time) : (rs.record draw value attributes time).label = rs.label := by
  unfold RegisteredStream.record label observer?
  cases hsource : rs.source with
  | synchronous stream => rfl
  | asynchronous stream o => simp [hsource]

theorem label_collected (rs : RegisteredStream α) (observed : Table Nat (Observations α))
    (time : Time) : (rs.collected observed time).label = rs.label := by
  unfold RegisteredStream.collected label observer?
  cases rs.source <;> rfl

/-- A stream stays what it is exported as, and is fed by the same instrument. -/
theorem Grows.label (h : Grows accepts rs rs') : rs'.label = rs.label := by
  induction h with
  | refl => rfl
  | record _ draw _ attributes time ih => exact (label_record ..).trans ih
  | collected _ observed time ih => exact (label_collected ..).trans ih

end RegisteredStream

/-! ## Instruments and their streams -/

namespace BuiltInstrument

/-- The instrument as one that streams can be fed by, if it is asynchronous. -/
def ref? (b : BuiltInstrument) : Option ObserverRef := b.observer.map (⟨b.provider, ·⟩)

/-- Whether a measurement of the instrument with an index is accepted and passes a test. -/
def Accepts [Quantity α] (b : BuiltInstrument) (test : Nat → α → Prop) (i : Nat) (value : α) : Prop :=
  System.objection b.key value = none ∧ test i value

/-- Whether a stream grew from one that was planned for the instrument. -/
def Stems [Quantity α] (b : BuiltInstrument) (accepts : α → Prop) (rs : RegisteredStream α) : Prop :=
  ∃ plan : StreamPlan α, ∃ time resource, plan.Suits b.key.identity.kind ∧
    (plan.stream time resource b.key.scope b.ref?).Grows accepts rs

/-- A stream is fed by the instrument that it stems from. -/
theorem Stems.observer? [Quantity α] {b : BuiltInstrument} {accepts : α → Prop}
    {rs : RegisteredStream α} (h : b.Stems accepts rs) : rs.observer? = b.ref? := by
  obtain ⟨plan, time, resource, -, hgrows⟩ := h
  have hlabel : rs.observer? = (plan.stream time resource b.key.scope b.ref?).observer? :=
    congrArg (·.2.2.2.2.2) hgrows.label
  rw [hlabel]
  cases hb : b.ref? <;> rfl

end BuiltInstrument

/-! ## Numbers -/

/-- Whether a reader has no streams but those of another, and gives out no number again. -/
structure Reader.Keeps (before after : Reader α) : Prop where
  keys : after.streams.keys.Sublist before.streams.keys
  nextStream : after.nextStream = before.nextStream

theorem Reader.Sheds.keeps {before after : Reader α} (h : before.Sheds after) : before.Keeps after :=
  ⟨h.streams.map _, h.nextStream⟩

/-- Numbers that go up, with one at the end that is above them all. -/
theorem pairwise_lt_concat {xs : List Nat} {n : Nat} (h : xs.Pairwise (· < ·))
    (hlt : ∀ x ∈ xs, x < n) : (xs ++ [n]).Pairwise (· < ·) ∧ ∀ x ∈ xs ++ [n], x < n + 1 := by
  constructor
  · refine List.pairwise_append.mpr ⟨h, List.pairwise_singleton .., fun x hx y hy => ?_⟩
    obtain rfl := List.mem_singleton.mp hy
    exact hlt x hx
  · intro x hx
    rcases List.mem_append.mp hx with hx | hx
    · exact Nat.lt_succ_of_lt (hlt x hx)
    · obtain rfl := List.mem_singleton.mp hx
      exact Nat.lt_succ_self _

/-- Streams that were built have different numbers, and readers list theirs in ascending order. -/
structure Numbered (readers : List (Reader α)) (built : List (Nat × Nat)) : Prop where
  bounded : ∀ s ∈ built, ∃ reader, readers[s.1]? = some reader ∧ s.2 < reader.nextStream
  nodup : built.Nodup
  ascending : ∀ (r : Nat) (reader : Reader α), readers[r]? = some reader →
    reader.streams.keys.Pairwise (· < ·) ∧ ∀ n ∈ reader.streams.keys, n < reader.nextStream

namespace Numbered

variable {readers readers' : List (Reader α)} {built : List (Nat × Nat)}

theorem of_keeps (h : Numbered readers built)
    (hkeeps : ∀ r : Nat, Option.Rel Reader.Keeps readers[r]? readers'[r]?) :
    Numbered readers' built := by
  refine ⟨fun s hs => ?_, h.nodup, fun r after hafter => ?_⟩
  · obtain ⟨before, hbefore, hlt⟩ := h.bounded s hs
    obtain ⟨after, hafter, hkeep⟩ := exists_of_some_rel (hbefore ▸ hkeeps s.1)
    exact ⟨after, hafter, hkeep.nextStream ▸ hlt⟩
  · obtain ⟨before, hbefore, hkeep⟩ := exists_of_rel_some (hafter ▸ hkeeps r)
    obtain ⟨hascending, hlt⟩ := h.ascending r before hbefore
    refine ⟨hascending.sublist hkeep.keys, fun n hn => ?_⟩
    rw [hkeep.nextStream]
    exact hlt n (hkeep.keys.subset hn)

theorem modify (h : Numbered readers built) (r : Nat) {f : Reader α → Reader α}
    (hf : ∀ reader, Reader.Keeps reader (f reader)) : Numbered (readers.modify r f) built :=
  h.of_keeps (rel_modify (fun reader => (Reader.Sheds.refl reader).keeps) hf)

/-- A reader that takes a stream gives it the next number, and lists it last. -/
theorem register (h : Numbered readers built) {r : Nat} {reader : Reader α}
    (hr : readers[r]? = some reader) (hopen : reader.closed = false) (s : RegisteredStream α) :
    Numbered (readers.modify r fun reader => (reader.register s).2)
      (built ++ [(r, reader.nextStream)]) := by
  have hregister : (reader.register s).2 = { reader with
      streams := reader.streams.insert reader.nextStream s
      nextStream := reader.nextStream + 1 } := by simp [Reader.register, hopen]
  have hplaced := getElem?_modify_of_some (fun reader => (reader.register s).2) hr
  rw [hregister] at hplaced
  refine ⟨fun x hx => ?_, ?_, fun q after hafter => ?_⟩
  · rcases List.mem_append.mp hx with hx | hx
    · obtain ⟨before, hbefore, hlt⟩ := h.bounded x hx
      by_cases hq : r = x.1
      · subst hq
        obtain rfl := Option.some.inj (hr.symm.trans hbefore)
        exact ⟨_, hplaced, Nat.lt_succ_of_lt hlt⟩
      · exact ⟨before, (List.getElem?_modify_ne _ _ hq).trans hbefore, hlt⟩
    · obtain rfl := List.mem_singleton.mp hx
      exact ⟨_, hplaced, Nat.lt_succ_self _⟩
  · -- Built streams have numbers below the next one.
    refine List.nodup_append.mpr ⟨h.nodup, List.nodup_singleton _, ?_⟩
    rintro x hx y hy rfl
    obtain rfl := List.mem_singleton.mp hy
    obtain ⟨before, hbefore, hlt⟩ := h.bounded _ hx
    obtain rfl := Option.some.inj (hr.symm.trans hbefore)
    exact Nat.lt_irrefl _ hlt
  · by_cases hq : r = q
    · subst hq
      obtain rfl := Option.some.inj (hplaced.symm.trans hafter)
      obtain ⟨hascending, hlt⟩ := h.ascending r reader hr
      show (reader.streams.insert reader.nextStream s).keys.Pairwise (· < ·) ∧ _
      rw [Table.keys_insert_of_new (Table.forall_ne_of_lt hlt)]
      exact pairwise_lt_concat hascending hlt
    · exact h.ascending q after ((List.getElem?_modify_ne _ _ hq).symm.trans hafter)

end Numbered

namespace System

variable {sys sys' : System α} {p : Nat} {provider : Provider α} {key : InstrumentKey}
  {plans : List (StreamPlan α)}

/-- A stream that is taken has the next number of its reader. -/
theorem numbered_place {built : List (Nat × Nat)} (h : Numbered sys.readers built) (r : Nat)
    (stream : RegisteredStream α) :
    Numbered (sys.place r stream).2.readers
      (built ++ (sys.place r stream).1.toList.map (r, ·)) := by
  cases hnumber : (sys.place r stream).1 with
  | none =>
    -- A reader that gives no number is missing or closed, and stays as it is.
    have hsame : (sys.place r stream).2.readers.map id = sys.readers.map id := by
      refine map_modify_of_eq fun reader hreader => ?_
      have hnone : (reader.register stream).1 = none := by simpa [place, hreader] using hnumber
      rw [Reader.register_eq_none hnone]
    rw [List.map_id, List.map_id] at hsame
    simpa [hsame] using h
  | some n =>
    obtain ⟨reader, hr, hn⟩ := Option.bind_eq_some_iff.mp hnumber
    obtain ⟨hopen, rfl⟩ := Reader.register_eq_some.mp hn
    exact h.register hr hopen stream

theorem numbered_openStreams {built : List (Nat × Nat)} (h : Numbered sys.readers built)
    (resource : Resource) (scope : Scope) (observer : Option ObserverRef)
    (plans : List (StreamPlan α)) :
    Numbered (sys.openStreams resource scope observer plans).2.readers
      (built ++ (sys.openStreams resource scope observer plans).1) := by
  induction plans generalizing sys built with
  | nil => simpa [openStreams] using h
  | cons plan rest ih =>
    rw [openStreams_cons, ← List.append_assoc]
    exact ih (numbered_place h plan.reader _)

/-! ## What a move does to instruments -/

/-- The asynchronous instruments that were ever built, in build order. -/
def observers (sys : System α) : List ObserverRef := sys.instruments.filterMap (·.ref?)

theorem observers_withNewborn (sys : System α) (p : Nat) (provider : Provider α) (key : InstrumentKey)
    (plans : List (StreamPlan α)) :
    (sys.withNewborn p provider key plans).observers =
      sys.observers ++ (sys.newborn p provider key plans).ref?.toList := by
  rw [observers, withNewborn, List.filterMap_append]
  rfl

theorem builtStreams_withNewborn (sys : System α) (p : Nat) (provider : Provider α)
    (key : InstrumentKey) (plans : List (StreamPlan α)) :
    (sys.withNewborn p provider key plans).builtStreams =
      sys.builtStreams ++ (sys.opening p provider key plans).1 := by
  simp [builtStreams, withNewborn, newborn]

theorem builtStreams_congr (h : sys'.instruments.map (·.ident) = sys.instruments.map (·.ident)) :
    sys'.builtStreams = sys.builtStreams := by
  have hstreams := congrArg (List.flatMap (·.2.2.2)) h
  simpa [builtStreams, List.flatMap_map, BuiltInstrument.ident] using hstreams

theorem observers_congr (h : sys'.instruments.map (·.ident) = sys.instruments.map (·.ident)) :
    sys'.observers = sys.observers := by
  have hrefs := congrArg (List.filterMap fun x => x.2.2.1.map (⟨x.1, ·⟩ : Nat → ObserverRef)) h
  simpa [observers, BuiltInstrument.ref?, List.filterMap_map, Function.comp_def,
    BuiltInstrument.ident] using hrefs

/-- Where an instrument is built, the next number goes up if the instrument takes one. -/
theorem exists_provider_withNewborn {q : Nat} {before : Provider α}
    (hq : sys.providers[q]? = some before) :
    ∃ after, (sys.withNewborn p provider key plans).providers[q]? = some after ∧
      after.nextObserver = before.nextObserver +
        if p = q then (sys.newborn p provider key plans).observer.toList.length else 0 := by
  show ∃ after, (sys.providers.modify p _)[q]? = some after ∧ _
  rw [List.getElem?_modify, hq]
  refine ⟨_, rfl, ?_⟩
  split <;> rfl

theorem newborn_number {current : Provider α} (hnumber : provider.nextObserver = current.nextObserver)
    {n : Nat} (hn : (sys.newborn p provider key plans).observer = some n) :
    n = current.nextObserver := by
  simp only [newborn] at hn
  split at hn
  · exact (Option.some.inj hn).symm.trans hnumber
  · cases hn

/-- Asynchronous instruments are the numbered ones, and of one provider each has its own number. -/
structure Catalogued (sys : System α) : Prop where
  kinds : ∀ b ∈ sys.instruments, b.observer.isSome = b.key.identity.kind.isAsynchronous
  distinct : sys.observers.Nodup
  numbers_lt : ∀ o ∈ sys.observers, ∃ provider, sys.providers[o.provider]? = some provider ∧
    o.number < provider.nextObserver

/-- Nothing counts about an instrument but what never changes. -/
theorem Catalogued.congr (h : Catalogued sys)
    (hinstruments : sys'.instruments.map (·.ident) = sys.instruments.map (·.ident))
    (hnumbers : sys'.providers.map (·.nextObserver) = sys.providers.map (·.nextObserver)) :
    Catalogued sys' := by
  have hobservers := observers_congr hinstruments
  refine ⟨fun b' hb' => ?_, hobservers ▸ h.distinct, fun o ho => ?_⟩
  · have hmem : b'.ident ∈ sys.instruments.map (·.ident) := hinstruments ▸ List.mem_map_of_mem hb'
    obtain ⟨b, hb, hsame⟩ := List.mem_map.mp hmem
    have hkind := h.kinds b hb
    have hkey : b.key = b'.key := congrArg (·.2.1) hsame
    have hobserver : b.observer = b'.observer := congrArg (·.2.2.1) hsame
    rwa [hkey, hobserver] at hkind
  · obtain ⟨provider, hprovider, hlt⟩ := h.numbers_lt o (hobservers ▸ ho)
    have hnumber := map_getElem?_of_map_eq hnumbers o.provider
    rw [hprovider] at hnumber
    obtain ⟨provider', hprovider', hsame⟩ := Option.map_eq_some_iff.mp hnumber
    exact ⟨provider', hprovider', hsame ▸ hlt⟩

/-- An asynchronous instrument that is built has a number that none had before. -/
theorem Catalogued.withNewborn (h : Catalogued sys) {current : Provider α}
    (howner : sys.providers[p]? = some current)
    (hnumber : provider.nextObserver = current.nextObserver) :
    Catalogued (sys.withNewborn p provider key plans) := by
  have hobservers := observers_withNewborn sys p provider key plans
  refine ⟨fun b hb => ?_, ?_, fun o ho => ?_⟩
  · rcases List.mem_append.mp hb with hb | hb
    · exact h.kinds b hb
    · obtain rfl := List.mem_singleton.mp hb
      simp only [newborn]
      split <;> simp [*]
  · rw [hobservers]
    refine List.nodup_append.mpr ⟨h.distinct, ?_, ?_⟩
    · cases (sys.newborn p provider key plans).ref? <;> simp
    · -- Numbers so far are below the one that the newborn gets.
      rintro o ho o' ho' rfl
      obtain ⟨provider', hprovider', hlt⟩ := h.numbers_lt o ho
      obtain ⟨n, hn, rfl⟩ := Option.map_eq_some_iff.mp (Option.mem_toList.mp ho')
      obtain rfl := Option.some.inj (howner.symm.trans hprovider')
      have hn : n = current.nextObserver := newborn_number hnumber hn
      exact Nat.lt_irrefl _ (hn ▸ hlt)
  · rw [hobservers] at ho
    rcases List.mem_append.mp ho with ho | ho
    · obtain ⟨before, hbefore, hlt⟩ := h.numbers_lt o ho
      obtain ⟨after, hafter, hnext⟩ := exists_provider_withNewborn hbefore
      exact ⟨after, hafter, by omega⟩
    · -- The newborn has a number only if it is asynchronous, and then its provider counts on.
      obtain ⟨n, hn, rfl⟩ := Option.map_eq_some_iff.mp (Option.mem_toList.mp ho)
      obtain ⟨after, hafter, hnext⟩ := exists_provider_withNewborn howner
      refine ⟨after, hafter, ?_⟩
      rw [if_pos rfl, hn, Option.toList_some, List.length_singleton] at hnext
      have hn : n = current.nextObserver := newborn_number hnumber hn
      show n < after.nextObserver
      omega

variable [Quantity α] {test : Nat → α → Prop}

theorem Catalogued.move (h : Catalogued sys) (hmove : Move test sys sys') : Catalogued sys' := by
  cases hmove with
  | shed readers instruments numbers => exact h.congr instruments numbers
  | record built owned taken passes => exact h.congr rfl rfl
  | collect => exact h.congr rfl rfl
  | build owner number suits => exact h.withNewborn owner number

/-- An instrument stays what it is, under its index. -/
theorem Move.exists_instrument (hmove : Move test sys sys') {i : Nat} {b : BuiltInstrument}
    (hb : sys.instruments[i]? = some b) :
    ∃ b', sys'.instruments[i]? = some b' ∧ b'.ident = b.ident := by
  cases hmove with
  | shed readers instruments numbers =>
    have hident := map_getElem?_of_map_eq instruments i
    rw [hb] at hident
    exact Option.map_eq_some_iff.mp hident
  | record built owned taken passes => exact ⟨b, hb, rfl⟩
  | collect => exact ⟨b, hb, rfl⟩
  | build owner number suits =>
    exact ⟨b, (getElem?_withNewborn_of_lt (List.getElem?_eq_some_iff.mp hb).1).trans hb, rfl⟩

/-! ## What a move does to streams -/

theorem numbered_move (h : Numbered sys.readers sys.builtStreams) (hmove : Move test sys sys') :
    Numbered sys'.readers sys'.builtStreams := by
  cases hmove with
  | shed readers instruments numbers =>
    rw [builtStreams_congr instruments]
    exact h.of_keeps fun r => rel_mono (fun _ _ hshed => hshed.keeps) (readers r)
  | record built owned taken passes =>
    refine h.modify _ fun reader => ⟨?_, rfl⟩
    show (reader.streams.modify _ _).keys.Sublist _
    rw [Table.keys_modify]
  | collect =>
    refine h.modify _ fun reader => ⟨?_, rfl⟩
    show (reader.streams.mapValues _).keys.Sublist _
    rw [Table.keys_mapValues]
  | build owner number suits =>
    rw [builtStreams_withNewborn]
    exact numbered_openStreams h ..

omit [Quantity α] in
/-- No two instruments have a stream in common. -/
theorem eq_of_mem_streams (h : sys.builtStreams.Nodup) {i j : Nat} {b b' : BuiltInstrument}
    (hi : sys.instruments[i]? = some b) (hj : sys.instruments[j]? = some b') {s : Nat × Nat}
    (hs : s ∈ b.streams) (hs' : s ∈ b'.streams) : i = j := by
  by_contra hne
  exact streams_disjoint h hne hi hj hs' hs

omit [Quantity α] in
/-- A stream that is left when others went was there before. -/
theorem streamAt_of_sheds {readers readers' : List (Reader α)}
    (hsheds : ∀ r : Nat, Option.Rel Reader.Sheds readers[r]? readers'[r]?) {s : Nat × Nat}
    {rs : RegisteredStream α} (hrs : streamAt readers' s = some rs) :
    streamAt readers s = some rs := by
  obtain ⟨after, hafter, hfound⟩ := Option.bind_eq_some_iff.mp hrs
  obtain ⟨before, hbefore, hshed⟩ := exists_of_rel_some (hafter ▸ hsheds s.1)
  refine Option.bind_eq_some_iff.mpr ⟨before, hbefore, ?_⟩
  exact Table.find?_eq_some_iff_mem.mpr (hshed.streams.subset (Table.find?_eq_some_iff_mem.mp hfound))

/-- A stream that is found after a move was found before it, and grew by what its instrument
accepts; or it is new, and stems from the instrument that was built. -/
theorem Move.streamAt_cases (hmove : Move test sys sys')
    (h : Numbered sys.readers sys.builtStreams) {s : Nat × Nat} {rs' : RegisteredStream α}
    (hrs' : streamAt sys'.readers s = some rs') :
    (∃ rs, streamAt sys.readers s = some rs ∧ ∀ (i : Nat) (b : BuiltInstrument),
      sys.instruments[i]? = some b → s ∈ b.streams → rs.Grows (b.Accepts test i) rs') ∨
    (s ∉ sys.builtStreams ∧ ∃ (i : Nat) (b : BuiltInstrument), sys'.instruments[i]? = some b ∧
      s ∈ b.streams ∧ b.Stems (b.Accepts test i) rs') := by
  cases hmove with
  | shed readers instruments numbers =>
    exact .inl ⟨rs', streamAt_of_sheds readers hrs', fun _ _ _ _ => .refl⟩
  | @record i b t draw value attributes built owned taken passes =>
    have hat : some rs' = _ := hrs'.symm.trans (streamAt_modifyStream sys.readers t
      (fun rs => rs.record draw value attributes sys.now) s)
    split at hat
    · rename_i hst
      subst hst
      obtain ⟨rs, hrs, rfl⟩ := Option.map_eq_some_iff.mp hat.symm
      refine .inl ⟨rs, hrs, fun j b' hb' hs => ?_⟩
      -- The stream is of no instrument but the measured one.
      obtain rfl := eq_of_mem_streams h.nodup built hb' owned hs
      obtain rfl := Option.some.inj (built.symm.trans hb')
      exact .record .refl draw ⟨taken, passes⟩ attributes sys.now
    · exact .inl ⟨rs', hat.symm, fun _ _ _ _ => .refl⟩
  | @collect r observed exporter =>
    have hrs' : streamAt (sys.readers.modify r _) s = some rs' := hrs'
    rw [streamAt_mapValues (g := fun rs => rs.collected observed sys.now) fun _ _ => rfl] at hrs'
    split at hrs'
    · obtain ⟨rs, hrs, rfl⟩ := Option.map_eq_some_iff.mp hrs'
      exact .inl ⟨rs, hrs, fun _ _ _ _ => .collected .refl observed sys.now⟩
    · exact .inl ⟨rs', hrs', fun _ _ _ _ => .refl⟩
  | @build p current provider key plans owner number suits =>
    rcases streamAt_openStreams_cases hrs' with ⟨hmem, plan, hplan, rfl⟩ | hbefore
    · have hnodup := (numbered_openStreams h provider.resource key.scope
        ((sys.newborn p provider key plans).observer.map (⟨p, ·⟩)) plans).nodup
      refine .inr ⟨fun hbuilt => (List.nodup_append.mp hnodup).2.2 s hbuilt s hmem rfl, ?_⟩
      exact ⟨_, _, getElem?_withNewborn_last sys p provider key plans, hmem, plan, sys.now,
        provider.resource, suits plan hplan, .refl⟩
    · exact .inl ⟨rs', hbefore, fun _ _ _ _ => .refl⟩

/-! ## Roots -/

/-- Every stream stems from the one instrument that has it, and numbers are given out once. -/
structure Rooted (test : Nat → α → Prop) (sys : System α) : Prop where
  streams : ∀ s rs, streamAt sys.readers s = some rs → ∃ (i : Nat) (b : BuiltInstrument),
    sys.instruments[i]? = some b ∧ s ∈ b.streams ∧ b.Stems (b.Accepts test i) rs
  numbered : Numbered sys.readers sys.builtStreams
  catalogued : Catalogued sys

namespace Rooted

/-- Every move keeps roots. -/
theorem move (h : Rooted test sys) (hmove : Move test sys sys') : Rooted test sys' := by
  refine ⟨fun s rs' hrs' => ?_, numbered_move h.numbered hmove, h.catalogued.move hmove⟩
  rcases hmove.streamAt_cases h.numbered hrs' with ⟨rs, hrs, hgrows⟩ | ⟨-, hnew⟩
  · obtain ⟨i, b, hb, hs, plan, time, resource, hsuits, hgrown⟩ := h.streams s rs hrs
    obtain ⟨b', hb', hident⟩ := hmove.exists_instrument hb
    obtain ⟨provider, key, observer, streams, life⟩ := b
    obtain ⟨provider', key', observer', streams', life'⟩ := b'
    simp only [BuiltInstrument.ident, Prod.mk.injEq] at hident
    obtain ⟨rfl, rfl, rfl, rfl⟩ := hident
    exact ⟨i, _, hb', hs, plan, time, resource, hsuits, hgrown.trans (hgrows i _ hb hs)⟩
  · exact hnew

/-- Any moves keep roots, by induction on their number. -/
theorem moves (h : Rooted test sys) (hmoves : Moves test sys sys') : Rooted test sys' := by
  induction hmoves with
  | refl => exact h
  | tail _ hmove ih => exact ih.move hmove

/-- A stream that is found stems from the instrument that has it: no other one has. -/
theorem stems (h : Rooted test sys) {i : Nat} {b : BuiltInstrument}
    (hb : sys.instruments[i]? = some b) {s : Nat × Nat} (hs : s ∈ b.streams)
    {rs : RegisteredStream α} (hrs : streamAt sys.readers s = some rs) :
    b.Stems (b.Accepts test i) rs := by
  obtain ⟨j, b', hb', hs', hstems⟩ := h.streams s rs hrs
  obtain rfl := eq_of_mem_streams h.numbered.nodup hb hb' hs hs'
  obtain rfl := Option.some.inj (hb.symm.trans hb')
  exact hstems

end Rooted

/-! ## A stream earlier and later -/

/-- An instrument stays what it is, under its index, whatever moves are made. -/
theorem Moves.exists_instrument (h : Moves test sys sys') {i : Nat} {b : BuiltInstrument}
    (hb : sys.instruments[i]? = some b) :
    ∃ b', sys'.instruments[i]? = some b' ∧ b'.ident = b.ident := by
  induction h with
  | refl => exact ⟨b, hb, rfl⟩
  | tail _ hmove ih =>
    obtain ⟨b', hb', hident'⟩ := ih
    obtain ⟨b'', hb'', hident''⟩ := hmove.exists_instrument hb'
    exact ⟨b'', hb'', hident''.trans hident'⟩

/-- A stream of an instrument that is found later was found earlier, and grew since by what the
instrument accepts. -/
theorem Rooted.grows_of_moves (h : Rooted test sys) (hmoves : Moves test sys sys') {i : Nat}
    {b : BuiltInstrument} (hb : sys.instruments[i]? = some b) {s : Nat × Nat} (hs : s ∈ b.streams)
    {rs' : RegisteredStream α} (hrs' : streamAt sys'.readers s = some rs') :
    ∃ rs, streamAt sys.readers s = some rs ∧ rs.Grows (b.Accepts test i) rs' := by
  induction hmoves generalizing rs' with
  | refl => exact ⟨rs', hrs', .refl⟩
  | tail hmoves hmove ih =>
    obtain ⟨b', hb', hident⟩ := Moves.exists_instrument hmoves hb
    have hkey : b'.key = b.key := congrArg (·.2.1) hident
    have hstreams : b'.streams = b.streams := congrArg (·.2.2.2) hident
    rw [← hstreams] at hs
    rcases hmove.streamAt_cases (h.moves hmoves).numbered hrs' with ⟨rs, hrs, hgrown⟩ | ⟨hnew, -⟩
    · obtain ⟨first, hfirst, hgrows⟩ := ih hrs
      have haccepts : (b'.Accepts test i : α → Prop) = b.Accepts test i := by
        unfold BuiltInstrument.Accepts
        rw [hkey]
      have hgrown := haccepts ▸ hgrown i b' hb' hs
      exact ⟨first, hfirst, hgrows.trans hgrown⟩
    · -- The stream was built before, so it is not new.
      exact absurd (List.mem_flatMap.mpr ⟨b', List.mem_of_getElem? hb', hs⟩) hnew

/-! ## Roots along a run -/

omit [Quantity α] in
theorem streamAt_launched (readers : List (Exporter α × Nat)) (providers : List (Resource × List Nat))
    (s : Nat × Nat) : streamAt (launched readers providers).readers s = none := by
  cases hs : streamAt (launched readers providers).readers s with
  | none => rfl
  | some rs =>
    obtain ⟨reader, hreader, hfound⟩ := Option.bind_eq_some_iff.mp hs
    obtain ⟨e, rfl⟩ := getElem?_launched_readers hreader
    cases hfound

/-- Nothing was built when a system is launched. -/
theorem rooted_launched (readers : List (Exporter α × Nat)) (providers : List (Resource × List Nat)) :
    Rooted test (launched readers providers) := by
  refine ⟨fun s rs hrs => ?_, ⟨?_, List.nodup_nil, fun r reader hr => ?_⟩,
    ⟨?_, List.nodup_nil, ?_⟩⟩
  · rw [streamAt_launched] at hrs
    cases hrs
  · intro s hs
    cases hs
  · obtain ⟨e, rfl⟩ := getElem?_launched_readers hr
    exact ⟨.nil, fun n hn => by cases hn⟩
  · intro b hb
    cases hb
  · intro o ho
    cases ho

/-- Roots hold after every run, whose measurements pass the test. -/
theorem rooted_run {σ : Type} (respond : Responder σ α) (known : σ)
    (readers : List (Exporter α × Nat)) (providers : List (Resource × List Nat))
    {commands : List (Command α)}
    (h : (launched readers providers).AdmitsAll test respond known commands) :
    Rooted test ((launched readers providers).run respond known commands).2.2 :=
  (rooted_launched readers providers).moves (.run respond known h)

end System

end Metering
