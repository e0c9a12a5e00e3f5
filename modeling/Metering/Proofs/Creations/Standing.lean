import Metering.Proofs.Creations.Openings

/-!
# What is Fixed about Streams

A stream is opened with a form: what it is exported as, which instrument feeds it, and its settings.
No step changes the form of a stream. A step that ends nothing also leaves every stream where it is,
so that what readers list of their streams only grows at the end, by streams of new instruments.
-/

namespace Metering

variable {α : Type}

/-! ## Forms -/

namespace RegisteredStream

/-- The settings that the stream was opened with. -/
def settings (rs : RegisteredStream α) : StreamSettings α :=
  match rs.source with
  | .synchronous stream => stream.settings
  | .asynchronous stream _ => stream.settings

/-- What is fixed about a stream when it is opened. -/
def form (rs : RegisteredStream α) :
    (Scope × Resource × String × Option String × Option String × Option ObserverRef) ×
      StreamSettings α :=
  (rs.label, rs.settings)

variable [Quantity α] {accepts : α → Prop} {rs rs' : RegisteredStream α}

theorem form_record (rs : RegisteredStream α) (draw : Nat) (value : α) (attributes : Attributes)
    (time : Time) : (rs.record draw value attributes time).form = rs.form := by
  refine Prod.ext (label_record ..) ?_
  unfold RegisteredStream.record form settings
  cases hsource : rs.source with
  | synchronous stream => rfl
  | asynchronous stream o => simp [hsource]

theorem form_collected (rs : RegisteredStream α) (observed : Table Nat (Observations α))
    (time : Time) : (rs.collected observed time).form = rs.form := by
  refine Prod.ext (label_collected ..) ?_
  unfold RegisteredStream.collected form settings
  cases rs.source <;> rfl

/-- A stream keeps its form as it grows. -/
theorem Grows.form (h : Grows accepts rs rs') : rs'.form = rs.form := by
  induction h with
  | refl => rfl
  | record _ draw _ attributes time ih => exact (form_record ..).trans ih
  | collected _ observed time ih => exact (form_collected ..).trans ih

end RegisteredStream

/-! ## Readers on which streams stand -/

/-- The streams of a reader in their order, each with its number and its form. -/
def Reader.forms (reader : Reader α) :=
  reader.streams.entries.map fun e => (e.1, e.2.form)

section

variable [Quantity α]

/-- One stream records, and none changes its form. -/
theorem Reader.forms_record (reader : Reader α) (n draw : Nat) (value : α) (attributes : Attributes)
    (time : Time) : (reader.record n draw value attributes time).forms = reader.forms := by
  show (reader.streams.modify n _).entries.map _ = _
  simp only [Table.modify, Reader.forms, List.map_map]
  refine List.map_congr_left fun e _ => ?_
  simp only [Function.comp_apply]
  split
  · rw [RegisteredStream.form_record]
  · rfl

theorem Reader.forms_collected (reader : Reader α) (observed : Table Nat (Observations α))
    (time : Time) : (reader.collected observed time).forms = reader.forms := by
  show (reader.streams.mapValues _).entries.map _ = _
  simp only [Table.mapValues, Reader.forms, List.map_map]
  refine List.map_congr_left fun e _ => ?_
  simp only [Function.comp_apply, RegisteredStream.form_collected]

end

/-- What a reader lists stays, and streams are only added at the end, under new numbers. -/
structure Reader.Stands (before after : Reader α) : Prop where
  forms : ∃ later, after.forms = before.forms ++ later ∧ ∀ e ∈ later, before.nextStream ≤ e.1
  nextStream : before.nextStream ≤ after.nextStream

namespace Reader.Stands

variable {before after after' : Reader α}

theorem of_forms_eq (hforms : after.forms = before.forms)
    (hnext : after.nextStream = before.nextStream) : before.Stands after :=
  ⟨⟨[], by rw [hforms, List.append_nil], by simp⟩, Nat.le_of_eq hnext.symm⟩

theorem refl (reader : Reader α) : reader.Stands reader := of_forms_eq rfl rfl

theorem trans (h : before.Stands after) (k : after.Stands after') : before.Stands after' := by
  obtain ⟨xs, hxs, hxs'⟩ := h.forms
  obtain ⟨ys, hys, hys'⟩ := k.forms
  refine ⟨⟨xs ++ ys, by rw [hys, hxs, List.append_assoc], fun e he => ?_⟩,
    Nat.le_trans h.nextStream k.nextStream⟩
  rcases List.mem_append.mp he with he | he
  · exact hxs' e he
  · exact Nat.le_trans h.nextStream (hys' e he)

theorem of_extends {streams : List (RegisteredStream α)} (h : before.Extends after streams) :
    before.Stands after := by
  refine ⟨⟨_, (congrArg (List.map _) h.entries).trans (List.map_append ..), fun e he => ?_⟩, ?_⟩
  · obtain ⟨x, hx, rfl⟩ := List.mem_map.mp he
    obtain ⟨y, hy, rfl⟩ := List.mem_map.mp hx
    exact List.le_snd_of_mem_zipIdx hy
  · rw [h.nextStream]
    exact Nat.le_add_right ..

/-- A reader that is offered a stream lists it at the end, or not at all. -/
theorem register {reader : Reader α} (hlt : ∀ n ∈ reader.streams.keys, n < reader.nextStream)
    (s : RegisteredStream α) : reader.Stands (reader.register s).2 := by
  cases hclosed : reader.closed with
  | true =>
    have hsame : (reader.register s).2 = reader := by simp [Reader.register, hclosed]
    rw [hsame]
    exact refl reader
  | false => exact of_extends (.register hclosed hlt s)

/-- A stream is found under a number that was given out exactly if it was found before, and has the
form that it had. -/
theorem form_find? (h : before.Stands after) {n : Nat} (hn : n < before.nextStream) :
    (after.streams.find? n).map (·.form) = (before.streams.find? n).map (·.form) := by
  have hfind (reader : Reader α) : (reader.streams.find? n).map (·.form) =
      (reader.forms.find? fun e => e.1 == n).map (·.2) := by
    simp [Table.find?, Reader.forms, List.find?_map, Function.comp_def]
  obtain ⟨later, hforms, hlater⟩ := h.forms
  -- What came later has numbers that were not given out yet.
  have hnone : later.find? (fun e => e.1 == n) = none := by
    refine List.find?_eq_none.mpr fun e he hne => ?_
    have := hlater e he
    rw [beq_iff_eq] at hne
    omega
  rw [hfind, hfind, hforms, List.find?_append, hnone, Option.or_none]

end Reader.Stands

namespace System

variable {sys sys' sys'' : System α}

/-- Whether streams stand on every reader. -/
def Standing (sys sys' : System α) : Prop :=
  Pointwise (fun _ => Reader.Stands) sys.readers sys'.readers

namespace Standing

theorem of_readers_eq (h : sys'.readers = sys.readers) : Standing sys sys' :=
  Pointwise.of_eq (fun _ reader => .refl reader) h

theorem trans (h : Standing sys sys') (k : Standing sys' sys'') : Standing sys sys'' :=
  Pointwise.trans (fun _ _ _ _ => .trans) h k

theorem modifyReader (sys : System α) (r : Nat) {f : Reader α → Reader α}
    (h : ∀ reader, Reader.Stands reader (f reader)) : Standing sys (sys.modifyReader r f) :=
  Pointwise.modify (fun _ reader => .refl reader) sys.readers r h

/-- A stream that was ever built is found exactly if it was found before, and has the form that it
had. -/
theorem form_streamAt (h : Standing sys sys') (hnumbered : Numbered sys.readers sys.builtStreams)
    {s : Nat × Nat} (hs : s ∈ sys.builtStreams) :
    (streamAt sys'.readers s).map (·.form) = (streamAt sys.readers s).map (·.form) := by
  obtain ⟨before, hbefore, hlt⟩ := hnumbered.bounded s hs
  obtain ⟨after, hafter, hstands⟩ := exists_of_some_rel (hbefore ▸ h s.1)
  simp only [streamAt, hbefore, hafter, Option.bind_some]
  exact hstands.form_find? hlt

end Standing

theorem standing_openStreams {built : List (Nat × Nat)} (h : Numbered sys.readers built)
    (resource : Resource) (scope : Scope) (observer : Option ObserverRef)
    (plans : List (StreamPlan α)) :
    Standing sys (sys.openStreams resource scope observer plans).2 := by
  induction plans generalizing sys built with
  | nil => exact .of_readers_eq rfl
  | cons plan rest ih =>
    let stream := sys.planned resource scope observer plan
    have hplaced : Standing sys (sys.place plan.reader stream).2 := by
      intro r
      show Option.Rel _ _ (sys.readers.modify plan.reader _)[r]?
      cases hr : sys.readers[r]? with
      | none =>
        rw [List.getElem?_modify, hr]
        exact .none
      | some reader =>
        rw [List.getElem?_modify, hr]
        refine .some ?_
        split
        · exact .register (h.ascending r reader hr).2 stream
        · exact .refl reader
    exact hplaced.trans (ih (numbered_place h plan.reader stream))

variable [Quantity α]

theorem standing_writeTo (sys : System α) (value : α) (attributes : Attributes) (draw : Nat → Nat)
    (streams : List (Nat × Nat)) : Standing sys (sys.writeTo value attributes draw streams) := by
  unfold writeTo
  induction streams.zipIdx generalizing sys with
  | nil => exact .of_readers_eq rfl
  | cons s rest ih =>
    have hfirst : Standing sys (sys.modifyReader s.1.1 fun reader =>
        reader.record s.1.2 (draw s.2) value attributes sys.now) := by
      refine .modifyReader sys s.1.1 fun reader => .of_forms_eq ?_ rfl
      exact reader.forms_record ..
    exact hfirst.trans (ih _)

/-- A step that ends nothing lets streams stand. -/
theorem Step.standing (hstep : Step .none sys sys')
    (hnumbered : Numbered sys.readers sys.builtStreams) : Standing sys sys' := by
  -- Steps that let go of something or close something are not allowed.
  cases hstep with
  | clock | hold | note | provider => exact .of_readers_eq rfl
  | @reader r f same =>
    refine .modifyReader sys r fun reader => .of_forms_eq ?_ (congrArg (·.2.1) (same reader))
    have hstreams : (f reader).streams = reader.streams := congrArg (·.1) (same reader)
    simp only [Reader.forms, hstreams]
  | acquire i f =>
    refine .of_readers_eq ?_
    unfold System.acquire
    split <;> rfl
  | release i f allowed => exact allowed.elim
  | clear allowed => exact allowed.elim
  | build => exact (standing_openStreams hnumbered _ _ _ _).trans (.of_readers_eq rfl)
  | record built taken attributes draw => exact standing_writeTo sys _ _ _ _
  | pass found running performances =>
    refine Pointwise.modify (fun _ reader => .refl reader) sys.readers _ fun reader => ?_
    exact .of_forms_eq (reader.forms_collected ..) rfl
  | close r allowed => exact allowed.elim
  | finish r allowed => exact allowed.elim
  | quit p allowed => exact allowed.elim

/-- Steps that end nothing let streams stand, by induction on their number. -/
theorem Steps.standing (hsteps : Steps .none sys sys') (hrooted : Rooted (fun _ _ => True) sys) :
    Standing sys sys' := by
  induction hsteps with
  | refl => exact .of_readers_eq rfl
  | tail hsteps hstep ih =>
    exact ih.trans (hstep.standing (hrooted.moves (Steps.moves hsteps)).numbered)

end System

/-! ## Later runs -/

/-- Whether a command lets go of nothing and shuts nothing down. -/
def Command.Keeps : Command α → Prop
  | .drop _ | .detach _ | .dropProvider _ | .dropReader _ | .shutdownReader _ | .shutdown _ => False
  | _ => True

namespace System

variable [Quantity α] {sys : System α}

omit [Quantity α] in
theorem endings_of_keeps {c : Command α} (h : c.Keeps) : sys.endings c = .none := by
  cases c with
  | drop _ | detach _ | dropProvider _ | dropReader _ | shutdownReader _ | shutdown _ => exact h.elim
  | _ => rfl

section

variable {σ : Type} (respond : Responder σ α) (known : σ)

theorem Steps.run_of_keeps (sys : System α) {commands : List (Command α)}
    (h : ∀ c ∈ commands, c.Keeps) : Steps .none sys (sys.run respond known commands).2.2 := by
  induction commands generalizing sys known with
  | nil => exact refl sys
  | cons c rest ih =>
    have hfirst := Steps.perform respond known sys c
    rw [endings_of_keeps (h c (List.mem_cons_self ..))] at hfirst
    exact hfirst.trans (ih _ _ fun d hd => h d (List.mem_cons_of_mem _ hd))

/-- The streams of an instrument, each with its form, and without one if the stream is gone. -/
def arrangement (sys : System α) (i : Nat) :=
  sys.instruments[i]?.map fun b => b.streams.map fun s => (s, (streamAt sys.readers s).map (·.form))

/-- What a later run does to the streams of the instruments that there are. -/
structure Frozen (sys : System α) (commands : List (Command α)) (sys' : System α) : Prop where
  /-- Whatever is done, instruments have the streams that they were built with, and a stream of
  theirs that is found is one that was found before, with the form that it had. -/
  forms : ∀ (i : Nat) (b : BuiltInstrument), sys.instruments[i]? = some b →
    ∃ b', sys'.instruments[i]? = some b' ∧ b'.ident = b.ident ∧
      ∀ s ∈ b.streams, ∀ rs', streamAt sys'.readers s = some rs' →
        ∃ rs, streamAt sys.readers s = some rs ∧ rs'.form = rs.form
  /-- While nothing is let go of or shut down, every stream of theirs stays, and readers list what
  is added behind what they have. -/
  kept : (∀ c ∈ commands, c.Keeps) → Standing sys sys' ∧
    ∀ i < sys.instruments.length, sys'.arrangement i = sys.arrangement i
  /-- Every stream that is found is one of an instrument. -/
  owned : ∀ s rs, streamAt sys'.readers s = some rs →
    ∃ (i : Nat) (b : BuiltInstrument), sys'.instruments[i]? = some b ∧ s ∈ b.streams

theorem frozen_run (h : Rooted (fun _ _ => True) sys) (commands : List (Command α)) :
    Frozen sys commands (sys.run respond known commands).2.2 := by
  have hmoves : Moves (fun _ _ => True) sys (sys.run respond known commands).2.2 :=
    Steps.moves (.run respond known sys commands)
  refine ⟨fun i b hb => ?_, fun hkeeps => ?_, fun s rs hrs => ?_⟩
  · obtain ⟨b', hb', hident⟩ := Moves.exists_instrument hmoves hb
    refine ⟨b', hb', hident, fun s hs rs' hrs' => ?_⟩
    obtain ⟨rs, hrs, hgrows⟩ := h.grows_of_moves hmoves hb hs hrs'
    exact ⟨rs, hrs, hgrows.form⟩
  · -- Every stream that was built stands, so it is found where it was, if it was found.
    have hstanding := (Steps.run_of_keeps respond known sys hkeeps).standing h
    refine ⟨hstanding, fun i hi => ?_⟩
    have hb : sys.instruments[i]? = some sys.instruments[i] := List.getElem?_eq_getElem hi
    obtain ⟨b', hb', hident⟩ := Moves.exists_instrument hmoves hb
    have hstreams : b'.streams = sys.instruments[i].streams := congrArg (·.2.2.2) hident
    simp only [arrangement, hb, hb', hstreams, Option.map_some, Option.some.injEq]
    refine List.map_congr_left fun s hs => ?_
    have hbuilt : s ∈ sys.builtStreams :=
      List.mem_flatMap.mpr ⟨_, List.mem_of_getElem? hb, hs⟩
    rw [hstanding.form_streamAt h.numbered hbuilt]
  · obtain ⟨i, b, hb, hs, -⟩ := (h.moves hmoves).streams s rs hrs
    exact ⟨i, b, hb, hs⟩

end

end System

end Metering
