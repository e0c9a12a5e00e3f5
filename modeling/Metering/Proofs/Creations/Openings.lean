import Metering.Proofs.Creations.Living
import Metering.Proofs.Moves.Roots

/-!
# The Streams of a New Instrument

Which streams an instrument is built with, said without the plan that leads to them: for each view
that accepts the instrument, or once for its own shape if none does, one stream on each open reader
of the provider whose exporter has a temporality for the instrument and whose aggregation drops
nothing. A plan that could be made is this list, and to carry it out is to append each stream to its
reader under the next number.
-/

namespace Metering

variable {α : Type}

/-! ## What is wanted -/

/-- The views that shape the streams of an instrument: those that accept it in order of registration,
or none of them, once, if there is no such view. -/
def View.selecting (views : List (View α)) (scope : Scope) (i : Instrument α) : List (Option (View α)) :=
  let accepting := views.filter (·.criteria.accepts scope i.identity)
  if accepting.isEmpty then [none] else accepting.map some

/-- The shape that a view gives to the streams of an instrument; what it leaves open, and everything
if there is no view, is the instrument's own. -/
def Instrument.shape (i : Instrument α) (v : Option (View α)) : Projection α :=
  { name := (v.bind (·.name)).getD i.identity.name
    unit := i.identity.unit
    description := (v.bind (·.description)).or i.identity.description
    filter := ((v.bind (·.keys)).or i.advice.keys).map AttributeFilter.ofList
    aggregation := v.bind (·.aggregation)
    reservoir := v.bind (·.reservoir) }

theorem View.projections_eq (views : List (View α)) (scope : Scope) (i : Instrument α) :
    View.projections views scope i = (View.selecting views scope i).map i.shape := by
  unfold View.projections View.selecting
  cases views.filter (·.criteria.accepts scope i.identity) with
  | nil => rfl
  | cons v rest =>
    simp only [List.isEmpty_cons, Bool.false_eq_true, if_false, List.map_map]
    rfl

/-- The temporality and the aggregator of a stream on a reader, if the reader is open, its exporter
has a temporality for the instrument, and measurements are not to be dropped. The aggregation is the
given one, or else the exporter's for the kind. -/
def Reader.wants [Quantity α] (reader : Reader α) (scope : Scope) (i : Instrument α)
    (aggregation : Option (Aggregation α)) : Option (Temporality × Aggregator α) :=
  if reader.closed then none
  else
    (reader.exporter.temporality ⟨scope, i.identity⟩).bind fun temporality =>
      (((aggregation.getD (reader.exporter.aggregation i.identity.kind)).resolve i).toOption.bind id).map
        (temporality, ·)

namespace System

variable [Quantity α] {sys sys' : System α} {provider : Provider α} {scope : Scope}
  {i : Instrument α} {entries : List (JournalEntry α)} {plans : List (StreamPlan α)}

/-- The plan for the stream of one projection on one reader, if it is wanted there. -/
def planned? (sys : System α) (scope : Scope) (i : Instrument α) (pr : Projection α) (r : Nat) :
    Option (StreamPlan α) :=
  (sys.readers[r]?.bind fun reader => reader.wants scope i pr.aggregation).map fun choice =>
    { reader := r, projection := pr, temporality := choice.1, aggregator := choice.2 }

/-- The plans for all streams of an instrument: view by view, reader by reader. -/
def plansFor (sys : System α) (provider : Provider α) (scope : Scope) (i : Instrument α) :
    List (StreamPlan α) :=
  (View.selecting provider.views scope i).flatMap fun v =>
    provider.readers.filterMap (sys.planned? scope i (i.shape v))

/-! ## Plans that could be made -/

theorem planStream_eq_ok {reader : Reader α} (hopen : reader.closed = false) {r : Nat}
    {pr : Projection α} {plan : Option (StreamPlan α)}
    (h : (planStream reader.exporter r scope i pr).2 = .ok plan) :
    plan = (reader.wants scope i pr.aggregation).map fun choice =>
      { reader := r, projection := pr, temporality := choice.1, aggregator := choice.2 } := by
  unfold planStream at h
  simp only [Reader.wants, hopen, Bool.false_eq_true, if_false]
  cases htemporality : reader.exporter.temporality ⟨scope, i.identity⟩ with
  | none =>
    simp only [htemporality] at h
    exact (Except.ok.inj h).symm
  | some temporality =>
    simp only [htemporality] at h
    -- The choice is the projection's or the exporter's, if the latter is valid.
    have hchoice {choice : Aggregation α}
        (hc : (chooseAggregation reader.exporter i.identity.kind pr).2 = .ok choice) :
        choice = pr.aggregation.getD (reader.exporter.aggregation i.identity.kind) := by
      unfold chooseAggregation at hc
      cases hpr : pr.aggregation with
      | some a =>
        simp only [hpr] at hc
        exact (Except.ok.inj hc).symm
      | none =>
        simp only [hpr] at hc
        cases hcheck : (reader.exporter.aggregation i.identity.kind).check with
        | error e =>
          rw [hcheck] at hc
          cases hc
        | ok _ =>
          rw [hcheck] at hc
          exact (Except.ok.inj hc).symm
    cases hc : (chooseAggregation reader.exporter i.identity.kind pr).2 with
    | error e =>
      rw [hc] at h
      cases h
    | ok choice =>
      rw [hc] at h
      have h : (choice.resolve i >>= fun aggregator => pure (aggregator.map _)) = Except.ok plan := h
      rw [← hchoice hc, Option.bind_some]
      cases hresolve : choice.resolve i with
      | error e =>
        rw [hresolve] at h
        cases h
      | ok aggregator =>
        rw [hresolve] at h
        obtain rfl := Except.ok.inj h
        cases aggregator <;> rfl

theorem planStreams_eq_ok {pairs : List (Projection α × Nat)}
    (h : (sys.planStreams scope i pairs).2 = .ok plans) :
    plans = pairs.filterMap fun pair => sys.planned? scope i pair.1 pair.2 := by
  induction pairs generalizing plans with
  | nil => exact (Except.ok.inj h).symm
  | cons pair rest ih =>
    obtain ⟨pr, r⟩ := pair
    unfold planStreams at h
    cases hr : sys.readers[r]? with
    | none =>
      simp only [hr] at h
      have hnone : sys.planned? scope i pr r = none := by simp [planned?, hr]
      rw [List.filterMap_cons, hnone]
      exact ih h
    | some reader =>
      simp only [hr] at h
      cases hclosed : reader.closed with
      | true =>
        simp only [hclosed, if_true] at h
        have hnone : sys.planned? scope i pr r = none := by simp [planned?, hr, Reader.wants, hclosed]
        rw [List.filterMap_cons, hnone]
        exact ih h
      | false =>
        simp only [hclosed, Bool.false_eq_true, if_false] at h
        split at h
        · cases h
        · rename_i plan hplan
          have hplanned : sys.planned? scope i pr r = plan := by
            rw [planStream_eq_ok hclosed hplan, planned?, hr, Option.bind_some]
          cases hrest : (sys.planStreams scope i rest).2 with
          | error e =>
            rw [hrest] at h
            cases h
          | ok others =>
            rw [hrest] at h
            obtain rfl := Except.ok.inj h
            rw [ih hrest, List.filterMap_cons, hplanned]
            cases plan <;> rfl

/-- A plan that could be made has the streams that are wanted, in their order. -/
theorem plan_eq_ok (h : sys.plan provider scope i = (entries, .ok plans)) :
    plans = sys.plansFor provider scope i := by
  rw [planStreams_eq_ok (congrArg (·.2) h), View.projections_eq, plansFor, List.flatMap_map,
    List.filterMap_flatMap]
  simp only [List.filterMap_map]
  rfl

/-- Streams are planned on open readers. -/
theorem isClosed_of_mem_plansFor {plan : StreamPlan α} (h : plan ∈ sys.plansFor provider scope i) :
    sys.isClosed plan.reader = false := by
  obtain ⟨v, -, hplan⟩ := List.mem_flatMap.mp h
  obtain ⟨r, -, hplanned⟩ := List.mem_filterMap.mp hplan
  obtain ⟨choice, hchoice, rfl⟩ := Option.map_eq_some_iff.mp hplanned
  obtain ⟨reader, hr, hwants⟩ := Option.bind_eq_some_iff.mp hchoice
  unfold Reader.wants at hwants
  cases hclosed : reader.closed with
  | true => simp [hclosed] at hwants
  | false => exact isClosed_eq_false_iff.mpr ⟨reader, hr, hclosed⟩

end System

/-! ## Plans that are carried out -/

/-- A reader with further streams at the end of its list, under the numbers that come next. -/
structure Reader.Extends (before after : Reader α) (streams : List (RegisteredStream α)) : Prop where
  entries : after.streams.entries =
    before.streams.entries ++ (streams.zipIdx before.nextStream).map Prod.swap
  nextStream : after.nextStream = before.nextStream + streams.length
  rest : after = { before with streams := after.streams, nextStream := after.nextStream }

namespace Reader.Extends

variable {before after after' : Reader α} {xs ys : List (RegisteredStream α)}

theorem refl (reader : Reader α) : reader.Extends reader [] :=
  ⟨(List.append_nil _).symm, rfl, rfl⟩

theorem trans (h : before.Extends after xs) (k : after.Extends after' ys) :
    before.Extends after' (xs ++ ys) := by
  refine ⟨?_, ?_, ?_⟩
  · rw [k.entries, h.entries, h.nextStream, List.zipIdx_append, List.map_append, List.append_assoc]
  · rw [k.nextStream, h.nextStream, List.length_append, Nat.add_assoc]
  · rw [k.rest, h.rest]

/-- An open reader takes a stream under its next number. -/
theorem register {reader : Reader α} (hopen : reader.closed = false)
    (hlt : ∀ n ∈ reader.streams.keys, n < reader.nextStream) (s : RegisteredStream α) :
    reader.Extends (reader.register s).2 [s] := by
  have hregister : (reader.register s).2 = { reader with
      streams := reader.streams.insert reader.nextStream s
      nextStream := reader.nextStream + 1 } := by simp [Reader.register, hopen]
  rw [hregister]
  exact ⟨Table.entries_insert_of_new (Table.forall_ne_of_lt hlt) s, rfl, rfl⟩

/-- What was found before is found after. -/
theorem find?_of_some (h : before.Extends after xs) {n : Nat} {s : RegisteredStream α}
    (hs : before.streams.find? n = some s) : after.streams.find? n = some s := by
  rw [Table.find?_eq_some_iff_mem] at hs ⊢
  rw [h.entries]
  exact List.mem_append_left _ hs

end Reader.Extends

namespace System

variable {sys : System α} {built : List (Nat × Nat)} {q : Nat} {resource : Resource} {scope : Scope}
  {observer : Option ObserverRef} {plans : List (StreamPlan α)}

theorem extends_place (h : Numbered sys.readers built) (hopen : sys.isClosed q = false)
    (stream : RegisteredStream α) (r : Nat) :
    Option.Rel (fun before after : Reader α =>
        before.Extends after (if q = r then [stream] else []))
      sys.readers[r]? (sys.place q stream).2.readers[r]? := by
  obtain ⟨reader, hq, hreader⟩ := isClosed_eq_false_iff.mp hopen
  show Option.Rel _ _ (sys.readers.modify q _)[r]?
  by_cases hr : q = r
  · subst hr
    rw [getElem?_modify_of_some _ hq, hq, if_pos rfl]
    exact .some (.register hreader (h.ascending q reader hq).2 stream)
  · rw [List.getElem?_modify_ne _ _ hr, if_neg hr]
    exact rel_refl (.refl ·) _

theorem isClosed_place (q : Nat) (stream : RegisteredStream α) (r : Nat) :
    (sys.place q stream).2.isClosed r = sys.isClosed r := by
  have hclosed (readers : List (Reader α)) : ((readers[r]?.map (·.closed)).getD true) =
      ((readers.map (·.closed))[r]?).getD true := by rw [List.getElem?_map]
  simp only [isClosed, hclosed]
  refine congrArg (fun flags => flags[r]?.getD true) (map_modify_of_eq fun reader _ => ?_)
  unfold Reader.register
  split <;> rfl

/-- Every reader takes the streams that are planned for it, in their order. -/
theorem extends_openStreams (h : Numbered sys.readers built) (resource : Resource) (scope : Scope)
    (observer : Option ObserverRef) (hopen : ∀ plan ∈ plans, sys.isClosed plan.reader = false)
    (r : Nat) :
    Option.Rel (fun before after : Reader α => before.Extends after
        ((plans.filter (·.reader == r)).map (sys.planned resource scope observer)))
      sys.readers[r]? (sys.openStreams resource scope observer plans).2.readers[r]? := by
  induction plans generalizing sys built with
  | nil => exact rel_refl (.refl ·) _
  | cons plan rest ih =>
    have hplaced := extends_place h (hopen plan (List.mem_cons_self ..))
      (sys.planned resource scope observer plan) r
    have hrest := ih (numbered_place h plan.reader (sys.planned resource scope observer plan))
      fun other hother => (isClosed_place ..).trans (hopen other (List.mem_cons_of_mem _ hother))
    refine rel_trans (fun before between after hbefore hafter => ?_) hplaced hrest
    -- The first plan is for this reader or for another; the rest begin at the same time.
    have hlist : ((plan :: rest).filter (·.reader == r)).map (sys.planned resource scope observer) =
        (if plan.reader = r then [sys.planned resource scope observer plan] else []) ++
          (rest.filter (·.reader == r)).map (sys.planned resource scope observer) := by
      by_cases hr : plan.reader = r <;> simp [hr]
    rw [hlist]
    exact hbefore.trans hafter

/-- Every plan is carried out on its reader, and the number leads to the planned stream. -/
theorem forall₂_openStreams (h : Numbered sys.readers built)
    (hopen : ∀ plan ∈ plans, sys.isClosed plan.reader = false) :
    List.Forall₂ (fun s plan => s.1 = plan.reader ∧
        streamAt (sys.openStreams resource scope observer plans).2.readers s =
          some (sys.planned resource scope observer plan))
      (sys.openStreams resource scope observer plans).1 plans := by
  induction plans generalizing sys built with
  | nil => exact .nil
  | cons plan rest ih =>
    let stream := sys.planned resource scope observer plan
    have hplanOpen := hopen plan (List.mem_cons_self ..)
    obtain ⟨reader, hreader, hreaderOpen⟩ := isClosed_eq_false_iff.mp hplanOpen
    have hnumber : (sys.place plan.reader stream).1 = some reader.nextStream := by
      simp only [place, hreader, Option.bind_some]
      exact Reader.register_eq_some.mpr ⟨hreaderOpen, rfl⟩
    have hnumbered := numbered_place h plan.reader stream
    have hopenRest : ∀ other ∈ rest, (sys.place plan.reader stream).2.isClosed other.reader = false :=
      fun other hother => (isClosed_place ..).trans (hopen other (List.mem_cons_of_mem _ hother))
    have hfound : streamAt (sys.place plan.reader stream).2.readers (plan.reader, reader.nextStream) =
        some stream := by
      rw [streamAt_place, hnumber, Option.map_some, if_pos rfl]
    rw [openStreams_cons, hnumber]
    refine .cons ⟨rfl, ?_⟩ (ih hnumbered hopenRest)
    -- The plans that follow leave the stream where it is.
    obtain ⟨between, hbetween, hstream⟩ := Option.bind_eq_some_iff.mp hfound
    have hrest := extends_openStreams hnumbered resource scope observer hopenRest plan.reader
    obtain ⟨after, hafter, hextends⟩ := exists_of_some_rel (hbetween ▸ hrest)
    exact Option.bind_eq_some_iff.mpr ⟨after, hafter, hextends.find?_of_some hstream⟩

end System

end Metering
