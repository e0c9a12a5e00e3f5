import Metering.Proofs.NaNs.Passes
import Metering.Proofs.Observations.Membership

/-!
# What Values that are Not Numbers Leave Behind

A measurement whose value is not a number is dropped by the handle that it is made with, and leaves
nothing but a line in the log. Callbacks have no such guard: what they observe is filed, whatever its
value. So it depends on what else is observed in the pass. The stream sees the same without the
observation just if a number replaces it in the end, and the attribute sets of the numbers come in the
same order without it. A run in which this is so for all streams of all passes goes as if nothing but
numbers had been measured and observed.
-/

namespace Metering

variable {α σ : Type} [Quantity α]

/-! ## Tables without some of their observations -/

/-- Whether the value of an observation is a number. -/
def Observation.isNumber (o : Observation α) : Bool := !Quantity.isNaN o.value

/-- The call with what it observed of numbers only. -/
def Performance.numbers (p : Performance α) : Performance α :=
  { p with observations := p.observations.filter (·.isNumber) }

/-- Whether values that are not numbers leave no mark on a table of observations: none of them is the
last one at its attributes, and the attributes of the numbers come in the same order without them. -/
structure Unmarked (observations : List (Observation α)) : Prop where
  replaced : ∀ v ∈ (merged observations).values, Quantity.isNaN v = false
  ordered : (merged (observations.filter (·.isNumber))).keys = (merged observations).keys

/-- The numbers make the same table just if the others leave no mark on it. -/
theorem merged_numbers_eq_iff {observations : List (Observation α)} :
    merged (observations.filter (·.isNumber)) = merged observations ↔ Unmarked observations := by
  constructor
  · intro h
    refine ⟨fun v hv => ?_, congrArg Table.keys h⟩
    rw [← h] at hv
    obtain ⟨e, he, rfl⟩ := List.mem_map.mp hv
    -- The value was observed, as one of the numbers.
    have hfound := (find?_merged _ e.1).symm.trans (Table.find?_eq_some_of_mem he BEq.rfl)
    obtain ⟨o, ho, hvalue⟩ := Option.map_eq_some_iff.mp hfound
    obtain ⟨hnumber, -⟩ := List.mem_filter.mp (List.mem_of_getLast? ho)
    have hnumber : o.isNumber = true := (List.mem_filter.mp hnumber).2
    simpa [Observation.isNumber, hvalue] using hnumber
  · intro h
    refine Table.ext_find? h.ordered fun k hk => ?_
    rw [h.ordered] at hk
    obtain ⟨e, he, rfl⟩ := List.mem_map.mp hk
    have hnumber := h.replaced e.2 (List.mem_map_of_mem he)
    have hfound : (merged observations).find? e.1 = some e.2 :=
      Table.find?_eq_some_of_mem he BEq.rfl
    rw [hfound, find?_merged, List.filter_comm]
    -- The last observation with these attributes is a number, so it is the last number with them.
    rw [find?_merged] at hfound
    obtain ⟨o, ho, hvalue⟩ := Option.map_eq_some_iff.mp hfound
    obtain ⟨earlier, hsame⟩ := List.getLast?_eq_some_iff.mp ho
    have hkept : o.isNumber = true := by simp [Observation.isNumber, hvalue, hnumber]
    rw [hsame, List.filter_append, List.filter_cons_of_pos hkept, List.filter_nil,
      List.getLast?_concat, Option.map_some, hvalue]

/-! ## What streams see -/

namespace Answer

/-- What decides about a number: everything that the last provider with a successful call registered
for the number filed under it. -/
def deciding (answers : List (List (Answer α))) (n : Nat) : List (Observation α) :=
  ((answers.reverse.find? fun group => group.any (·.registered n)).map fun group =>
    group.flatMap (·.filed n)).getD []

omit [Quantity α] in
theorem seenObservations_eq_merged (answers : List (List (Answer α))) (o : ObserverRef) :
    seenObservations answers o = merged (deciding answers o.number) := by
  rw [seenObservations, deciding]
  cases answers.reverse.find? fun group => group.any (·.registered o.number) <;> rfl

/-- A call that observes numbers only files the numbers of what it files. -/
theorem filed_numbers (n : Nat) (answer : Answer α) :
    filed n (answer.1, answer.2.numbers) = (answer.filed n).filter (·.isNumber) := by
  have hregistered : registered n (answer.1, answer.2.numbers) = answer.registered n := rfl
  rw [filed, filed, hregistered]
  split
  · exact List.filter_comm ..
  · rfl

/-- Without the values that are not numbers, the numbers among what decided do. -/
theorem deciding_retold (answers : List (List (Answer α))) (n : Nat) :
    deciding (Answer.retold Performance.numbers answers) n =
      (deciding answers n).filter (·.isNumber) := by
  have hany (group : List (Answer α)) :
      (group.map fun a => (a.1, a.2.numbers)).any (registered n) = group.any (registered n) := by
    rw [List.any_map]
    rfl
  have hfiled (group : List (Answer α)) :
      (group.map fun a => (a.1, a.2.numbers)).flatMap (filed n) =
        (group.flatMap (filed n)).filter (·.isNumber) := by
    rw [List.flatMap_map, List.filter_flatMap]
    exact List.flatMap_congr fun a _ => filed_numbers n a
  rw [deciding, deciding, Answer.retold, ← List.map_reverse, List.find?_map]
  simp only [Function.comp_def, hany, Option.map_map, hfiled]
  cases answers.reverse.find? fun group => group.any (·.registered n) <;> rfl

end Answer

/-- Whether values that are not numbers leave no mark on what the streams of a pass see. -/
def Pass.Unmarked (respond : Responder σ α) (pass : Pass σ α) : Prop :=
  ∀ reader, pass.system.readers[pass.reader]? = some reader →
    ∀ rs ∈ reader.streams.values, ∀ o, rs.observer? = some o →
      Metering.Unmarked
        (Answer.deciding (pass.system.answers respond pass.known reader) o.number)

/-- The streams of a pass see the same without the values that are not numbers just if these leave no
mark on it. -/
theorem Pass.seesSame_numbers_iff (respond : Responder σ α) (pass : Pass σ α) :
    pass.SeesSame Performance.numbers respond ↔ pass.Unmarked respond := by
  simp only [SeesSame, Unmarked, System.answers_retold, Answer.seenObservations_eq_merged,
    Answer.deciding_retold, merged_numbers_eq_iff]

/-! ## Commands -/

/-- Whether a command measures something that is not a number. -/
def Command.recordsNaN : Command α → Bool
  | .record _ value _ _ => Quantity.isNaN value
  | _ => false

/-- The replies to the commands that do not measure what is not a number. -/
def repliesToNumbers (commands : List (Command α)) (replies : List (Reply α)) : List (Reply α) :=
  ((commands.zip replies).filter fun e => !e.1.recordsNaN).map (·.2)

theorem repliesToNumbers_cons (c : Command α) (commands : List (Command α)) (reply : Reply α)
    (replies : List (Reply α)) :
    repliesToNumbers (c :: commands) (reply :: replies) =
      (if c.recordsNaN then [] else [reply]) ++ repliesToNumbers commands replies := by
  simp only [repliesToNumbers, List.zip_cons_cons, List.filter_cons]
  cases c.recordsNaN <;> rfl

namespace System

open Quantity

variable (respond : Responder σ α) (known : σ)

/-- What is not a number is dropped by the handle, if not as a decrement. -/
theorem exists_objection_of_isNaN {value : α} (h : isNaN value = true) (key : InstrumentKey) :
    ∃ e, objection key value = some e ∧ e.drops = true := by
  simp only [objection, if_pos h]
  split <;> exact ⟨_, rfl, rfl⟩

/-- A measurement of what is not a number is answered like any other, and leaves nothing but a line in
the log. -/
theorem perform_of_recordsNaN {c : Command α} (h : c.recordsNaN = true) (sys : System α) :
    (sys.perform respond known c).1 = .done ∧ (sys.perform respond known c).2.1 = known ∧
      Unheard (sys.perform respond known c).2.2 sys := by
  cases c with
  | record handle value attributes draw =>
    refine ⟨rfl, rfl, ?_⟩
    show Unheard (sys.record handle value attributes draw) sys
    unfold System.record
    split
    · exact .refl sys
    · rename_i b _
      obtain ⟨e, hobjection, hdrops⟩ := exists_objection_of_isNaN h b.key
      rw [hobjection]
      exact .write_dropped hdrops sys
  | _ => cases h

/-! ## Runs -/

/-- Whether a run goes like another one without the measurements of what is not a number: the other
commands have the same replies, the systems that are left differ in lines about what was dropped only,
and the same is handed to exporters. -/
structure SameRun (history : List (Command α)) (full bare : List (Reply α) × σ × System α) : Prop where
  replies : repliesToNumbers history full.1 = bare.1
  known : full.2.1 = bare.2.1
  left : Unheard full.2.2 bare.2.2
  delivered : deliveries full.2.2.journal = deliveries bare.2.2.journal

/-- A run goes the same without the measurements of what is not a number, and if its passes are told
something else of which their streams see the same. -/
theorem Unheard.run_retold {respond : Responder σ α} {f : Performance α → Performance α}
    (hf : ∀ p, (f p).ending = p.ending) {sys sys' : System α} (h : Unheard sys sys') {known known' : σ}
    (hsame : known = known') (history : List (Command α))
    (hseen : ∀ pass ∈ sys.passes respond known history, pass.SeesSame f respond) :
    SameRun history (sys.run respond known history)
      (sys'.run (retold f respond) known' (history.filter fun c => !c.recordsNaN)) := by
  induction history generalizing sys sys' known known' with
  | nil => exact ⟨rfl, hsame, h, h.deliveries_eq⟩
  | cons c rest ih =>
    subst hsame
    have hrest := fun pass hpass => hseen pass (List.mem_append_right _ hpass)
    cases hc : c.recordsNaN with
    | true =>
      -- The measurement is dropped in the one run, and not made in the other.
      obtain ⟨-, hknown, hleft⟩ := perform_of_recordsNaN respond known hc sys
      have hrun := ih (hleft.trans h) hknown hrest
      rw [List.filter_cons_of_neg (by simp [hc])]
      refine ⟨?_, hrun.known, hrun.left, hrun.delivered⟩
      refine (repliesToNumbers_cons c rest (sys.perform respond known c).1 _).trans ?_
      rw [hc]
      exact hrun.replies
    | false =>
      -- The command is in both runs, and its passes are the first ones of the run.
      obtain ⟨hreply, hknown, hleft⟩ :=
        h.perform_retold hf c fun pass hpass => hseen pass (List.mem_append_left _ hpass)
      have hrun := ih hleft hknown hrest
      rw [List.filter_cons_of_pos (by simp [hc])]
      refine ⟨?_, hrun.known, hrun.left, hrun.delivered⟩
      refine (repliesToNumbers_cons c rest (sys.perform respond known c).1 _).trans ?_
      rw [hc, hreply]
      exact congrArg _ hrun.replies

/-- What is measured with handles and is not a number changes nothing in any run: not the replies to
other commands, not what is exported, not what is left. What callbacks observe and is not a number
changes nothing either if in no pass it leaves a mark on what the streams see; and only if it leaves
none, the streams of a pass see the same without it. -/
theorem nans_run (respond : Responder σ α) (known : σ) (sys : System α) (history : List (Command α)) :
    let full := sys.run respond known history
    let numbers := history.filter fun c => !c.recordsNaN
    SameRun history full (sys.run respond known numbers) ∧
      ((∀ pass ∈ sys.passes respond known history, pass.Unmarked respond) →
        SameRun history full (sys.run (retold Performance.numbers respond) known numbers)) ∧
      ∀ pass ∈ sys.passes respond known history,
        (pass.SeesSame Performance.numbers respond ↔ pass.Unmarked respond) := by
  intro full numbers
  refine ⟨?_, fun hunmarked => ?_, fun pass _ => pass.seesSame_numbers_iff respond⟩
  · -- The passes are told what the callbacks observe.
    have hsame : ∀ pass ∈ sys.passes respond known history, pass.SeesSame id respond :=
      fun pass _ reader _ rs _ o _ => rfl
    have hrun := (Unheard.refl sys).run_retold (f := id) (fun _ => rfl) rfl history hsame
    rwa [retold_id] at hrun
  · -- The condition is on the passes of the run in which everything is observed.
    refine (Unheard.refl sys).run_retold (f := Performance.numbers) (fun _ => rfl) rfl history
      fun pass hpass => ?_
    exact (pass.seesSame_numbers_iff respond).mpr (hunmarked pass hpass)

/-- A counter that takes no number once, and a callback that observes no number in between. -/
theorem nans_run_replaced :
    let nan : Float := 0 / 0
    let request (kind : Kind) (name : String) (callbacks : Nat) : Command Float :=
      .create 0 (.named "m") ⟨⟨kind, name, none, none⟩, ⟨none, none⟩⟩ callbacks
    let seen (value : Float) : Observation Float := ⟨⟨0, 0⟩, [], value⟩
    let respond : Responder Unit Float := fun _ _ => (⟨[seen 1, seen nan, seen 2], .returned⟩, ())
    let sys := ((launched [(.memory .cumulative, 1000)] [(KeyMap.empty, [0])]).run respond ()
      [request .counter "c" 0, request .asynchronousCounter "a" 1, .record 0 3 [] id]).2.2
    let history := [.record 0 nan [] id, .collect 0]
    let full := sys.run respond () history
    let bare := sys.run (retold Performance.numbers respond) () [.collect 0]
    (∀ pass ∈ sys.passes respond () history, pass.Unmarked respond) ∧ SameRun history full bare ∧
      (deliveries full.2.2.journal).map (fun d => d.2.map fun metric =>
        (metric.name, (metric.data.read .total .empty).toUInt64)) = [[("c", 3), ("a", 2)]] := by
  intro nan request seen respond sys history full bare
  let ready := (sys.perform respond () (.record 0 nan [] id)).2.2
  have hpasses : sys.passes respond () history = [⟨0, (), ready⟩] := by
    have hopen : ready.isClosed 0 = false := by decide +kernel
    simp only [history, passes, passesOf, passOf, List.nil_append, List.append_nil]
    exact if_neg (Bool.eq_false_iff.mp hopen)
  have hobservers : ready.readers[0]?.map (fun reader => reader.streams.values.map (·.observer?)) =
      some [none, some ⟨0, 0⟩] := by decide +kernel
  have hcalls : ready.readers[0]?.map ready.calls = some [[⟨⟨0, 0⟩, .single 0⟩]] := by
    decide +kernel
  have hnan : isNaN nan = true := by decide +kernel
  have hnumbers : isNaN (1 : Float) = false ∧ isNaN (2 : Float) = false := by decide +kernel
  have hunmarked : ∀ pass ∈ sys.passes respond () history, pass.Unmarked respond := by
    rw [hpasses]
    rintro pass hpass reader hreader rs hrs o ho
    obtain rfl := List.mem_singleton.mp hpass
    change ready.readers[0]? = some reader at hreader
    rw [hreader] at hobservers hcalls
    have hobservers : reader.streams.values.map (·.observer?) = [none, some ⟨0, 0⟩] :=
      Option.some.inj hobservers
    have hcalls : ready.calls reader = [[⟨⟨0, 0⟩, .single 0⟩]] := Option.some.inj hcalls
    -- Only one of the streams is fed by callbacks.
    have hobserver : some o ∈ reader.streams.values.map (·.observer?) :=
      ho ▸ List.mem_map_of_mem hrs
    obtain rfl : o = ⟨0, 0⟩ := by simpa [hobservers] using hobserver
    have hdeciding : Answer.deciding (ready.answers respond () reader) 0 =
        [seen 1, seen nan, seen 2] := by
      rw [answers, hcalls]
      rfl
    show Metering.Unmarked (Answer.deciding (ready.answers respond () reader) 0)
    rw [hdeciding]
    refine ⟨by decide +kernel, ?_⟩
    have hfilter : [seen 1, seen nan, seen 2].filter (·.isNumber) = [seen 1, seen 2] := by
      simp [Observation.isNumber, seen, hnan, hnumbers]
    rw [hfilter]
    rfl
  have hbare : history.filter (fun c => !c.recordsNaN) = [.collect 0] := by
    simp [history, Command.recordsNaN, hnan]
  have hruns := nans_run respond () sys history
  rw [hbare] at hruns
  exact ⟨hunmarked, hruns.2.1 hunmarked, by decide +kernel⟩

/-- A callback that observes what is not a number and nothing else: it makes a series and is exported. -/
theorem not_dropped_observed_nan :
    let nan : Float := 0 / 0
    let request : Command Float :=
      .create 0 (.named "m") ⟨⟨.asynchronousCounter, "a", none, none⟩, ⟨none, none⟩⟩ 1
    let respond : Responder Unit Float := fun _ _ => (⟨[⟨⟨0, 0⟩, [], nan⟩], .returned⟩, ())
    let exported (respond : Responder Unit Float) :=
      (deliveries ((launched [(.memory .cumulative, 1000)] [(KeyMap.empty, [0])]).run respond ()
        [request, .collect 0]).2.2.journal).map fun d =>
          (d.1, d.2.map fun metric => (metric.name, isNaN (metric.data.read .total .empty)))
    exported respond = [(0, [("a", true)])] ∧
      exported (retold Performance.numbers respond) = [(0, [])] := by
  decide +kernel

end System

end Metering
