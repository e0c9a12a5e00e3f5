import Metering.Proofs.TableLaws
import Metering.System.Collection

/-!
# What a Pass Files under a Number

A pass files the observations of each successful call under the numbers of instruments, and merges
what it filed provider by provider. Under one number, what one provider's calls filed is there in
the order of the calls; of several providers that filed under the same number, only what the last
one filed is left.
-/

namespace Metering

variable {α : Type}

/-- A call with what it did. -/
abbrev Answer (α : Type) := Call × Performance α

/-- Observations in a row, of which later ones replace earlier ones of the same attributes. -/
def merged (observations : List (Observation α)) : Observations α :=
  .ofList (observations.map fun o => (.ofList o.attributes, o.value))

/-- Of the observations with equal attributes, the last one counts. -/
theorem find?_merged (observations : List (Observation α)) (k : Attributes) :
    (merged observations).find? k =
      (observations.filter (KeyMap.ofList ·.attributes == k)).getLast?.map (·.value) := by
  rw [merged, Table.find?_ofList, List.filter_map, List.getLast?_map, Option.map_map]
  rfl

theorem insertAll_merged (earlier later : List (Observation α)) :
    (merged earlier).insertAll (merged later).entries = merged (earlier ++ later) := by
  rw [merged, merged, merged, Table.insertAll_ofList, List.map_append, Table.ofList, Table.ofList,
    Table.insertAll_append]

theorem merged_ne_empty {observations : List (Observation α)} (h : observations ≠ []) :
    merged observations ≠ Table.empty := by
  rw [← List.dropLast_append_getLast h, merged, List.map_append, Table.ofList,
    Table.insertAll_append]
  intro hempty
  have hfound := congrArg (·.find? (KeyMap.ofList (observations.getLast h).attributes)) hempty
  simp [Table.insertAll, Table.find?_insert] at hfound

namespace Answer

/-- Whether a call succeeded and was registered for a number. -/
def registered (n : Nat) (answer : Answer α) : Bool :=
  decide (answer.2.ending = .returned) && answer.1.feed.numbers.contains n

/-- What a call files under a number. -/
def filed (n : Nat) (answer : Answer α) : List (Observation α) :=
  if answer.registered n then answer.2.observations.filter (answer.1.feed.fileUnder · == n) else []

/-- A call that is not registered for a number files nothing under it. -/
theorem filed_eq_nil {n : Nat} {answer : Answer α} (h : ¬ answer.registered n = true) :
    answer.filed n = [] := if_neg h

theorem flatMap_filed_eq_nil {n : Nat} {group : List (Answer α)}
    (h : group.any (·.registered n) = false) : group.flatMap (·.filed n) = [] :=
  List.flatMap_eq_nil_iff.mpr fun a ha => filed_eq_nil (List.any_eq_false.mp h a ha)

theorem registered_iff {n : Nat} {answer : Answer α} :
    answer.registered n = true ↔ answer.2.ending = .returned ∧ n ∈ answer.1.feed.numbers := by
  simp [registered]

end Answer

/-! ## One call -/

namespace Feed

theorem find?_insertAll_const {ν : Type} (t : Table Nat ν) (v : ν) (ns : List Nat) (n : Nat) :
    (t.insertAll (ns.map (·, v))).find? n = if n ∈ ns then some v else t.find? n := by
  induction ns generalizing t with
  | nil => rfl
  | cons m rest ih =>
    show ((t.insert m v).insertAll (rest.map (·, v))).find? n = _
    rw [ih, Table.find?_insert]
    by_cases hrest : n ∈ rest
    · simp [hrest]
    · by_cases hmn : m = n
      · simp [hmn]
      · have hnm : ¬ n = m := fun h => hmn h.symm
        simp [hrest, hmn, hnm]

/-- Filing observations changes, under each number, what the observations with that number change. -/
theorem find?_foldl_file (f : Feed) (observations : List (Observation α))
    (t : Table Nat (Observations α)) (n : Nat) :
    (observations.foldl (fun t o => t.modify (f.fileUnder o) fun found =>
        found.insert (KeyMap.ofList o.attributes) o.value) t).find? n =
      (t.find? n).map fun found => found.insertAll
        ((observations.filter (f.fileUnder · == n)).map fun o => (.ofList o.attributes, o.value)) := by
  induction observations generalizing t with
  | nil => simp [Table.insertAll]
  | cons o rest ih =>
    rw [List.foldl_cons, ih, Table.find?_modify]
    -- The first observation counts if it is filed under the number.
    cases hn : f.fileUnder o == n with
    | false => simp [hn]
    | true => simp [hn, Table.insertAll, Function.comp_def]

/-- A call has a table under each of its numbers, of what it observed with that number. -/
theorem find?_gather (f : Feed) (observations : List (Observation α)) (n : Nat) :
    (f.gather observations).find? n =
      if n ∈ f.numbers then some (merged (observations.filter (f.fileUnder · == n))) else none := by
  rw [gather, find?_foldl_file, Table.ofList, find?_insertAll_const]
  by_cases hn : n ∈ f.numbers
  · -- What is filed under a number that is fed is kept.
    have hkept : (observations.filter f.keeps).filter (f.fileUnder · == n) =
        observations.filter (f.fileUnder · == n) := by
      rw [List.filter_filter]
      apply List.filter_congr
      intro o _
      cases ho : f.fileUnder o == n with
      | false => rfl
      | true =>
        have ho : f.fileUnder o = n := by simpa using ho
        simp [keeps, ho, hn]
    rw [if_pos hn, if_pos hn, hkept]
    rfl
  · rw [if_neg hn, if_neg hn]
    rfl

end Feed

/-! ## One provider -/

/-- The result of one call is merged into what is there, number by number. -/
theorem ObservationPass.find?_absorb (pass : ObservationPass α)
    (gathered : Table Nat (Observations α)) (n : Nat) :
    (pass.absorb (some gathered)).observations.find? n =
      ((gathered.find? n).map fun found =>
        ((pass.observations.find? n).getD Table.empty).insertAll found.entries).or
          (pass.observations.find? n) :=
  Table.find?_foldl_update (fun found (o : Observations α) => (found.getD Table.empty).insertAll o.entries)
    pass.observations gathered.distinct n

/-- A call adds what it files under a number to what is there, if it has any say there. -/
theorem Answer.find?_absorb (answer : Answer α) (pass : ObservationPass α) (n : Nat) :
    (pass.absorb (answer.2.result answer.1.feed)).observations.find? n =
      if answer.registered n then
        some (((pass.observations.find? n).getD Table.empty).insertAll
          (merged (answer.filed n)).entries)
      else pass.observations.find? n := by
  obtain ⟨call, performance⟩ := answer
  cases hending : performance.ending with
  | panicked message => simp [registered, Performance.result, hending, ObservationPass.absorb]
  | overran => simp [registered, Performance.result, hending, ObservationPass.absorb]
  | returned =>
    -- Only a call that returned has a result.
    have hresult : performance.result call.feed = some (call.feed.gather performance.observations) := by
      simp [Performance.result, hending]
    rw [hresult, ObservationPass.find?_absorb, Feed.find?_gather]
    by_cases hn : n ∈ call.feed.numbers <;> simp [registered, filed, hending, hn]

namespace System

theorem observationPass_concat (answers : List (Answer α)) (answer : Answer α) :
    observationPass (answers ++ [answer]) =
      (observationPass answers).absorb (answer.2.result answer.1.feed) := by
  simp [observationPass, ObservationPass.ofResults, List.foldl_append]

/-- Of a provider whose calls were answered, the pass has a table under a number if any of the
successful calls was registered for it, with everything that they filed there. -/
theorem find?_observationPass (answers : List (Answer α)) (n : Nat) :
    (observationPass answers).observations.find? n =
      if answers.any (·.registered n) then some (merged (answers.flatMap (·.filed n))) else none := by
  induction answers using List.reverseRecOn with
  | nil => rfl
  | append_singleton answers answer ih =>
    rw [observationPass_concat, Answer.find?_absorb, ih, List.any_append, List.flatMap_append,
      List.any_cons, List.any_nil, Bool.or_false, List.flatMap_singleton]
    cases hanswer : answer.registered n with
    | false =>
      have hfiled : answer.filed n = [] := Answer.filed_eq_nil (by simp [hanswer])
      rw [hfiled, Bool.or_false, List.append_nil]
      rfl
    | true =>
      -- What is filed on top of nothing is like what is filed first.
      cases hothers : answers.any (·.registered n) with
      | true => simp [insertAll_merged]
      | false =>
        rw [Answer.flatMap_filed_eq_nil hothers]
        exact congrArg some (insertAll_merged [] _)

/-- Of all providers, the last one with a successful call registered for a number decides what is
found under it. -/
theorem find?_observed (answers : List (List (Answer α))) (n : Nat) :
    (observed (answers.map observationPass)).find? n =
      (answers.reverse.find? fun group => group.any (·.registered n)).map fun group =>
        merged (group.flatMap (·.filed n)) := by
  induction answers using List.reverseRecOn with
  | nil => rfl
  | append_singleton answers group ih =>
    have hinsert : observed ((answers ++ [group]).map observationPass) =
        (observed (answers.map observationPass)).insertAll
          (observationPass group).observations.entries := by
      simp [observed, List.foldl_append]
    -- Where the last provider has a table, it hides those of the others.
    rw [hinsert, Table.find?_insertAll _ (observationPass group).observations.distinct, ih,
      ← Table.find?_eq_lookup, find?_observationPass, List.reverse_append, List.reverse_singleton,
      List.singleton_append, List.find?_cons]
    cases group.any (·.registered n) <;> rfl

end System

end Metering
