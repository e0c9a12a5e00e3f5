import Metering.Proofs.Deltas.Run

/-!
# Sums that Only Grow

In an arithmetic that respects its order, sums of measurements that are not negative only grow:
a cumulative stream then reports, of every series, at least what it reported before, and a delta
stream reports nothing negative.
-/

namespace Metering

/-! ## Order -/

namespace Quantity

variable {α : Type} [Quantity α]

/-- Whether both values are numbers, and the first is no greater than the second. -/
def AtMost (a b : α) : Prop := isNaN a = false ∧ isNaN b = false ∧ below b a = false

/-- Arithmetic that respects its order as far as numbers go that are not negative: adding one of
them never makes less, and taking away no more than there is never leaves something negative. Both
hold of arithmetic that rounds, and of infinities. -/
class Ordered (α : Type) [Quantity α] : Prop where
  zero_number : isNaN (0 : α) = false
  refl : ∀ a : α, isNaN a = false → AtMost a a
  trans : ∀ a b c : α, AtMost a b → AtMost b c → AtMost a c
  add : ∀ a b : α, AtMost 0 a → AtMost 0 b → AtMost a (a + b)
  sub : ∀ a b : α, AtMost 0 a → AtMost a b → below (b - a) 0 = false

instance : Ordered Int where
  zero_number := rfl
  refl a _ := by simp [AtMost, isNaN, below]
  trans a b c := by
    simp only [AtMost, isNaN, below, true_and, decide_eq_false_iff_not]
    omega
  add a b := by
    simp only [AtMost, isNaN, below, true_and, decide_eq_false_iff_not]
    omega
  sub a b := by
    simp only [AtMost, isNaN, below, true_and, decide_eq_false_iff_not]
    omega

end Quantity

open Quantity

variable {α : Type} [Quantity α]

/-! ## Values of sums -/

/-- The values of sums, each with its series. -/
def Data.sums : Data α → List (Attributes × α)
  | .sum points _ _ => points.map fun point => (point.attributes, point.value)
  | .histogram _ _ | .gauge _ => []

/-- The temporality of sums that are tagged monotonic. -/
def Data.tagged? : Data α → Option Temporality
  | .sum _ t monotonic => if monotonic then some t else none
  | .histogram _ _ | .gauge _ => none

omit [Quantity α] in
theorem Data.eq_sum_of_tagged? {d : Data α} {t : Temporality} (h : d.tagged? = some t) :
    ∃ points, d = .sum points t true := by
  cases d with
  | sum points t' monotonic =>
    cases monotonic with
    | false => cases h
    | true =>
      obtain rfl : t' = t := Option.some.inj h
      exact ⟨points, rfl⟩
  | histogram points t' => cases h
  | gauge points => cases h

omit [Quantity α] in
theorem Data.sums_withoutExemplars (d : Data α) : d.withoutExemplars.sums = d.sums := by
  cases d <;> simp [withoutExemplars, sums]

/-- A sum shows the total of each series. -/
theorem Aggregator.sums_toData {a : Aggregator α} {monotonic : Bool} (h : a = .sum monotonic)
    (accs : List (Accumulation α a.Summary)) (start time : Time) (t : Temporality) :
    (a.toData accs start time t).sums =
      accs.map fun acc => (acc.attributes, a.read .total acc.summary) := by
  subst h
  simp only [toData, Data.sums, List.map_map]
  rfl

namespace Aggregator

variable [Ordered α] {a : Aggregator α} {monotonic : Bool}

/-- Measurements that are not negative make no sum less. -/
theorem atMost_recordAll (h : a = .sum monotonic) {ms : List (Measurement α)}
    (hms : ∀ m ∈ ms, AtMost 0 m.value) {s : a.Summary} (hs : AtMost 0 (a.read .total s)) :
    AtMost (a.read .total s) (a.read .total (a.recordAll s ms)) := by
  subst h
  induction ms generalizing s with
  | nil => exact Ordered.refl _ hs.2.1
  | cons m rest ih =>
    have hvalue := hms m (List.mem_cons_self ..)
    have hstep : AtMost (α := α) s (s + m.value) := Ordered.add _ _ hs hvalue
    have hrest := ih (fun m hm => hms m (List.mem_cons_of_mem _ hm)) (Ordered.trans _ _ _ hs hstep)
    exact Ordered.trans _ _ _ hstep hrest

theorem atMost_zero_empty (h : a = .sum monotonic) : AtMost 0 (a.read .total a.empty) := by
  subst h
  exact Ordered.refl _ Ordered.zero_number

end Aggregator

namespace StreamSettings

variable [Ordered α] {c : StreamSettings α} {monotonic : Bool} {k : Attributes}

/-- Totals of measurements that are not negative are not negative. -/
theorem atMost_zero_total (h : c.aggregator = .sum monotonic) {ms : List (Measurement α)}
    (hms : ∀ m ∈ ms, AtMost 0 m.value) : AtMost 0 (c.aggregator.read .total (c.total ms k)) := by
  have hempty := Aggregator.atMost_zero_empty h
  have hmeasured : ∀ m ∈ c.measurementsIn k ms, AtMost 0 m.value :=
    fun m hm => hms m (List.mem_filter.mp hm).1
  have hgrown := Aggregator.atMost_recordAll h hmeasured hempty
  exact Ordered.trans _ _ _ hempty hgrown

/-- The total of a series grows with the measurements. -/
theorem atMost_total_append (h : c.aggregator = .sum monotonic) {ms more : List (Measurement α)}
    (hms : ∀ m ∈ ms ++ more, AtMost 0 m.value) :
    AtMost (c.aggregator.read .total (c.total ms k))
      (c.aggregator.read .total (c.total (ms ++ more) k)) := by
  have hall : c.total (ms ++ more) k =
      c.aggregator.recordAll (c.total ms k) (c.measurementsIn k more) := total_all ⟨ms, more, 0⟩ k
  rw [hall]
  refine Aggregator.atMost_recordAll h (fun m hm => ?_) (atMost_zero_total h fun m hm => ?_)
  · exact hms m (List.mem_append_right _ (List.mem_filter.mp hm).1)
  · exact hms m (List.mem_append_left _ hm)

/-- What a window adds to a series is not negative. -/
theorem not_below_change (h : c.aggregator = .sum monotonic) {w : Window α}
    (hw : ∀ m ∈ w.all, AtMost 0 m.value) :
    below (c.aggregator.read .total (c.change w k)) 0 = false := by
  have htotal : AtMost 0 (c.aggregator.read .total (c.total w.all k)) := atMost_zero_total h hw
  unfold change
  split
  · -- The difference of a total and an earlier one.
    have hold : AtMost 0 (c.aggregator.read .total (c.total w.old k)) :=
      atMost_zero_total h fun m hm => hw m (List.mem_append_left _ hm)
    have hgrown : AtMost (c.aggregator.read .total (c.total w.old k))
        (c.aggregator.read .total (c.total w.all k)) := atMost_total_append h hw
    have hdiff (a : Aggregator α) (h : a = .sum monotonic) (s t : a.Summary) :
        a.read .total (a.diff s t) = a.read .total s - a.read .total t := by
      subst h
      rfl
    rw [hdiff _ h]
    exact Ordered.sub _ _ hold hgrown
  · exact htotal.2.2

end StreamSettings

/-! ## Histories without negative measurements -/

namespace SynchronousStream

variable [Ordered α] {c : StreamSettings α} {monotonic : Bool} {steps more : List (StreamStep α)}

/-- A delta stream that was given no negative measurement reports no negative sum. -/
theorem not_below_zero_of_delta (h : c.aggregator = .sum monotonic) (hdelta : c.temporality = .delta)
    (hsteps : ∀ m ∈ StreamStep.measured steps, AtMost 0 m.value) (time : Time) :
    ∀ e ∈ (((opened c).play steps).2.data time).sums, below e.2 0 = false := by
  have hsettings : ((opened c).play steps).2.settings = c := settings_play _ steps
  have hdata := (Tracks.play hdelta steps).data_eq (hsettings.symm ▸ hdelta) time
  rw [hsettings] at hdata
  rw [← Data.sums_withoutExemplars, hdata, StreamSettings.deltaReference, Aggregator.sums_toData h]
  intro e he
  simp only [List.map_map, List.mem_map, Function.comp_apply] at he
  obtain ⟨k, -, rfl⟩ := he
  refine StreamSettings.not_below_change h fun m hm => hsteps m ?_
  rwa [Window.all_after] at hm

omit [Ordered α] in
/-- What a cumulative stream reports after a history. -/
theorem sums_play (h : c.aggregator = .sum monotonic) (hcumulative : c.temporality = .cumulative)
    (steps : List (StreamStep α)) (time : Time) :
    (((opened c).play steps).2.data time).sums =
      (c.seriesAmong (StreamStep.measured steps)).map fun k =>
        (k, c.aggregator.read .total (c.total (StreamStep.measured steps) k)) := by
  have hsettings : ((opened c).play steps).2.settings = c := settings_play _ steps
  have hdata := (Recounts.play c steps).data_eq (hsettings.symm ▸ hcumulative) time
  rw [hsettings] at hdata
  rw [← Data.sums_withoutExemplars, hdata, StreamSettings.reference, Aggregator.sums_toData h,
    StreamSettings.summaries, List.map_map, List.map_map]
  rfl

/-- Of every series that a cumulative stream reports, it reports no less later on, if it is given no
negative measurement. -/
theorem exists_atMost_of_cumulative (h : c.aggregator = .sum monotonic)
    (hcumulative : c.temporality = .cumulative)
    (hsteps : ∀ m ∈ StreamStep.measured (steps ++ more), AtMost 0 m.value) (time later : Time) :
    ∀ e ∈ (((opened c).play steps).2.data time).sums,
      ∃ e' ∈ (((opened c).play (steps ++ more)).2.data later).sums,
        (e'.1 == e.1) = true ∧ AtMost e.2 e'.2 := by
  rw [sums_play h hcumulative, sums_play h hcumulative]
  intro e he
  obtain ⟨k, hk, rfl⟩ := List.mem_map.mp he
  have hmeasured : StreamStep.measured (steps ++ more) =
      StreamStep.measured steps ++ StreamStep.measured more := List.filterMap_append ..
  -- The series began with a measurement, which is among the later ones too.
  have hbegun : (c.seriesAmong (StreamStep.measured (steps ++ more))).any (· == k) = true := by
    have hany : (c.seriesAmong (StreamStep.measured steps)).any (· == k) = true :=
      List.any_eq_true.mpr ⟨k, hk, BEq.rfl⟩
    rw [StreamSettings.any_seriesAmong] at hany ⊢
    rw [hmeasured, List.any_append, hany, Bool.true_or]
  obtain ⟨j, hj, hjk⟩ := List.any_eq_true.mp hbegun
  refine ⟨_, List.mem_map_of_mem hj, hjk, ?_⟩
  simp only
  rw [StreamSettings.total_congr hjk, hmeasured]
  exact StreamSettings.atMost_total_append h (hmeasured ▸ hsteps)

end SynchronousStream

end Metering
