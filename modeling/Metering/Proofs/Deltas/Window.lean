import Metering.Proofs.Accounts.Recount

/-!
# Windows of a Delta Stream

The history of a synchronous stream is a list of steps, each of which records a measurement or
collects. A history has a window: the measurements before the last collection, those since, and the
time of that collection. A delta stream tracks the window of its history: a series is touched when
it has a measurement in the window, and the baseline has, for every series, its summary as of the
beginning of the window. So an untouched series has the summary that the baseline has for it.
-/

namespace Metering

variable {α : Type}

/-! ## Histories -/

/-- What is done to a synchronous stream. -/
inductive StreamStep (α : Type) where
  | record (draw : Nat) (m : Measurement α)
  | collect (time : Time)

namespace StreamStep

/-- What a step measures. -/
def measurement? : StreamStep α → Option (Measurement α)
  | record _ m => some m
  | collect _ => none

/-- The measurements of a history. -/
def measured (steps : List (StreamStep α)) : List (Measurement α) := steps.filterMap measurement?

end StreamStep

/-- The measurements before the last collection, those since, and the time of that collection. -/
structure Window (α : Type) where
  old : List (Measurement α)
  fresh : List (Measurement α)
  start : Time

namespace Window

/-- All measurements so far. -/
def all (w : Window α) : List (Measurement α) := w.old ++ w.fresh

/-- The window after a step: a collection makes everything old. -/
def step (w : Window α) : StreamStep α → Window α
  | .record _ m => { w with fresh := w.fresh ++ [m] }
  | .collect time => ⟨w.all, [], time⟩

/-- The window of a history that begins at a time. -/
def after (start : Time) (steps : List (StreamStep α)) : Window α := steps.foldl step ⟨[], [], start⟩

theorem after_concat (start : Time) (steps : List (StreamStep α)) (x : StreamStep α) :
    after start (steps ++ [x]) = (after start steps).step x := by
  simp [after, List.foldl_append]

theorem all_after (start : Time) (steps : List (StreamStep α)) :
    (after start steps).all = StreamStep.measured steps := by
  induction steps using List.reverseRecOn with
  | nil => rfl
  | append_singleton steps x ih =>
    rw [after_concat, StreamStep.measured, List.filterMap_append, ← StreamStep.measured, ← ih]
    -- A measurement is the last of all, and a collection moves measurements only.
    cases x with
    | record draw m => simp [step, all, StreamStep.measurement?]
    | collect time => simp [step, all, StreamStep.measurement?]

end Window

/-! ## Measurements of equal series -/

namespace StreamSettings

variable {c : StreamSettings α} {w : Window α} {j k : Attributes}

/-- Whether a series has a measurement among some. -/
def occurs (c : StreamSettings α) (k : Attributes) (ms : List (Measurement α)) : Bool :=
  ms.any fun m => c.seriesOf m == k

theorem measurementsIn_congr (h : (j == k) = true) (ms : List (Measurement α)) :
    c.measurementsIn j ms = c.measurementsIn k ms :=
  List.filter_congr fun _ _ => BEq.congr_right h

theorem occurs_congr (h : (j == k) = true) (ms : List (Measurement α)) :
    c.occurs j ms = c.occurs k ms := by
  have hsame (m : Measurement α) : (c.seriesOf m == j) = (c.seriesOf m == k) := BEq.congr_right h
  simp [occurs, hsame]

theorem measurementsIn_eq_nil_of_occurs {ms : List (Measurement α)} (h : c.occurs k ms = false) :
    c.measurementsIn k ms = [] :=
  List.filter_eq_nil_iff.mpr fun m hm hmk => List.any_eq_false.mp h m hm hmk

theorem measurementsIn_ne_nil {ms : List (Measurement α)} (h : c.occurs k ms = true) :
    c.measurementsIn k ms ≠ [] := by
  obtain ⟨m, hm, hmk⟩ := List.any_eq_true.mp h
  exact List.ne_nil_of_mem (List.mem_filter.mpr ⟨hm, hmk⟩)

theorem occurs_all (k : Attributes) : c.occurs k w.all = (c.occurs k w.old || c.occurs k w.fresh) :=
  List.any_append ..

/-- A series with a measurement in the window is listed. -/
theorem any_seriesAmong_of_occurs (h : c.occurs k w.fresh = true) :
    (c.seriesAmong w.all).any (· == k) = true := by
  have hall := occurs_all (c := c) (w := w) k
  rw [h, Bool.or_true] at hall
  rw [any_seriesAmong]
  exact hall

theorem measurementsIn_append (k : Attributes) (old fresh : List (Measurement α)) :
    c.measurementsIn k (old ++ fresh) = c.measurementsIn k old ++ c.measurementsIn k fresh :=
  List.filter_append ..

end StreamSettings

end Metering
