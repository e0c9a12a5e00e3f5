import Metering.Proofs.Deltas.Tracking

/-!
# Readouts that Add Up over Windows

A readout is something that can be read off the points of a series and off its summary alike. Some
readouts add up: a summary reads as an earlier one and the difference since, put together. The count
and the buckets of a histogram add up, sums do when arithmetic is exact, and so does the latest
value, when putting together means to replace.
-/

namespace Metering

/-- Arithmetic in which a difference makes up for what was taken away. -/
class Quantity.Exact (α : Type) [Quantity α] : Prop where
  zero_add : ∀ a : α, 0 + a = a
  add_zero : ∀ a : α, a + 0 = a
  add_sub : ∀ a b : α, a + (b - a) = b

instance : Quantity.Exact Int where
  zero_add := Int.zero_add
  add_zero := Int.add_zero
  add_sub a b := by omega

/-! ## Readouts -/

/-- What is read off a sum, a last value, and the count, the sum and the buckets of a histogram, with
what is read off nothing and how two of them are put together. -/
structure Readout (α β : Type) where
  zero : β
  add : β → β → β
  ofSum : α → β
  ofLast : α → β
  ofHistogram : Nat → α → List Nat → β

namespace Readout

variable {α β : Type}

/-- Puts a list together, from nothing. -/
def addUp (r : Readout α β) (xs : List β) : β := xs.foldl r.add r.zero

/-- One for each point. -/
def points : Readout α Nat := ⟨0, (· + ·), fun _ => 1, fun _ => 1, fun _ _ _ => 1⟩

/-- How many measurements a histogram counts. -/
def count : Readout α Nat := ⟨0, (· + ·), fun _ => 0, fun _ => 0, fun n _ _ => n⟩

/-- How many measurements a histogram counts in one bucket. -/
def bucket (i : Nat) : Readout α Nat :=
  ⟨0, (· + ·), fun _ => 0, fun _ => 0, fun _ _ ns => ns.getD i 0⟩

/-- What the measurements sum up to. -/
def total [Quantity α] : Readout α α := ⟨0, (· + ·), id, fun _ => 0, fun _ v _ => v⟩

/-- The last value, if there is any; a later one replaces an earlier one. -/
def latest : Readout α (Option α) :=
  ⟨none, fun a b => b.or a, fun _ => none, some, fun _ _ _ => none⟩

end Readout

variable {α β : Type}

/-- Reads the points of one series, and puts them together. -/
def Data.read (d : Data α) (r : Readout α β) (k : Attributes) : β :=
  match d with
  | .sum points _ _ => r.addUp ((points.filter (·.attributes == k)).map fun p => r.ofSum p.value)
  | .gauge points => r.addUp ((points.filter (·.attributes == k)).map fun p => r.ofLast p.value)
  | .histogram points _ =>
    r.addUp ((points.filter (·.attributes == k)).map fun p => r.ofHistogram p.count p.sum p.buckets)

/-- Reads one series in several data, and puts it together. -/
def Data.readAll (ds : List (Data α)) (r : Readout α β) (k : Attributes) : β :=
  r.addUp (ds.map (·.read r k))

theorem Data.readAll_concat (ds : List (Data α)) (d : Data α) (r : Readout α β) (k : Attributes) :
    readAll (ds ++ [d]) r k = r.add (readAll ds r k) (d.read r k) := by
  simp [readAll, Readout.addUp, List.foldl_append]

theorem Data.read_withoutExemplars (d : Data α) (r : Readout α β) (k : Attributes) :
    d.withoutExemplars.read r k = d.read r k := by
  cases d <;> simp [Data.withoutExemplars, Data.read, List.filter_map, Function.comp_def]

namespace Aggregator

/-- Reads a summary. -/
def read (r : Readout α β) : (a : Aggregator α) → a.Summary → β
  | sum _, s => r.ofSum s
  | lastValue, s => (Option.map (fun sample => r.ofLast sample.1) s).getD r.zero
  | histogram _, s =>
    r.ofHistogram (Histogram.Summary.count s) (Histogram.Summary.sum s) (Histogram.Summary.buckets s)

end Aggregator

/-- Of a list with distinct keys, the elements with a key are the one that is found. -/
theorem filter_eq_toList_find? {γ κ : Type} [BEq κ] [EquivBEq κ] {l : List γ} {f : γ → κ} {k : κ}
    (hdistinct : l.Pairwise fun x y => (f x == f y) = false) :
    l.filter (f · == k) = (l.find? (f · == k)).toList := by
  induction l with
  | nil => rfl
  | cons x rest ih =>
    obtain ⟨hx, hrest⟩ := List.pairwise_cons.mp hdistinct
    cases hxk : f x == k with
    | false => simpa [hxk] using ih hrest
    | true =>
      have hothers : rest.filter (f · == k) = [] := by
        apply List.filter_eq_nil_iff.mpr
        intro y hy
        simpa using Table.beq_eq_false_of_beq hxk (hx y hy)
      simp [hxk, hothers]

/-- The points of the accumulations of one series read as their summaries do. -/
theorem Aggregator.read_toData (r : Readout α β) (a : Aggregator α)
    {accs : List (Accumulation α a.Summary)} (hshows : ∀ acc ∈ accs, a.shows acc.summary = true)
    (start time : Time) (t : Temporality) (k : Attributes) :
    (a.toData accs start time t).read r k =
      r.addUp ((accs.filter (·.attributes == k)).map fun acc => a.read r acc.summary) := by
  cases a with
  | sum monotonic =>
    simp only [toData, Data.read, List.filter_map, List.map_map]
    rfl
  | lastValue =>
    simp only [toData, Data.read, List.filter_filterMap, List.map_filterMap]
    rw [← List.filterMap_eq_map, List.filterMap_filter]
    -- Every summary shows a sample, so it does not matter whether points or accumulations are picked.
    refine congrArg r.addUp (List.filterMap_congr fun acc hacc => ?_)
    obtain ⟨sample, hsample⟩ := Option.isSome_iff_exists.mp (hshows acc hacc)
    rw [hsample, Option.map_some]
    cases hk : acc.attributes == k <;> simp [numberPoint, read, Option.filter, hk, hsample]
  | histogram h =>
    have hall : accs.filter (fun acc => decide (0 < acc.summary.count)) = accs :=
      List.filter_eq_self.mpr hshows
    simp only [toData, Data.read, hall, List.filter_map, List.map_map]
    rfl

/-- The points of distinct series read, at each series, as its summary does. -/
theorem Aggregator.read_toData_of_distinct {r : Readout α β} (hzero : ∀ x, r.add r.zero x = x)
    (a : Aggregator α) {accs : List (Accumulation α a.Summary)}
    (hdistinct : accs.Pairwise fun x y => (x.attributes == y.attributes) = false)
    (hshows : ∀ acc ∈ accs, a.shows acc.summary = true) (start time : Time) (t : Temporality)
    (k : Attributes) :
    (a.toData accs start time t).read r k =
      ((accs.find? (·.attributes == k)).map fun acc => a.read r acc.summary).getD r.zero := by
  rw [read_toData r a hshows, filter_eq_toList_find? hdistinct]
  cases accs.find? (·.attributes == k) with
  | none => rfl
  | some acc => exact hzero _

/-- The points of distinct keys with summaries read, at each key, as its summary does. -/
theorem Aggregator.read_toData_map {r : Readout α β} (hzero : ∀ x, r.add r.zero x = x)
    (a : Aggregator α) {keys : List Attributes} (f : Attributes → a.Summary)
    (hdistinct : keys.Pairwise fun i j => (i == j) = false) {k : Attributes}
    (hcongr : ∀ j, (j == k) = true → f j = f k) (hshows : ∀ j ∈ keys, a.shows (f j) = true)
    (start time : Time) (t : Temporality) :
    (a.toData (keys.map fun j => ⟨j, f j, []⟩) start time t).read r k =
      if keys.any (· == k) then a.read r (f k) else r.zero := by
  let accs : List (Accumulation α a.Summary) := keys.map fun j => ⟨j, f j, []⟩
  have haccs : accs.Pairwise fun x y => (x.attributes == y.attributes) = false :=
    List.pairwise_map.mpr hdistinct
  have hshows' : ∀ acc ∈ accs, a.shows acc.summary = true := by
    intro acc hacc
    obtain ⟨j, hj, rfl⟩ := List.mem_map.mp hacc
    exact hshows j hj
  have hread := a.read_toData_of_distinct hzero haccs hshows' start time t k
  have hfind : accs.find? (·.attributes == k) =
      (keys.find? (· == k)).map fun j => ⟨j, f j, []⟩ := List.find?_map ..
  rw [hread, hfind]
  cases hfound : keys.find? (· == k) with
  | none =>
    have hany : keys.any (· == k) = false := by
      rw [List.any_eq_not_all_not]
      simpa using hfound
    rw [hany]
    rfl
  | some j =>
    have hjk : (j == k) = true := by simpa using List.find?_some hfound
    have hany : keys.any (· == k) = true :=
      List.any_eq_true.mpr ⟨j, List.mem_of_find?_eq_some hfound, hjk⟩
    rw [hany, if_pos rfl]
    exact congrArg (a.read r) (hcongr j hjk)

/-- A summary that gives a point gives one point. -/
theorem Aggregator.read_points (a : Aggregator α) {s : a.Summary} (h : a.shows s = true) :
    a.read .points s = 1 := by
  cases a with
  | sum monotonic => rfl
  | histogram h => rfl
  | lastValue =>
    obtain ⟨sample, rfl⟩ := Option.isSome_iff_exists.mp h
    rfl

/-! ## Adding up -/

namespace Aggregator

variable [Quantity α]

/-- Records measurements one after the other. -/
def recordAll (a : Aggregator α) (s : a.Summary) (ms : List (Measurement α)) : a.Summary :=
  ms.foldl (fun s m => a.record s m.value m.time) s

/-- A readout of which a summary has as much as an earlier one and the difference since together. -/
structure Additive (a : Aggregator α) (r : Readout α β) : Prop where
  zero_add : ∀ x, r.add r.zero x = x
  add_zero : ∀ x, r.add x r.zero = x
  empty : a.read r a.empty = r.zero
  diff : ∀ s ms,
    r.add (a.read r s) (a.read r (a.diff (a.recordAll s ms) s)) = a.read r (a.recordAll s ms)

end Aggregator

namespace Histogram

variable [Quantity α] (h : Histogram α)

theorem count_recordAll (s : Summary α) (ms : List (Measurement α)) :
    ((Aggregator.histogram h).recordAll s ms).count = s.count + ms.length := by
  induction ms generalizing s with
  | nil => rfl
  | cons m rest ih =>
    apply (ih (h.record s m.value)).trans
    simp only [record, List.length_cons]
    omega

theorem length_buckets_recordAll (s : Summary α) (ms : List (Measurement α)) :
    ((Aggregator.histogram h).recordAll s ms).buckets.length = s.buckets.length := by
  induction ms generalizing s with
  | nil => rfl
  | cons m rest ih => exact (ih (h.record s m.value)).trans (List.length_modify ..)

/-- No bucket ever loses a measurement, so that no difference of buckets is cut off at zero. -/
theorem bucket_le_recordAll (i : Nat) (s : Summary α) (ms : List (Measurement α)) :
    s.buckets.getD i 0 ≤ ((Aggregator.histogram h).recordAll s ms).buckets.getD i 0 := by
  induction ms generalizing s with
  | nil => exact Nat.le_refl _
  | cons m rest ih =>
    refine Nat.le_trans ?_ (ih (h.record s m.value))
    -- A measurement goes to one bucket, which is this one or not.
    simp only [record, List.getD_eq_getElem?_getD, List.getElem?_modify]
    cases s.buckets[i]? with
    | none => simp
    | some n =>
      simp only [Option.map_eq_map, Option.map_some, Option.getD_some]
      split <;> omega

theorem getD_zipWith_sub {ns ms : List Nat} (h : ns.length = ms.length) (i : Nat) :
    (ns.zipWith (· - ·) ms).getD i 0 = ns.getD i 0 - ms.getD i 0 := by
  simp only [List.getD_eq_getElem?_getD, List.getElem?_zipWith]
  by_cases hi : i < ns.length
  · simp [hi, h ▸ hi]
  · simp [hi, h ▸ hi]

end Histogram

/-- A last value is never lost. -/
theorem LastValue.isSome_recordAll [Quantity α] {s : Summary α} (h : s.isSome = true)
    (ms : List (Measurement α)) : Option.isSome (Aggregator.lastValue.recordAll s ms) = true := by
  induction ms generalizing s with
  | nil => exact h
  | cons m rest ih => exact ih (Aggregator.shows_record .lastValue s m.value m.time)

/-- What does not show in last values is not read off their summaries either. -/
theorem Aggregator.read_lastValue_eq_zero {r : Readout α β} (h : ∀ v, r.ofLast v = r.zero)
    (s : LastValue.Summary α) : lastValue.read r s = r.zero := by
  cases s with
  | none => rfl
  | some sample => exact h sample.1

/-- What does not show in last values adds up there, whatever they are. -/
theorem Aggregator.add_lastValue_eq {r : Readout α β} (h : ∀ v, r.ofLast v = r.zero)
    (hzero : ∀ x, r.add r.zero x = x) (s t u : LastValue.Summary α) :
    r.add (lastValue.read r s) (lastValue.read r t) = lastValue.read r u := by
  rw [read_lastValue_eq_zero h, read_lastValue_eq_zero h, read_lastValue_eq_zero h]
  exact hzero _

namespace Aggregator

variable [Quantity α] (a : Aggregator α)

theorem additive_count : a.Additive .count := by
  refine ⟨Nat.zero_add, Nat.add_zero, ?_, ?_⟩
  · cases a <;> rfl
  · intro s ms
    cases a with
    | sum monotonic => rfl
    | lastValue => exact add_lastValue_eq (fun _ => rfl) Nat.zero_add s _ _
    | histogram h =>
      -- There are at least as many as before, so the difference is not cut off.
      have hcount := h.count_recordAll s ms
      simp only [read, Readout.count, diff, Histogram.diff]
      omega

theorem additive_bucket (i : Nat) : a.Additive (.bucket i) := by
  refine ⟨Nat.zero_add, Nat.add_zero, ?_, ?_⟩
  · cases a with
    | sum monotonic => rfl
    | lastValue => rfl
    | histogram h =>
      simp only [read, Readout.bucket, empty, Histogram.empty, List.getD_eq_getElem?_getD,
        List.getElem?_replicate]
      split <;> rfl
  · intro s ms
    cases a with
    | sum monotonic => rfl
    | lastValue => exact add_lastValue_eq (fun _ => rfl) Nat.zero_add s _ _
    | histogram h =>
      -- Nor is it for a bucket.
      have hle := h.bucket_le_recordAll i s ms
      have hdiff := Histogram.getD_zipWith_sub (h.length_buckets_recordAll s ms) i
      simp only [read, Readout.bucket, diff, Histogram.diff]
      omega

theorem additive_total [Quantity.Exact α] : a.Additive .total := by
  refine ⟨Quantity.Exact.zero_add, Quantity.Exact.add_zero, ?_, ?_⟩
  · cases a <;> rfl
  · intro s ms
    cases a with
    | sum monotonic => exact Quantity.Exact.add_sub s _
    | lastValue => exact add_lastValue_eq (fun _ => rfl) Quantity.Exact.zero_add s _ _
    | histogram h => exact Quantity.Exact.add_sub (Histogram.Summary.sum s) _

theorem additive_latest : a.Additive .latest := by
  refine ⟨fun x => Option.or_none, fun x => Option.none_or, ?_, ?_⟩
  · cases a <;> rfl
  · intro s ms
    cases a with
    | sum monotonic => rfl
    | histogram h => rfl
    | lastValue =>
      have hread (s : LastValue.Summary α) : lastValue.read Readout.latest s = s.map (·.1) := by
        cases s <;> rfl
      simp only [diff, hread]
      show Option.or _ _ = _
      -- The difference of last values is the later one, which replaces the earlier if it is there.
      cases s with
      | none => exact Option.or_none
      | some sample =>
        obtain ⟨last, hlast⟩ :=
          Option.isSome_iff_exists.mp (LastValue.isSome_recordAll (s := some sample) rfl ms)
        rw [hlast]
        rfl

end Aggregator

end Metering
