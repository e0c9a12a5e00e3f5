import Metering.Proofs.Deltas.Run
import Metering.Proofs.Exemplars.Reservoir
import Metering.Proofs.KeyMapLaws

/-!
# Exemplars of a History

The measurements of a history are fresh from when they are recorded until the next collection, and the
place of a measurement in the history tells it from all others. Each series of a stream holds exemplars
of picks from its own fresh measurements: recording offers them, a collection that reports the series
takes them out, and a collection passes over a series only if none of its measurements is fresh.
-/

namespace Metering

variable {α : Type}

/-! ## Fresh measurements -/

namespace StreamStep

/-- The measurements since the last collection of a history, each with its place in the history. -/
def fresh (steps : List (StreamStep α)) : List (Nat × Measurement α) :=
  steps.zipIdx.foldl (fun fresh e => e.1.measurement?.elim [] fun m => fresh ++ [(e.2, m)]) []

variable {steps later : List (StreamStep α)} {e : Nat × Measurement α}

theorem fresh_concat (steps : List (StreamStep α)) (x : StreamStep α) :
    fresh (steps ++ [x]) = x.measurement?.elim [] fun m => fresh steps ++ [(steps.length, m)] := by
  simp [fresh, List.zipIdx_append, List.foldl_append]

theorem lt_of_mem_fresh (h : e ∈ fresh steps) : e.1 < steps.length := by
  induction steps using List.reverseRecOn with
  | nil => cases h
  | append_singleton steps x ih =>
    rw [List.length_append]
    rw [fresh_concat] at h
    cases x with
    | collect time => cases h
    | record draw m =>
      rcases List.mem_append.mp h with h | h
      · exact Nat.lt_succ_of_lt (ih h)
      · obtain rfl := List.mem_singleton.mp h
        exact Nat.lt_succ_self _

/-- Fresh measurements stand in the order of their places. -/
theorem ascending_fresh (steps : List (StreamStep α)) :
    (fresh steps).Pairwise fun a b => a.1 < b.1 := by
  induction steps using List.reverseRecOn with
  | nil => exact .nil
  | append_singleton steps x ih =>
    rw [fresh_concat]
    cases x with
    | collect time => exact .nil
    | record draw m =>
      refine List.pairwise_append.mpr ⟨ih, List.pairwise_singleton .., fun a ha b hb => ?_⟩
      obtain rfl := List.mem_singleton.mp hb
      exact lt_of_mem_fresh ha

/-- What is fresh after a collection came after it. -/
theorem lt_of_mem_fresh_append {time : Time} (h : e ∈ fresh (steps ++ .collect time :: later)) :
    steps.length < e.1 := by
  induction later using List.reverseRecOn with
  | nil =>
    rw [fresh_concat] at h
    cases h
  | append_singleton later x ih =>
    rw [← List.cons_append, ← List.append_assoc, fresh_concat] at h
    cases x with
    | collect time => cases h
    | record draw m =>
      rcases List.mem_append.mp h with h | h
      · exact ih h
      · obtain rfl := List.mem_singleton.mp h
        simp

/-- Their places aside, the fresh measurements are those of the window. -/
theorem map_fresh (start : Time) (steps : List (StreamStep α)) :
    (fresh steps).map (·.2) = (Window.after start steps).fresh := by
  induction steps using List.reverseRecOn with
  | nil => rfl
  | append_singleton steps x ih =>
    rw [fresh_concat, Window.after_concat]
    cases x with
    | collect time => rfl
    | record draw m =>
      show (fresh steps ++ [(steps.length, m)]).map (·.2) = (Window.after start steps).fresh ++ [m]
      rw [List.map_append, ih]
      rfl

end StreamStep

/-! ## Exemplars of points -/

namespace StreamSettings

/-- What a stream shows of a measurement that it sampled. -/
def exemplarOf (c : StreamSettings α) (m : Measurement α) : Exemplar α :=
  ⟨m.value, m.time, (AttributeFilter.applyOptional c.filter m.attributes).2⟩

/-- Those of some measurements with their places that belong to a series. -/
def placedIn (c : StreamSettings α) (k : Attributes) (placed : List (Nat × Measurement α)) :
    List (Nat × Measurement α) :=
  placed.filter fun e => c.seriesOf e.2 == k

/-- Whether the exemplars of a point, shown with its attributes, are those of picks from what is fresh
in its series. With what an exemplar has of its attributes, those of the point make up what was
measured. -/
structure SampledFrom (c : StreamSettings α) (size : Nat) (fresh : List (Nat × Measurement α))
    (shown : Attributes × List (Exemplar α)) (picks : List (Nat × Measurement α)) : Prop where
  drawn : Reservoir.Picks size (c.placedIn shown.1 fresh) picks
  exemplars : shown.2 = picks.map fun e => c.exemplarOf e.2
  whole : ∀ e ∈ picks,
    (KeyMap.ofList (shown.1.entries ++ (c.exemplarOf e.2).dropped) == e.2.attributes) = true

variable {c : StreamSettings α} {size : Nat} {k j : Attributes} {fresh : List (Nat × Measurement α)}

theorem placedIn_congr (h : (j == k) = true) (fresh : List (Nat × Measurement α)) :
    c.placedIn j fresh = c.placedIn k fresh :=
  List.filter_congr fun _ _ => BEq.congr_right h

theorem placedIn_concat (k : Attributes) (fresh : List (Nat × Measurement α))
    (e : Nat × Measurement α) :
    c.placedIn k (fresh ++ [e]) =
      if c.seriesOf e.2 == k then c.placedIn k fresh ++ [e] else c.placedIn k fresh := by
  simp only [placedIn, List.filter_append]
  cases hk : c.seriesOf e.2 == k <;> simp [hk]

/-- Exemplars of picks from a series are shown with attributes that make up what was measured. -/
theorem SampledFrom.of_picks {picks : List (Nat × Measurement α)}
    (h : Reservoir.Picks size (c.placedIn k fresh) picks) :
    c.SampledFrom size fresh (k, picks.map fun e => c.exemplarOf e.2) picks := by
  refine ⟨h, rfl, fun e he => ?_⟩
  have hseries := (List.mem_filter.mp (h.subperm.subset he)).2
  exact AttributeFilter.ofList_applyOptional_beq hseries

/-- Under different attributes no measurement is picked twice. -/
theorem subperm_fresh {shown : List (Attributes × List (Exemplar α))}
    {sources : List (List (Nat × Measurement α))}
    (hdistinct : shown.Pairwise fun a b => (a.1 == b.1) = false) (hfresh : fresh.Nodup)
    (h : List.Forall₂ (c.SampledFrom size fresh) shown sources) : sources.flatten.Subperm fresh := by
  have hseries {e : Nat × Measurement α} {k : Attributes} {picks : List (Nat × Measurement α)}
      (hpicks : Reservoir.Picks size (c.placedIn k fresh) picks) (he : e ∈ picks) :
      e ∈ fresh ∧ (c.seriesOf e.2 == k) = true := List.mem_filter.mp (hpicks.subperm.subset he)
  -- Whatever is picked was picked for a point.
  have hpoint {shown : List (Attributes × List (Exemplar α))}
      {sources : List (List (Nat × Measurement α))} {e : Nat × Measurement α}
      (h : List.Forall₂ (c.SampledFrom size fresh) shown sources) (he : e ∈ sources.flatten) :
      e ∈ fresh ∧ ∃ point ∈ shown, (c.seriesOf e.2 == point.1) = true := by
    induction h with
    | nil => cases he
    | cons hfirst _ ih =>
      rcases List.mem_append.mp he with he | he
      · obtain ⟨hmem, hkey⟩ := hseries hfirst.drawn he
        exact ⟨hmem, _, List.mem_cons_self .., hkey⟩
      · obtain ⟨hmem, point, hpoint, hkey⟩ := ih he
        exact ⟨hmem, point, List.mem_cons_of_mem _ hpoint, hkey⟩
  refine List.subperm_of_subset ?_ fun e he => (hpoint h he).1
  induction h with
  | nil => exact .nil
  | cons hfirst hrest ih =>
    obtain ⟨hothers, hshown⟩ := List.pairwise_cons.mp hdistinct
    refine List.nodup_append.mpr ⟨hfirst.drawn.nodup (hfresh.filter _), ih hshown, ?_⟩
    rintro e he _ hother rfl
    -- The measurement would belong to the series of two points.
    obtain ⟨-, hkey⟩ := hseries hfirst.drawn he
    obtain ⟨-, point, hpoint, hkey'⟩ := hpoint hrest hother
    have hsame := BEq.trans (BEq.symm hkey) hkey'
    rw [hothers point hpoint] at hsame
    cases hsame

end StreamSettings

/-! ## Sampled streams -/

/-- A series after a measurement is the one that was measured, or it was there and is another one. -/
theorem SynchronousStream.mem_series_record [Quantity α] {s : SynchronousStream α} {draw : Nat}
    {m : Measurement α} {e : Attributes × Series α s.settings.Summary}
    (he : e ∈ (s.record draw m.value m.attributes m.time).series.entries) :
    ((s.settings.seriesOf m == e.1) = true ∧ e.2 =
        ((s.series.find? (s.settings.seriesOf m)).getD (Series.empty s.settings)).record s.settings draw
          m.value (s.settings.exemplarOf m).dropped m.time) ∨
      ((s.settings.seriesOf m == e.1) = false ∧ e ∈ s.series.entries) := by
  rcases Table.mem_update_cases he with ⟨hkey, hvalue⟩ | ⟨hkey, hmem⟩
  · exact .inl ⟨BEq.symm hkey, hvalue⟩
  · rw [BEq.comm] at hkey
    exact .inr ⟨hkey, hmem⟩

/-- Whether each series of a stream holds samples of what is fresh in it, with nothing fresh in a
series that is untouched, and each fresh measurement has its series. -/
structure Sampled (size : Nat) (fresh : List (Nat × Measurement α)) (s : SynchronousStream α) :
    Prop where
  reservoirs : ∀ e ∈ s.series.entries, ∃ r, e.2.reservoir = some r ∧
    r.Samples (fun m => s.settings.exemplarOf m.2) size (s.settings.placedIn e.1 fresh)
  untouched : ∀ e ∈ s.series.entries, e.2.touched = false → s.settings.placedIn e.1 fresh = []
  known : ∀ m ∈ fresh, (s.series.find? (s.settings.seriesOf m.2)).isSome = true

namespace Sampled

variable {size : Nat} {fresh : List (Nat × Measurement α)} {s : SynchronousStream α}

theorem opened (size : Nat) (c : StreamSettings α) : Sampled size [] (.opened c) := by
  refine ⟨fun e he => ?_, fun e he => ?_, fun m hm => ?_⟩
  · cases he
  · cases he
  · cases hm

/-- A series without an entry has no fresh measurement. -/
theorem placedIn_eq_nil (h : Sampled size fresh s) {k : Attributes} (hk : s.series.find? k = none) :
    s.settings.placedIn k fresh = [] := by
  refine List.filter_eq_nil_iff.mpr fun m hm hmk => ?_
  have hfound := h.known m hm
  rw [Table.find?_congr s.series hmk, hk] at hfound
  cases hfound

/-- A collection takes out what is fresh, and of a series that it passes over nothing is. -/
theorem collected (h : Sampled size fresh s) (time : Time) : Sampled size [] (s.collected time) := by
  refine ⟨fun e he => ?_, fun _ _ _ => rfl, fun m hm => ?_⟩
  · obtain ⟨x, hx, rfl⟩ := List.mem_map.mp he
    obtain ⟨r, hr, hsamples⟩ := h.reservoirs x hx
    show ∃ r : Reservoir α, (if s.reports x.2 then x.2.collected else x.2).reservoir = some r ∧
      r.Samples (fun m : Nat × Measurement α => s.settings.exemplarOf m.2) size []
    split
    · exact ⟨_, congrArg (Option.map _) hr, hsamples.collect⟩
    · rename_i hpassed
      -- Only a delta collection passes over a series, and only if it is untouched.
      have huntouched : x.2.touched = false := by
        unfold SynchronousStream.reports at hpassed
        split at hpassed
        · exact absurd rfl hpassed
        · exact Bool.not_eq_true _ ▸ hpassed
      exact ⟨r, hr, h.untouched x hx huntouched ▸ hsamples⟩
  · cases hm

variable [Quantity α]

/-- A measurement is offered to the reservoir of its series, which is touched from now on. -/
theorem record (h : Sampled size fresh s) (hsize : s.settings.reservoir = some size) (place draw : Nat)
    (m : Measurement α) :
    Sampled size (fresh ++ [(place, m)]) (s.record draw m.value m.attributes m.time) := by
  have hplaced (k : Attributes) := s.settings.placedIn_concat k fresh (place, m)
  refine ⟨fun e he => ?_, fun e he htouched => ?_, fun x hx => ?_⟩
  · show ∃ r : Reservoir α, e.2.reservoir = some r ∧
      r.Samples (fun m => s.settings.exemplarOf m.2) size
        (s.settings.placedIn e.1 (fresh ++ [(place, m)]))
    rcases SynchronousStream.mem_series_record he with ⟨hkey, hvalue⟩ | ⟨hkey, hmem⟩
    · have hreservoir : e.2.reservoir =
          ((s.series.find? (s.settings.seriesOf m)).getD (Series.empty s.settings)).reservoir.map
            (·.offer draw (s.settings.exemplarOf m)) := congrArg Series.reservoir hvalue
      rw [hplaced, if_pos hkey, hreservoir]
      -- Up to the measurement the series was there, or there was nothing to sample.
      cases hfound : s.series.find? (s.settings.seriesOf m) with
      | some series =>
        obtain ⟨k, hk, hkm⟩ := Table.exists_of_find?_eq_some hfound
        obtain ⟨r, hr, hsamples⟩ := h.reservoirs _ hk
        rw [StreamSettings.placedIn_congr (BEq.trans hkm hkey)] at hsamples
        exact ⟨_, congrArg (Option.map _) hr, hsamples.offer draw (place, m)⟩
      | none =>
        rw [← StreamSettings.placedIn_congr hkey, h.placedIn_eq_nil hfound]
        have hempty : (Series.empty s.settings).reservoir = some (.empty size) :=
          congrArg (Option.map Reservoir.empty) hsize
        exact ⟨_, congrArg (Option.map _) hempty,
          (Reservoir.Samples.empty _ size).offer draw (place, m)⟩
    · rw [hplaced, hkey, if_neg Bool.false_ne_true]
      exact h.reservoirs e hmem
  · show s.settings.placedIn e.1 (fresh ++ [(place, m)]) = []
    rcases SynchronousStream.mem_series_record he with ⟨-, hvalue⟩ | ⟨hkey, hmem⟩
    · rw [hvalue] at htouched
      cases htouched
    · rw [hplaced, hkey, if_neg Bool.false_ne_true]
      exact h.untouched e hmem htouched
  · show ((s.series.update (s.settings.seriesOf m) _).find? (s.settings.seriesOf x.2)).isSome = true
    rw [Table.find?_update]
    split
    · rfl
    · rename_i hother
      rcases List.mem_append.mp hx with hx | hx
      · exact h.known x hx
      · obtain rfl := List.mem_singleton.mp hx
        exact absurd BEq.rfl hother

/-- A stream that plays a history holds samples of what is fresh, by induction on the history. -/
theorem play {c : StreamSettings α} (hsize : c.reservoir = some size) (steps : List (StreamStep α)) :
    Sampled size (StreamStep.fresh steps) ((SynchronousStream.opened c).play steps).2 := by
  induction steps using List.reverseRecOn with
  | nil => exact .opened size c
  | append_singleton steps x ih =>
    rw [StreamStep.fresh_concat, SynchronousStream.play_concat]
    have hsettings := (SynchronousStream.opened c).settings_play steps
    cases x with
    | record draw m => exact ih.record ((congrArg StreamSettings.reservoir hsettings).trans hsize) ..
    | collect time => exact ih.collected time

end Sampled

/-! ## Points -/

/-- The points of data, each with its attributes and exemplars. -/
def Data.samples : Data α → List (Attributes × List (Exemplar α))
  | .sum points _ _ => points.map fun p => (p.attributes, p.exemplars)
  | .histogram points _ => points.map fun p => (p.attributes, p.exemplars)
  | .gauge points => points.map fun p => (p.attributes, p.exemplars)

theorem Data.map_samples (d : Data α) : d.samples.map (·.1) = d.sets := by
  cases d <;> exact List.map_map

/-- Points show the exemplars of accumulations, some of which may give no point. -/
theorem Aggregator.samples_toData (a : Aggregator α) (accs : List (Accumulation α a.Summary))
    (start time : Time) (t : Temporality) :
    (a.toData accs start time t).samples.Sublist (accs.map fun acc => (acc.attributes, acc.exemplars)) := by
  cases a with
  | sum monotonic =>
    simp only [toData, Data.samples, List.map_map]
    exact .refl _
  | histogram h =>
    simp only [toData, Data.samples, List.map_map]
    exact List.filter_sublist.map _
  | lastValue =>
    simp only [toData, Data.samples, List.map_filterMap]
    induction accs with
    | nil => exact .slnil
    | cons acc rest ih =>
      rw [List.filterMap_cons, List.map_cons]
      cases acc.summary with
      | none => exact .cons _ ih
      | some sample => exact .cons_cons _ ih

namespace SynchronousStream

variable [Quantity α] {c : StreamSettings α} {size : Nat} {s : SynchronousStream α}
  {fresh : List (Nat × Measurement α)}

/-- The exemplars of points, which have different attributes, are sampled from what is fresh. -/
theorem samples_data (h : Sampled size fresh s) (time : Time) :
    ((s.data time).samples.Pairwise fun a b => (a.1 == b.1) = false) ∧
      ∀ shown ∈ (s.data time).samples, ∃ picks, s.settings.SampledFrom size fresh shown picks := by
  have hsublist := s.settings.aggregator.samples_toData (s.reported.map s.accumulation)
    (s.settings.windowStart s.lastCollect) time s.settings.temporality
  rw [List.map_map] at hsublist
  refine ⟨(List.pairwise_map.mpr (s.series.distinct.filter _)).sublist hsublist, fun shown hshown => ?_⟩
  obtain ⟨e, he, rfl⟩ := List.mem_map.mp (hsublist.subset hshown)
  obtain ⟨r, hr, -, -, picks, hpicks, hheld⟩ := h.reservoirs e (List.mem_of_mem_filter he)
  -- What the collection takes out of the reservoir is what the reservoir holds.
  have hexemplars : e.2.exemplars = picks.map fun m => s.settings.exemplarOf m.2 := by
    rw [Series.exemplars, hr]
    exact hheld
  refine ⟨picks, ?_⟩
  show s.settings.SampledFrom size fresh (e.1, e.2.exemplars) picks
  rw [hexemplars]
  exact .of_picks hpicks

/-- What is fresh in a history is exported by its next collection. -/
theorem exists_mem_sets_play (steps : List (StreamStep α)) (time : Time) {e : Nat × Measurement α}
    (he : e ∈ StreamStep.fresh steps) :
    ∃ k ∈ (((opened c).play steps).2.data time).sets, (c.seriesOf e.2 == k) = true := by
  let w := Window.after c.start steps
  have hmem : e.2 ∈ w.fresh := StreamStep.map_fresh c.start steps ▸ List.mem_map_of_mem he
  have hoccurs : c.occurs (c.seriesOf e.2) w.fresh = true :=
    List.any_eq_true.mpr ⟨e.2, hmem, BEq.rfl⟩
  -- The series is among all, and among those that have something fresh.
  obtain ⟨k, hk, hke⟩ := List.any_eq_true.mp (StreamSettings.any_seriesAmong_of_occurs hoccurs)
  have hsettings := (opened c).settings_play steps
  refine ⟨k, ?_, BEq.symm hke⟩
  rw [← Data.sets_withoutExemplars]
  cases htemporality : c.temporality with
  | cumulative =>
    have hdata := (Recounts.play c steps).data_eq (hsettings ▸ htemporality) time
    rw [hsettings] at hdata
    rw [hdata, StreamSettings.sets_reference]
    exact Window.all_after c.start steps ▸ hk
  | delta =>
    have hdata := (Tracks.play htemporality steps).data_eq (hsettings ▸ htemporality) time
    rw [hsettings] at hdata
    rw [hdata, StreamSettings.sets_deltaReference]
    exact List.mem_filter.mpr ⟨hk, StreamSettings.occurs_congr hke _ ▸ hoccurs⟩

end SynchronousStream

end Metering
