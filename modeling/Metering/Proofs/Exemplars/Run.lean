import Metering.Proofs.Exemplars.Series
import Metering.Proofs.Filters.Run
import Metering.Proofs.Histories.Streams

/-!
# Where Exemplars Come From

In a run, the exemplars that a pass exports for a stream are those of measurements of the stream's
history, so each of them has a source: the place of its measurement there. The source of an exemplar
belongs to the series that shows it and is later than the last collection of the stream. So over all
passes of a run no measurement is the source of two exemplars.
-/

namespace Metering

variable {α σ : Type}

/-! ## Histories up to a place -/

/-- What happens to a stream at a place in a course is in its history from then on. -/
theorem history_take_of_step {t : Nat × Nat} {course : List (Occurrence σ α)} {p q : Nat}
    {o : Occurrence σ α} {x : StreamStep α} (ho : course[p]? = some o) (hx : o.step? t = some x)
    (hpq : p < q) :
    ∃ later, history t (course.take q) = history t (course.take p) ++ x :: later := by
  have hlt : p < (course.take q).length := by
    have hp := (List.getElem?_eq_some_iff.mp ho).1
    rw [List.length_take]
    omega
  have hat : (course.take q)[p] = o := by
    rw [List.getElem_take]
    exact (List.getElem?_eq_some_iff.mp ho).2
  -- The course up to the later place is cut at the earlier one.
  refine ⟨history t ((course.take q).drop (p + 1)), ?_⟩
  conv_lhs => rw [← List.take_append_drop p (course.take q), List.drop_eq_getElem_cons hlt, hat]
  rw [List.take_take, Nat.min_eq_left hpq.le, history_append]
  exact congrArg _ (List.filterMap_cons_some hx)

/-- What is fresh at one place in a course, with a collection there, is not fresh at a later one. -/
theorem lt_of_mem_fresh_take {t : Nat × Nat} {course : List (Occurrence σ α)} {p q : Nat}
    {o : Occurrence σ α} {time : Time} (ho : course[p]? = some o)
    (hcollect : o.step? t = some (.collect time)) (hpq : p < q) {e e' : Nat × Measurement α}
    (he : e ∈ StreamStep.fresh (history t (course.take p)))
    (he' : e' ∈ StreamStep.fresh (history t (course.take q))) : e.1 < e'.1 := by
  obtain ⟨later, hlater⟩ := history_take_of_step ho hcollect hpq
  rw [hlater] at he'
  exact (StreamStep.lt_of_mem_fresh he).trans (StreamStep.lt_of_mem_fresh_append he')

variable [Quantity α]

/-! ## Points of a history -/

/-- The exemplars that a stream exports after a history are sampled from what is fresh in it, which has
points in all of its series, and no measurement is picked twice. -/
theorem SynchronousStream.exists_sources_play {c : StreamSettings α} {size : Nat}
    (hsize : c.reservoir = some size) (steps : List (StreamStep α)) (time : Time) :
    let samples := (((opened c).play steps).2.data time).samples
    ∃ sources, List.Forall₂ (c.SampledFrom size (StreamStep.fresh steps)) samples sources ∧
      sources.flatten.Subperm (StreamStep.fresh steps) ∧
      ∀ e ∈ StreamStep.fresh steps, ∃ shown ∈ samples, (c.seriesOf e.2 == shown.1) = true := by
  intro samples
  have hsettings := (opened c).settings_play steps
  obtain ⟨hdistinct, hsampled⟩ := samples_data (Sampled.play hsize steps) time
  rw [hsettings] at hsampled
  obtain ⟨sources, hsources⟩ : ∃ sources,
      List.Forall₂ (c.SampledFrom size (StreamStep.fresh steps)) samples sources := by
    choose! picks hpicks using hsampled
    exact ⟨samples.map picks, List.forall₂_map_right_iff.mpr (List.forall₂_same.mpr hpicks)⟩
  have hnodup : (StreamStep.fresh steps).Nodup :=
    (StreamStep.ascending_fresh steps).imp fun hlt heq => Nat.ne_of_lt hlt (congrArg _ heq)
  refine ⟨sources, hsources, StreamSettings.subperm_fresh hdistinct hnodup hsources, fun e he => ?_⟩
  obtain ⟨k, hk, hek⟩ := exists_mem_sets_play (c := c) steps time he
  rw [← Data.map_samples] at hk
  obtain ⟨shown, hshown, rfl⟩ := List.mem_map.mp hk
  exact ⟨shown, hshown, hek⟩

/-! ## Points of a pass -/

namespace Pass

/-- The points that the pass exports for the stream with a number, each with its attributes and
exemplars. -/
def samples (respond : Responder σ α) (pass : Pass σ α) (n : Nat) :
    List (Attributes × List (Exemplar α)) :=
  (pass.metric? respond n).elim [] (·.data.samples)

/-- The pass exports the points that the stream has. -/
theorem samples_eq (respond : Responder σ α) {pass : Pass σ α} {n : Nat} {s : SynchronousStream α}
    (h : pass.stream? n = some s) :
    pass.samples respond n = (s.data pass.system.now).samples := by
  obtain ⟨rs, hrs, hsource⟩ := stream?_eq_some.mp h
  have hdata : rs.data (pass.observed respond) pass.system.now = s.data pass.system.now := by
    simp only [RegisteredStream.data, hsource]
  simp only [samples, metric?, hrs, Option.bind_some, RegisteredStream.metric?, hdata]
  split
  · -- No points, no exemplars.
    rename_i hempty
    have hlength : (s.data pass.system.now).sets.length = 0 := by
      rw [Data.length_sets]
      exact beq_iff_eq.mp hempty
    rw [← Data.map_samples, List.length_map] at hlength
    exact (List.length_eq_zero_iff.mp hlength).symm
  · rfl

end Pass

namespace System

/-- Where the exemplars come from that the pass at a place of a course, if there is one, exports for a
stream that samples: from what is fresh in the history of the stream up to there. -/
theorem exists_sources {respond : Responder σ α} {sys sys' : System α} {course : List (Occurrence σ α)}
    (hcourse : Course respond sys course sys') (hrooted : Rooted (fun _ _ => True) sys)
    (hchronicled : Chronicled ([] : List (Occurrence σ α)) sys) (t : Nat × Nat) (p : Nat) :
    let fresh := StreamStep.fresh (history t (course.take p))
    ∃ sources : List (List (Nat × Measurement α)),
      (∀ pass, course[p]? = some (.collected pass) → pass.reader = t.1 →
        ∀ s size, pass.stream? t.2 = some s → s.settings.reservoir = some size →
          List.Forall₂ (s.settings.SampledFrom size fresh) (pass.samples respond t.2) sources ∧
            ∀ e ∈ fresh, ∃ shown ∈ pass.samples respond t.2,
              (s.settings.seriesOf e.2 == shown.1) = true) ∧
      sources.flatten.Subperm fresh ∧
      (sources ≠ [] → ∃ o time, course[p]? = some o ∧ o.step? t = some (.collect time)) := by
  intro fresh
  by_cases hsamples : ∃ pass s size, course[p]? = some (.collected pass) ∧ pass.reader = t.1 ∧
      pass.stream? t.2 = some s ∧ s.settings.reservoir = some size
  · obtain ⟨pass, s, size, hp, hreader, hs, hsize⟩ := hsamples
    -- The course up to the place leads to the system that the pass collects.
    have hsplit : course = course.take p ++ .collected pass :: course.drop (p + 1) := by
      obtain ⟨hlt, hat⟩ := List.getElem?_eq_some_iff.mp hp
      rw [← hat, ← List.drop_eq_getElem_cons hlt, List.take_append_drop]
    have hbefore : Course respond sys (course.take p) pass.system := hcourse.before_pass hsplit
    obtain ⟨rs, hrs, hsource⟩ := Pass.stream?_eq_some.mp hs
    have hplayed := (hchronicled.course hrooted hbefore).played _ rs s hrs hsource
    rw [List.nil_append, hreader] at hplayed
    obtain ⟨sources, hsources, hsubperm, hall⟩ := SynchronousStream.exists_sources_play hsize
      (history t (course.take p)) pass.system.now
    rw [← hplayed, ← Pass.samples_eq respond hs] at hsources hall
    refine ⟨sources, fun pass' hp' _ s' size' hs' hsize' => ?_, hsubperm, fun _ =>
      ⟨_, _, hp, if_pos ⟨hreader, ?_⟩⟩⟩
    · -- There is one occurrence at the place, and one stream with the number.
      obtain rfl : pass = pass' := Occurrence.collected.inj (Option.some.inj (hp.symm.trans hp'))
      obtain rfl : s = s' := Option.some.inj (hs.symm.trans hs')
      obtain rfl : size = size' := Option.some.inj (hsize.symm.trans hsize')
      exact ⟨hsources, hall⟩
    · rw [hreader] at hrs
      rw [hrs]
      rfl
  · refine ⟨[], fun pass hp hreader s size hs hsize => ?_, List.nil_subperm, fun hne => absurd rfl hne⟩
    exact absurd ⟨pass, s, size, hp, hreader, hs, hsize⟩ hsamples

/-- In every run, exporters are handed what the passes of its course deliver, and the exemplars that the
passes export for streams that sample have sources, whatever is drawn. Of each point they are as many as
its reservoir has room for, out of what was measured in its series since the stream's last collection,
in this order if there is room for all; what was measured since then has a point. No measurement is a
source twice, on one point or several, in one pass or several. -/
theorem exemplars_run (respond : Responder σ α) (known : σ) (readers : List (Exporter α × Nat))
    (providers : List (Resource × List Nat)) (commands : List (Command α)) :
    let course := (launched readers providers).occurrences respond known commands
    deliveries ((launched readers providers).run respond known commands).2.2.journal =
        (course.filterMap (·.pass?)).map (·.delivery respond) ∧
      ∃ sources : Nat × Nat → Nat → List (List (Nat × Measurement α)),
        (∀ p pass, course[p]? = some (.collected pass) →
          ∀ n s size, pass.stream? n = some s → s.settings.reservoir = some size →
            let fresh := StreamStep.fresh (history (pass.reader, n) (course.take p))
            List.Forall₂ (s.settings.SampledFrom size fresh) (pass.samples respond n)
                (sources (pass.reader, n) p) ∧
              ∀ e ∈ fresh, ∃ shown ∈ pass.samples respond n,
                (s.settings.seriesOf e.2 == shown.1) = true) ∧
        ∀ t, ((List.range course.length).flatMap fun p => (sources t p).flatten.map (·.1)).Nodup := by
  intro course
  refine ⟨deliveries_course respond known readers providers commands, ?_⟩
  have hcourse : Course respond (launched readers providers) course _ := .run respond known _ commands
  have hsources := exists_sources hcourse (rooted_launched readers providers)
    (chronicled_launched readers providers)
  choose sources hsampled hsubperm hcollects using hsources
  refine ⟨sources, fun p pass hp n => hsampled (pass.reader, n) p pass hp rfl, fun t =>
    List.nodup_flatMap.mpr ⟨fun p _ => ?_, ?_⟩⟩
  · -- At one place, places in the history are not repeated.
    obtain ⟨some, hperm, hsublist⟩ := hsubperm t p
    have hplaces : ((StreamStep.fresh (history t (course.take p))).map (·.1)).Nodup :=
      List.pairwise_map.mpr ((StreamStep.ascending_fresh _).imp Nat.ne_of_lt)
    exact (hperm.map _).nodup_iff.mp (hplaces.sublist (hsublist.map _))
  · -- At two places, the collection at the first one separates them.
    refine List.pairwise_lt_range.imp fun {p q} hpq => ?_
    intro place hp hq
    obtain ⟨e, he, rfl⟩ := List.mem_map.mp hp
    obtain ⟨e', he', heq⟩ := List.mem_map.mp hq
    have hne : sources t p ≠ [] := by
      intro hnil
      rw [hnil] at he
      cases he
    obtain ⟨o, time, ho, hcollect⟩ := hcollects t p hne
    have hlt := lt_of_mem_fresh_take ho hcollect hpq ((hsubperm t p).subset he) ((hsubperm t q).subset he')
    exact absurd heq (Nat.ne_of_gt hlt)

/-- A delta stream with room for two exemplars and four measurements before a pass, one of which takes
the slot of the first, and one in a series of its own. -/
theorem exemplars_run_drawn :
    let view : View Int :=
      ⟨⟨some (.exact "c"), none, none, none, none, none⟩, none, none, some ["k"], none, some 2⟩
    let respond : Responder Unit Int := fun _ _ => (⟨[], .returned⟩, ())
    let attributes (k q : String) : List Attribute := [("q", .text q), ("k", .text k)]
    let course := (launched [(.memory .delta, 1000)] [(KeyMap.empty, [0])]).occurrences respond ()
      [.registerView 0 view, .create 0 (.named "m") ⟨⟨.counter, "c", none, none⟩, ⟨none, none⟩⟩ 0,
        .record 0 1 (attributes "x" "1") id, .record 0 2 (attributes "x" "2") id,
        .record 0 3 (attributes "x" "3") fun _ => 3, .record 0 4 (attributes "y" "1") id, .flush 0]
    let shown (k : String) (exemplars : List (Int × String)) : Attributes × List (Exemplar Int) :=
      (KeyMap.ofList [("k", .text k)], exemplars.map fun e => ⟨e.1, 0, [("q", .text e.2)]⟩)
    let fresh := StreamStep.fresh (history (0, 0) (course.take 4))
    fresh.map (fun e => (e.1, e.2.value)) = [(0, 1), (1, 2), (2, 3), (3, 4)] ∧
      ∃ pass s, course[4]? = some (.collected pass) ∧ pass.stream? 0 = some s ∧
        pass.samples respond 0 = [shown "x" [(3, "3"), (2, "2")], shown "y" [(4, "1")]] ∧
        ∃ sources, List.Forall₂ (s.settings.SampledFrom 2 fresh) (pass.samples respond 0) sources ∧
          (sources.flatten.map (·.1)).Nodup := by
  intro view respond attributes course shown fresh
  have hfresh : fresh.map (fun e => (e.1, e.2.value)) = [(0, 1), (1, 2), (2, 3), (3, 4)] := by
    decide +kernel
  have hpass : (course[4]?.bind (·.pass?)).map (fun pass =>
      (pass.reader, (pass.stream? 0).map (·.settings.reservoir))) = some (0, some (some 2)) := by
    decide +kernel
  have hshown : (course[4]?.bind (·.pass?)).map (·.samples respond 0) =
      some [shown "x" [(3, "3"), (2, "2")], shown "y" [(4, "1")]] := by decide +kernel
  obtain ⟨pass, hfound, hfacts⟩ := Option.map_eq_some_iff.mp hpass
  obtain ⟨o, ho, hcollected⟩ := Option.bind_eq_some_iff.mp hfound
  obtain ⟨hreader, hstream⟩ := Prod.mk.inj hfacts
  rw [hfound] at hshown
  have hsamples := Option.some.inj hshown
  obtain rfl := Occurrence.pass?_eq_some.mp hcollected
  obtain ⟨s, hs, hsize⟩ := Option.map_eq_some_iff.mp hstream
  obtain ⟨-, sources, hsources, hnodup⟩ := exemplars_run respond () _ _ _
  obtain ⟨hsampled, -⟩ := hsources 4 pass ho 0 s 2 hs hsize
  rw [hreader] at hsampled
  have hlength : 4 < course.length := (List.getElem?_eq_some_iff.mp ho).1
  exact ⟨hfresh, pass, s, ho, hs, hsamples, _, hsampled,
    (List.nodup_flatMap.mp (hnodup (0, 0))).1 4 (List.mem_range.mpr hlength)⟩

end System

end Metering
