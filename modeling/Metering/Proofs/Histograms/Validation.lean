import Metering.Proofs.Creations.Standing
import Metering.Proofs.Histograms.Buckets
import Metering.Proofs.Histories.Streams

/-!
# Where the Bounds of Histograms Come From

The bounds of a histogram are advised with the request of the instrument, asked for by a view, given by
the exporter, or the standard ones, and they are checked on each way before a stream is opened with
them. So in every system that a run reaches the histograms among the streams have valid bounds, and
they are streams of synchronous instruments.
-/

namespace Metering

open Quantity

variable {α σ : Type} [Quantity α]

/-! ## Checks that were passed -/

theorem Instrument.checkBounds_eq_ok {bounds : List α} :
    Instrument.checkBounds bounds = .ok () ↔ strictlyAscending bounds = true := by
  unfold checkBounds
  split <;> simp [*]

/-- Bounds that are advised with a valid request are valid. -/
theorem Instrument.ascending_of_check {i : Instrument α} (h : i.check = .ok ()) {bounds : List α}
    (hbounds : i.advice.bounds = some bounds) : strictlyAscending bounds = true := by
  rw [← checkBounds_eq_ok]
  unfold check at h
  simp only [hbounds] at h
  -- Bounds are checked last, after the name and the unit.
  split at h
  · cases h
  · split at h
    · split at h
      · cases h
      · exact h
    · exact h

/-- The aggregation of a valid view is valid. -/
theorem View.check_aggregation {v : View α} (h : v.check = .ok ()) {choice : Aggregation α}
    (hchoice : v.aggregation = some choice) : choice.check = .ok () := by
  unfold check at h
  simp only [hchoice] at h
  split at h
  · cases h
  · split at h
    · split at h
      · exact h
      · cases h
      · cases h
    · exact h

/-- A valid aggregation is chosen: that of the projection, or that of the exporter after a check. -/
theorem System.check_of_chooseAggregation {e : Exporter α} {kind : Kind} {pr : Projection α}
    (hpr : ∀ a, pr.aggregation = some a → a.check = .ok ()) {choice : Aggregation α}
    (h : (chooseAggregation e kind pr).2 = .ok choice) : choice.check = .ok () := by
  unfold chooseAggregation at h
  cases hasked : pr.aggregation with
  | some a =>
    simp only [hasked] at h
    exact Except.ok.inj h ▸ hpr a hasked
  | none =>
    simp only [hasked] at h
    cases hcheck : (e.aggregation kind).check with
    | error error =>
      rw [hcheck] at h
      cases h
    | ok _ =>
      rw [hcheck] at h
      exact Except.ok.inj h ▸ hcheck

/-- Of a valid request and a valid aggregation, a histogram with valid bounds comes, and only if the
instrument is synchronous. -/
theorem Aggregation.ascending_of_resolve [Scaled α] {i : Instrument α} (hi : i.check = .ok ())
    {choice : Aggregation α} (hchoice : choice.check = .ok ()) {h : Histogram α}
    (hresolve : choice.resolve i = .ok (some (.histogram h))) :
    strictlyAscending h.bounds = true ∧ i.identity.kind.isAsynchronous = false := by
  cases choice with
  | suited =>
    have hsuited : Aggregation.suitedTo i = .histogram h := Option.some.inj (Except.ok.inj hresolve)
    unfold Aggregation.suitedTo at hsuited
    cases hkind : i.identity.kind <;> rw [hkind] at hsuited <;> cases hsuited
    refine ⟨?_, rfl⟩
    cases hbounds : i.advice.bounds with
    | none => exact Scaled.standard
    | some bounds => exact Instrument.ascending_of_check hi hbounds
  | drop | sum | lastValue => cases hresolve
  | histogram bounds extremes =>
    simp only [Aggregation.resolve] at hresolve
    split at hresolve
    · cases hresolve
    · rename_i hsync
      cases hresolve
      exact ⟨Instrument.checkBounds_eq_ok.mp hchoice, Bool.not_eq_true _ ▸ hsync⟩

/-! ## Systems with valid histograms -/

/-- Whether the stream, if it is a histogram, has valid bounds and is that of a synchronous
instrument. -/
def RegisteredStream.Bounded (rs : RegisteredStream α) : Prop :=
  ∀ h, rs.settings.aggregator = .histogram h →
    strictlyAscending h.bounds = true ∧ rs.observer? = none

theorem RegisteredStream.Bounded.of_form {rs rs' : RegisteredStream α} (h : rs.Bounded)
    (hform : rs'.form = rs.form) : rs'.Bounded := by
  have hsettings : rs'.settings = rs.settings := congrArg (·.2) hform
  have hobserver : rs'.observer? = rs.observer? := congrArg (·.1.2.2.2.2.2) hform
  unfold Bounded
  rw [hsettings, hobserver]
  exact h

namespace System

/-- Views are valid, and so are the bounds of all histograms. -/
structure Validated (sys : System α) : Prop where
  views : ∀ views ∈ sys.providers.map (·.views), ∀ v ∈ views, v.check = .ok ()
  streams : ∀ t rs, streamAt sys.readers t = some rs → rs.Bounded

variable {respond : Responder σ α} {sys sys' : System α} {o : Option (Occurrence σ α)}
  {past : List (Occurrence σ α)}

/-- What is planned for a valid request under valid views is bounded. -/
theorem bounded_of_plan [Scaled α] {provider : Provider α} (hviews : ∀ v ∈ provider.views, v.check = .ok ())
    {scope : Scope} {i : Instrument α} (hi : i.check = .ok ()) {entries : List (JournalEntry α)}
    {plans : List (StreamPlan α)} (h : sys.plan provider scope i = (entries, .ok plans)) :
    ∀ plan ∈ plans, ∀ hist, plan.aggregator = .histogram hist →
      strictlyAscending hist.bounds = true ∧ i.identity.kind.isAsynchronous = false := by
  refine forall_of_planStreams (fun pair hpair e r plan hplan hist hhist => ?_) (congrArg (·.2) h)
  obtain ⟨choice, hchoice, hresolve⟩ := planStream_eq_some hplan
  refine Aggregation.ascending_of_resolve hi (check_of_chooseAggregation ?_ hchoice)
    (hhist ▸ hresolve)
  -- A projection has an aggregation from a view, or none.
  obtain ⟨pr, hpr, hmem⟩ := List.mem_flatMap.mp hpair
  obtain ⟨-, -, rfl⟩ := List.mem_map.mp hmem
  intro a ha
  unfold View.projections at hpr
  split at hpr
  · obtain rfl := List.mem_singleton.mp hpr
    cases ha
  · obtain ⟨v, hv, rfl⟩ := List.mem_map.mp hpr
    exact View.check_aggregation (hviews v (List.mem_of_mem_filter hv)) ha

namespace Validated

/-- Views stay valid. -/
theorem views_happening (h : Validated sys) (hhappening : Happening respond sys o sys') :
    ∀ views ∈ sys'.providers.map (·.views), ∀ v ∈ views, v.check = .ok () := by
  have hsame (hviews : sys'.providers.map (·.views) = sys.providers.map (·.views)) :
      ∀ views ∈ sys'.providers.map (·.views), ∀ v ∈ views, v.check = .ok () := hviews ▸ h.views
  cases hhappening with
  | upkeep hupkeep => exact hsame hupkeep.sheds.views
  | close | finish | pass => exact h.views
  | record => exact hsame (by rw [writeTo_eq])
  | quit p => exact hsame (map_modify_of_eq fun _ _ => rfl)
  | build => exact hsame (map_modify_of_eq fun _ _ => rfl)
  | view p valid =>
    intro views hviews v hv
    obtain ⟨provider, hprovider, rfl⟩ := List.mem_map.mp hviews
    obtain ⟨q, hq⟩ := List.mem_iff_getElem?.mp hprovider
    have hq : (sys.providers.modify p _)[q]? = some provider := hq
    rw [List.getElem?_modify] at hq
    obtain ⟨before, hbefore, rfl⟩ := Option.map_eq_some_iff.mp hq
    have hold := h.views _ (List.mem_map_of_mem (List.mem_of_getElem? hbefore))
    split at hv
    · rcases List.mem_append.mp hv with hv | hv
      · exact hold v hv
      · exact List.mem_singleton.mp hv ▸ valid
    · exact hold v hv

/-- Every happening keeps histograms valid: streams keep their form, and those that are opened have
been planned. -/
theorem happening [Scaled α] (h : Validated sys) (hrooted : Rooted (fun _ _ => True) sys)
    (hhappening : Happening respond sys o sys') : Validated sys' := by
  have hmoves : Moves (fun _ _ => True) sys sys' := hhappening.steps.moves
  refine ⟨h.views_happening hhappening, fun t rs' hrs' => ?_⟩
  by_cases ht : t ∈ sys.builtStreams
  · obtain ⟨b, hb, ht⟩ := List.mem_flatMap.mp ht
    obtain ⟨i, hb⟩ := List.mem_iff_getElem?.mp hb
    obtain ⟨rs, hrs, hgrows⟩ := hrooted.grows_of_moves hmoves hb ht hrs'
    exact (h.streams t rs hrs).of_form hgrows.form
  · -- The stream is new.
    have hbuilt : t ∈ sys'.builtStreams := by
      obtain ⟨i, b, hb, ht, -⟩ := (hrooted.moves hmoves).streams t rs' hrs'
      exact List.mem_flatMap.mpr ⟨b, List.mem_of_getElem? hb, ht⟩
    cases hhappening with
    | upkeep hupkeep =>
      rw [builtStreams_congr hupkeep.sheds.instruments] at hbuilt
      exact absurd hbuilt ht
    | view | close | finish | quit | pass => exact absurd hbuilt ht
    | record =>
      rw [writeTo_eq] at hbuilt
      exact absurd hbuilt ht
    | build owner same views unknown valid planned =>
      rename_i p current provider scope i entries plans
      have hviews : ∀ v ∈ provider.views, v.check = .ok () :=
        views ▸ h.views _ (List.mem_map_of_mem (List.mem_of_getElem? owner))
      rcases streamAt_openStreams_cases hrs' with ⟨-, plan, hplan, rfl⟩ | hbefore
      · intro hist hhist
        have hsettings (observer : Option ObserverRef) :
            ((sys.write entries).planned provider.resource scope observer plan).settings.aggregator =
              plan.aggregator := by cases observer <;> rfl
        obtain ⟨hascending, hsync⟩ :=
          bounded_of_plan hviews valid planned plan hplan hist ((hsettings _).symm.trans hhist)
        refine ⟨hascending, ?_⟩
        simp only [hsync, Bool.false_eq_true, if_false]
        rfl
      · obtain ⟨j, b, hb, hmem, -⟩ := hrooted.streams t rs' hbefore
        exact absurd (List.mem_flatMap.mpr ⟨b, List.mem_of_getElem? hb, hmem⟩) ht

/-- Histograms stay valid whatever course is taken, by induction on what happens in it. -/
theorem course [Scaled α] (h : Validated sys) (hrooted : Rooted (fun _ _ => True) sys)
    (hcourse : Course respond sys past sys') : Validated sys' := by
  induction hcourse with
  | refl => exact h
  | tail hbefore hhappening ih =>
    exact ih.happening (hrooted.moves (Course.steps hbefore).moves) hhappening

end Validated

/-- When a system is launched there are neither views nor streams. -/
theorem validated_launched (readers : List (Exporter α × Nat)) (providers : List (Resource × List Nat)) :
    Validated (launched readers providers) := by
  refine ⟨fun views hviews v hv => ?_, fun t rs hrs => ?_⟩
  · obtain ⟨provider, hprovider, rfl⟩ := List.mem_map.mp hviews
    obtain ⟨e, -, rfl⟩ := List.mem_map.mp hprovider
    cases hv
  · rw [streamAt_launched] at hrs
    cases hrs

end System

end Metering
