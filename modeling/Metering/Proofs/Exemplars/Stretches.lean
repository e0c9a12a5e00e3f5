import Metering.Proofs.Exemplars.Reservoir
import Mathlib.Data.List.Induction

/-!
# Reservoirs along a History

A collection ends a stretch of a reservoir's history: what is held depends on the offers since then
and on what was drawn for them, and on nothing before. Within a stretch each offer is told by its
place, so that equal measurements can be told apart, and the invariant of sampling says which places
are held. It also keeps every slot that can be drawn within the reservoir: once there have been as
many offers as slots, all slots are taken.
-/

namespace Metering.Reservoir

variable {α : Type}

/-! ## Stretches -/

/-- What has been offered since the last collection, after one more step. -/
def Step.stretch (offered : List (Exemplar α)) : Step α → List (Exemplar α)
  | offer _ e => offered ++ [e]
  | collect => []

/-- What a history has offered since its last collection. -/
def lastStretch (steps : List (Step α)) : List (Exemplar α) := steps.foldl Step.stretch []

theorem lastStretch_concat (steps : List (Step α)) (s : Step α) :
    lastStretch (steps ++ [s]) = s.stretch (lastStretch steps) := List.foldl_append

/-- The history that follows another goes on with the reservoir that the first one left. -/
theorem run_append (r : Reservoir α) (steps later : List (Step α)) :
    run r (steps ++ later) =
      ((run r steps).1 ++ (run (run r steps).2 later).1, (run (run r steps).2 later).2) := by
  induction steps generalizing r with
  | nil => rfl
  | cons s rest ih =>
    simp only [List.cons_append, run, ih, List.append_assoc]

/-! ## What is held -/

/-- What a reservoir of a size holds, and what the next step does to it, after some offers. -/
structure Holds (size : Nat) (offered : List (Exemplar α)) (r : Reservoir α) : Prop where
  length : r.held.length = min size offered.length
  /-- What is held was offered, at places of which no two are the same. -/
  places : ∃ places : List Nat, places.Nodup ∧ r.held.map some = places.map (offered[·]?)
  all : offered.length ≤ size → r.held = offered
  /-- An offer for which there is room is added. -/
  room : offered.length < size → ∀ draw e, (r.offer draw e).held = r.held ++ [e]
  /-- Of the numbers that can be drawn for an offer without room, each that is the number of a slot is
  that of a slot in use, which the offer takes. -/
  taken : size ≤ offered.length → ∀ draw ≤ offered.length, draw < size →
    ∀ e, draw < r.held.length ∧ (r.offer draw e).held = r.held.set draw e
  /-- Every other number leaves the slots alone. -/
  passed : size ≤ offered.length → ∀ draw ≤ offered.length, size ≤ draw →
    ∀ e, (r.offer draw e).held = r.held
  collected : r.collect = (r.held, .empty size)

namespace Samples

variable {size : Nat} {offered : List (Exemplar α)} {r : Reservoir α}

theorem length_held (h : Samples Prod.fst size offered.zipIdx r) :
    r.held.length = min size offered.length := by
  obtain ⟨-, -, picks, hpicks, hheld⟩ := h
  rw [hheld, List.length_map, hpicks.length, List.length_zipIdx]

/-- The places of what is picked are different, and lead back to the offers. -/
theorem exists_places (h : Samples Prod.fst size offered.zipIdx r) :
    ∃ places : List Nat, places.Nodup ∧ r.held.map some = places.map (offered[·]?) := by
  obtain ⟨-, -, picks, hpicks, hheld⟩ := h
  refine ⟨picks.map (·.2), ?_, ?_⟩
  · have hall : (offered.zipIdx.map (·.2)).Nodup := by
      rw [List.zipIdx_map_snd]
      exact List.nodup_range'
    obtain ⟨some, hperm, hsublist⟩ := hpicks.subperm
    exact (hperm.map (·.2)).nodup_iff.mp (hall.sublist (hsublist.map (·.2)))
  · rw [hheld, List.map_map, List.map_map]
    refine List.map_congr_left fun pick hpick => ?_
    exact (List.mem_zipIdx_iff_getElem?.mp (hpicks.subperm.subset hpick)).symm

theorem held_eq (h : Samples Prod.fst size offered.zipIdx r) (hle : offered.length ≤ size) :
    r.held = offered := by
  obtain ⟨-, -, picks, hpicks, hheld⟩ := h
  rw [hheld, hpicks.all (by rwa [List.length_zipIdx]), List.zipIdx_map_fst]

theorem held_offer_of_lt (h : Samples Prod.fst size offered.zipIdx r) (hroom : offered.length < size)
    (draw : Nat) (e : Exemplar α) : (r.offer draw e).held = r.held ++ [e] := by
  have hne : size ≠ 0 := Nat.ne_of_gt (Nat.zero_lt_of_lt hroom)
  have hseen : r.seen = offered.length := (h.seen hne).trans List.length_zipIdx
  rw [Reservoir.offer, h.size_eq, if_neg hne, if_pos (hseen ▸ hroom)]

/-- Without room, what is drawn is the number of the slot to be taken. -/
theorem held_offer_of_le (h : Samples Prod.fst size offered.zipIdx r) (hfull : size ≤ offered.length)
    {draw : Nat} (hdraw : draw ≤ offered.length) (e : Exemplar α) :
    (r.offer draw e).held = r.held.set draw e := by
  by_cases hzero : size = 0
  · have hnothing : r.held = [] :=
      List.length_eq_zero_iff.mp (by rw [h.length_held, hzero, Nat.zero_min])
    rw [Reservoir.offer, h.size_eq, if_pos hzero, hnothing, List.set_nil]
  · have hseen : r.seen = offered.length := (h.seen hzero).trans List.length_zipIdx
    rw [Reservoir.offer, h.size_eq, if_neg hzero, if_neg (hseen ▸ Nat.not_lt_of_le hfull)]
    -- Of the numbers up to that of the offers, none is changed by the remainder.
    exact congrArg (r.held.set · e) (Nat.mod_eq_of_lt (hseen ▸ Nat.lt_succ_of_le hdraw))

/-- An invariant of sampling, with each offer told by its place, says what is held. -/
theorem holds (h : Samples Prod.fst size offered.zipIdx r) : Holds size offered r where
  length := h.length_held
  places := h.exists_places
  all := h.held_eq
  room := h.held_offer_of_lt
  taken hfull draw hdraw hslot e := by
    refine ⟨?_, h.held_offer_of_le hfull hdraw e⟩
    rw [h.length_held, Nat.min_eq_left hfull]
    exact hslot
  passed hfull draw hdraw hpast e := by
    rw [h.held_offer_of_le hfull hdraw e, List.set_eq_of_length_le]
    rw [h.length_held, Nat.min_eq_left hfull]
    exact hpast
  collected := by rw [Reservoir.collect, h.size_eq, Reservoir.empty]

/-- A step keeps the invariant of sampling, for the stretch that it continues or begins. -/
theorem step (h : Samples Prod.fst size offered.zipIdx r) (s : Step α) :
    Samples Prod.fst size (s.stretch offered).zipIdx (s.apply r).2 := by
  cases s with
  | offer draw e =>
    have hzip : (offered ++ [e]).zipIdx = offered.zipIdx ++ [(e, offered.length)] := by
      rw [List.zipIdx_append]
      simp
    show Samples Prod.fst size (offered ++ [e]).zipIdx (r.offer draw e)
    rw [hzip]
    exact h.offer draw (e, offered.length)
  | collect => exact h.collect

end Samples

/-- A run keeps the invariant of sampling, by induction on its steps. -/
theorem samples_run (size : Nat) (steps : List (Step α)) :
    Samples Prod.fst size (lastStretch steps).zipIdx (run (.empty size) steps).2 := by
  induction steps using List.reverseRecOn with
  | nil => exact .empty Prod.fst size
  | append_singleton steps s ih =>
    rw [run_append, lastStretch_concat]
    exact ih.step s

/-- Whatever is offered to a reservoir of a size, collected from it and drawn, it holds a sample of
the offers since the last collection: as many as there are slots, or all of them in their order, and
none of them twice. A slot that is drawn is in use. And a collection takes out what is held and leaves
an empty reservoir: what comes later is taken out as if it came first. -/
theorem reservoir_run (size : Nat) (steps : List (Step α)) :
    Holds size (lastStretch steps) (run (.empty size) steps).2 ∧
      ∀ later, run (.empty size) (steps ++ .collect :: later) =
        ((run (.empty size) steps).1 ++ (run (.empty size) steps).2.held ::
          (run (.empty size) later).1, (run (.empty size) later).2) := by
  have hholds := (samples_run size steps).holds
  refine ⟨hholds, fun later => ?_⟩
  rw [run_append, run, Step.apply, hholds.collected]
  rfl

end Metering.Reservoir
