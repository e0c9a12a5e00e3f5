import Metering.Proofs.Attributes.Canonical

/-!
# Filters Split Attribute Sets

A filter lists keys, in any order and more than once, and searches a sorted list without repetitions
for them. What it keeps of a set and what it drops are both in key order, and together they are the
set again. Since the kept part is a set as if it had been built without the other pairs, it may name
a series: two sets are kept as one exactly if they have equal values at every key that is listed.
-/

namespace Metering

namespace KeyMap

variable {ν : Type}

theorem lastWrite_filter (test : String → Bool) (pairs : List (String × ν)) (k : String) :
    lastWrite (pairs.filter fun e => test e.1) k = if test k then lastWrite pairs k else none := by
  induction pairs using List.reverseRecOn with
  | nil => simp [lastWrite]
  | append_singleton pairs e ih =>
    rw [List.filter_append, lastWrite_concat]
    by_cases hek : e.1 = k
    · subst hek
      cases htest : test e.1 with
      | true => rw [List.filter_singleton, htest]; simp [lastWrite_concat]
      | false => rw [List.filter_singleton, htest]; simpa [htest] using ih
    · -- A pair with another key has no say, whether it passes or not.
      rw [if_neg hek, ← ih, List.filter_singleton]
      cases test e.1 with
      | true => exact (lastWrite_concat ..).trans (if_neg hek)
      | false => exact congrArg (lastWrite · k) (List.append_nil _)

/-- To filter a map is to build it from the pairs that pass. -/
theorem filter_ofList (test : String → Bool) (pairs : List (String × ν)) :
    (ofList pairs).filter test = ofList (pairs.filter fun e => test e.1) := by
  refine ext_get? fun k => ?_
  rw [get?_filter, get?_ofList, get?_ofList, lastWrite_filter]

end KeyMap

/-- Sets are equal exactly if they find equal values at every key. -/
theorem Attributes.beq_iff_get? {a b : Attributes} :
    (a == b) = true ↔ ∀ k, (a.get? k == b.get? k) = true := by
  rw [← KeyMap.ofList_eq_of_perm (.refl a.entries), ← KeyMap.ofList_eq_of_perm (.refl b.entries),
    Attributes.ofList_beq_iff]
  simp only [KeyMap.get?_ofList]

namespace AttributeFilter

variable {keys : List String} {k : String} {a b : Attributes}

/-! ## Listed keys -/

theorem allows_ofList : (ofList keys).allows k = true ↔ k ∈ keys := by
  unfold allows KeyMap.contains ofList
  rw [KeyMap.get?_ofList, KeyMap.lastWrite, Option.isSome_map, List.getLast?_isSome,
    List.filter_map, ne_eq, List.map_eq_nil_iff, List.filter_eq_nil_iff]
  simp

theorem allows_ofList_eq : (ofList keys).allows k = decide (k ∈ keys) := by
  rw [Bool.eq_iff_iff, allows_ofList, decide_eq_true_eq]

/-- The keys that are searched ascend strictly, and are the listed ones. -/
theorem searched_ofList (keys : List String) :
    ((ofList keys).keys.entries.map (·.1)).Pairwise (· < ·) ∧
      ∀ k, k ∈ (ofList keys).keys.entries.map (·.1) ↔ k ∈ keys := by
  refine ⟨List.pairwise_map.mpr (ofList keys).keys.ascending, fun k => ?_⟩
  refine Iff.trans ?_ allows_ofList
  rw [allows, KeyMap.contains, Option.isSome_iff_exists]
  constructor
  · intro hk
    obtain ⟨e, he, rfl⟩ := List.mem_map.mp hk
    exact ⟨e.2, (KeyMap.get?_eq_lookup ..).trans ((KeyMap.mem_iff_lookup (KeyMap.ascending _)).mp he)⟩
  · rintro ⟨v, hv⟩
    rw [KeyMap.get?_eq_lookup] at hv
    exact List.mem_map_of_mem ((KeyMap.mem_iff_lookup (e := (k, v)) (KeyMap.ascending _)).mpr hv)

/-! ## What is kept and what is dropped -/

theorem entries_kept : ((ofList keys).apply a).1.entries = a.entries.filter (·.1 ∈ keys) :=
  List.filter_congr fun _ _ => allows_ofList_eq

theorem dropped_eq : ((ofList keys).apply a).2 = a.entries.filter (·.1 ∉ keys) :=
  List.filter_congr fun e _ => by rw [allows_ofList_eq, decide_not]

theorem get?_kept : ((ofList keys).apply a).1.get? k = if k ∈ keys then a.get? k else none := by
  refine (KeyMap.get?_filter ..).trans ?_
  simp only [allows_ofList]

/-- Filters one after the other keep what a filter keeps that lists the keys of both. -/
theorem apply_apply (keys others : List String) (a : Attributes) :
    ((ofList others).apply ((ofList keys).apply a).1).1 =
      ((ofList (keys.filter (· ∈ others))).apply a).1 := by
  refine KeyMap.ext_get? fun k => ?_
  rw [get?_kept, get?_kept, get?_kept]
  by_cases hkeys : k ∈ keys <;> by_cases hothers : k ∈ others <;> simp [hkeys, hothers]

/-- Kept parts are equal exactly if the sets have equal values at the listed keys. -/
theorem kept_beq_iff : (((ofList keys).apply a).1 == ((ofList keys).apply b).1) = true ↔
    ∀ k ∈ keys, (a.get? k == b.get? k) = true := by
  rw [Attributes.beq_iff_get?]
  refine forall_congr' fun k => ?_
  rw [get?_kept, get?_kept]
  by_cases hk : k ∈ keys <;> simp [hk]

/-- A filter splits a set cleanly. It allows the listed keys, which it searches in order and without
repetitions. The pairs it keeps and the pairs it drops are those with allowed keys and the others,
both with strictly ascending keys, and the set is built from all of them again, in any order. A set
that was filtered is kept as it is, two filters in either order keep the pairs that both allow, and
it makes no difference whether the pairs are filtered before a set is built of them or after. So
kept parts name one series exactly if the values at all listed keys are equal. -/
theorem filter_splits (keys : List String) (a : Attributes) :
    let f := ofList keys
    let kept := (f.apply a).1
    let dropped := (f.apply a).2
    (∀ k, f.allows k = true ↔ k ∈ keys) ∧
    ((f.keys.entries.map (·.1)).Pairwise (· < ·) ∧ ∀ k, k ∈ f.keys.entries.map (·.1) ↔ k ∈ keys) ∧
    (kept.entries.Pairwise (fun d e => d.1 < e.1) ∧
      ∀ e, e ∈ kept.entries ↔ e ∈ a.entries ∧ e.1 ∈ keys) ∧
    (dropped.Pairwise (fun d e => d.1 < e.1) ∧ ∀ e, e ∈ dropped ↔ e ∈ a.entries ∧ e.1 ∉ keys) ∧
    (∀ pairs, pairs.Perm (kept.entries ++ dropped) → KeyMap.ofList pairs = a) ∧
    f.apply kept = (kept, []) ∧
    (∀ others, ((ofList others).apply kept).1 = (f.apply ((ofList others).apply a).1).1 ∧
      ∀ e, e ∈ ((ofList others).apply kept).1.entries ↔ e ∈ a.entries ∧ e.1 ∈ keys ∧ e.1 ∈ others) ∧
    (∀ pairs, KeyMap.ofList pairs = a → kept = KeyMap.ofList (pairs.filter (·.1 ∈ keys))) ∧
    ∀ b, (kept == (f.apply b).1) = true ↔ ∀ k ∈ keys, (a.get? k == b.get? k) = true := by
  intro f kept dropped
  have hkept : kept.entries = a.entries.filter (·.1 ∈ keys) := entries_kept
  have hdropped : dropped = a.entries.filter (·.1 ∉ keys) := dropped_eq
  refine ⟨fun _ => allows_ofList, searched_ofList keys, ?_, ?_, ?_, ?_, fun others => ?_, ?_,
    fun _ => kept_beq_iff⟩
  · rw [hkept]
    exact ⟨a.ascending.filter _, fun e => by simp⟩
  · rw [hdropped]
    exact ⟨a.ascending.filter _, fun e => by simp⟩
  · intro pairs hpairs
    have hall : (kept.entries ++ dropped).Perm a.entries :=
      List.filter_append_perm (fun e : Attribute => f.allows e.1) a.entries
    exact KeyMap.ofList_eq_of_perm (hpairs.trans hall)
  · refine Prod.ext (KeyMap.ext ?_) ?_
    · rw [entries_kept, hkept, List.filter_filter]
      simp
    · rw [dropped_eq, hkept, List.filter_filter]
      simp
  · refine ⟨?_, fun e => ?_⟩
    · show _ = ((ofList keys).apply ((ofList others).apply a).1).1
      refine KeyMap.ext_get? fun k => ?_
      rw [apply_apply, apply_apply, get?_kept, get?_kept]
      simp [and_comm]
    · rw [apply_apply, entries_kept]
      simp
  · rintro pairs rfl
    refine (KeyMap.filter_ofList f.allows pairs).trans ?_
    simp only [f, allows_ofList_eq]

end AttributeFilter

end Metering
