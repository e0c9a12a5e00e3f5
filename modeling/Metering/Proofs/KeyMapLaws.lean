import Metering.Attribute.Set
import Mathlib.Data.List.Induction
import Mathlib.Data.List.Perm.Basic

/-!
# Laws of Maps in Key Order

A map that is built from pairs with different keys has those pairs as its entries, in the order of
their keys, whatever the order they came in. So a set of attributes is rebuilt from what a filter keeps
of it and what the filter drops.
-/

namespace Metering

namespace KeyMap

variable {ν μ : Type}

theorem ext {m n : KeyMap ν} (h : m.entries = n.entries) : m = n := by
  cases m
  cases n
  cases h
  rfl

theorem ofList_concat (pairs : List (String × ν)) (e : String × ν) :
    ofList (pairs ++ [e]) = (ofList pairs).insert e.1 e.2 := List.foldl_append

/-! ## Different keys -/

/-- An entry with a new key is one more. -/
theorem insertEntry_perm {k : String} (v : ν) {l : List (String × ν)} (h : ∀ e ∈ l, e.1 ≠ k) :
    (insertEntry k v l).Perm ((k, v) :: l) := by
  induction l with
  | nil => exact .refl _
  | cons e rest ih =>
    obtain ⟨he, hrest⟩ := List.forall_mem_cons.mp h
    unfold insertEntry
    split
    · exact ((ih hrest).cons e).trans (.swap ..)
    · split
      · exact .refl _
      · -- Only a key that is there already is neither above nor below.
        rename_i hlow hhigh
        exact absurd (String.le_antisymm (String.not_lt.1 hhigh) (String.not_lt.1 hlow)) he

/-- The entries of a map of pairs with different keys are those pairs. -/
theorem entries_ofList_perm {pairs : List (String × ν)} (h : (pairs.map (·.1)).Nodup) :
    (ofList pairs).entries.Perm pairs := by
  induction pairs using List.reverseRecOn with
  | nil => exact .refl _
  | append_singleton pairs e ih =>
    rw [List.map_append, List.nodup_append] at h
    obtain ⟨hpairs, -, hnew⟩ := h
    have hperm := ih hpairs
    rw [ofList_concat]
    have hinsert : (insertEntry e.1 e.2 (ofList pairs).entries).Perm
        (e :: (ofList pairs).entries) := insertEntry_perm e.2 fun x hx =>
      hnew x.1 (List.mem_map_of_mem (hperm.mem_iff.mp hx)) e.1 (List.mem_singleton_self _)
    exact (hinsert.trans (hperm.cons e)).trans (List.perm_append_singleton e pairs).symm

/-- A map is built from its entries in any order. -/
theorem ofList_eq_of_perm {m : KeyMap ν} {pairs : List (String × ν)} (h : pairs.Perm m.entries) :
    ofList pairs = m := by
  have hkeys : (m.entries.map (·.1)).Nodup := by
    refine List.pairwise_map.mpr (m.ascending.imp ?_)
    intro a b hlt heq
    exact String.lt_irrefl b.1 (heq ▸ hlt)
  have hperm := entries_ofList_perm ((h.map (·.1)).nodup_iff.mpr hkeys)
  exact ext ((hperm.trans h).eq_of_pairwise
    (fun _ _ _ _ hab hba => absurd (String.lt_trans hab hba) (String.lt_irrefl _))
    (ofList pairs).ascending m.ascending)

/-! ## Values -/

theorem insertEntry_map (g : ν → μ) (k : String) (v : ν) (l : List (String × ν)) :
    insertEntry k (g v) (l.map fun e => (e.1, g e.2)) =
      (insertEntry k v l).map fun e => (e.1, g e.2) := by
  induction l with
  | nil => rfl
  | cons e rest ih =>
    simp only [List.map_cons, insertEntry, ih]
    split
    · rfl
    · split <;> rfl

/-- A change of the values of pairs is a change of the values of their map. -/
theorem entries_ofList_map (g : ν → μ) (pairs : List (String × ν)) :
    (ofList (pairs.map fun e => (e.1, g e.2))).entries =
      (ofList pairs).entries.map fun e => (e.1, g e.2) := by
  induction pairs using List.reverseRecOn with
  | nil => rfl
  | append_singleton pairs e ih =>
    rw [List.map_append, List.map_singleton, ofList_concat, ofList_concat]
    have hinsert := congrArg (insertEntry e.1 (g e.2)) ih
    exact hinsert.trans (insertEntry_map g e.1 e.2 _)

end KeyMap

/-! ## Attributes -/

/-- Pairs that are not told apart have sets that are not told apart. -/
theorem Attributes.ofList_beq {x y : List Attribute}
    (h : x.map (fun e => (e.1, e.2.place)) = y.map fun e => (e.1, e.2.place)) :
    (KeyMap.ofList x == KeyMap.ofList y) = true := by
  rw [beq_iff_place_eq, place, place, ← KeyMap.entries_ofList_map, ← KeyMap.entries_ofList_map, h]

namespace AttributeFilter

/-- What is kept of a set and what is dropped make up the set. -/
theorem ofList_applyOptional (filter : Option AttributeFilter) (a : Attributes) :
    KeyMap.ofList ((applyOptional filter a).1.entries ++ (applyOptional filter a).2) = a := by
  refine KeyMap.ofList_eq_of_perm ?_
  cases filter with
  | none => exact .of_eq (List.append_nil _)
  | some f => exact List.filter_append_perm (fun e : Attribute => f.allows e.1) a.entries

/-- A set that is not told apart from what is kept makes up, with what is dropped, a set that is not
told apart. -/
theorem ofList_applyOptional_beq {filter : Option AttributeFilter} {a k : Attributes}
    (h : ((applyOptional filter a).1 == k) = true) :
    (KeyMap.ofList (k.entries ++ (applyOptional filter a).2) == a) = true := by
  have hplace : k.place = (applyOptional filter a).1.place :=
    Attributes.beq_iff_place_eq.mp (BEq.symm h)
  have hsame := Attributes.ofList_beq (x := k.entries ++ (applyOptional filter a).2)
    (y := (applyOptional filter a).1.entries ++ (applyOptional filter a).2) (by
      rw [List.map_append, List.map_append]
      exact congrArg (· ++ _) hplace)
  rwa [ofList_applyOptional] at hsame

end AttributeFilter

end Metering
