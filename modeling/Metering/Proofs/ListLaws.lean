import Mathlib.Data.List.Nodup
import Mathlib.Data.List.Perm.Basic

/-!
# Laws of Lists with One Element Changed

Readers, providers and instruments are lists that change in one place at a time. These laws say
what is read from such a list afterwards, and what becomes of lists gathered from its elements.
-/

namespace Metering

variable {β γ : Type}

/-- An element of a changed list is the changed one, or was there before at another place. -/
theorem getElem?_modify_cases {l : List β} {i j : Nat} {f : β → β} {y : β}
    (h : (l.modify i f)[j]? = some y) :
    (i = j ∧ ∃ x, l[j]? = some x ∧ y = f x) ∨ (i ≠ j ∧ l[j]? = some y) := by
  by_cases hij : i = j
  · subst hij
    rw [List.getElem?_modify_eq] at h
    obtain ⟨x, hx, rfl⟩ := Option.map_eq_some_iff.mp h
    exact .inl ⟨rfl, x, hx, rfl⟩
  · rw [List.getElem?_modify_ne f l hij] at h
    exact .inr ⟨hij, h⟩

theorem getElem?_modify_of_some {l : List β} {i : Nat} {x : β} (f : β → β) (h : l[i]? = some x) :
    (l.modify i f)[i]? = some (f x) := by
  rw [List.getElem?_modify_eq, h]
  rfl

/-- The last element of a list is the one at the length of the others. -/
theorem modify_concat (l : List β) (x : β) (f : β → β) :
    (l ++ [x]).modify l.length f = l ++ [f x] := by
  induction l with
  | nil => rfl
  | cons y rest ih => exact congrArg (y :: ·) ih

/-- A change that a function does not see leaves the list of its values alone. -/
theorem map_modify_of_eq {l : List β} {i : Nat} {f : β → β} {g : β → γ}
    (h : ∀ x, l[i]? = some x → g (f x) = g x) : (l.modify i f).map g = l.map g := by
  refine List.ext_getElem? fun j => ?_
  rw [List.getElem?_map, List.getElem?_map]
  by_cases hij : i = j
  · subst hij
    rw [List.getElem?_modify_eq]
    cases hx : l[i]? with
    | none => rfl
    | some x => exact congrArg some (h x hx)
  · rw [List.getElem?_modify_ne f l hij]

/-- A change that a function follows can be made to the list of its values instead. -/
theorem map_modify_comm {l : List β} {i : Nat} {f : β → β} {g : β → γ} {f' : γ → γ}
    (h : ∀ x, g (f x) = f' (g x)) : (l.modify i f).map g = (l.map g).modify i f' := by
  refine List.ext_getElem? fun j => ?_
  rw [List.getElem?_map]
  by_cases hij : i = j
  · subst hij
    rw [List.getElem?_modify_eq, List.getElem?_modify_eq, List.getElem?_map]
    cases l[i]? with
    | none => rfl
    | some x => exact congrArg some (h x)
  · rw [List.getElem?_modify_ne f l hij, List.getElem?_modify_ne f' _ hij, List.getElem?_map]

theorem flatMap_modify_of_eq {l : List β} {i : Nat} {f : β → β} {g : β → List γ}
    (h : ∀ x, l[i]? = some x → g (f x) = g x) : (l.modify i f).flatMap g = l.flatMap g := by
  rw [List.flatMap_def, List.flatMap_def, map_modify_of_eq h]

/-- Two lists of values agree at every place when the values do. -/
theorem map_getElem?_of_map_eq {l m : List β} {g : β → γ} (h : l.map g = m.map g) (i : Nat) :
    (l[i]?).map g = (m[i]?).map g := by
  rw [← List.getElem?_map, ← List.getElem?_map, h]

/-- What a changed element gathers in addition is, up to order, added to what all gather. -/
theorem flatMap_modify_perm {l : List β} {i : Nat} {f : β → β} {g : β → List γ} {x : β}
    {extra : List γ} (hx : l[i]? = some x) (h : (g (f x)).Perm (extra ++ g x)) :
    ((l.modify i f).flatMap g).Perm (extra ++ l.flatMap g) := by
  induction l generalizing i with
  | nil => simp at hx
  | cons y rest ih =>
    cases i with
    | zero =>
      obtain rfl : y = x := by simpa using hx
      simpa [List.append_assoc] using h.append_right (rest.flatMap g)
    | succ i =>
      have hrest := ih (by simpa using hx)
      -- The extra moves past what the first element gathers.
      have hswap : (g y ++ (extra ++ rest.flatMap g)).Perm (extra ++ (g y ++ rest.flatMap g)) := by
        simpa [List.append_assoc] using
          (List.perm_append_comm : (g y ++ extra).Perm _).append_right (rest.flatMap g)
      simpa using (hrest.append_left (g y)).trans hswap

/-- Changes that agree on the element that is changed are the same change. -/
theorem modify_congr_of_some {l : List β} {i : Nat} {x : β} {f g : β → β} (h : l[i]? = some x)
    (hfg : f x = g x) : l.modify i f = l.modify i g := by
  refine List.ext_getElem? fun j => ?_
  rw [List.getElem?_modify, List.getElem?_modify]
  by_cases hij : i = j
  · subst hij
    simp [h, hfg]
  · simp [hij]

theorem modify_const_of_some {l : List β} {i : Nat} {x : β} (h : l[i]? = some x) :
    (l.modify i fun _ => x) = l := by
  refine List.ext_getElem? fun j => ?_
  by_cases hij : i = j
  · subst hij
    rw [List.getElem?_modify_eq, h]
    rfl
  · rw [List.getElem?_modify_ne _ l hij]

/-- What a changed element no longer gathers is, up to order, taken from what all gather. -/
theorem flatMap_perm_modify {l : List β} {i : Nat} {f : β → β} {g : β → List γ} {x : β}
    {extra : List γ} (hx : l[i]? = some x) (h : (g x).Perm (extra ++ g (f x))) :
    (l.flatMap g).Perm (extra ++ (l.modify i f).flatMap g) := by
  -- Undone, the change adds the extra back, which is the law before.
  have hundo : (l.modify i f).modify i (fun _ => x) = l := by
    rw [List.modify_modify_eq]
    exact modify_const_of_some hx
  have hperm := flatMap_modify_perm (f := fun _ => x) (getElem?_modify_of_some f hx) h
  rw [hundo] at hperm
  exact hperm

/-- When one element of a list of pairwise disjoint parts gives up its own part, the others keep
theirs: what all gather is filtered by that part. -/
theorem flatMap_modify_of_emptied [BEq γ] [LawfulBEq γ] {l : List β} {i : Nat} {f : β → β}
    {whole live : β → List γ} {x : β} (hx : l[i]? = some x) (hempty : live (f x) = [])
    (hsub : ∀ y, ∀ s ∈ live y, s ∈ whole y) (hnodup : (l.flatMap whole).Nodup) :
    (l.modify i f).flatMap live = (l.flatMap live).filter (· ∉ whole x) := by
  induction l generalizing i with
  | nil => simp at hx
  | cons y rest ih =>
    rw [List.flatMap_cons] at hnodup
    obtain ⟨-, hrest, hdisjoint⟩ := List.nodup_append.mp hnodup
    cases i with
    | zero =>
      obtain rfl : y = x := by simpa using hx
      have hown : (live y).filter (· ∉ whole y) = [] :=
        List.filter_eq_nil_iff.mpr fun s hs => by simpa using hsub y s hs
      -- The later elements share nothing with the first, so the filter keeps all of theirs.
      have hothers : (rest.flatMap live).filter (· ∉ whole y) = rest.flatMap live := by
        apply List.filter_eq_self.mpr
        intro s hs
        obtain ⟨z, hz, hsz⟩ := List.mem_flatMap.mp hs
        simp only [decide_eq_true_eq]
        intro hsy
        exact hdisjoint s hsy s (List.mem_flatMap.mpr ⟨z, hz, hsub z s hsz⟩) rfl
      rw [List.modify_zero_cons, List.flatMap_cons, List.flatMap_cons, List.filter_append, hempty,
        hown, hothers]
    | succ i =>
      have hxrest : rest[i]? = some x := by simpa using hx
      -- The first element shares nothing with the one that is emptied.
      have hown : (live y).filter (· ∉ whole x) = live y := by
        apply List.filter_eq_self.mpr
        intro s hs
        simp only [decide_eq_true_eq]
        intro hsx
        exact hdisjoint s (hsub y s hs) s
          (List.mem_flatMap.mpr ⟨x, List.mem_of_getElem? hxrest, hsx⟩) rfl
      rw [List.modify_succ_cons, List.flatMap_cons, List.flatMap_cons, List.filter_append, hown,
        ih hxrest hrest]

end Metering
