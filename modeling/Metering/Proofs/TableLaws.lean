import Mathlib.Data.List.Basic
import Mathlib.Data.List.Induction
import Mathlib.Data.List.Perm.Basic
import Metering.Table

/-!
# Laws of Tables

What reading a table and changing it have to do with each other: membership of entries against
lookup, the key list under every change, and the values under insertion and erasure up to order.
The key type only needs a lawful equality, except where a key is new.
-/

namespace Metering.Table

variable {κ ν μ : Type} [BEq κ]

/-! ## Entries and lookup -/

/-- What differs from one of two equal keys differs from the other. -/
theorem beq_eq_false_of_beq [EquivBEq κ] {a b k : κ} (hak : (a == k) = true)
    (hab : (a == b) = false) : (b == k) = false := by
  rw [BEq.comm, ← BEq.congr_left hak]
  exact hab

theorem ext {t u : Table κ ν} (h : t.entries = u.entries) : t = u := by
  cases t
  cases u
  cases h
  rfl

theorem exists_of_find?_eq_some {t : Table κ ν} {k : κ} {v : ν} (h : t.find? k = some v) :
    ∃ j, (j, v) ∈ t.entries ∧ (j == k) = true := by
  obtain ⟨e, he, rfl⟩ := Option.map_eq_some_iff.mp h
  exact ⟨e.1, List.mem_of_find?_eq_some he, by simpa using List.find?_some he⟩

theorem find?_eq_none_iff {t : Table κ ν} {k : κ} :
    t.find? k = none ↔ ∀ e ∈ t.entries, (e.1 == k) = false := by
  simp [find?]

/-- Of an entry list without repeated keys, a lookup finds whatever is listed under an equal key. -/
theorem find?_eq_some_of_mem [EquivBEq κ] {t : Table κ ν} {j k : κ} {v : ν}
    (hmem : (j, v) ∈ t.entries) (hjk : (j == k) = true) : t.find? k = some v := by
  obtain ⟨entries, hdistinct⟩ := t
  simp only [find?_eq_lookup] at hmem ⊢
  induction entries with
  | nil => simp at hmem
  | cons e rest ih =>
    obtain ⟨he, hrest⟩ := List.pairwise_cons.mp hdistinct
    rw [lookup_cons]
    rcases List.mem_cons.mp hmem with rfl | hmem
    · simp [hjk]
    · -- The first entry has another key than the one that is listed later.
      have hne : (e.1 == k) = false := by
        apply beq_eq_false_of_beq hjk
        rw [BEq.comm]
        exact he _ hmem
      rw [hne]
      exact ih hrest hmem

theorem find?_eq_some_iff [EquivBEq κ] {t : Table κ ν} {k : κ} {v : ν} :
    t.find? k = some v ↔ ∃ j, (j, v) ∈ t.entries ∧ (j == k) = true :=
  ⟨exists_of_find?_eq_some, fun ⟨_, hmem, hjk⟩ => find?_eq_some_of_mem hmem hjk⟩

theorem find?_eq_some_iff_mem [LawfulBEq κ] {t : Table κ ν} {k : κ} {v : ν} :
    t.find? k = some v ↔ (k, v) ∈ t.entries := by
  rw [find?_eq_some_iff]
  constructor
  · rintro ⟨j, hmem, hjk⟩
    exact eq_of_beq hjk ▸ hmem
  · intro hmem
    exact ⟨k, hmem, BEq.rfl⟩

theorem nodup_entries [EquivBEq κ] (t : Table κ ν) : t.entries.Nodup := by
  apply t.distinct.imp
  rintro a _ hne rfl
  rw [BEq.rfl] at hne
  cases hne

theorem find?_isSome_iff_mem_keys [LawfulBEq κ] {t : Table κ ν} {k : κ} :
    (t.find? k).isSome ↔ k ∈ t.keys := by
  simp only [Option.isSome_iff_exists, find?_eq_some_iff_mem, keys, List.mem_map]
  constructor
  · rintro ⟨v, hmem⟩
    exact ⟨_, hmem, rfl⟩
  · rintro ⟨⟨k, v⟩, hmem, rfl⟩
    exact ⟨v, hmem⟩

/-- Equal keys find the same value. -/
theorem find?_congr [EquivBEq κ] (t : Table κ ν) {j k : κ} (h : (j == k) = true) :
    t.find? j = t.find? k := by
  have heq (e : κ × ν) : (e.1 == j) = (e.1 == k) := BEq.congr_right h
  simp [find?, heq]

/-- Tables with the same keys in the same order, and the same values at them, are the same. -/
theorem ext_find? [EquivBEq κ] {t u : Table κ ν} (hkeys : t.keys = u.keys)
    (hfind : ∀ k ∈ t.keys, t.find? k = u.find? k) : t = u := by
  have hlength : t.entries.length = u.entries.length := by
    simpa [keys] using congrArg List.length hkeys
  refine ext (List.ext_getElem hlength fun i hi hi' => ?_)
  have hkey : t.entries[i].1 = u.entries[i].1 := by
    simpa [keys, List.getElem?_eq_getElem hi, List.getElem?_eq_getElem hi'] using
      congrArg (·[i]?) hkeys
  have hvalue : t.find? t.entries[i].1 = some t.entries[i].2 :=
    find?_eq_some_of_mem (List.getElem_mem hi) BEq.rfl
  have hvalue' : u.find? t.entries[i].1 = some u.entries[i].2 :=
    find?_eq_some_of_mem (List.getElem_mem hi') (hkey ▸ BEq.rfl)
  have hsame := hfind _ (List.mem_map_of_mem (List.getElem_mem hi))
  rw [hvalue, hvalue'] at hsame
  exact Prod.ext hkey (Option.some.inj hsame)

/-! ## Changes of values -/

@[simp]
theorem keys_modify (t : Table κ ν) (k : κ) (f : ν → ν) : (t.modify k f).keys = t.keys := by
  simp only [keys, modify, List.map_map]
  apply List.map_congr_left
  intro e _
  by_cases hek : (e.1 == k) = true <;> simp [hek]

@[simp]
theorem keys_mapValues (t : Table κ ν) (f : ν → μ) : (t.mapValues f).keys = t.keys := by
  simp [keys, mapValues]

/-- A change of the value at a key shows at that key only. -/
theorem find?_modify [EquivBEq κ] (t : Table κ ν) (j k : κ) (f : ν → ν) :
    (t.modify k f).find? j = if k == j then (t.find? j).map f else t.find? j := by
  simp only [find?_eq_lookup, modify]
  induction t.entries with
  | nil => simp [lookup]
  | cons e rest ih =>
    rw [List.map_cons, lookup_cons, lookup_cons, ih]
    cases hek : e.1 == k with
    | true =>
      have hj : (e.1 == j) = (k == j) := BEq.congr_left hek
      simp only [if_true, hj]
      cases k == j <;> rfl
    | false =>
      cases hej : e.1 == j with
      | false => simp [hej]
      | true =>
        have hkj : (k == j) = false := beq_eq_false_of_beq hej hek
        simp [hej, hkj]

/-! ## New keys -/

theorem updateEntries_of_forall_ne {k : κ} {f : Option ν → ν} {l : List (κ × ν)}
    (h : ∀ e ∈ l, (e.1 == k) = false) : updateEntries k f l = l ++ [(k, f none)] := by
  induction l with
  | nil => rfl
  | cons e rest ih =>
    have hrest := ih fun x hx => h x (List.mem_cons_of_mem _ hx)
    simp [updateEntries, h e (List.mem_cons_self ..), hrest]

/-- Under a new key an insertion adds one entry, at the end. -/
theorem entries_insert_of_new {t : Table κ ν} {k : κ} (h : ∀ e ∈ t.entries, (e.1 == k) = false)
    (v : ν) : (t.insert k v).entries = t.entries ++ [(k, v)] :=
  updateEntries_of_forall_ne h

theorem keys_insert_of_new {t : Table κ ν} {k : κ} (h : ∀ e ∈ t.entries, (e.1 == k) = false)
    (v : ν) : (t.insert k v).keys = t.keys ++ [k] := by
  simp [keys, entries_insert_of_new h]

theorem values_insert_of_new {t : Table κ ν} {k : κ} (h : ∀ e ∈ t.entries, (e.1 == k) = false)
    (v : ν) : (t.insert k v).values = t.values ++ [v] := by
  simp [values, entries_insert_of_new h]

/-- A key that is there keeps its place when it is inserted again. -/
theorem keys_insert_of_mem {t : Table κ ν} {k : κ} (h : t.contains k = true) (v : ν) :
    (t.insert k v).keys = t.keys := by
  obtain ⟨entries, hdistinct⟩ := t
  simp only [contains] at h
  simp only [keys, insert, update_entries]
  clear hdistinct
  induction entries with
  | nil => cases h
  | cons e rest ih =>
    rw [updateEntries]
    cases hek : e.1 == k with
    | true => rfl
    | false => exact congrArg (e.1 :: ·) (ih (by simpa [hek] using h))

theorem forall_ne_of_lt {t : Table Nat ν} {n : Nat} (h : ∀ k ∈ t.keys, k < n) :
    ∀ e ∈ t.entries, (e.1 == n) = false := by
  intro e he
  have := h e.1 (List.mem_map_of_mem he)
  simp only [beq_eq_false_iff_ne]
  omega

/-- An update of a list with one entry for each of some distinct keys changes the entry of an equal
key. -/
theorem updateEntries_map [EquivBEq κ] {keys : List κ} {k : κ}
    (hdistinct : keys.Pairwise fun a b => (a == b) = false) (hmem : keys.any (· == k) = true)
    (v : κ → ν) (f : Option ν → ν) :
    updateEntries k f (keys.map fun j => (j, v j)) =
      keys.map fun j => (j, if j == k then f (some (v j)) else v j) := by
  induction keys with
  | nil => simp at hmem
  | cons j rest ih =>
    obtain ⟨hj, hrest⟩ := List.pairwise_cons.mp hdistinct
    rw [List.map_cons, List.map_cons, updateEntries]
    cases hjk : j == k with
    | true =>
      have hothers : ∀ x ∈ rest, (x == k) = false :=
        fun x hx => beq_eq_false_of_beq hjk (hj x hx)
      simp only [if_true]
      refine congrArg _ (List.map_congr_left fun x hx => ?_)
      rw [hothers x hx]
      rfl
    | false =>
      have hmem : rest.any (· == k) = true := by simpa [hjk] using hmem
      simp only [Bool.false_eq_true, if_false]
      exact congrArg _ (ih hrest hmem)

/-- What is seen of an updated list is an update of what was seen, when the seeing follows. -/
theorem map_updateEntries {k : κ} {f : Option ν → ν} {g : ν → μ} {f' : Option μ → μ}
    (h : ∀ found, g (f found) = f' (found.map g)) (l : List (κ × ν)) :
    (updateEntries k f l).map (fun e => (e.1, g e.2)) =
      updateEntries k f' (l.map fun e => (e.1, g e.2)) := by
  induction l with
  | nil => simp [updateEntries, h]
  | cons e rest ih =>
    simp only [updateEntries, List.map_cons]
    split
    · simp [h]
    · simp [ih]

theorem mapValues_update {t : Table κ ν} {k : κ} {f : Option ν → ν} {g : ν → μ}
    {f' : Option μ → μ} (h : ∀ found, g (f found) = f' (found.map g)) :
    (t.update k f).mapValues g = (t.mapValues g).update k f' :=
  ext (map_updateEntries h t.entries)

/-- A change of every value that changes nothing again. -/
theorem mapValues_mapValues_self {g : ν → ν} (h : ∀ v, g (g v) = g v) (t : Table κ ν) :
    (t.mapValues g).mapValues g = t.mapValues g := by
  refine ext ?_
  simp only [mapValues, List.map_map]
  exact List.map_congr_left fun e _ => Prod.ext rfl (h e.2)

theorem mapValues_insert (t : Table κ ν) (k : κ) (v : ν) (g : ν → μ) :
    (t.insert k v).mapValues g = (t.mapValues g).insert k (g v) :=
  mapValues_update fun _ => rfl

theorem mapValues_modify {t : Table κ ν} {k : κ} {f : ν → ν} {g : ν → μ} {f' : μ → μ}
    (h : ∀ v, g (f v) = f' (g v)) : (t.modify k f).mapValues g = (t.mapValues g).modify k f' := by
  refine ext ?_
  simp only [modify, mapValues, List.map_map]
  refine List.map_congr_left fun e _ => ?_
  simp only [Function.comp_apply]
  split <;> simp [h]

theorem mapValues_erase (t : Table κ ν) (k : κ) (g : ν → μ) :
    (t.erase k).mapValues g = (t.mapValues g).erase k := by
  refine ext ?_
  simp only [erase, mapValues, List.filter_map]
  rfl

theorem mem_updateEntries_of_ne [EquivBEq κ] {k : κ} {f : Option ν → ν} {l : List (κ × ν)}
    {e : κ × ν} (h : e ∈ updateEntries k f l) (hek : (e.1 == k) = false) : e ∈ l := by
  induction l with
  | nil =>
    obtain rfl := List.mem_singleton.mp h
    rw [BEq.rfl] at hek
    cases hek
  | cons x rest ih =>
    unfold updateEntries at h
    split at h
    · rename_i hxk
      rcases List.mem_cons.mp h with rfl | h
      · rw [hxk] at hek
        cases hek
      · exact List.mem_cons_of_mem _ h
    · rcases List.mem_cons.mp h with rfl | h
      · exact List.mem_cons_self ..
      · exact List.mem_cons_of_mem _ (ih h)

/-- An entry of an updated table is the updated one, or was there under another key. -/
theorem mem_update_cases [EquivBEq κ] {t : Table κ ν} {k : κ} {f : Option ν → ν} {e : κ × ν}
    (h : e ∈ (t.update k f).entries) :
    ((e.1 == k) = true ∧ e.2 = f (t.find? k)) ∨ ((e.1 == k) = false ∧ e ∈ t.entries) := by
  cases hek : e.1 == k with
  | true =>
    have hfound : (t.update k f).find? k = some e.2 := find?_eq_some_of_mem h hek
    rw [find?_update, BEq.rfl, if_pos rfl] at hfound
    exact .inl ⟨rfl, (Option.some.inj hfound).symm⟩
  | false => exact .inr ⟨rfl, mem_updateEntries_of_ne h hek⟩

/-- What is found after updates at distinct keys, one by one: of what was there, what the update at
the key makes. -/
theorem find?_foldl_update [EquivBEq κ] (g : Option ν → μ → ν) (t : Table κ ν)
    {pairs : List (κ × μ)} (hdistinct : pairs.Pairwise fun a b => (a.1 == b.1) = false) (k : κ) :
    (pairs.foldl (fun t e => t.update e.1 fun found => g found e.2) t).find? k =
      ((lookup k pairs).map (g (t.find? k))).or (t.find? k) := by
  induction pairs generalizing t with
  | nil => rfl
  | cons p rest ih =>
    obtain ⟨hp, hrest⟩ := List.pairwise_cons.mp hdistinct
    rw [List.foldl_cons, ih _ hrest, find?_update, lookup_cons]
    cases hpk : p.1 == k with
    | false => simp
    | true =>
      -- No later pair has an equal key.
      have hnone : lookup k rest = none := by
        apply Option.map_eq_none_iff.mpr
        apply List.find?_eq_none.mpr
        intro x hx
        simpa using beq_eq_false_of_beq hpk (hp x hx)
      simp [hnone, find?_congr t hpk]

/-- What is found after insertions under distinct keys is what was inserted, or what was there. -/
theorem find?_insertAll [EquivBEq κ] (t : Table κ ν) {pairs : List (κ × ν)}
    (hdistinct : pairs.Pairwise fun a b => (a.1 == b.1) = false) (k : κ) :
    (t.insertAll pairs).find? k = (lookup k pairs).or (t.find? k) := by
  have hfound := find?_foldl_update (fun _ v => v) t hdistinct k
  rw [Option.map_id'] at hfound
  exact hfound

/-! ## Insertions in a row -/

theorem insertAll_append (t : Table κ ν) (xs ys : List (κ × ν)) :
    t.insertAll (xs ++ ys) = (t.insertAll xs).insertAll ys := List.foldl_append

/-- Updates at different keys commute, if one of the keys has its place already. -/
theorem updateEntries_comm [EquivBEq κ] {j k : κ} (hjk : (j == k) = false) (f g : Option ν → ν)
    {l : List (κ × ν)} (hmem : l.any (·.1 == k) = true) :
    updateEntries k f (updateEntries j g l) = updateEntries j g (updateEntries k f l) := by
  induction l with
  | nil => cases hmem
  | cons e rest ih =>
    cases hek : e.1 == k with
    | true =>
      -- The walk for `k` ends here and the walk for `j` passes on.
      have hej : (e.1 == j) = false := by
        rw [BEq.congr_left hek, BEq.comm]
        exact hjk
      simp [updateEntries, hek, hej]
    | false =>
      have hrest : rest.any (·.1 == k) = true := by simpa [hek] using hmem
      cases hej : e.1 == j with
      | true => simp [updateEntries, hek, hej]
      | false => simp [updateEntries, hek, hej, ih hrest]

/-- Of two insertions in a row at equal keys, the key of the first and the value of the second
stay. -/
theorem insert_insert [EquivBEq κ] {j k : κ} (hjk : (j == k) = true) (t : Table κ ν) (u v : ν) :
    (t.insert j u).insert k v = t.insert j v := by
  apply ext
  show updateEntries k _ (updateEntries j _ t.entries) = updateEntries j _ t.entries
  induction t.entries with
  | nil => simp [updateEntries, hjk]
  | cons e rest ih =>
    have hsame : (e.1 == j) = (e.1 == k) := BEq.congr_right hjk
    cases hek : e.1 == k with
    | true => simp [updateEntries, hsame, hek]
    | false => simp [updateEntries, hsame, hek, ih]

/-- The value at a key that has its place already may be inserted before or after others. -/
theorem insertAll_insert [EquivBEq κ] {t : Table κ ν} {k : κ} (hmem : t.contains k = true) (v : ν)
    {pairs : List (κ × ν)} (hne : ∀ e ∈ pairs, (e.1 == k) = false) :
    (t.insertAll pairs).insert k v = (t.insert k v).insertAll pairs := by
  induction pairs generalizing t with
  | nil => rfl
  | cons p rest ih =>
    have hpk := hne p (List.mem_cons_self ..)
    -- The key has its place, so its insertion can be made before that of the first pair.
    have hcomm : (t.insert p.1 p.2).insert k v = (t.insert k v).insert p.1 p.2 :=
      ext (updateEntries_comm hpk _ _ hmem)
    have hstill : (t.insert p.1 p.2).contains k = true := by
      have hfound : (t.find? k).isSome = true := by simpa [find?, contains] using hmem
      have hfound' : ((t.insert p.1 p.2).find? k).isSome = true := by
        rw [find?_insert, hpk]
        exact hfound
      simpa [find?, contains] using hfound'
    show ((t.insert p.1 p.2).insertAll rest).insert k v = ((t.insert k v).insert p.1 p.2).insertAll rest
    rw [ih hstill fun e he => hne e (List.mem_cons_of_mem _ he), hcomm]

/-- Inserting the entries of a table after one more insertion is inserting them first. -/
theorem insertAll_updateEntries [EquivBEq κ] (t : Table κ ν) (k : κ) (v : ν) {l : List (κ × ν)}
    (hdistinct : l.Pairwise fun a b => (a.1 == b.1) = false) :
    t.insertAll (updateEntries k (fun _ => v) l) = (t.insertAll l).insert k v := by
  induction l generalizing t with
  | nil => rfl
  | cons e rest ih =>
    obtain ⟨he, hrest⟩ := List.pairwise_cons.mp hdistinct
    unfold updateEntries
    cases hek : e.1 == k with
    | false => exact ih (t.insert e.1 e.2) hrest
    | true =>
      -- Replaced in place; the others have other keys, so the new value can be inserted last.
      have hne : ∀ x ∈ rest, (x.1 == k) = false :=
        fun x hx => beq_eq_false_of_beq hek (he x hx)
      have hmem : (t.insert e.1 e.2).contains k = true := by
        have hfound : ((t.insert e.1 e.2).find? k).isSome = true := by simp [find?_insert, hek]
        simpa [find?, contains] using hfound
      show (t.insert e.1 v).insertAll rest = ((t.insert e.1 e.2).insertAll rest).insert k v
      rw [insertAll_insert hmem v hne, insert_insert hek]

/-- To insert the entries of a table of pairs is to insert the pairs. -/
theorem insertAll_ofList [EquivBEq κ] (t : Table κ ν) (pairs : List (κ × ν)) :
    t.insertAll (ofList pairs).entries = t.insertAll pairs := by
  induction pairs using List.reverseRecOn with
  | nil => rfl
  | append_singleton pairs p ih =>
    rw [ofList, insertAll_append, insertAll_append, ← ih]
    exact insertAll_updateEntries t p.1 p.2 (ofList pairs).distinct

theorem ofList_concat (pairs : List (κ × ν)) (e : κ × ν) :
    ofList (pairs ++ [e]) = (ofList pairs).insert e.1 e.2 := insertAll_append _ pairs [e]

/-- A table of pairs has the last value that is listed for a key. -/
theorem find?_ofList [EquivBEq κ] (pairs : List (κ × ν)) (k : κ) :
    (ofList pairs).find? k = (pairs.filter (·.1 == k)).getLast?.map (·.2) := by
  induction pairs using List.reverseRecOn with
  | nil => rfl
  | append_singleton pairs e ih =>
    rw [ofList_concat, find?_insert, ih, List.filter_append]
    cases hek : e.1 == k <;> simp [hek]

/-- What is listed has a place in the table. -/
theorem exists_mem_keys_ofList [EquivBEq κ] {pairs : List (κ × ν)} {e : κ × ν} (he : e ∈ pairs) :
    ∃ k ∈ (ofList pairs).keys, (k == e.1) = true := by
  have hfound : ((ofList pairs).find? e.1).isSome = true := by
    have hmem : e ∈ pairs.filter (·.1 == e.1) := List.mem_filter.mpr ⟨he, BEq.rfl⟩
    rw [find?_ofList, Option.isSome_map, List.getLast?_isSome]
    exact List.ne_nil_of_mem hmem
  obtain ⟨v, hv⟩ := Option.isSome_iff_exists.mp hfound
  obtain ⟨k, hk, hke⟩ := exists_of_find?_eq_some hv
  exact ⟨k, List.mem_map_of_mem hk, hke⟩

/-- A table of pairs has the keys of the pairs only. -/
theorem mem_of_mem_keys_ofList {pairs : List (κ × ν)} {k : κ} (h : k ∈ (ofList pairs).keys) :
    k ∈ pairs.map (·.1) := by
  induction pairs using List.reverseRecOn with
  | nil => cases h
  | append_singleton pairs e ih =>
    rw [ofList_concat] at h
    rw [List.map_append]
    cases hmem : (ofList pairs).contains e.1 with
    | true =>
      rw [keys_insert_of_mem hmem] at h
      exact List.mem_append_left _ (ih h)
    | false =>
      have hnew : ∀ x ∈ (ofList pairs).entries, (x.1 == e.1) = false :=
        fun x hx => by simpa using List.any_eq_false.mp hmem x hx
      rw [keys_insert_of_new hnew] at h
      exact (List.mem_append.mp h).elim (fun h => List.mem_append_left _ (ih h))
        (fun h => List.mem_append_right _ h)

/-! ## Erasure -/

@[simp]
theorem keys_erase [LawfulBEq κ] (t : Table κ ν) (k : κ) :
    (t.erase k).keys = t.keys.filter fun j => !(j == k) := by
  simp only [keys, erase, List.filter_map]
  rfl

theorem mem_erase {t : Table κ ν} {k : κ} {e : κ × ν} :
    e ∈ (t.erase k).entries ↔ e ∈ t.entries ∧ (e.1 == k) = false := by
  simp [erase]

/-- Up to order, the values of a table are the value at a key and those that its erasure leaves. -/
theorem values_perm_erase [EquivBEq κ] {t : Table κ ν} {k : κ} {v : ν} (h : t.find? k = some v) :
    t.values.Perm (v :: (t.erase k).values) := by
  obtain ⟨entries, hdistinct⟩ := t
  simp only [find?_eq_lookup] at h
  simp only [values, erase]
  induction entries with
  | nil => simp [lookup] at h
  | cons e rest ih =>
    obtain ⟨he, hrest⟩ := List.pairwise_cons.mp hdistinct
    rw [lookup_cons] at h
    cases hek : e.1 == k with
    | true =>
      -- No later entry has the key, so the erasure leaves the rest alone.
      have hkeep : rest.filter (fun x => !(x.1 == k)) = rest := by
        apply List.filter_eq_self.mpr
        intro x hx
        rw [beq_eq_false_of_beq hek (he x hx)]
        rfl
      rw [hek, if_pos rfl] at h
      obtain rfl := Option.some.inj h
      rw [List.filter_cons_of_neg (by simp [hek]), hkeep]
      exact List.Perm.refl _
    | false =>
      rw [hek, if_neg (by simp)] at h
      rw [List.filter_cons_of_pos (by simp [hek]), List.map_cons, List.map_cons]
      exact ((ih hrest h).cons e.2).trans (List.Perm.swap ..)

end Metering.Table
