import Metering.Search

/-!
# Maps in key order

Finite maps from text keys, held as pairs with strictly ascending keys, so that two maps with the same content are
the same list. Keys are ordered by their characters, which is also the order of their UTF-8 bytes. Lookup is a
binary search.

The order of the entries is part of the type. Main statements: the search finds what a walk along the entries finds
(`get?_eq_lookup`), an insertion changes the lookup at its own key only (`get?_insert`), a filter hides the keys it
refuses and no other (`get?_filter`), and the order of maps is as lawful as that of their values
(`transCmp_compareBy`).
-/

namespace Metering

/-- A finite map with text keys, listed in ascending key order. -/
structure KeyMap (ν : Type) where
  entries : List (String × ν)
  ascending : entries.Pairwise fun a b => a.1 < b.1
  deriving DecidableEq

namespace KeyMap

variable {ν : Type}

/-! ## Building -/

/-- The map without entries. -/
def empty : KeyMap ν := ⟨[], List.Pairwise.nil⟩

instance : Inhabited (KeyMap ν) := ⟨empty⟩

/-- Puts an entry where it belongs, in place of one with the same key. -/
def insertEntry (k : String) (v : ν) : List (String × ν) → List (String × ν)
  | [] => [(k, v)]
  | e :: rest =>
    if e.1 < k then e :: insertEntry k v rest
    else if k < e.1 then (k, v) :: e :: rest
    else (k, v) :: rest

theorem mem_insertEntry {k : String} {v : ν} {l : List (String × ν)} {x : String × ν}
    (h : x ∈ insertEntry k v l) : x.1 = k ∨ x ∈ l := by
  induction l with
  | nil => simp [insertEntry] at h; exact .inl (by rw [h])
  | cons e rest ih =>
    unfold insertEntry at h
    split at h
    · rcases List.mem_cons.1 h with h | h
      · exact .inr (h ▸ List.mem_cons_self ..)
      · exact (ih h).imp_right (List.mem_cons_of_mem _)
    · split at h
      · rcases List.mem_cons.1 h with h | h
        · exact .inl (by rw [h])
        · exact .inr h
      · rcases List.mem_cons.1 h with h | h
        · exact .inl (by rw [h])
        · exact .inr (List.mem_cons_of_mem _ h)

theorem pairwise_insertEntry (k : String) (v : ν) {l : List (String × ν)}
    (h : l.Pairwise fun a b => a.1 < b.1) : (insertEntry k v l).Pairwise fun a b => a.1 < b.1 := by
  induction l with
  | nil => simp [insertEntry]
  | cons e rest ih =>
    obtain ⟨he, hrest⟩ := List.pairwise_cons.1 h
    unfold insertEntry
    split
    · rename_i hlt
      -- The key belongs further on.
      refine List.pairwise_cons.2 ⟨fun x hx => ?_, ih hrest⟩
      rcases mem_insertEntry hx with hx | hx
      · exact hx ▸ hlt
      · exact he x hx
    · split
      · rename_i hlt
        -- The key belongs before the first entry.
        refine List.pairwise_cons.2 ⟨fun x hx => ?_, h⟩
        rcases List.mem_cons.1 hx with hx | hx
        · exact hx ▸ hlt
        · exact String.lt_trans hlt (he x hx)
      · rename_i h1 h2
        -- The key is that of the first entry.
        have hk : k = e.1 := String.le_antisymm (String.not_lt.1 h1) (String.not_lt.1 h2)
        exact List.pairwise_cons.2 ⟨fun x hx => hk ▸ he x hx, hrest⟩

/-- Adds an entry; the latest entry of a key wins. -/
def insert (m : KeyMap ν) (k : String) (v : ν) : KeyMap ν :=
  ⟨insertEntry k v m.entries, pairwise_insertEntry k v m.ascending⟩

/-- The map of a list of pairs in any order: of the pairs with one key, the last counts. -/
def ofList (pairs : List (String × ν)) : KeyMap ν :=
  pairs.foldl (fun m e => m.insert e.1 e.2) empty

/-! ## Reading -/

/-- How many entries the map has. -/
def size (m : KeyMap ν) : Nat := m.entries.length

/-- Whether the map has no entry. -/
def isEmpty (m : KeyMap ν) : Bool := m.entries.isEmpty

/-- The value at a key: the entries below the key are skipped by binary search. -/
def get? (m : KeyMap ν) (k : String) : Option ν :=
  (m.entries[Search.leading (fun e => e.1 < k) m.entries]?).bind fun e =>
    if e.1 = k then some e.2 else none

/-- Whether the map has an entry at the key. -/
def contains (m : KeyMap ν) (k : String) : Bool := (m.get? k).isSome

/-- The entries whose key passes the test. -/
def filter (m : KeyMap ν) (test : String → Bool) : KeyMap ν :=
  ⟨m.entries.filter fun e => test e.1, m.ascending.filter _⟩

/-! ## Order

Maps are ordered by their entries, the first difference deciding: by key, then by value. -/

/-- The order of two entries: by key, then by value. -/
def compareEntry (cmp : ν → ν → Ordering) (a b : String × ν) : Ordering :=
  (compare a.1 b.1).then (cmp a.2 b.2)

/-- The order of two maps, entry by entry; a map that ends first comes first. -/
def compareBy (cmp : ν → ν → Ordering) (m n : KeyMap ν) : Ordering :=
  m.entries.compareLex (compareEntry cmp) n.entries

theorem transCmp_compareEntry (cmp : ν → ν → Ordering) [Std.TransCmp cmp] : Std.TransCmp (compareEntry cmp) :=
  -- The order of values, which decides between entries with one key.
  have : Std.TransCmp fun a b : String × ν => cmp a.2 b.2 :=
    { eq_swap := Std.OrientedCmp.eq_swap, isLE_trans := Std.TransCmp.isLE_trans }
  inferInstanceAs (Std.TransCmp (compareLex (compareOn Prod.fst) fun a b : String × ν => cmp a.2 b.2))

/-- The order of maps is as lawful as that of their values. -/
theorem transCmp_compareBy (cmp : ν → ν → Ordering) [Std.TransCmp cmp] :
    Std.TransCmp (compareBy cmp : KeyMap ν → KeyMap ν → Ordering) :=
  have := transCmp_compareEntry cmp
  have entrywise : Std.TransCmp (List.compareLex (compareEntry cmp)) := inferInstance
  { eq_swap := entrywise.eq_swap, isLE_trans := entrywise.isLE_trans }

theorem compareLex_compareEntry_eq_eq_iff {π : Type} {cmp : ν → ν → Ordering} {place : ν → π}
    (h : ∀ v w, cmp v w = .eq ↔ place v = place w) (l r : List (String × ν)) :
    l.compareLex (compareEntry cmp) r = .eq ↔
      l.map (fun e => (e.1, place e.2)) = r.map fun e => (e.1, place e.2) := by
  induction l generalizing r with
  | nil => cases r <;> simp [List.compareLex]
  | cons a l ih =>
    cases r with
    | nil => simp [List.compareLex]
    | cons b r => simp [List.compareLex_cons_cons, compareEntry, Ordering.then_eq_eq, h, ih]

/-- Two maps are not told apart when they have the same keys with values that are not told apart. -/
theorem compareBy_eq_eq_iff {π : Type} {cmp : ν → ν → Ordering} {place : ν → π}
    (h : ∀ v w, cmp v w = .eq ↔ place v = place w) (m n : KeyMap ν) :
    m.compareBy cmp n = .eq ↔
      m.entries.map (fun e => (e.1, place e.2)) = n.entries.map fun e => (e.1, place e.2) :=
  compareLex_compareEntry_eq_eq_iff h m.entries n.entries

/-! ## The lookup view -/

/-- The value at a key, by walking along the entries. -/
def lookup (k : String) (l : List (String × ν)) : Option ν :=
  (l.find? fun e => e.1 = k).map (·.2)

theorem lookup_cons (k : String) (e : String × ν) (l : List (String × ν)) :
    lookup k (e :: l) = if e.1 = k then some e.2 else lookup k l := by
  by_cases h : e.1 = k <;> simp [lookup, h]

theorem lookup_eq_none {k : String} {l : List (String × ν)} (h : ∀ e ∈ l, e.1 ≠ k) : lookup k l = none := by
  simp only [lookup, Option.map_eq_none_iff, List.find?_eq_none]
  intro e he
  simpa using h e he

theorem getElem?_takeWhile_eq_lookup (k : String) {l : List (String × ν)}
    (h : l.Pairwise fun a b => a.1 < b.1) :
    ((l[(l.takeWhile fun e => e.1 < k).length]?).bind fun e => if e.1 = k then some e.2 else none) =
      lookup k l := by
  induction l with
  | nil => rfl
  | cons e rest ih =>
    obtain ⟨he, hrest⟩ := List.pairwise_cons.1 h
    rw [lookup_cons]
    by_cases hlt : e.1 < k
    · have hne : e.1 ≠ k := fun heq => String.lt_irrefl k (heq ▸ hlt)
      simp only [List.takeWhile_cons, decide_eq_true hlt, if_true, List.length_cons, List.getElem?_cons_succ, if_neg hne]
      exact ih hrest
    · simp only [List.takeWhile_cons, decide_eq_false hlt, Bool.false_eq_true, if_false, List.length_nil,
        List.getElem?_cons_zero, Option.bind_some]
      by_cases heq : e.1 = k
      · rw [if_pos heq, if_pos heq]
      · -- The key is below the first entry, so it is below all of them.
        have hgt : k < e.1 := String.not_le.1 fun hle => heq (String.le_antisymm hle (String.not_lt.1 hlt))
        have hnone : lookup k rest = none := lookup_eq_none fun x hx hxk =>
          String.lt_irrefl k (String.lt_trans hgt (hxk ▸ he x hx))
        rw [if_neg heq, if_neg heq, hnone]

/-- The search finds what a walk finds. -/
theorem get?_eq_lookup (m : KeyMap ν) (k : String) : m.get? k = lookup k m.entries := by
  unfold get?
  rw [Search.leading_eq_takeWhile]
  · exact getElem?_takeWhile_eq_lookup k m.ascending
  · refine m.ascending.imp fun {a b} hab hb => ?_
    simp only [decide_eq_true_eq] at hb ⊢
    exact String.lt_trans hab hb

@[simp]
theorem get?_empty (k : String) : (empty : KeyMap ν).get? k = none := by
  rw [get?_eq_lookup]; rfl

theorem lookup_insertEntry (j k : String) (v : ν) {l : List (String × ν)}
    (h : l.Pairwise fun a b => a.1 < b.1) :
    lookup j (insertEntry k v l) = if k = j then some v else lookup j l := by
  induction l with
  | nil => simp [insertEntry, lookup_cons]
  | cons e rest ih =>
    obtain ⟨he, hrest⟩ := List.pairwise_cons.1 h
    unfold insertEntry
    split
    · rename_i hlt
      rw [lookup_cons, ih hrest, lookup_cons]
      -- The first entry stays in front, and its key is another.
      have hne : e.1 ≠ k := fun heq => String.lt_irrefl k (heq ▸ hlt)
      by_cases hej : e.1 = j
      · have : k ≠ j := fun hkj => hne (hej.trans hkj.symm)
        simp [hej, this]
      · simp [hej]
    · split
      · rw [lookup_cons]
      · rename_i h1 h2
        have hk : k = e.1 := String.le_antisymm (String.not_lt.1 h1) (String.not_lt.1 h2)
        rw [lookup_cons, lookup_cons, hk]
        by_cases hej : e.1 = j <;> simp [hej]

/-- An insertion sets the value at its key and leaves the others. -/
theorem get?_insert (m : KeyMap ν) (j k : String) (v : ν) :
    (m.insert k v).get? j = if k = j then some v else m.get? j := by
  rw [get?_eq_lookup, get?_eq_lookup]
  exact lookup_insertEntry j k v m.ascending

/-- A filter hides the keys it refuses and no other. -/
theorem get?_filter (m : KeyMap ν) (test : String → Bool) (k : String) :
    (m.filter test).get? k = if test k then m.get? k else none := by
  rw [get?_eq_lookup, get?_eq_lookup]
  simp only [filter]
  induction m.entries with
  | nil => simp [lookup]
  | cons e rest ih =>
    rw [lookup_cons]
    cases ht : test e.1 with
    | true =>
      rw [List.filter_cons_of_pos (by simpa using ht), lookup_cons, ih]
      by_cases hek : e.1 = k
      · simp [hek, hek ▸ ht]
      · simp [hek]
    | false =>
      rw [List.filter_cons_of_neg (by simpa using ht), ih]
      by_cases hek : e.1 = k
      · simp [hek ▸ ht]
      · simp [hek]

end KeyMap

end Metering
