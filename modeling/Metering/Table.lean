/-!
# Tables in insertion order

Finite maps that remember the order in which their keys first came. A key that comes again keeps its place, and the
table keeps the key as it was first written, which shows when equal keys can be told apart by eye.

The keys are pairwise different by construction. Main statements: over keys with a lawful equality an update sets the
value at its key and leaves the others (`find?_update`), an erasure removes its key only (`find?_erase`), and a
change of every value shows at every key (`find?_mapValues`).
-/

namespace Metering

/-- A finite map, listed in the order in which its keys were first inserted. -/
structure Table (κ ν : Type) [BEq κ] where
  entries : List (κ × ν)
  distinct : entries.Pairwise fun a b => (a.1 == b.1) = false

namespace Table

variable {κ ν μ : Type} [BEq κ]

/-- The table without entries. -/
def empty : Table κ ν := ⟨[], List.Pairwise.nil⟩

instance : Inhabited (Table κ ν) := ⟨empty⟩

/-! ## Reading -/

/-- The value at a key. -/
def find? (t : Table κ ν) (k : κ) : Option ν :=
  (t.entries.find? fun e => e.1 == k).map (·.2)

/-- Whether the table has the key. -/
def contains (t : Table κ ν) (k : κ) : Bool := t.entries.any fun e => e.1 == k

/-- How many entries the table has. -/
def size (t : Table κ ν) : Nat := t.entries.length

/-- The keys in insertion order. -/
def keys (t : Table κ ν) : List κ := t.entries.map (·.1)

/-- The values in insertion order. -/
def values (t : Table κ ν) : List ν := t.entries.map (·.2)

/-! ## Updating -/

/-- Replaces the value of the first entry with the key, or adds an entry at the end. -/
def updateEntries (k : κ) (f : Option ν → ν) : List (κ × ν) → List (κ × ν)
  | [] => [(k, f none)]
  | e :: rest => if e.1 == k then (e.1, f (some e.2)) :: rest else e :: updateEntries k f rest

theorem mem_updateEntries {k : κ} {f : Option ν → ν} {l : List (κ × ν)} {x : κ × ν}
    (h : x ∈ updateEntries k f l) : x.1 = k ∨ ∃ e ∈ l, e.1 = x.1 := by
  induction l with
  | nil => simp [updateEntries] at h; exact .inl (by rw [h])
  | cons e rest ih =>
    unfold updateEntries at h
    split at h
    · rcases List.mem_cons.1 h with h | h
      · exact .inr ⟨e, List.mem_cons_self .., by rw [h]⟩
      · exact .inr ⟨x, List.mem_cons_of_mem _ h, rfl⟩
    · rcases List.mem_cons.1 h with h | h
      · exact .inr ⟨e, List.mem_cons_self .., by rw [h]⟩
      · exact (ih h).imp_right fun ⟨y, hy, hyx⟩ => ⟨y, List.mem_cons_of_mem _ hy, hyx⟩

theorem pairwise_updateEntries (k : κ) (f : Option ν → ν) {l : List (κ × ν)}
    (h : l.Pairwise fun a b => (a.1 == b.1) = false) :
    (updateEntries k f l).Pairwise fun a b => (a.1 == b.1) = false := by
  induction l with
  | nil => simp [updateEntries]
  | cons e rest ih =>
    obtain ⟨he, hrest⟩ := List.pairwise_cons.1 h
    unfold updateEntries
    split
    · exact List.pairwise_cons.2 ⟨he, hrest⟩
    · rename_i hk
      refine List.pairwise_cons.2 ⟨fun x hx => ?_, ih hrest⟩
      -- Behind the first entry there are the keys that were there, and the updated one.
      rcases mem_updateEntries hx with hx | ⟨y, hy, hyx⟩
      · rw [hx]; simpa using hk
      · exact hyx ▸ he y hy

/-- Sets the value at a key from the one it has, if any. -/
def update (t : Table κ ν) (k : κ) (f : Option ν → ν) : Table κ ν :=
  ⟨updateEntries k f t.entries, pairwise_updateEntries k f t.distinct⟩

theorem update_entries (t : Table κ ν) (k : κ) (f : Option ν → ν) :
    (t.update k f).entries = updateEntries k f t.entries := rfl

/-- Sets the value at a key. -/
def insert (t : Table κ ν) (k : κ) (v : ν) : Table κ ν := t.update k fun _ => v

/-- Changes the value at a key that the table has. -/
def modify (t : Table κ ν) (k : κ) (f : ν → ν) : Table κ ν :=
  ⟨t.entries.map fun e => if e.1 == k then (e.1, f e.2) else e,
   List.pairwise_map.2 <| t.distinct.imp fun {a b} h => by
     have fst (e : κ × ν) : (if e.1 == k then (e.1, f e.2) else e).1 = e.1 := by split <;> rfl
     rw [fst, fst]; exact h⟩

/-- Removes the entry with the key; the others keep their order. -/
def erase (t : Table κ ν) (k : κ) : Table κ ν :=
  ⟨t.entries.filter fun e => !(e.1 == k), t.distinct.filter _⟩

/-- Keeps the entries that pass the test. -/
def filter (t : Table κ ν) (test : κ → ν → Bool) : Table κ ν :=
  ⟨t.entries.filter fun e => test e.1 e.2, t.distinct.filter _⟩

/-- Changes every value. -/
def mapValues (t : Table κ ν) (f : ν → μ) : Table κ μ :=
  ⟨t.entries.map fun e => (e.1, f e.2), List.pairwise_map.2 t.distinct⟩

/-- Inserts pairs one after the other. -/
def insertAll (t : Table κ ν) (pairs : List (κ × ν)) : Table κ ν :=
  pairs.foldl (fun t e => t.insert e.1 e.2) t

/-- The table of a list of pairs: a key's place is that of its first pair, its value that of the last. -/
def ofList (pairs : List (κ × ν)) : Table κ ν := empty.insertAll pairs

/-! ## The lookup view -/

@[simp]
theorem find?_empty (k : κ) : (empty : Table κ ν).find? k = none := rfl

/-- The value at a key, by walking along the entries. -/
def lookup (k : κ) (l : List (κ × ν)) : Option ν := (l.find? fun e => e.1 == k).map (·.2)

theorem find?_eq_lookup (t : Table κ ν) (k : κ) : t.find? k = lookup k t.entries := rfl

theorem lookup_cons (k : κ) (e : κ × ν) (l : List (κ × ν)) :
    lookup k (e :: l) = if e.1 == k then some e.2 else lookup k l := by
  cases h : e.1 == k <;> simp [lookup, h]

theorem lookup_updateEntries [EquivBEq κ] (j k : κ) (f : Option ν → ν) (l : List (κ × ν)) :
    lookup j (updateEntries k f l) = if k == j then some (f (lookup k l)) else lookup j l := by
  induction l with
  | nil => simp [updateEntries, lookup]
  | cons e rest ih =>
    unfold updateEntries
    cases hek : e.1 == k with
    | true =>
      have hj : (e.1 == j) = (k == j) := BEq.congr_left hek
      rw [if_pos rfl, lookup_cons, lookup_cons, lookup_cons, hek, hj]
      cases k == j <;> rfl
    | false =>
      rw [if_neg (by simp), lookup_cons, ih, lookup_cons, lookup_cons, hek]
      cases hej : e.1 == j with
      | false => rfl
      | true =>
        -- The entry found is not the updated one.
        have hkj : (k == j) = false := by
          cases hkj : k == j with
          | false => rfl
          | true => rw [BEq.trans hej (BEq.symm hkj)] at hek; cases hek
        rw [hkj]
        rfl

/-- An update sets the value at its key and leaves the others. -/
theorem find?_update [EquivBEq κ] (t : Table κ ν) (j k : κ) (f : Option ν → ν) :
    (t.update k f).find? j = if k == j then some (f (t.find? k)) else t.find? j :=
  lookup_updateEntries j k f t.entries

/-- An insertion sets the value at its key and leaves the others. -/
theorem find?_insert [EquivBEq κ] (t : Table κ ν) (j k : κ) (v : ν) :
    (t.insert k v).find? j = if k == j then some v else t.find? j :=
  find?_update t j k fun _ => v

/-- An erasure removes its key only. -/
theorem find?_erase [EquivBEq κ] (t : Table κ ν) (j k : κ) :
    (t.erase k).find? j = if k == j then none else t.find? j := by
  simp only [find?_eq_lookup, erase]
  induction t.entries with
  | nil => simp [lookup]
  | cons e rest ih =>
    cases hek : e.1 == k with
    | true =>
      have hj : (e.1 == j) = (k == j) := BEq.congr_left hek
      rw [List.filter_cons_of_neg (by simp [hek]), ih, lookup_cons, hj]
      cases k == j <;> rfl
    | false =>
      rw [List.filter_cons_of_pos (by simp [hek]), lookup_cons, ih, lookup_cons]
      cases hej : e.1 == j with
      | false => rfl
      | true =>
        have hkj : (k == j) = false := by
          cases hkj : k == j with
          | false => rfl
          | true => rw [BEq.trans hej (BEq.symm hkj)] at hek; cases hek
        rw [hkj]
        rfl

/-- A change of every value shows at every key. -/
theorem find?_mapValues (t : Table κ ν) (f : ν → μ) (k : κ) : (t.mapValues f).find? k = (t.find? k).map f := by
  simp only [find?_eq_lookup, mapValues]
  induction t.entries with
  | nil => rfl
  | cons e rest ih =>
    rw [List.map_cons, lookup_cons, lookup_cons, ih]
    cases e.1 == k <;> rfl

end Table

end Metering
