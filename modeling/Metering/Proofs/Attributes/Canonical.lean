import Metering.Proofs.Deltas.Run
import Metering.Proofs.Deltas.Rounds
import Metering.Proofs.KeyMapLaws

/-!
# Canonical Attribute Sets

A list of pairs means what it says last about each key. The map that is built from it has strictly
ascending keys and finds at each key the last value that was listed for it, so maps are equal exactly
if their lists say the same in the end, and each map is rebuilt from its own entries. Building it by
insertion, one pair after the other, is to sort the pairs by key, without changing the order of pairs
with one key, and to let each pair overwrite the one before if that has the same key.

Series are found by their sets. So measurements of a stream that keeps all attributes land in one
series exactly if their lists say the same in the end, however much happens in between.
-/

namespace Metering

namespace KeyMap

variable {ν μ : Type}

/-- What a list of pairs says last about a key. -/
def lastWrite (pairs : List (String × ν)) (k : String) : Option ν :=
  (pairs.filter fun e => e.1 = k).getLast?.map (·.2)

theorem lastWrite_concat (pairs : List (String × ν)) (e : String × ν) (k : String) :
    lastWrite (pairs ++ [e]) k = if e.1 = k then some e.2 else lastWrite pairs k := by
  by_cases hek : e.1 = k <;> simp [lastWrite, hek]

theorem lastWrite_map (g : ν → μ) (pairs : List (String × ν)) (k : String) :
    lastWrite (pairs.map fun e => (e.1, g e.2)) k = (lastWrite pairs k).map g := by
  induction pairs using List.reverseRecOn with
  | nil => rfl
  | append_singleton pairs e ih =>
    rw [List.map_append, List.map_singleton, lastWrite_concat, lastWrite_concat, ih]
    split <;> rfl

/-- A map finds at a key what its list said last about it. -/
theorem get?_ofList (pairs : List (String × ν)) (k : String) :
    (ofList pairs).get? k = lastWrite pairs k := by
  induction pairs using List.reverseRecOn with
  | nil => exact get?_empty k
  | append_singleton pairs e ih => rw [ofList_concat, get?_insert, lastWrite_concat, ih]

theorem mem_iff_lookup {l : List (String × ν)} (hl : l.Pairwise fun a b => a.1 < b.1)
    {e : String × ν} : e ∈ l ↔ lookup e.1 l = some e.2 := by
  induction l with
  | nil => simp [lookup]
  | cons x rest ih =>
    obtain ⟨hx, hrest⟩ := List.pairwise_cons.mp hl
    rw [lookup_cons, List.mem_cons]
    by_cases hxe : x.1 = e.1
    · -- No later entry has the key.
      have hnot : e ∉ rest := fun he => String.lt_irrefl e.1 (hxe ▸ hx e he)
      simp only [hnot, or_false, hxe, if_true, Option.some.injEq]
      exact ⟨fun h => h ▸ rfl, fun h => Prod.ext hxe.symm h.symm⟩
    · have hne : e ≠ x := fun heq => hxe (heq ▸ rfl)
      simp only [hne, false_or, if_neg hxe]
      exact ih hrest

/-- Maps that find the same are the same. -/
theorem ext_get? {m n : KeyMap ν} (h : ∀ k, m.get? k = n.get? k) : m = n := by
  have hnodup (m : KeyMap ν) : m.entries.Nodup := by
    refine m.ascending.imp ?_
    rintro a _ hlt rfl
    exact String.lt_irrefl a.1 hlt
  have hperm : m.entries.Perm n.entries :=
    (List.perm_ext_iff_of_nodup (hnodup m) (hnodup n)).mpr fun e => by
      rw [mem_iff_lookup m.ascending, mem_iff_lookup n.ascending, ← get?_eq_lookup,
        ← get?_eq_lookup, h]
  exact (ofList_eq_of_perm (.refl _)).symm.trans (ofList_eq_of_perm hperm)

theorem ofList_eq_iff {xs ys : List (String × ν)} :
    ofList xs = ofList ys ↔ ∀ k, lastWrite xs k = lastWrite ys k := by
  constructor
  · intro h k
    rw [← get?_ofList, ← get?_ofList, h]
  · intro h
    exact ext_get? fun k => by rw [get?_ofList, get?_ofList, h]

/-! ## Sorting and overwriting -/

/-- Adds a pair to a list, or overwrites the last one of the list if that has the same key. -/
def overwriteLast (kept : List (String × ν)) (e : String × ν) : List (String × ν) :=
  if kept.getLast?.map (·.1) = some e.1 then kept.dropLast ++ [e] else kept ++ [e]

/-- A key that no other exceeds is inserted at the end. -/
theorem insertEntry_eq_overwriteLast (e : String × ν) {l : List (String × ν)}
    (hl : l.Pairwise fun a b => a.1 < b.1) (hle : ∀ x ∈ l, x.1 ≤ e.1) :
    insertEntry e.1 e.2 l = overwriteLast l e := by
  induction l with
  | nil => rfl
  | cons x rest ih =>
    obtain ⟨hx, hrest⟩ := List.pairwise_cons.mp hl
    obtain ⟨hxe, hreste⟩ := List.forall_mem_cons.mp hle
    have hnot : ¬e.1 < x.1 := String.not_lt.mpr hxe
    unfold insertEntry
    rw [if_neg hnot]
    cases rest with
    | nil =>
      by_cases hlt : x.1 < e.1
      · have hne : x.1 ≠ e.1 := fun heq => String.lt_irrefl _ (heq ▸ hlt)
        simp [overwriteLast, insertEntry, hlt, hne]
      · have heq : x.1 = e.1 := String.le_antisymm hxe (String.not_lt.mp hlt)
        simp [overwriteLast, heq]
    | cons y rest =>
      -- The first key is below that of the second, so the pair belongs further on.
      have hlt : x.1 < e.1 :=
        String.not_le.mp fun hex => String.not_le.mpr (hx y (List.mem_cons_self ..))
          (String.le_trans (hreste y (List.mem_cons_self ..)) hex)
      rw [if_pos hlt, ih hrest hreste, overwriteLast, overwriteLast, List.getLast?_cons_cons,
        List.dropLast_cons_cons]
      split <;> rfl

/-- Whether the key of a pair does not exceed that of another. -/
def keyLE (a b : String × ν) : Bool := decide (a.1 ≤ b.1)

theorem keyLE_trans (a b c : String × ν) (hab : keyLE a b = true) (hbc : keyLE b c = true) :
    keyLE a c = true :=
  decide_eq_true (String.le_trans (of_decide_eq_true hab) (of_decide_eq_true hbc))

theorem keyLE_total (a b : String × ν) : (keyLE a b || keyLE b a) = true := by
  rw [Bool.or_eq_true]
  exact (String.le_total a.1 b.1).imp decide_eq_true decide_eq_true

/-- Sorting keeps the order of pairs with one key, so it keeps what is said last about the key. -/
theorem lastWrite_mergeSort (pairs : List (String × ν)) (k : String) :
    lastWrite (pairs.mergeSort keyLE) k = lastWrite pairs k := by
  have hpairwise : (pairs.filter fun e => e.1 = k).Pairwise fun a b => keyLE a b = true := by
    refine List.pairwise_of_forall_mem_list fun a ha b hb => decide_eq_true ?_
    have hak : a.1 = k := of_decide_eq_true (List.mem_filter.mp ha).2
    have hbk : b.1 = k := of_decide_eq_true (List.mem_filter.mp hb).2
    exact (congrArg₂ (· ≤ ·) hak hbk).mpr (String.le_refl k)
  have hsublist := (List.sublist_mergeSort keyLE_trans keyLE_total hpairwise
    List.filter_sublist).filter fun e => decide (e.1 = k)
  rw [List.filter_filter] at hsublist
  simp only [Bool.and_self] at hsublist
  -- There are as many pairs with the key in both lists.
  have hlength := ((List.mergeSort_perm pairs keyLE).filter fun e => decide (e.1 = k)).length_eq
  rw [lastWrite, ← hsublist.eq_of_length hlength.symm, lastWrite]

theorem mem_of_mem_entries_ofList {pairs : List (String × ν)} {e : String × ν}
    (h : e ∈ (ofList pairs).entries) : e ∈ pairs := by
  rw [mem_iff_lookup (ofList pairs).ascending, ← get?_eq_lookup, get?_ofList] at h
  obtain ⟨x, hx, hvalue⟩ := Option.map_eq_some_iff.mp h
  obtain ⟨hmem, hkey⟩ := List.mem_filter.mp (List.mem_of_getLast? hx)
  exact Prod.ext (of_decide_eq_true hkey) hvalue ▸ hmem

/-- The entries of a map are the sorted pairs, each of which overwrites the one before if that has the
same key. -/
theorem entries_ofList_eq (pairs : List (String × ν)) :
    (ofList pairs).entries = (pairs.mergeSort keyLE).foldl overwriteLast [] := by
  have hsorted : (pairs.mergeSort keyLE).Pairwise fun a b => a.1 ≤ b.1 :=
    (List.pairwise_mergeSort keyLE_trans keyLE_total pairs).imp fun h => of_decide_eq_true h
  rw [← ofList_eq_iff.mpr (lastWrite_mergeSort pairs)]
  generalize pairs.mergeSort keyLE = l at hsorted ⊢
  induction l using List.reverseRecOn with
  | nil => rfl
  | append_singleton l e ih =>
    obtain ⟨hl, -, hle⟩ := List.pairwise_append.mp hsorted
    rw [ofList_concat, List.foldl_append, ← ih hl]
    exact insertEntry_eq_overwriteLast e (ofList l).ascending fun x hx =>
      hle x (mem_of_mem_entries_ofList hx) e (List.mem_singleton_self e)

end KeyMap

/-- Sets are equal if their lists say equal values last about each key, or nothing. -/
theorem Attributes.ofList_beq_iff {xs ys : List Attribute} :
    (KeyMap.ofList xs == KeyMap.ofList ys) = true ↔
      ∀ k, (KeyMap.lastWrite xs k == KeyMap.lastWrite ys k) = true := by
  have hplaces (v w : Option Value) :
      (v == w) = true ↔ v.map Value.place = w.map Value.place := by
    cases v <;> cases w <;> simp [Value.beq_iff_place_eq]
  have hset (x : List Attribute) : Attributes.place (KeyMap.ofList x) =
      (KeyMap.ofList (x.map fun e => (e.1, e.2.place))).entries :=
    (KeyMap.entries_ofList_map Value.place x).symm
  rw [beq_iff_place_eq, hset, hset]
  refine (Iff.intro KeyMap.ext (congrArg KeyMap.entries)).trans (KeyMap.ofList_eq_iff.trans ?_)
  exact forall_congr' fun k => by rw [KeyMap.lastWrite_map, KeyMap.lastWrite_map, hplaces]

/-! ## Places of series -/

namespace Table

variable {κ ν : Type} [BEq κ]

/-- The place of a key among those of the table; the place behind the last one if it is new. -/
def placeOf (t : Table κ ν) (k : κ) : Nat := t.keys.findIdx (· == k)

theorem getElem?_updateEntries (k : κ) (f : Option ν → ν) (l : List (κ × ν)) (i : Nat) :
    (updateEntries k f l)[i]? =
      if i = (l.map (·.1)).findIdx (· == k) then
        some (((l.map (·.1))[i]?).getD k, f (lookup k l))
      else l[i]? := by
  induction l generalizing i with
  | nil => cases i <;> simp [updateEntries, lookup]
  | cons e rest ih =>
    cases hek : e.1 == k with
    | true => cases i <;> simp [updateEntries, lookup_cons, hek, List.findIdx_cons]
    | false =>
      cases i with
      | zero => simp [updateEntries, hek, List.findIdx_cons]
      | succ i => simpa [updateEntries, lookup_cons, hek, List.findIdx_cons] using ih i

/-- An update changes the entry at the place of its key, and no other. -/
theorem getElem?_update (t : Table κ ν) (k : κ) (f : Option ν → ν) (i : Nat) :
    (t.update k f).entries[i]? =
      if i = t.placeOf k then some ((t.keys[i]?).getD k, f (t.find? k)) else t.entries[i]? :=
  getElem?_updateEntries k f t.entries i

/-- An update leaves the keys where they are; a new one comes last. -/
theorem keys_prefix_update (t : Table κ ν) (k : κ) (f : Option ν → ν) :
    t.keys <+: (t.update k f).keys := by
  simp only [keys, update_entries]
  induction t.entries with
  | nil => exact List.nil_prefix
  | cons e rest ih =>
    unfold updateEntries
    split
    · exact List.prefix_refl _
    · exact (List.prefix_cons_inj e.1).mpr ih

/-- An update leaves its key at the place where it was, or where it was to come. -/
theorem placeOf_update [EquivBEq κ] (t : Table κ ν) (k : κ) (f : Option ν → ν) :
    (t.update k f).placeOf k = t.placeOf k := by
  simp only [placeOf, keys, update_entries]
  induction t.entries with
  | nil => simp [updateEntries]
  | cons e rest ih => cases hek : e.1 == k <;> simp [updateEntries, List.findIdx_cons, hek, ih]

/-- What has a place is there, under an equal key. -/
theorem getElem?_placeOf {t : Table κ ν} {k : κ} (h : ∃ j ∈ t.keys, (j == k) = true) :
    ∃ e, t.entries[t.placeOf k]? = some e ∧ (e.1 == k) = true := by
  have hlt : t.placeOf k < t.keys.length := List.findIdx_lt_length.mpr h
  have hkey : (t.keys[t.placeOf k] == k) = true := List.findIdx_getElem (w := hlt)
  have hentry : t.placeOf k < t.entries.length := Nat.lt_of_lt_of_eq hlt (List.length_map ..)
  refine ⟨t.entries[t.placeOf k], List.getElem?_eq_getElem hentry, ?_⟩
  simpa [keys] using hkey

/-- Keys have one place exactly if they are equal. -/
theorem placeOf_eq_iff [EquivBEq κ] {t : Table κ ν} {j k : κ} (h : t.placeOf j < t.keys.length) :
    t.placeOf k = t.placeOf j ↔ (j == k) = true := by
  constructor
  · intro hplace
    have hfound {x : κ} (hx : t.placeOf x < t.keys.length) : (t.keys[t.placeOf x] == x) = true :=
      List.findIdx_getElem (w := hx)
    have hk := hfound (hplace ▸ h)
    simp only [hplace] at hk
    exact BEq.trans (BEq.symm (hfound h)) hk
  · intro hjk
    rw [placeOf, placeOf]
    exact congrArg (fun p => t.keys.findIdx p) (funext fun x => (BEq.congr_right hjk).symm)

/-- Keys that are added behind the others leave them where they are. -/
theorem placeOf_of_isPrefix {μ : Type} {t : Table κ ν} {u : Table κ μ} {k : κ}
    (h : t.keys <+: u.keys) (hk : t.placeOf k < t.keys.length) : u.placeOf k = t.placeOf k := by
  obtain ⟨added, hadded⟩ := h
  rw [placeOf, ← hadded, List.findIdx_append]
  exact if_pos hk

end Table

namespace SynchronousStream

variable {α : Type} [Quantity α]

/-- The place of the series that a measurement with some attributes is written to. -/
def landing (s : SynchronousStream α) (a : Attributes) : Nat :=
  s.series.placeOf (AttributeFilter.applyOptional s.settings.filter a).1

/-- A measurement is recorded into the series where it lands, and into no other. -/
theorem getElem?_series_record (s : SynchronousStream α) (draw : Nat) (value : α) (a : Attributes)
    (time : Time) (i : Nat) :
    (s.record draw value a time).series.entries[i]? =
      if i = s.landing a then
        let split := AttributeFilter.applyOptional s.settings.filter a
        some ((s.series.keys[i]?).getD split.1,
          ((s.series.find? split.1).getD (.empty s.settings)).record s.settings draw value split.2
            time)
      else s.series.entries[i]? :=
  Table.getElem?_update ..

theorem landing_lt (s : SynchronousStream α) (draw : Nat) (value : α) (a : Attributes)
    (time : Time) : s.landing a < (s.record draw value a time).series.keys.length := by
  have hentry := s.getElem?_series_record draw value a time (s.landing a)
  rw [if_pos rfl] at hentry
  obtain ⟨hlt, -⟩ := List.getElem?_eq_some_iff.mp hentry
  exact Nat.lt_of_lt_of_eq hlt (List.length_map ..).symm

/-- The series where a measurement lands is that of its set, and is marked as written to. -/
theorem exists_series_record (s : SynchronousStream α) (draw : Nat) (value : α) (a : Attributes)
    (time : Time) : ∃ e, (s.record draw value a time).series.entries[s.landing a]? = some e ∧
      (e.1 == (AttributeFilter.applyOptional s.settings.filter a).1) = true ∧
      e.2.touched = true := by
  have hentry := s.getElem?_series_record draw value a time (s.landing a)
  rw [if_pos rfl] at hentry
  refine ⟨_, hentry, ?_, rfl⟩
  cases hkey : s.series.keys[s.landing a]? with
  | none => exact BEq.rfl
  | some j =>
    obtain ⟨hlt, rfl⟩ := List.getElem?_eq_some_iff.mp hkey
    exact List.findIdx_getElem (w := hlt)

/-- Recording and collecting leave the series where they are; new ones come last. -/
theorem keys_prefix_play (s : SynchronousStream α) (steps : List (StreamStep α)) :
    s.series.keys <+: (s.play steps).2.series.keys := by
  induction steps generalizing s with
  | nil => exact List.prefix_refl _
  | cons x rest ih =>
    have hstep : s.series.keys <+: (s.apply x).2.series.keys := by
      cases x with
      | record draw m => exact Table.keys_prefix_update ..
      | collect time =>
        have hkeys : (s.collected time).series.keys = s.series.keys := Table.keys_mapValues ..
        exact hkeys.symm ▸ List.prefix_refl _
    exact hstep.trans (ih _)

/-- Series stay where they are, so what lands where a measurement landed is of an equal set. -/
theorem landing_eq_iff {s : SynchronousStream α} (hwhole : s.settings.filter = none) (draw : Nat)
    (value : α) (a b : Attributes) (time : Time) (between : List (StreamStep α)) :
    ((s.record draw value a time).play between).2.landing b = s.landing a ↔ (a == b) = true := by
  have hkept {s : SynchronousStream α} (hwhole : s.settings.filter = none) (x : Attributes) :
      s.landing x = s.series.placeOf x := by
    rw [landing, hwhole]
    rfl
  let first := s.record draw value a time
  let before := (first.play between).2
  have hsettings : before.settings.filter = none :=
    (congrArg (·.filter) (settings_play first between)).trans hwhole
  -- The series of the first measurement has its place from then on.
  have hfirst : first.series.placeOf a = s.series.placeOf a := by
    show (s.series.update (AttributeFilter.applyOptional s.settings.filter a).1 _).placeOf a = _
    rw [hwhole]
    exact Table.placeOf_update ..
  have hlt : first.series.placeOf a < first.series.keys.length := by
    rw [hfirst, ← hkept hwhole]
    exact s.landing_lt draw value a time
  have hprefix : first.series.keys <+: before.series.keys := first.keys_prefix_play between
  have hbefore : before.series.placeOf a = s.series.placeOf a :=
    (Table.placeOf_of_isPrefix hprefix hlt).trans hfirst
  have hplaced : before.series.placeOf a < before.series.keys.length := by
    rw [hbefore, ← hfirst]
    exact Nat.lt_of_lt_of_le hlt hprefix.length_le
  show before.landing b = _ ↔ _
  rw [hkept hsettings, hkept hwhole, ← hbefore]
  exact Table.placeOf_eq_iff hplaced

end SynchronousStream

variable {α : Type} [Quantity α]

/-- Attribute sets are canonical. Whatever pairs they are built from, their keys ascend strictly, at
each key the search finds what the pairs say last about it, or nothing, and each set is rebuilt from
its own pairs. Two lists of pairs give equal sets exactly if they say equal values last about every
key. That is also exactly when measurements with these lists come to one series of a stream that keeps
all attributes: of a synchronous stream whatever happens between the two measurements, and of an
asynchronous one whatever else is observed in the pass. -/
theorem attributes_canonical (xs ys : List Attribute) {c : StreamSettings α}
    (hwhole : c.filter = none) :
    let a : Attributes := .ofList xs
    let b : Attributes := .ofList ys
    let same := ∀ k, (KeyMap.lastWrite xs k == KeyMap.lastWrite ys k) = true
    (a.entries.Pairwise fun e f => e.1 < f.1) ∧ (∀ k, a.get? k = KeyMap.lastWrite xs k) ∧
    KeyMap.ofList a.entries = a ∧ ((a == b) = true ↔ same) ∧
    (∀ s : SynchronousStream α, s.settings = c → ∀ draw value time between,
      let first := s.record draw value a time
      (∃ e, first.series.entries[s.landing a]? = some e ∧ (e.1 == a) = true ∧ e.2.touched = true) ∧
      (∀ i, i ≠ s.landing a → first.series.entries[i]? = s.series.entries[i]?) ∧
      ((first.play between).2.landing b = s.landing a ↔ same)) ∧
    ∀ (observed : List (Attributes × α)) time,
      let pass := AsynchronousStream.aggregate c (Table.ofList observed) time
      (∃ v, (a, v) ∈ observed) → (∃ w, (b, w) ∈ observed) →
        (∃ e, pass.entries[pass.placeOf a]? = some e ∧ (e.1 == a) = true) ∧
        (pass.placeOf b = pass.placeOf a ↔ same) := by
  intro a b same
  have hsame : (a == b) = true ↔ same := Attributes.ofList_beq_iff
  refine ⟨a.ascending, KeyMap.get?_ofList xs, KeyMap.ofList_eq_of_perm (.refl _), hsame, ?_, ?_⟩
  · rintro s rfl draw value time between first
    refine ⟨?_, fun i hi => ?_,
      (SynchronousStream.landing_eq_iff hwhole draw value a b time between).trans hsame⟩
    · have hentry := s.exists_series_record draw value a time
      rw [hwhole] at hentry
      exact hentry
    · rw [SynchronousStream.getElem?_series_record, if_neg hi]
  · intro observed time pass ha hb
    have hlisted {x : Attributes} (hx : ∃ v, (x, v) ∈ observed) : ∃ j ∈ pass.keys, (j == x) = true := by
      obtain ⟨v, hv⟩ := hx
      have hkeys : pass.keys = (Table.ofList observed).keys := by
        rw [Table.keys, AsynchronousStream.entries_aggregate_of_whole hwhole, List.map_map]
        rfl
      exact hkeys ▸ Table.exists_mem_keys_ofList hv
    exact ⟨Table.getElem?_placeOf (hlisted ha),
      (Table.placeOf_eq_iff (List.findIdx_lt_length.mpr (hlisted ha))).trans hsame⟩

/-- A key that comes twice counts with its later value, and what was recorded under both lists, with a
collection in between, is in one series. -/
theorem attributes_canonical_repeated :
    let xs : List Attribute := [("b", .integer 2), ("a", .integer 1), ("b", .integer 3)]
    let ys : List Attribute := [("a", .integer 1), ("b", .integer 3)]
    let c : StreamSettings Int := ⟨.sum true, none, none, .delta, 0⟩
    let s : SynchronousStream Int := ((SynchronousStream.opened c).record 0 5 (.ofList []) 1)
    let first := s.record 0 7 (.ofList xs) 2
    c.filter = none ∧ (KeyMap.ofList xs).get? "b" = some (.integer 3) ∧
      s.landing (.ofList xs) = 1 ∧ (first.play [.collect 3]).2.landing (.ofList ys) = 1 := by
  intro xs ys c s first
  obtain ⟨-, hget, -, hequal, hrecorded, -⟩ := attributes_canonical xs ys (c := c) rfl
  obtain ⟨-, -, hlanding⟩ := hrecorded s rfl 0 7 2 [.collect 3]
  have hsame : (KeyMap.ofList xs == KeyMap.ofList ys) = true := by decide +kernel
  have hplace : s.landing (.ofList xs) = 1 := by decide +kernel
  exact ⟨rfl, (hget "b").trans rfl, hplace, (hlanding.mpr (hequal.mp hsame)).trans hplace⟩

end Metering
