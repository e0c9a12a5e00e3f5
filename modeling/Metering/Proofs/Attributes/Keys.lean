import Metering.Proofs.Attributes.Canonical
import Metering.Proofs.Attributes.Reals
import Metering.Proofs.Observations.Filing

/-!
# Keys of Series

Series are found by their attribute sets. So what counts as one set decides which measurements come
together, and equality, order and hash have to agree about it at every layer: of floats, of values, of
attributes and of sets.

Here equality and order are said layer by layer: values are compared by kind and then by content, floats
as numbers, attributes by key and then by value, and sets attribute by attribute. What a hash function
is fed with is said in the same way. Sets are compared like this, sets that are equal feed hash functions
alike, and so a search that passes over keys with other hashes finds what a search through all keys finds.
-/

namespace Metering

/-! ## Values -/

namespace Value

/-- Values of one kind with equal contents. Floats are equal as numbers are, and whatever is not a number
equals whatever else is not. -/
inductive Same : Value → Value → Prop
  | boolean (b : Bool) : Same (.boolean b) (.boolean b)
  | integer (n : Int) : Same (.integer n) (.integer n)
  | real {x y : Float} (h : (x == y) = true ∨ x.isNaN = true ∧ y.isNaN = true) :
      Same (.real x) (.real y)
  | text (s : String) : Same (.text s) (.text s)

/-- The place of a kind among kinds. -/
def kind : Value → Nat
  | boolean _ => 0
  | integer _ => 1
  | real _ => 2
  | text _ => 3

/-- Values in ascending order: by kind, and within a kind by content. Whatever is not a number comes
after the numbers. -/
inductive Precedes : Value → Value → Prop
  | kind {v w : Value} (h : v.kind < w.kind) : Precedes v w
  | boolean : Precedes (.boolean false) (.boolean true)
  | integer {m n : Int} (h : m < n) : Precedes (.integer m) (.integer n)
  | real {x y : Float} (h : x < y ∨ x.isNaN = false ∧ y.isNaN = true) : Precedes (.real x) (.real y)
  | text {s t : String} (h : s < t) : Precedes (.text s) (.text t)

theorem place_fst (v : Value) : v.place.1 = v.kind := by cases v <;> rfl

theorem beq_iff_same {v w : Value} : (v == w) = true ↔ v.Same w := by
  rw [beq_iff_place_eq]
  constructor
  · intro h
    have hkind := congrArg (·.1) h
    have hcontent := congrArg (·.2) h
    -- Only values of one kind are left.
    cases v <;> cases w <;> cases hkind
    next b c =>
      have hbit : (b.toNat : Int) = c.toNat := congrArg (·.1) hcontent
      obtain rfl : b = c := by cases b <;> cases c <;> first | rfl | cases hbit
      exact .boolean b
    next m n =>
      obtain rfl : m = n := congrArg (·.1) hcontent
      exact .integer m
    next x y => exact .real (realRank_eq_iff.mp (congrArg (·.1) hcontent))
    next s t =>
      obtain rfl : s = t := congrArg (·.2) hcontent
      exact .text s
  · rintro (_ | _ | h | _)
    · rfl
    · rfl
    · rw [place, place, realRank_eq_iff.mpr h]
    · rfl

theorem compare_eq_lt_iff_place {v w : Value} : compare v w = .lt ↔
    v.place.1 < w.place.1 ∨ v.place.1 = w.place.1 ∧
      (v.place.2.1 < w.place.2.1 ∨ v.place.2.1 = w.place.2.1 ∧ v.place.2.2 < w.place.2.2) := by
  show order v w = .lt ↔ _
  simp only [order, compareLex, compareOn, Ordering.then_eq_lt, compare_lt_iff_lt, compare_eq_iff_eq]

theorem compare_eq_lt_iff {v w : Value} : compare v w = .lt ↔ v.Precedes w := by
  rw [compare_eq_lt_iff_place, place_fst, place_fst]
  constructor
  · rintro (hkind | ⟨hkind, hcontent⟩)
    · exact .kind hkind
    · cases v <;> cases w <;> cases hkind
      next b c =>
        cases b <;> cases c <;> simp [place] at hcontent
        exact .boolean
      next m n => exact .integer (by simpa [place] using hcontent)
      next x y => exact .real (realRank_lt_iff.mp (by simpa [place] using hcontent))
      next s t => exact .text (by simpa [place] using hcontent)
  · rintro (hkind | _ | h | h | h)
    · exact .inl hkind
    · exact .inr ⟨rfl, .inl Int.zero_lt_one⟩
    · exact .inr ⟨rfl, .inl h⟩
    · exact .inr ⟨rfl, .inl (realRank_lt_iff.mpr h)⟩
    · exact .inr ⟨rfl, .inr ⟨rfl, h⟩⟩

end Value

/-! ## Attributes and sets -/

namespace Attribute

/-- Attributes of one key with equal values. -/
def Same (e f : Attribute) : Prop := e.1 = f.1 ∧ e.2.Same f.2

/-- Attributes in ascending order, by key and then by value. -/
inductive Precedes : Attribute → Attribute → Prop
  | key {e f : Attribute} (h : e.1 < f.1) : Precedes e f
  | value {e f : Attribute} (hkey : e.1 = f.1) (h : e.2.Precedes f.2) : Precedes e f

theorem compareEntry_eq_lt_iff {e f : Attribute} :
    KeyMap.compareEntry compare e f = .lt ↔ Precedes e f := by
  rw [KeyMap.compareEntry, Ordering.then_eq_lt, compare_lt_iff_lt, compare_eq_iff_eq,
    Value.compare_eq_lt_iff]
  constructor
  · rintro (h | ⟨hkey, h⟩)
    · exact .key h
    · exact .value hkey h
  · rintro (h | ⟨hkey, h⟩)
    · exact .inl h
    · exact .inr ⟨hkey, h⟩

theorem compareEntry_eq_eq_iff {e f : Attribute} :
    KeyMap.compareEntry compare e f = .eq ↔ Same e f := by
  rw [KeyMap.compareEntry, Ordering.then_eq_eq, compare_eq_iff_eq, Value.compare_eq_eq_iff,
    ← Value.beq_iff_place_eq, Value.beq_iff_same, Same]

end Attribute

namespace Attributes

/-- Sets of equal attributes. -/
def Same (a b : Attributes) : Prop := List.Forall₂ Attribute.Same a.entries b.entries

/-- Lists of attributes in ascending order: the first attribute that differs decides, or which list
ends first. -/
inductive Earlier : List Attribute → List Attribute → Prop
  | nil {f : Attribute} {fs : List Attribute} : Earlier [] (f :: fs)
  | head {e f : Attribute} {es fs : List Attribute} (h : Attribute.Precedes e f) :
      Earlier (e :: es) (f :: fs)
  | tail {e f : Attribute} {es fs : List Attribute} (h : Attribute.Same e f)
      (hrest : Earlier es fs) : Earlier (e :: es) (f :: fs)

/-- Sets in ascending order. -/
def Precedes (a b : Attributes) : Prop := Earlier a.entries b.entries

theorem compareLex_eq_eq_iff {l r : List Attribute} :
    l.compareLex (KeyMap.compareEntry compare) r = .eq ↔ List.Forall₂ Attribute.Same l r := by
  induction l generalizing r with
  | nil => cases r <;> simp [List.compareLex]
  | cons e l ih =>
    cases r with
    | nil => simp [List.compareLex]
    | cons f r =>
      rw [List.compareLex_cons_cons, Ordering.then_eq_eq, Attribute.compareEntry_eq_eq_iff, ih,
        List.forall₂_cons]

theorem compareLex_eq_lt_iff {l r : List Attribute} :
    l.compareLex (KeyMap.compareEntry compare) r = .lt ↔ Earlier l r := by
  induction l generalizing r with
  | nil =>
    cases r with
    | nil => exact ⟨fun h => (by cases h), fun h => (by cases h)⟩
    | cons f r => exact ⟨fun _ => .nil, fun _ => rfl⟩
  | cons e l ih =>
    cases r with
    | nil => exact ⟨fun h => (by cases h), fun h => (by cases h)⟩
    | cons f r =>
      rw [List.compareLex_cons_cons, Ordering.then_eq_lt, Attribute.compareEntry_eq_lt_iff,
        Attribute.compareEntry_eq_eq_iff, ih]
      constructor
      · rintro (h | ⟨h, hrest⟩)
        · exact .head h
        · exact .tail h hrest
      · rintro (_ | h | ⟨h, hrest⟩)
        · exact .inl h
        · exact .inr ⟨h, hrest⟩

theorem beq_iff_same {a b : Attributes} : (a == b) = true ↔ a.Same b :=
  (beq_iff_eq (a := compare a b)).trans compareLex_eq_eq_iff

theorem compare_eq_lt_iff {a b : Attributes} : compare a b = .lt ↔ a.Precedes b :=
  compareLex_eq_lt_iff

theorem compare_eq_gt_iff {a b : Attributes} : compare a b = .gt ↔ b.Precedes a := by
  rw [Std.OrientedOrd.eq_swap, Ordering.swap_eq_gt, compare_eq_lt_iff]

end Attributes

/-! ## Hashing -/

/-- What hash functions are fed with. -/
inductive Token where
  | length (n : Nat)
  | kind (n : Nat)
  | boolean (b : Bool)
  | integer (n : Int)
  | bits (b : UInt64)
  | text (s : String)

namespace Value

variable (realBits : Float → UInt64)

/-- A value feeds its kind and its content, floats as the bits that are chosen for them. -/
def feed : Value → List Token
  | boolean b => [.kind 0, .boolean b]
  | integer n => [.kind 1, .integer n]
  | real x => [.kind 2, .bits (realBits x)]
  | text s => [.kind 3, .text s]

end Value

/-- A set feeds its size and then its attributes. -/
def Attributes.feed (realBits : Float → UInt64) (a : Attributes) : List Token :=
  .length a.size :: a.entries.flatMap fun e => .text e.1 :: e.2.feed realBits

/-- Bits for floats that are the same for equal ones. -/
def Consistent (realBits : Float → UInt64) : Prop :=
  ∀ x y : Float, (x == y) = true ∨ x.isNaN = true ∧ y.isNaN = true → realBits x = realBits y

/-- One pattern of bits for whatever is not a number, one for the zeros of either sign, and the own one
of every other float. -/
def canonicalBits (x : Float) : UInt64 :=
  if x.isNaN then 0x7ff8000000000000 else if x == 0 then 0 else x.toBits

theorem consistent_canonicalBits : Consistent canonicalBits := by
  rintro x y (hxy | ⟨hx, hy⟩)
  · obtain ⟨hx, hy, rfl | ⟨hxz, hyz⟩⟩ := Value.eq_or_zeros_of_beq hxy
    · rfl
    · rw [canonicalBits, canonicalBits, hx, hy, hxz, hyz]
      rfl
  · rw [canonicalBits, canonicalBits, hx, hy]
    rfl

variable {realBits : Float → UInt64}

theorem Value.Same.feed_eq (hbits : Consistent realBits) {v w : Value} (h : v.Same w) :
    v.feed realBits = w.feed realBits := by
  rcases h with _ | _ | h | _
  · rfl
  · rfl
  · rw [Value.feed, Value.feed, hbits _ _ h]
  · rfl

theorem Attributes.Same.feed_eq (hbits : Consistent realBits) {a b : Attributes} (h : a.Same b) :
    a.feed realBits = b.feed realBits := by
  have hentries {l r : List Attribute} (h : List.Forall₂ Attribute.Same l r) :
      (l.flatMap fun e => Token.text e.1 :: e.2.feed realBits) =
        r.flatMap fun e => Token.text e.1 :: e.2.feed realBits := by
    induction h with
    | nil => rfl
    | cons hef _ ih => rw [List.flatMap_cons, List.flatMap_cons, hef.1, hef.2.feed_eq hbits, ih]
  rw [feed, feed, KeyMap.size, KeyMap.size, h.length_eq, hentries h]

/-! ## Searches by hash -/

namespace Table

variable {κ ν : Type} [BEq κ]

/-- The value at a key, if only keys with its digest are compared with it. -/
def findAlike {δ : Type} [DecidableEq δ] (digest : κ → δ) (t : Table κ ν) (k : κ) : Option ν :=
  (t.entries.find? fun e => decide (digest e.1 = digest k) && e.1 == k).map (·.2)

theorem findAlike_eq_find? {δ : Type} [DecidableEq δ] {digest : κ → δ}
    (hdigest : ∀ j k, (j == k) = true → digest j = digest k) (t : Table κ ν) (k : κ) :
    t.findAlike digest k = t.find? k := by
  have hsame (e : κ × ν) : (decide (digest e.1 = digest k) && e.1 == k) = (e.1 == k) := by
    cases hek : e.1 == k with
    | false => exact Bool.and_false _
    | true => rw [Bool.and_true, decide_eq_true (hdigest e.1 k hek)]
  rw [findAlike, find?, funext hsame]

/-- After some updates a table has a value at a key exactly if one of them was at an equal key. -/
theorem isSome_find?_updates [EquivBEq κ] (updates : List (κ × (Option ν → ν))) (k : κ) :
    ((updates.foldl (fun t u => t.update u.1 u.2) empty).find? k).isSome = true ↔
      ∃ u ∈ updates, (u.1 == k) = true := by
  induction updates using List.reverseRecOn with
  | nil => simp
  | append_singleton updates u ih =>
    rw [List.foldl_append, List.foldl_cons, List.foldl_nil, find?_update]
    cases huk : u.1 == k with
    | true => simp [huk]
    | false => simpa [huk] using ih

end Table

/-! ## Series and observations -/

variable {α : Type} [Quantity α]

/-- A stream finds a series at the sets of its measurements, which sums up those with equal sets. -/
theorem SynchronousStream.find?_series_play (c : StreamSettings α) (steps : List (StreamStep α))
    (k : Attributes) :
    let s := ((opened c).play steps).2
    let ms := StreamStep.measured steps
    (s.series.find? k).map (·.summary) =
      if s.settings.occurs k ms then some (s.settings.total ms k) else none := by
  intro s ms
  have hseries := (Recounts.play c steps).series
  have hfind : (s.series.find? k).map (·.summary) =
      Table.lookup k (s.series.entries.map fun e => (e.1, e.2.summary)) := by
    rw [Table.lookup, List.find?_map, Option.map_map, Table.find?, Option.map_map]
    rfl
  rw [hfind, hseries]
  exact StreamSettings.lookup_summaries ms k

/-- A pass has a series at the sets that observations come down to. -/
theorem AsynchronousStream.isSome_find?_aggregate (c : StreamSettings α)
    (observations : Observations α) (time : Time) (k : Attributes) :
    ((aggregate c observations time).find? k).isSome = true ↔
      ∃ e ∈ observations.entries, ((AttributeFilter.applyOptional c.filter e.1).1 == k) = true := by
  have hfound := find?_aggregate c ⟨observations, time⟩ k
  have hoccurs : c.occurs k (Round.measurements ⟨observations, time⟩) = true ↔
      ∃ e ∈ observations.entries, ((AttributeFilter.applyOptional c.filter e.1).1 == k) = true := by
    rw [StreamSettings.occurs, Round.measurements, List.any_map]
    exact List.any_eq_true
  rw [← hoccurs, hfound, StreamSettings.seen]
  split <;> simp [*]

/-- What is found at keys whose equality, order and hash agree. -/
structure LawfulKeys (α : Type) [Quantity α] (realBits : Float → UInt64) : Prop where
  /-- Sets are equal if their attributes are. -/
  equal : ∀ a b : Attributes, (a == b) = true ↔ a.Same b
  equivalence : Equivalence Attributes.Same
  /-- Comparing sets says which comes first, if they are not equal. -/
  lesser : ∀ a b : Attributes, compare a b = .lt ↔ a.Precedes b
  greater : ∀ a b : Attributes, compare a b = .gt ↔ b.Precedes a
  alike : ∀ a b : Attributes, compare a b = .eq ↔ (a == b) = true
  trans : ∀ a b c : Attributes,
    (compare a b).isLE = true → (compare b c).isLE = true → (compare a c).isLE = true
  total : ∀ a b : Attributes, (compare a b).isLE = true ∨ (compare b a).isLE = true
  antisymm : ∀ a b : Attributes,
    (compare a b).isLE = true → (compare b a).isLE = true → (a == b) = true
  /-- Equal sets have one hash, and feed any hash function alike. -/
  hashed : ∀ a b : Attributes,
    (a == b) = true → hash a = hash b ∧ a.feed realBits = b.feed realBits
  /-- Comparing keys with one hash only finds what comparing all keys finds. -/
  searched : ∀ {ν δ : Type} [DecidableEq δ] (digest : List Token → δ) (t : Table Attributes ν)
    (k : Attributes), t.findAlike (fun a => digest (a.feed realBits)) k = t.find? k
  /-- Keys are found exactly if something was put under an equal key. -/
  stored : ∀ {ν : Type} (updates : List (Attributes × (Option ν → ν))) (k : Attributes),
    ((updates.foldl (fun t u => t.update u.1 u.2) Table.empty).find? k).isSome = true ↔
      ∃ u ∈ updates, (u.1 == k) = true
  /-- A stream has a series exactly of the sets that it was handed, with the summary of the
  measurements with equal sets. -/
  recorded : ∀ (c : StreamSettings α) (steps : List (StreamStep α)) (k : Attributes),
    let s := ((SynchronousStream.opened c).play steps).2
    let ms := StreamStep.measured steps
    ((s.series.find? k).isSome = true ↔ ∃ m ∈ ms, (s.settings.seriesOf m == k) = true) ∧
    ∀ e, s.series.find? k = some e →
      e.summary = s.settings.summaryOf (ms.filter fun m => s.settings.seriesOf m == k)
  /-- A call has an observation exactly of the sets that were observed, with the last value that was
  observed with an equal set. -/
  observed : ∀ (f : Feed) (observations : List (Observation α)) (n : Nat) (k : Attributes),
    n ∈ f.numbers → ∃ found, (f.gather observations).find? n = some found ∧
      found.find? k = ((observations.filter (f.fileUnder · == n)).filter
        (KeyMap.ofList ·.attributes == k)).getLast?.map (·.value)
  /-- A pass has a series exactly of the sets that observations come down to. -/
  passed : ∀ (c : StreamSettings α) (observations : Observations α) (time : Time) (k : Attributes),
    ((AsynchronousStream.aggregate c observations time).find? k).isSome = true ↔
      ∃ e ∈ observations.entries, ((AttributeFilter.applyOptional c.filter e.1).1 == k) = true

/-- Keys of series are lawful: equality, order and hash agree at every layer, whatever bits floats are
hashed by, so long as equal floats are hashed by the same. Equality of sets is that of their
attributes, an equivalence; the order is total, and tells apart exactly the sets that are not equal;
and equal sets feed hash functions alike. So at a set is found, with a search by hash as with any
other, what was put there under an equal set, and nothing else: in a stream the series of the
measurements with that set, and among observations the last one with it. -/
theorem keys_lawful (hbits : Consistent realBits) : LawfulKeys α realBits where
  equal _ _ := Attributes.beq_iff_same
  equivalence :=
    { refl := fun _ => Attributes.beq_iff_same.mp BEq.rfl
      symm := fun h => Attributes.beq_iff_same.mp (BEq.symm (Attributes.beq_iff_same.mpr h))
      trans := fun h h' => Attributes.beq_iff_same.mp
        (BEq.trans (Attributes.beq_iff_same.mpr h) (Attributes.beq_iff_same.mpr h')) }
  lesser _ _ := Attributes.compare_eq_lt_iff
  greater _ _ := Attributes.compare_eq_gt_iff
  alike a b := (beq_iff_eq (a := compare a b)).symm
  trans _ _ _ := Std.TransOrd.isLE_trans
  total a b := by
    rw [Std.OrientedOrd.eq_swap (a := b)]
    cases compare a b <;> simp
  antisymm a b hab hba :=
    (beq_iff_eq (a := compare a b)).mpr (Std.OrientedCmp.isLE_antisymm hab hba)
  hashed a b h := ⟨hash_eq h, (Attributes.beq_iff_same.mp h).feed_eq hbits⟩
  searched digest t k := Table.findAlike_eq_find?
    (fun _ _ h => congrArg digest ((Attributes.beq_iff_same.mp h).feed_eq hbits)) t k
  stored := Table.isSome_find?_updates
  recorded c steps k := by
    intro s ms
    have hfound : (s.series.find? k).map (·.summary) =
        if s.settings.occurs k ms then some (s.settings.total ms k) else none :=
      SynchronousStream.find?_series_play c steps k
    have hoccurs : s.settings.occurs k ms = true ↔
        ∃ m ∈ ms, (s.settings.seriesOf m == k) = true := List.any_eq_true
    rw [← hoccurs]
    constructor
    · rw [← Option.isSome_map (f := Series.summary), hfound]
      split <;> simp [*]
    · intro e he
      rw [he] at hfound
      split at hfound
      · exact Option.some.inj hfound
      · cases hfound
  observed f observations n k hn :=
    ⟨_, (f.find?_gather observations n).trans (if_pos hn), find?_merged _ k⟩
  passed := AsynchronousStream.isSome_find?_aggregate

/-- Zeros of either sign and whatever is not a number make no difference between sets, given in any
order: a series is found at a set that equals the one that was measured. -/
theorem keys_lawful_zeros :
    let a : Attributes := .ofList [("ratio", .real 0), ("share", .real (0 / 0))]
    let b : Attributes := .ofList [("share", .real (0 / 0)), ("ratio", .real (-0))]
    let c : StreamSettings Int := ⟨.sum true, none, none, .delta, 0⟩
    let s := ((SynchronousStream.opened c).play [.record 0 ⟨5, a, 1⟩, .collect 2]).2
    Consistent canonicalBits ∧ (a == b) = true ∧ compare a b = .eq ∧ hash a = hash b ∧
      a.feed canonicalBits = b.feed canonicalBits ∧ (s.series.find? b).isSome = true := by
  intro a b c s
  have hlawful : LawfulKeys Int canonicalBits := keys_lawful consistent_canonicalBits
  have hab : (a == b) = true := by decide +kernel
  refine ⟨consistent_canonicalBits, hab, (hlawful.alike a b).mpr hab, (hlawful.hashed a b hab).1,
    (hlawful.hashed a b hab).2, (hlawful.recorded c _ b).1.mpr ?_⟩
  exact ⟨⟨5, a, 1⟩, List.mem_singleton_self _, hab⟩

end Metering
