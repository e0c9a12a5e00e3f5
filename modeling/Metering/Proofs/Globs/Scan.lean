import Metering.Proofs.Globs.Language
import Metering.View.Pattern

/-!
# Scanning with One Star

A name can be matched by a scan with one position in the pattern and one in the name that remembers
the latest star: when bytes differ, the scan goes back to that star and lets it take one more byte.
Positions move backwards then, but never past a star, so the scan ends; it asks for no byte that is
not there, and its answer is whether the name is in the language of the pattern.
-/

namespace Metering.Glob

/-! ## The scan -/

/-- Where a scan stands. -/
structure Cursor where
  pattern : Nat
  name : Nat
  /-- The latest star passed, and where in the name the bytes that it takes end. -/
  star : Option (Nat × Nat)

/-- What comes of one turn of a scan. -/
inductive Turn where
  | goOn (c : Cursor)
  | answer (matched : Bool)
  /-- Something past the end of the pattern or of the name is asked for. -/
  | astray

namespace Cursor

/-- Where a scan begins. -/
def start : Cursor := ⟨0, 0, none⟩

/-- One turn of the scan of a name. -/
def turn (pattern name : List UInt8) (c : Cursor) : Turn :=
  if c.name < name.length then
    match name[c.name]? with
    | none => .astray
    | some b =>
      if pattern[c.pattern]? = some Glob.star then
        .goOn ⟨c.pattern + 1, c.name, some (c.pattern, c.name)⟩
      else if pattern[c.pattern]? = some anyByte ∨ pattern[c.pattern]? = some b then
        .goOn { c with pattern := c.pattern + 1, name := c.name + 1 }
      else
        match c.star with
        | some (s, n) => .goOn ⟨s + 1, n + 1, some (s, n + 1)⟩
        | none => .answer false
  else if c.pattern ≤ pattern.length then
    .answer ((pattern.drop c.pattern).all (· == Glob.star))
  else .astray

end Cursor

/-- A scan that comes to an end, with its answer, or with none if it goes astray. -/
inductive Scans (pattern name : List UInt8) : Cursor → Option Bool → Prop where
  | answer {c : Cursor} {matched : Bool} (h : c.turn pattern name = .answer matched) :
      Scans pattern name c (some matched)
  | astray {c : Cursor} (h : c.turn pattern name = .astray) : Scans pattern name c none
  | goOn {c c' : Cursor} {outcome : Option Bool} (h : c.turn pattern name = .goOn c')
      (rest : Scans pattern name c' outcome) : Scans pattern name c outcome

variable {pattern name : List UInt8}

/-- A scan has one outcome. -/
theorem Scans.unique {c : Cursor} {o o' : Option Bool} (h : Scans pattern name c o)
    (h' : Scans pattern name c o') : o = o' := by
  induction h with
  | answer hturn | astray hturn =>
    cases h' with
    | answer hturn' | astray hturn' | goOn hturn' _ => cases hturn.symm.trans hturn' <;> rfl
  | goOn hturn _ ih =>
    cases h' with
    | answer hturn' | astray hturn' => rw [hturn] at hturn'; cases hturn'
    | goOn hturn' hrest => rw [hturn] at hturn'; cases hturn'; exact ih hrest

/-! ## One turn -/

namespace Cursor

/-- A cursor whose positions are in range, and whose star is behind them. -/
structure Sound (pattern name : List UInt8) (c : Cursor) : Prop where
  pattern_le : c.pattern ≤ pattern.length
  name_le : c.name ≤ name.length
  star_lt : ∀ {s n}, c.star = some (s, n) → s < pattern.length ∧ n ≤ c.name

/-- What is left to do, with what counts most first: the places that the latest star may still move
to, the bytes of the name, and those of the pattern. -/
def left (pattern name : List UInt8) (c : Cursor) : Nat × Nat × Nat :=
  (c.star.elim (name.length + 1) fun s => name.length - s.2, name.length - c.name,
    pattern.length - c.pattern)

/-- The answer that is due: the stretch in hand is matched to its end, and if it differs, the latest
star takes one more byte. -/
def due (pattern name : List UInt8) (c : Cursor) : Bool :=
  match stretch (pattern.drop c.pattern) (name.drop c.name) with
  | .fits pattern' name' => afterStar pattern' name'
  | .ended rest => rest.all (· == Glob.star)
  | .differs => c.star.elim false fun s => afterStar (pattern.drop (s.1 + 1)) (name.drop (s.2 + 1))

/-- What a turn is good for: it answers what is due, or leaves less to do and the same answer due. -/
inductive Leads (pattern name : List UInt8) (c : Cursor) : Turn → Prop where
  | answer : Leads pattern name c (.answer (c.due pattern name))
  | goOn {c' : Cursor} (sound : c'.Sound pattern name)
      (less : Prod.Lex (· < ·) (Prod.Lex (· < ·) (· < ·)) (c'.left pattern name) (c.left pattern name))
      (due : c'.due pattern name = c.due pattern name) : Leads pattern name c (.goOn c')

theorem due_start : start.due pattern name = accepts pattern name := by
  simp only [due, start, List.drop_zero, accepts]
  rfl

/-- When a star has just been passed or moved, what is due is what is behind it. -/
theorem due_afterStar (s n : Nat) :
    (⟨s + 1, n, some (s, n)⟩ : Cursor).due pattern name =
      afterStar (pattern.drop (s + 1)) (name.drop n) := by
  simp only [due]
  split
  · rename_i h
    exact (afterStar_of_fits h).symm
  · rename_i h
    exact (afterStar_of_ended h).symm
  · rename_i h
    have hn : n < name.length := by
      by_contra hn
      rw [List.drop_eq_nil_of_le (Nat.le_of_not_lt hn)] at h
      cases hpattern : pattern.drop (s + 1) <;> rw [hpattern] at h <;> cases h
    rw [List.drop_eq_getElem_cons hn] at h ⊢
    exact (afterStar_of_differs h).symm

variable {c : Cursor}

theorem Sound.start : start.Sound pattern name := 
  ⟨Nat.zero_le _, Nat.zero_le _, fun h => by cases h⟩

/-- At a star, the star is remembered, and takes nothing yet. -/
theorem Sound.leads_star (h : c.Sound pattern name) (hname : c.name < name.length)
    (hstar : pattern[c.pattern]? = some Glob.star) :
    Leads pattern name c (.goOn ⟨c.pattern + 1, c.name, some (c.pattern, c.name)⟩) := by
  obtain ⟨hpattern, hp⟩ := List.getElem?_eq_some_iff.mp hstar
  refine .goOn ⟨hpattern, h.name_le, ?_⟩ ?_ ?_
  · rintro s n ⟨⟩
    exact ⟨hpattern, Nat.le_refl _⟩
  · -- The new star may move to no more places than the old one, and the pattern has a byte less.
    simp only [left, Prod.lex_def, Option.elim_some]
    cases hlatest : c.star with
    | none => simp only [Option.elim_none]; omega
    | some s =>
      have := (h.star_lt hlatest).2
      simp only [Option.elim_some, true_and]
      omega
  · rw [due_afterStar, due, List.drop_eq_getElem_cons hpattern, List.drop_eq_getElem_cons hname, hp]
    simp [stretch]

/-- A byte that fits is taken up. -/
theorem Sound.leads_fits (h : c.Sound pattern name) (hname : c.name < name.length)
    (hstar : pattern[c.pattern]? ≠ some Glob.star)
    (hfits : pattern[c.pattern]? = some anyByte ∨ pattern[c.pattern]? = some name[c.name]) :
    Leads pattern name c (.goOn { c with pattern := c.pattern + 1, name := c.name + 1 }) := by
  have hpattern : c.pattern < pattern.length := by
    rcases hfits with hfits | hfits <;> exact (List.getElem?_eq_some_iff.mp hfits).1
  simp only [List.getElem?_eq_getElem hpattern, Option.some.injEq, ne_eq] at hstar hfits
  refine .goOn ⟨hpattern, hname, fun hlatest => ?_⟩ ?_ ?_
  · obtain ⟨hs, hn⟩ := h.star_lt hlatest
    exact ⟨hs, Nat.le_succ_of_le hn⟩
  · exact .right _ (.left _ _ (Nat.sub_succ_lt_self _ _ hname))
  · simp only [due]
    rw [List.drop_eq_getElem_cons hpattern, List.drop_eq_getElem_cons hname, stretch, if_neg hstar,
      if_pos hfits]

/-- When bytes differ, the latest star takes one more. -/
theorem Sound.leads_back (h : c.Sound pattern name) (hname : c.name < name.length) {s n : Nat}
    (hlatest : c.star = some (s, n))
    (hdiffers : stretch (pattern.drop c.pattern) (name.drop c.name) = .differs) :
    Leads pattern name c (.goOn ⟨s + 1, n + 1, some (s, n + 1)⟩) := by
  obtain ⟨hs, hn⟩ := h.star_lt hlatest
  refine .goOn ⟨hs, by simp only; omega, ?_⟩ ?_ ?_
  · rintro s n ⟨⟩
    exact ⟨hs, Nat.le_refl _⟩
  · simp only [left, Prod.lex_def, hlatest, Option.elim_some]
    omega
  · rw [due_afterStar]
    simp only [due, hdiffers, hlatest, Option.elim_some]

/-- A sound cursor never goes astray. -/
theorem Sound.leads (h : c.Sound pattern name) : Leads pattern name c (c.turn pattern name) := by
  unfold turn
  by_cases hname : c.name < name.length
  · rw [if_pos hname, List.getElem?_eq_getElem hname]
    by_cases hstar : pattern[c.pattern]? = some Glob.star
    · simp only [if_pos hstar]
      exact h.leads_star hname hstar
    by_cases hfits : pattern[c.pattern]? = some anyByte ∨ pattern[c.pattern]? = some name[c.name]
    · simp only [if_neg hstar, if_pos hfits]
      exact h.leads_fits hname hstar hfits
    -- The pattern is at its end or has a byte that does not fit.
    have hdiffers : stretch (pattern.drop c.pattern) (name.drop c.name) = .differs := by
      rw [List.drop_eq_getElem_cons hname]
      by_cases hpattern : c.pattern < pattern.length
      · simp only [List.getElem?_eq_getElem hpattern, Option.some.injEq] at hstar hfits
        rw [List.drop_eq_getElem_cons hpattern, stretch, if_neg hstar, if_neg hfits]
      · rw [List.drop_eq_nil_of_le (Nat.le_of_not_lt hpattern), stretch]
    simp only [if_neg hstar, if_neg hfits]
    cases hlatest : c.star with
    | some s => exact h.leads_back hname hlatest hdiffers
    | none =>
      have hdue : c.due pattern name = false := by
        simp only [due, hdiffers, hlatest, Option.elim_none]
      exact hdue ▸ .answer
  · -- The name has ended, and what is left of the pattern decides.
    have hdue : c.due pattern name = (pattern.drop c.pattern).all (· == Glob.star) := by
      rw [due, List.drop_eq_nil_of_le (Nat.le_of_not_lt hname), stretch]
    rw [if_neg hname, if_pos h.pattern_le, ← hdue]
    exact .answer

/-! ## Whole scans -/

/-- The scan from a sound cursor ends with the answer that is due. -/
theorem Sound.scans (c : Cursor) (h : c.Sound pattern name) :
    Scans pattern name c (some (c.due pattern name)) := by
  have hleads := h.leads
  cases hturn : c.turn pattern name with
  | astray => rw [hturn] at hleads; cases hleads
  | answer matched =>
    rw [hturn] at hleads
    cases hleads
    exact .answer hturn
  | goOn c' =>
    rw [hturn] at hleads
    cases hleads with
    | goOn sound less due => exact .goOn hturn (due ▸ Sound.scans c' sound)
termination_by c.left pattern name
decreasing_by exact less

end Cursor

/-- The scan of a name has one outcome: it ends, never astray, and answers whether the pattern
matches. -/
theorem scans_iff {outcome : Option Bool} :
    Scans pattern name .start outcome ↔ outcome = some (accepts pattern name) := by
  have hstart : Cursor.start.Sound pattern name := Cursor.Sound.start
  have hscans := Cursor.Sound.scans .start hstart
  rw [Cursor.due_start] at hscans
  constructor
  · intro h
    exact h.unique hscans
  · rintro rfl
    exact hscans

end Metering.Glob

namespace Metering.NamePattern

open Glob

/-! ## Texts -/

/-- The bytes of a text. -/
def bytes (s : String) : List UInt8 := s.toUTF8.data.toList

theorem bytes_inj {s t : String} : bytes s = bytes t ↔ s = t := by
  rw [bytes, bytes, Array.toList_inj, ← String.toByteArray_inj, ByteArray.ext_iff]
  rfl

/-- Only a character below 128 is encoded with a byte below 128, its own number. -/
theorem mem_utf8EncodeChar {b : UInt8} (hb : b.toNat < 128) {c : Char} :
    b ∈ String.utf8EncodeChar c ↔ c.toNat = b.toNat := by
  show b ∈ String.utf8EncodeChar c ↔ c.val.toNat = b.toNat
  rw [String.utf8EncodeChar.eq_1]
  split_ifs <;>
  · simp only [List.mem_cons, ← UInt8.toNat_inj, UInt8.toNat_ofNat', List.not_mem_nil, or_false]
    omega

theorem mem_bytes {b : UInt8} (hb : b.toNat < 128) {c : Char} (hc : c.toNat = b.toNat) {s : String} :
    b ∈ bytes s ↔ c ∈ s.toList := by
  have hbytes : bytes s = s.toList.flatMap String.utf8EncodeChar := by
    rw [bytes, String.toUTF8, ← String.utf8Encode_toList, List.utf8Encode, List.data_toByteArray]
  rw [hbytes, List.mem_flatMap]
  constructor
  · rintro ⟨d, hd, hmem⟩
    have hdc : d.toNat = c.toNat := ((mem_utf8EncodeChar hb).mp hmem).trans hc.symm
    exact Char.toNat_inj.mp hdc ▸ hd
  · intro hmem
    exact ⟨c, hmem, (mem_utf8EncodeChar hb).mpr hc⟩

/-- Whatever a text is taken for, it accepts the texts whose bytes are in the language of its own. -/
theorem accepts_ofString (pattern name : String) :
    (ofString pattern).accepts name = true ↔ bytes name ∈ language (bytes pattern) := by
  unfold ofString
  split
  · exact accepts_iff
  · rename_i hplain
    -- Without a star or a question mark, the only text of the language is the pattern.
    have hstar : star ∈ bytes pattern ↔ '*' ∈ pattern.toList := mem_bytes (by decide) rfl
    have hany : anyByte ∈ bytes pattern ↔ '?' ∈ pattern.toList := mem_bytes (by decide) rfl
    have hbytes : ∀ b ∈ bytes pattern, b ≠ star ∧ b ≠ anyByte := by
      simp only [List.any_eq_true, Bool.or_eq_true, beq_iff_eq, not_exists, not_and, not_or] at hplain
      intro b hb
      constructor
      · rintro rfl
        exact (hplain _ (hstar.mp hb)).1 rfl
      · rintro rfl
        exact (hplain _ (hany.mp hb)).2 rfl
    rw [mem_language_of_plain hbytes, bytes_inj, accepts, beq_iff_eq]
    exact eq_comm

end Metering.NamePattern

namespace Metering.Glob

/-- Every scan of a name ends without going astray and answers whether the pattern matches, which it
does exactly if the name is in the language of the pattern. So a text, taken for a name or for a
glob, accepts exactly the texts of its language. -/
theorem matching_exact :
    (∀ pattern name : List UInt8,
      (∀ outcome, Scans pattern name .start outcome ↔ outcome = some (accepts pattern name)) ∧
        (accepts pattern name = true ↔ name ∈ language pattern)) ∧
      ∀ pattern name : String, (NamePattern.ofString pattern).accepts name = true ↔
        NamePattern.bytes name ∈ language (NamePattern.bytes pattern) :=
  ⟨fun _ _ => ⟨fun _ => scans_iff, accepts_iff⟩, NamePattern.accepts_ofString⟩

end Metering.Glob
