import Mathlib.Computability.Language
import Metering.View.Glob

/-!
# The Language of a Glob

What a glob stands for is a language over bytes: the product of what its bytes stand for, one after
the other. Matching decides it, although after a star it only ever moves one stretch of the pattern
along the name and never looks at an earlier star again: wherever a later place would let the rest
match, the star in front of the rest can take up the bytes in between.
-/

namespace Metering.Glob

/-! ## The language -/

/-- What a byte of a pattern stands for. -/
def standsFor (b : UInt8) : Language UInt8 :=
  {bytes | if b = star then True else if b = anyByte then bytes.length = 1 else bytes = [b]}

/-- What a pattern stands for. -/
def language : List UInt8 → Language UInt8
  | [] => 1
  | b :: pattern => standsFor b * language pattern

/-- Whether a byte of a pattern that is no star stands for a byte of a name. -/
def Fits (p c : UInt8) : Prop := p ≠ star ∧ (p = anyByte ∨ p = c)

variable {p c : UInt8} {pattern pattern' name name' : List UInt8}

theorem mem_standsFor {bytes : List UInt8} :
    bytes ∈ standsFor p ↔
      if p = star then True else if p = anyByte then bytes.length = 1 else bytes = [p] := Iff.rfl

@[simp]
theorem mem_language_nil : name ∈ language [] ↔ name = [] := Language.mem_one ..

/-- A star takes up any bytes, so the rest of the pattern is matched by any end of the name. -/
theorem mem_language_star : name ∈ language (star :: pattern) ↔ ∃ m ∈ language pattern, m <:+ name := by
  simp only [language, Language.mem_mul, mem_standsFor, if_true, true_and]
  constructor
  · rintro ⟨taken, m, hm, rfl⟩
    exact ⟨m, hm, List.suffix_append ..⟩
  · rintro ⟨m, hm, taken, rfl⟩
    exact ⟨taken, m, hm, rfl⟩

/-- Any other byte takes up one byte that it stands for. -/
theorem mem_language_cons (hp : p ≠ star) :
    name ∈ language (p :: pattern) ↔ ∃ c m, name = c :: m ∧ Fits p c ∧ m ∈ language pattern := by
  simp only [language, Language.mem_mul, mem_standsFor, if_neg hp]
  constructor
  · rintro ⟨taken, htaken, m, hm, rfl⟩
    split at htaken
    · rename_i hany
      obtain ⟨c, rfl⟩ := List.length_eq_one_iff.mp htaken
      exact ⟨c, m, rfl, ⟨hp, .inl hany⟩, hm⟩
    · subst htaken
      exact ⟨p, m, rfl, ⟨hp, .inr rfl⟩, hm⟩
  · rintro ⟨c, m, rfl, ⟨-, hfits⟩, hm⟩
    refine ⟨[c], ?_, m, hm, rfl⟩
    split
    · rfl
    · rename_i hany
      rw [hfits.resolve_left hany]

theorem Fits.mem_language_cons (h : Fits p c) :
    c :: name ∈ language (p :: pattern) ↔ name ∈ language pattern := by
  rw [Glob.mem_language_cons h.1]
  constructor
  · rintro ⟨d, m, heq, -, hm⟩
    obtain ⟨rfl, rfl⟩ := List.cons.inj heq
    exact hm
  · intro hname
    exact ⟨c, name, rfl, h, hname⟩

theorem not_mem_language_cons (hp : p ≠ star) (h : ¬ Fits p c) :
    c :: name ∉ language (p :: pattern) := by
  rw [mem_language_cons hp]
  rintro ⟨d, m, heq, hfits, -⟩
  obtain ⟨rfl, rfl⟩ := List.cons.inj heq
  exact h hfits

/-- Only stars stand for no byte at all. -/
theorem nil_mem_language : [] ∈ language pattern ↔ pattern.all (· == star) = true := by
  induction pattern with
  | nil => simp
  | cons p pattern ih =>
    by_cases hp : p = star
    · subst hp
      simp [mem_language_star, ih]
    · simp [mem_language_cons hp, hp]

/-- A pattern without a star or a question mark stands for itself. -/
theorem mem_language_of_plain (h : ∀ b ∈ pattern, b ≠ star ∧ b ≠ anyByte) :
    name ∈ language pattern ↔ name = pattern := by
  induction pattern generalizing name with
  | nil => exact mem_language_nil
  | cons p pattern ih =>
    obtain ⟨hp, hpattern⟩ := List.forall_mem_cons.mp h
    rw [mem_language_cons hp.1]
    constructor
    · rintro ⟨c, m, rfl, hfits, hm⟩
      rw [hfits.2.resolve_left hp.2, (ih hpattern).mp hm]
    · rintro rfl
      exact ⟨p, pattern, rfl, ⟨hp.1, .inr rfl⟩, (ih hpattern).mpr rfl⟩

/-! ## Stretches -/

section Stretches

variable {s t : List UInt8}

/-- A stretch that fits takes up its bytes one by one. -/
theorem mem_language_append (h : List.Forall₂ Fits s t) :
    t ++ name ∈ language (s ++ pattern) ↔ name ∈ language pattern := by
  induction h with
  | nil => rfl
  | cons hfits _ ih => exact hfits.mem_language_cons.trans ih

/-- When a stretch takes up a whole name, only stars may follow. -/
theorem mem_language_append_self (h : List.Forall₂ Fits s t) :
    t ∈ language (s ++ pattern) ↔ pattern.all (· == star) = true := by
  have hnil : t ++ [] ∈ language (s ++ pattern) ↔ [] ∈ language pattern := mem_language_append h
  rwa [List.append_nil, nil_mem_language] at hnil

/-- Wherever a stretch without a star is matched, it takes up as many bytes as it has. -/
theorem exists_drop_mem_language (hs : star ∉ s) (h : name ∈ language (s ++ pattern)) :
    s.length ≤ name.length ∧ name.drop s.length ∈ language pattern := by
  induction s generalizing name with
  | nil => exact ⟨Nat.zero_le _, h⟩
  | cons p s ih =>
    obtain ⟨hp, hs⟩ := not_or.mp (mt List.mem_cons.mpr hs)
    obtain ⟨c, m, rfl, -, hm⟩ := (mem_language_cons (Ne.symm hp)).mp h
    obtain ⟨hlength, hdrop⟩ := ih hs hm
    exact ⟨Nat.succ_le_succ hlength, hdrop⟩

theorem not_mem_of_fits (h : List.Forall₂ Fits s t) : star ∉ s := by
  induction h with
  | nil => exact List.not_mem_nil
  | cons hfits _ ih => exact mt List.mem_cons.mp (not_or.mpr ⟨Ne.symm hfits.1, ih⟩)

/-- A first stretch that fits ends at a star. -/
theorem exists_of_stretch_fits (h : stretch pattern name = .fits pattern' name') :
    ∃ s t, pattern = s ++ star :: pattern' ∧ name = t ++ name' ∧ List.Forall₂ Fits s t := by
  fun_induction stretch pattern name with
  | case1 | case2 | case5 => cases h
  | case3 pattern c name =>
    cases h
    exact ⟨[], [], rfl, rfl, .nil⟩
  | case4 p pattern c name hstar hfits ih =>
    obtain ⟨s, t, rfl, rfl, hst⟩ := ih h
    exact ⟨p :: s, c :: t, rfl, rfl, .cons ⟨hstar, hfits⟩ hst⟩

/-- When the name ends first, all of it has been taken up. -/
theorem exists_of_stretch_ended {rest : List UInt8} (h : stretch pattern name = .ended rest) :
    ∃ s, pattern = s ++ rest ∧ List.Forall₂ Fits s name := by
  fun_induction stretch pattern name with
  | case1 pattern =>
    cases h
    exact ⟨[], rfl, .nil⟩
  | case2 | case3 | case5 => cases h
  | case4 p pattern c name hstar hfits ih =>
    obtain ⟨s, rfl, hst⟩ := ih h
    exact ⟨p :: s, rfl, .cons ⟨hstar, hfits⟩ hst⟩

/-- A first stretch that differs is matched by no name that begins like this one. -/
theorem not_mem_of_stretch_differs (h : stretch pattern name = .differs) :
    name ∉ language pattern := by
  fun_induction stretch pattern name with
  | case1 | case3 => cases h
  | case2 => simp
  | case4 p pattern c name hstar hfits ih =>
    rw [Fits.mem_language_cons ⟨hstar, hfits⟩]
    exact ih h
  | case5 p pattern c name hstar hdiffers =>
    exact not_mem_language_cons hstar fun hfits => hdiffers hfits.2

end Stretches

/-! ## Matching -/

/-- Behind a star, the first place where a stretch fits is as good as any later one: the star at its
end takes up the bytes in between. -/
theorem mem_language_star_of_fits (h : stretch pattern name = .fits pattern' name') :
    name ∈ language (star :: pattern) ↔ name' ∈ language (star :: pattern') := by
  obtain ⟨s, t, rfl, rfl, hst⟩ := exists_of_stretch_fits h
  constructor
  · intro hname
    obtain ⟨m, hm, hsuffix⟩ := mem_language_star.mp hname
    -- At the later place the stretch takes up as many bytes, so what is left of the name there is
    -- an end of what is left of it here.
    obtain ⟨hlength, hdrop⟩ := exists_drop_mem_language (not_mem_of_fits hst) hm
    obtain ⟨m', hm', hsuffix'⟩ := mem_language_star.mp hdrop
    refine mem_language_star.mpr ⟨m', hm', hsuffix'.trans ?_⟩
    refine List.suffix_of_suffix_length_le
      ((List.drop_suffix ..).trans hsuffix) (List.suffix_append ..) ?_
    have hle := hsuffix.length_le
    have hst := hst.length_eq
    simp only [List.length_drop, List.length_append] at hle ⊢
    omega
  · intro hname'
    exact mem_language_star.mpr ⟨_, (mem_language_append hst).mpr hname', List.suffix_rfl⟩

/-- Behind a star, a stretch that is as long as the name is matched by the whole name or by no end of
it. -/
theorem mem_language_star_of_ended {rest : List UInt8} (h : stretch pattern name = .ended rest) :
    name ∈ language (star :: pattern) ↔ rest.all (· == star) = true := by
  obtain ⟨s, rfl, hst⟩ := exists_of_stretch_ended h
  rw [← mem_language_append_self hst, mem_language_star]
  constructor
  · rintro ⟨m, hm, hsuffix⟩
    obtain ⟨hlength, -⟩ := exists_drop_mem_language (not_mem_of_fits hst) hm
    exact hsuffix.eq_of_length_le (hst.length_eq ▸ hlength) ▸ hm
  · intro hname
    exact ⟨name, hname, List.suffix_rfl⟩

/-- Behind a star, a stretch that does not fit here is matched further on or not at all. -/
theorem mem_language_star_of_differs (h : stretch pattern (c :: name) = .differs) :
    c :: name ∈ language (star :: pattern) ↔ name ∈ language (star :: pattern) := by
  rw [mem_language_star, mem_language_star]
  constructor
  · rintro ⟨m, hm, hsuffix⟩
    refine ⟨m, hm, (List.suffix_cons_iff.mp hsuffix).resolve_left ?_⟩
    rintro rfl
    exact not_mem_of_stretch_differs h hm
  · rintro ⟨m, hm, hsuffix⟩
    exact ⟨m, hm, hsuffix.trans (List.suffix_cons ..)⟩

theorem afterStar_of_fits (h : stretch pattern name = .fits pattern' name') :
    afterStar pattern name = afterStar pattern' name' := by
  rw [afterStar.eq_def]
  split <;> simp_all

theorem afterStar_of_ended {rest : List UInt8} (h : stretch pattern name = .ended rest) :
    afterStar pattern name = rest.all (· == star) := by
  rw [afterStar.eq_def]
  split <;> simp_all

theorem afterStar_of_differs (h : stretch pattern (c :: name) = .differs) :
    afterStar pattern (c :: name) = afterStar pattern name := by
  rw [afterStar.eq_def]
  split <;> simp_all

theorem afterStar_iff : afterStar pattern name = true ↔ name ∈ language (star :: pattern) := by
  induction pattern, name using afterStar.induct with
  | case1 pattern name pattern' name' h ih =>
    rw [afterStar_of_fits h, mem_language_star_of_fits h]
    exact ih
  | case2 pattern name rest h => rw [afterStar_of_ended h, mem_language_star_of_ended h]
  | case3 pattern h => cases pattern <;> cases h
  | case4 pattern c name h ih =>
    rw [afterStar_of_differs h, mem_language_star_of_differs h]
    exact ih

/-- A pattern matches the names of its language. -/
theorem accepts_iff : accepts pattern name = true ↔ name ∈ language pattern := by
  unfold accepts
  split
  · rename_i pattern' name' h
    obtain ⟨s, t, rfl, rfl, hst⟩ := exists_of_stretch_fits h
    exact afterStar_iff.trans (mem_language_append hst).symm
  · rename_i rest h
    obtain ⟨s, rfl, hst⟩ := exists_of_stretch_ended h
    exact (mem_language_append_self hst).symm
  · rename_i h
    exact iff_of_false Bool.false_ne_true (not_mem_of_stretch_differs h)

end Metering.Glob
