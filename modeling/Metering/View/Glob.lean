/-!
# Glob patterns

Patterns over bytes in which `*` stands for any bytes, `?` for one byte, and every other byte for itself.

A pattern is matched stretch by stretch: the bytes up to the next star either fit where the name stands or they do
not, and after a star they are tried at every later place until they fit. Once a stretch has fitted, no earlier
star is looked at again, since the next star can take up whatever an earlier one left.
-/

namespace Metering.Glob

/-- The byte of `*`. -/
def star : UInt8 := 42

/-- The byte of `?`. -/
def anyByte : UInt8 := 63

/-- What comes of matching the pattern's first stretch, the bytes before its first star. -/
inductive Stretch where
  /-- The stretch fits; the pattern after the star and the rest of the name are still to be matched. -/
  | fits (pattern name : List UInt8)
  /-- The name ended, with this much of the pattern left. -/
  | ended (pattern : List UInt8)
  | differs

/-- Matches the first stretch of a pattern at the start of a name. -/
def stretch : List UInt8 → List UInt8 → Stretch
  | pattern, [] => .ended pattern
  -- Something of the name is left over.
  | [], _ :: _ => .differs
  | p :: pattern, c :: name =>
    if p = star then .fits pattern (c :: name)
    else if p = anyByte ∨ p = c then stretch pattern name
    else .differs

theorem stretch_fits_length {pattern name pattern' name' : List UInt8}
    (h : stretch pattern name = .fits pattern' name') : pattern'.length < pattern.length := by
  fun_induction stretch pattern name with
  | case1 => simp at h
  | case2 => simp at h
  | case3 => simp at h; simp [h]
  | case4 p pattern c name _ _ ih => have := ih h; simp; omega
  | case5 => simp at h

/-- Whether a pattern that has just passed a star matches some rest of the name. -/
def afterStar (pattern name : List UInt8) : Bool :=
  match _h : stretch pattern name, name with
  | .fits pattern' name', _ => afterStar pattern' name'
  -- Stars that are left over stand for nothing.
  | .ended rest, _ => rest.all (· == star)
  | .differs, [] => false
  -- The star takes one more byte.
  | .differs, _ :: name => afterStar pattern name
termination_by (pattern.length, name.length)
decreasing_by
  · exact Prod.Lex.left _ _ (stretch_fits_length _h)
  · exact Prod.Lex.right _ (by simp)

/-- Whether a pattern matches the whole name. -/
def accepts (pattern name : List UInt8) : Bool :=
  match stretch pattern name with
  | .fits pattern' name' => afterStar pattern' name'
  | .ended rest => rest.all (· == star)
  | .differs => false

end Metering.Glob
