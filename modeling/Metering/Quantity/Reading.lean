/-!
# Readings

The forms in which a measured value is given, and the float each stands for. Whole numbers go to the nearest float,
a tie to the even one; single-precision floats and durations are converted as well.
-/

namespace Metering

/-- A measured value as it is given. -/
inductive Reading where
  | double (x : Float)
  /-- A float that is first rounded to single precision. -/
  | single (x : Float)
  | integer (n : Int)
  /-- Whole seconds and nanoseconds; a billion nanoseconds carry into a second. -/
  | duration (seconds nanos : Nat)

namespace Reading

/-- The float a reading stands for. A duration counts seconds. -/
def toFloat : Reading → Float
  | double x => x
  | single x => x.toFloat32.toFloat
  | integer n => Float.ofInt n
  | duration seconds nanos =>
    Float.ofNat (seconds + nanos / 1000000000) + Float.ofNat (nanos % 1000000000) / 1000000000

end Reading

end Metering
