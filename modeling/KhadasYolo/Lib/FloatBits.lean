import Mathlib

/-!
# Bit patterns of single-precision values

A program that sends a floating-point value copies its four bytes. The format is
a parameter with the two conversions and the one law a receiver relies on. Single
precision satisfies it.
-/

universe u

/-- A format whose values survive the trip through their bit pattern. -/
class FloatBits (F : Type u) where
  toBits : F → UInt32
  ofBits : UInt32 → F
  ofBits_toBits : ∀ value, ofBits (toBits value) = value

namespace FloatBits

instance single : FloatBits Float32 where
  toBits := Float32.toBits
  ofBits := Float32.ofBits
  ofBits_toBits := Float32.ofBits_toBits

end FloatBits
