import KhadasYolo.Lib.FloatOps
import Mathlib.Analysis.SpecialFunctions.Log.Basic

/-!
# Conversions of a floating-point format

Programs that quantise and reinterpret floating-point values need more of a format:
an ordering test, the exponential and its inverse, the conversion to integers, which
drops the fraction, and the value of a bit pattern in single precision.
-/

universe u

class FloatConvert (F : Type u) extends FloatOps F, Sub F, Neg F, OfScientific F where
  ofInt : Int → F
  lessEq : F → F → Bool
  /-- the other operand of an unordered one -/
  fmin : F → F → F
  fmax : F → F → F
  exp : F → F
  log : F → F
  /-- The integer part. What a machine returns for a value out of the range of the
  integer type is not said here. -/
  truncate : F → Int
  ofBits : UInt32 → F

namespace FloatConvert

instance single : FloatConvert Float32 where
  ofInt := Float32.ofInt
  lessEq := Float32.le
  fmin first second :=
    if first.isNaN then second else if second.isNaN then first
    else if first.le second then first else second
  fmax first second :=
    if first.isNaN then second else if second.isNaN then first
    else if first.le second then second else first
  exp := Float32.exp
  log := Float32.log
  truncate value := value.toModel.toInt64.toInt
  ofBits := Float32.ofBits

/-- The value of a finite bit pattern in single precision. -/
noncomputable def patternValue (bits : UInt32) : ℝ :=
  let mantissa : ℝ := (bits.toNat % 2 ^ 23 : Nat)
  let exponent : Nat := bits.toNat / 2 ^ 23 % 2 ^ 8
  let magnitude : ℝ :=
    if exponent = 0 then mantissa * 2 ^ (-149 : Int)
    else (2 ^ 23 + mantissa) * 2 ^ ((exponent : Int) - 150)
  if bits.toNat < 2 ^ 31 then magnitude else -magnitude

noncomputable instance exact : FloatConvert ℝ where
  ofInt := Int.cast
  lessEq left right := decide (left ≤ right)
  fmin := min
  fmax := max
  exp := Real.exp
  log := Real.log
  truncate value := if 0 ≤ value then ⌊value⌋ else ⌈value⌉
  ofBits := patternValue

/-! ## Exact conversions -/

section Exact

theorem truncate_of_nonneg {value : ℝ} (nonneg : 0 ≤ value) : truncate value = ⌊value⌋ :=
  if_pos nonneg

theorem truncate_of_nonpos {value : ℝ} (nonpos : value ≤ 0) : truncate value = ⌈value⌉ := by
  rcases nonpos.eq_or_lt with rfl | negative
  · rw [truncate_of_nonneg le_rfl, Int.floor_zero, Int.ceil_zero]
  · exact if_neg (not_le.mpr negative)

@[simp] theorem truncate_intCast (value : Int) : truncate (value : ℝ) = value := by
  rcases le_total 0 (value : ℝ) with nonneg | nonpos
  · rw [truncate_of_nonneg nonneg, Int.floor_intCast]
  · rw [truncate_of_nonpos nonpos, Int.ceil_intCast]

/-- A pattern with a set bit and without a sign has a positive value. -/
theorem patternValue_pos {bits : UInt32} (set : 0 < bits.toNat)
    (unsigned : bits.toNat < 2 ^ 31) : 0 < patternValue bits := by
  rw [patternValue, if_pos unsigned]
  split
  next subnormal =>
    have below : bits.toNat / 2 ^ 23 < 2 ^ 8 := by omega
    have fraction : 0 < bits.toNat % 2 ^ 23 := by
      rw [Nat.mod_eq_of_lt below] at subnormal
      omega
    exact mul_pos (Nat.cast_pos.mpr fraction) (by positivity)
  next => positivity

end Exact

end FloatConvert
