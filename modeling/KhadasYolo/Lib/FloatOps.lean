import Mathlib.Analysis.SpecialFunctions.Complex.Arg
import Mathlib.Analysis.SpecialFunctions.Trigonometric.Basic

/-!
# Floating-point operations as a parameter

Programs that accumulate floating-point values are modelled over any type with
the operations they call. No algebraic law is assumed: rounding, overflow and
unordered values are whatever the instance says they are. Two instances are
provided: single precision, and the real numbers as exact arithmetic.
-/

universe u

/-- The operations of one floating-point format. Comparison is the Boolean
result of the machine operation, so an unordered pair compares false. -/
class FloatOps (F : Type u) extends Add F, Mul F, Div F where
  ofNat : Nat → F
  less : F → F → Bool
  cos : F → F
  sin : F → F
  pi : F

/-- The operations of programs that also subtract, convert integers, take roots and
write decimal constants. -/
class FloatMath (F : Type u) extends FloatOps F, Sub F, OfScientific F where
  ofInt : Int → F
  sqrt : F → F
  abs : F → F
  atan2 : F → F → F

namespace FloatOps

instance single : FloatOps Float32 where
  ofNat := Float32.ofNat
  less := Float32.lt
  cos := Float32.cos
  sin := Float32.sin
  -- the double constant, narrowed
  pi := (3.14159265358979323846 : Float).toFloat32

instance singleMath : FloatMath Float32 where
  ofInt := Float32.ofInt
  sqrt := Float32.sqrt
  abs := Float32.abs
  atan2 := Float32.atan2

noncomputable instance exact : FloatOps ℝ where
  ofNat := Nat.cast
  less left right := decide (left < right)
  cos := Real.cos
  sin := Real.sin
  pi := Real.pi

/-- Exact arithmetic with the further operations. It is an instance only where it is said
to be one, so that the constants of other modules stay those of the real numbers. -/
@[reducible] noncomputable def exactMath : FloatMath ℝ where
  ofInt := Int.cast
  sqrt := Real.sqrt
  abs := abs
  atan2 y x := Complex.arg ⟨x, y⟩

section Folds

variable {F : Type u} [FloatOps F]

/-- Keep the larger value, replacing it only when the comparison holds. -/
def raise (held value : F) : F := if less held value then value else held

/-- Keep the smaller value, replacing it only when the comparison holds. -/
def lower (held value : F) : F := if less value held then value else held

/-- The running sum of a list in the order of the list. -/
def sumFrom (start : F) (values : List F) : F := values.foldl (· + ·) start

end Folds

/-- In exact arithmetic the order of a running sum does not matter. -/
theorem sumFrom_eq (start : ℝ) (values : List ℝ) :
    sumFrom start values = start + values.sum := by
  induction values generalizing start with
  | nil => simp [sumFrom]
  | cons first rest ih =>
      have tail := ih (start + first)
      simp only [sumFrom, List.foldl_cons, List.sum_cons] at tail ⊢
      rw [tail, add_assoc]

/-- In exact arithmetic a running sum that does not notice its first value
started with zero. -/
theorem eq_zero_of_sumFrom_cons {start value : ℝ} {values : List ℝ}
    (same : sumFrom start values = sumFrom start (value :: values)) :
    value = 0 := by
  simp only [sumFrom_eq, List.sum_cons] at same
  linarith

end FloatOps
