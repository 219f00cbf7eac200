import KhadasYolo.Lib.FloatConvert

/-!
# Quantised scores

The scores of a tensor are eight-bit codes of logits. A threshold on the probability
becomes one on the codes. Its conversion drops the fraction, so that the code of a
positive threshold is rounded down.
-/

namespace KhadasYolo.Postprocess

universe u

section Source

variable {F : Type u} [FloatConvert F]

/-- Every step is one of the format. The source goes on from `expf` in double precision
and rounds once. -/
def sigmoid (x : F) : F := 1.0 / (1.0 + FloatConvert.exp (-x))

/-- Here too the source computes in double precision around `logf`. -/
def unsigmoid (y : F) : F := -1.0 * FloatConvert.log (1.0 / y - 1.0)

/-- `__clip`. -/
def clip (val min max : F) : Int :=
  FloatConvert.truncate
    (if FloatConvert.lessEq val min then min
      else if FloatConvert.lessEq max val then max else val)

def qntF32ToAffine (f32 : F) (zp : Int32) (scale : F) : Int8 :=
  let dstVal := f32 / scale + FloatConvert.ofInt zp.toInt
  Int8.ofInt (clip dstVal (FloatConvert.ofInt (-128)) (FloatConvert.ofInt 127))

def deqntAffineToF32 (qnt : Int8) (zp : Int32) (scale : F) : F :=
  (FloatConvert.ofInt qnt.toInt - FloatConvert.ofInt zp.toInt) * scale

end Source

/-! ## Exact arithmetic -/

/-- The code of a logit, before it is clipped and rounded. -/
noncomputable def codeOf (logit : ℝ) (zp : Int32) (scale : ℝ) : ℝ := logit / scale + zp.toInt

section Exact

variable {logit scale : ℝ} {zp : Int32} {q : Int8}

/-- `sigmoid` is increasing. -/
theorem sigmoid_strictMono : StrictMono (sigmoid : ℝ → ℝ) := by
  intro x y before
  have one : (1.0 : ℝ) = 1 := by norm_num
  have value (x : ℝ) : sigmoid x = 1 / (1 + Real.exp (-x)) := by
    rw [← one]
    rfl
  have shrinks := Real.exp_lt_exp.mpr (neg_lt_neg before)
  rw [value, value]
  exact one_div_lt_one_div_of_lt (by positivity) (by linarith)

/-- A code stands for a logit above the threshold when it is above the exact code. -/
theorem le_deqnt_iff (positive : 0 < scale) :
    logit ≤ deqntAffineToF32 q zp scale ↔ codeOf logit zp scale ≤ q.toInt := by
  have same : deqntAffineToF32 q zp scale = ((q.toInt : ℝ) - zp.toInt) * scale := rfl
  rw [same, codeOf, ← div_le_iff₀ positive, le_sub_iff_add_le]

/-- The code of a threshold. -/
theorem qnt_toInt (logit : ℝ) (zp : Int32) (scale : ℝ) :
    (qntF32ToAffine logit zp scale).toInt =
      if codeOf logit zp scale ≤ 0 then max (-128) ⌈codeOf logit zp scale⌉
      else min 127 ⌊codeOf logit zp scale⌋ := by
  generalize code : codeOf logit zp scale = t
  have clipped : clip t ((-128 : Int) : ℝ) ((127 : Int) : ℝ) =
      if t ≤ 0 then max (-128) ⌈t⌉ else min 127 ⌊t⌋ := by
    have tests : clip t ((-128 : Int) : ℝ) ((127 : Int) : ℝ) =
        FloatConvert.truncate (if t ≤ ((-128 : Int) : ℝ) then ((-128 : Int) : ℝ)
          else if ((127 : Int) : ℝ) ≤ t then ((127 : Int) : ℝ) else t) := by
      simp only [clip, FloatConvert.lessEq, decide_eq_true_eq]
    rw [tests]
    by_cases low : t ≤ ((-128 : Int) : ℝ)
    · have nonpos : t ≤ 0 := low.trans (by norm_num)
      rw [if_pos low, if_pos nonpos, FloatConvert.truncate_intCast,
        max_eq_left (Int.ceil_le.mpr low)]
    · rw [if_neg low]
      by_cases high : ((127 : Int) : ℝ) ≤ t
      · have positive : ¬ t ≤ 0 := not_le.mpr (lt_of_lt_of_le (by norm_num) high)
        rw [if_pos high, if_neg positive, FloatConvert.truncate_intCast,
          min_eq_left (Int.le_floor.mpr high)]
      · rw [if_neg high]
        by_cases nonpos : t ≤ 0
        · have above : -128 < ⌈t⌉ := Int.lt_ceil.mpr (not_le.mp low)
          rw [if_pos nonpos, FloatConvert.truncate_of_nonpos nonpos, max_eq_right above.le]
        · have below : ⌊t⌋ < 127 := Int.floor_lt.mpr (not_le.mp high)
          rw [if_neg nonpos, FloatConvert.truncate_of_nonneg (not_le.mp nonpos).le,
            min_eq_right below.le]
  have inRange : -128 ≤ clip t ((-128 : Int) : ℝ) ((127 : Int) : ℝ) ∧
      clip t ((-128 : Int) : ℝ) ((127 : Int) : ℝ) ≤ 127 := by
    rw [clipped]
    split
    next nonpos =>
      have ceil : ⌈t⌉ ≤ 0 := Int.ceil_le.mpr (by exact_mod_cast nonpos)
      omega
    next positive =>
      have floor : 0 ≤ ⌊t⌋ := Int.le_floor.mpr (by exact_mod_cast (not_le.mp positive).le)
      omega
  rw [← clipped, qntF32ToAffine]
  have same : logit / scale + FloatConvert.ofInt zp.toInt = t := code
  rw [same]
  exact Int8.toInt_ofInt_of_le inRange.1 (Int.lt_add_one_of_le inRange.2)

/-- No code that stands for a logit above the threshold is lost. -/
theorem qnt_le_of_le_deqnt (positive : 0 < scale) (above : logit ≤ deqntAffineToF32 q zp scale) :
    qntF32ToAffine logit zp scale ≤ q := by
  rw [le_deqnt_iff positive] at above
  rw [Int8.le_iff_toInt_le, qnt_toInt]
  have low : -128 ≤ q.toInt := q.le_toInt
  split
  next => exact max_le low (Int.ceil_le.mpr above)
  next => exact (min_le_right _ _).trans (Int.cast_le.mp ((Int.floor_le _).trans above))

/-- The exact code of a threshold that the conversion keeps: it is not rounded down. -/
def Kept (code : ℝ) : Prop := code ≤ 0 ∨ (code ≤ 127 ∧ ∃ whole : Int, code = whole)

/-- The test on the codes is the test on the logits exactly when the code of the
threshold is not rounded down. -/
theorem qnt_le_iff_iff (positive : 0 < scale) :
    (∀ q : Int8, qntF32ToAffine logit zp scale ≤ q ↔ logit ≤ deqntAffineToF32 q zp scale) ↔
      Kept (codeOf logit zp scale) := by
  simp only [le_deqnt_iff positive, Int8.le_iff_toInt_le, qnt_toInt]
  generalize codeOf logit zp scale = t
  constructor
  · intro agree
    by_contra lost
    rw [Kept, not_or, not_and, not_le, not_exists] at lost
    rcases lost with ⟨positive, fraction⟩
    rw [if_neg (not_le.mpr positive)] at agree
    -- The rounded code itself passes the one test, and not the other.
    have floor : 0 ≤ ⌊t⌋ := Int.le_floor.mpr (by exact_mod_cast positive.le)
    have same : (Int8.ofInt (min 127 ⌊t⌋)).toInt = min 127 ⌊t⌋ :=
      Int8.toInt_ofInt_of_le (by omega) (by omega)
    have above := (agree (Int8.ofInt (min 127 ⌊t⌋))).mp same.ge
    rw [same] at above
    have whole : t = (⌊t⌋ : ℝ) :=
      le_antisymm (above.trans (Int.cast_le.mpr (min_le_right _ _))) (Int.floor_le t)
    exact fraction (above.trans (by exact_mod_cast min_le_left 127 ⌊t⌋)) ⌊t⌋ whole
  · rintro kept q
    have low : -128 ≤ q.toInt := q.le_toInt
    rcases kept with nonpos | ⟨fits, whole, rfl⟩
    · rw [if_pos nonpos, max_le_iff, Int.ceil_le]
      exact and_iff_right low
    · rw [Int.ceil_intCast, Int.floor_intCast, Int.cast_le]
      have small : whole ≤ 127 := by exact_mod_cast fits
      split
      next => exact (max_le_iff).trans (and_iff_right low)
      next => rw [min_eq_right small]

end Exact

end KhadasYolo.Postprocess
