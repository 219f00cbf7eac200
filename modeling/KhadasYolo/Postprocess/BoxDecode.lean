import KhadasYolo.Lib.FloatConvert
import KhadasYolo.Lib.RunningMax

/-!
# Decoding of a box

The distance of a side is the mean of sixteen bins under a softmax of their logits.
The exponential is approximated through the bit pattern of its value, and one maximum
is subtracted from the logits of all four sides.
-/

namespace KhadasYolo.Postprocess

open RunningMax

universe u

section Source

variable {F : Type u} [FloatConvert F]

/-- The conversion to `int32_t`. Its result is open for a value out of range; the
instruction of the target saturates. -/
def toInt32 (value : F) : Int32 :=
  Int32.ofInt (max (-2 ^ 31) (min (2 ^ 31 - 1) (FloatConvert.truncate value)))

/-- The conversion has a defined result. -/
def InRange (value : F) : Prop :=
  -2 ^ 31 ≤ FloatConvert.truncate value ∧ FloatConvert.truncate value < 2 ^ 31

/-- The integer in the union of `fast_expf`. -/
def fastExpfBits (x : F) : Int32 := toInt32 (12102203.0 * x) + 1065353216

def fastExpf (x : F) : F :=
  if fastExpfBits x > 0 then FloatConvert.ofBits (fastExpfBits x).toUInt32 else 0.0

/-- The maximum of all sixty-four logits. -/
def xMax (x : Nat → Int8) : Int8 := ((List.range' 1 63).map x).foldl larger (x 0)

/-- The argument of `fast_expf` for a logit. -/
def shifted (x : Nat → Int8) (scale : F) (i : Nat) : F :=
  FloatConvert.ofInt ((x i).toInt - (xMax x).toInt) * scale

/-- The accumulators of a side. -/
structure Side (F : Type u) where
  sum : F
  output : F

/-- The inner loop for one side. -/
def decodeSide (x : Nat → Int8) (scale : F) (s : Nat) : Side F :=
  (List.range 16).foldl
    (fun side k =>
      let e := fastExpf (shifted x scale (s * 16 + k))
      ⟨side.sum + e, side.output + FloatOps.ofNat k * e⟩)
    ⟨0.0, 0.0⟩

def decodeBox4 (x : Nat → Int8) (scale : F) (s : Nat) : F :=
  (decodeSide x scale s).output / (decodeSide x scale s).sum

/-- What the decoding relies on. -/
structure WellDefined (x : Nat → Int8) (scale : F) : Prop where
  /-- a side has a positive sum, with a positive term -/
  positive : ∀ s < 4, FloatOps.less 0.0 (decodeSide x scale s).sum = true ∧
    ∃ k < 16, FloatOps.less 0.0 (fastExpf (shifted x scale (s * 16 + k))) = true
  inRange : ∀ i < 64, InRange (12102203.0 * shifted x scale i)
  distance : ∀ s < 4, FloatConvert.lessEq 0.0 (decodeBox4 x scale s) = true ∧
    FloatConvert.lessEq (decodeBox4 x scale s) 15.0 = true
  /-- the comment on `fast_expf` -/
  bits : ∀ i < 64, fastExpfBits (shifted x scale i) > 0

/-- The integer is the one of `1.0` less the product's, as long as that is in range. -/
theorem fastExpfBits_toInt {x : F} (nonpos : FloatConvert.truncate (12102203.0 * x) ≤ 0) :
    (fastExpfBits x).toInt =
      max (-2 ^ 31) (FloatConvert.truncate (12102203.0 * x)) + 1065353216 := by
  have converted : (toInt32 (12102203.0 * x)).toInt =
      max (-2 ^ 31) (FloatConvert.truncate (12102203.0 * x)) := by
    rw [toInt32, min_eq_right (by omega)]
    exact Int32.toInt_ofInt_of_le (le_max_left _ _) (by omega)
  have low : -2 ^ 31 ≤ max (-2 ^ 31) (FloatConvert.truncate (12102203.0 * x)) := le_max_left _ _
  have one : (1065353216 : Int32).toInt = 1065353216 := by decide
  rw [fastExpfBits, Int32.toInt_add, converted, one, Int.bmod_eq_of_le (by omega) (by omega)]

end Source

/-! ## The maximum -/

section Maximum

variable {x : Nat → Int8} {i : Nat}

theorem mem_logits (below : i < 64) : x i = x 0 ∨ x i ∈ (List.range' 1 63).map x := by
  rcases Nat.eq_zero_or_pos i with rfl | later
  · exact .inl rfl
  · exact .inr (List.mem_map_of_mem (List.mem_range'_1.mpr ⟨later, below⟩))

theorem le_xMax (below : i < 64) : x i ≤ xMax x := by
  apply le_foldl_larger_iff.mpr
  rcases mem_logits below with first | later
  · exact .inl (Int8.le_of_eq first)
  · exact .inr ⟨x i, later, Int8.le_refl _⟩

theorem exists_xMax (x : Nat → Int8) : ∃ i < 64, x i = xMax x := by
  have attained : xMax x ≤ xMax x := Int8.le_refl _
  rcases le_foldl_larger_iff.mp attained with first | ⟨value, later, above⟩
  · exact ⟨0, by decide, Int8.le_antisymm (le_xMax (by decide)) first⟩
  · rcases List.mem_map.mp later with ⟨i, among, rfl⟩
    have below : i < 64 := (List.mem_range'_1.mp among).2
    exact ⟨i, below, Int8.le_antisymm (le_xMax below) above⟩

end Maximum

/-! ## Exact arithmetic -/

section Exact

variable {v : ℝ}

/-- The bits of a value that is not positive. -/
theorem bits_toInt {x : ℝ} (nonpos : x ≤ 0) :
    (fastExpfBits x).toInt = max (-2 ^ 31) ⌈12102203 * x⌉ + 1065353216 := by
  have scaled : 12102203 * x ≤ 0 := mul_nonpos_of_nonneg_of_nonpos (by norm_num) nonpos
  have ceil : ⌈12102203 * x⌉ ≤ 0 := Int.ceil_le.mpr (by exact_mod_cast scaled)
  have constant : (12102203.0 : ℝ) = 12102203 := by norm_num
  have part : FloatConvert.truncate (12102203.0 * x) = ⌈12102203 * x⌉ := by
    rw [constant, FloatConvert.truncate_of_nonpos scaled]
  rw [fastExpfBits_toInt (by omega), part]

theorem bits_pos_iff {x : ℝ} (nonpos : x ≤ 0) :
    fastExpfBits x > 0 ↔ -(12102203 * x) < 1065353216 := by
  have zero : (0 : Int32).toInt = 0 := rfl
  rw [gt_iff_lt, Int32.lt_iff_toInt_lt, zero, bits_toInt nonpos, neg_lt]
  have above : -1065353216 < ⌈12102203 * x⌉ ↔ (-1065353216 : ℝ) < 12102203 * x := by
    rw [Int.lt_ceil]
    norm_num
  rw [← above]
  omega

theorem inRange_iff {x : ℝ} (nonpos : x ≤ 0) :
    InRange (12102203.0 * x) ↔ -(12102203 * x) < 2 ^ 31 + 1 := by
  have scaled : 12102203 * x ≤ 0 := mul_nonpos_of_nonneg_of_nonpos (by norm_num) nonpos
  have constant : (12102203.0 : ℝ) = 12102203 := by norm_num
  have ceil : ⌈12102203 * x⌉ ≤ 0 := Int.ceil_le.mpr (by exact_mod_cast scaled)
  have above : -2 ^ 31 - 1 < ⌈12102203 * x⌉ ↔ (-2 ^ 31 - 1 : ℝ) < 12102203 * x := by
    rw [Int.lt_ceil]
    norm_num
  rw [InRange, constant, FloatConvert.truncate_of_nonpos scaled, neg_lt, neg_add', ← above]
  omega

theorem fastExpf_pos_iff {x : ℝ} : 0 < fastExpf x ↔ fastExpfBits x > 0 := by
  rw [fastExpf]
  split
  next positive =>
    refine iff_of_true ?_ positive
    have zero : (0 : Int32).toInt = 0 := rfl
    have toInt := Int32.lt_iff_toInt_lt.mp positive
    rw [zero] at toInt
    have below := (fastExpfBits x).toInt_lt
    have bits : (fastExpfBits x).toUInt32.toNat = (fastExpfBits x).toInt.toNat :=
      Int32.toNat_toUInt32_of_le (Int32.le_of_lt positive)
    apply FloatConvert.patternValue_pos <;> omega
  next absent =>
    refine iff_of_false ?_ absent
    norm_num

theorem fastExpf_nonneg (x : ℝ) : 0 ≤ fastExpf x := by
  by_cases positive : fastExpfBits x > 0
  · exact (fastExpf_pos_iff.mpr positive).le
  · rw [fastExpf, if_neg positive]
    norm_num

/-- The argument of a logit is not positive. -/
theorem shifted_nonpos {x : Nat → Int8} {scale : ℝ} (positive : 0 < scale) {i : Nat}
    (below : i < 64) : shifted x scale i ≤ 0 := by
  have largest := Int8.le_iff_toInt_le.mp (le_xMax (x := x) below)
  exact mul_nonpos_of_nonpos_of_nonneg (Int.cast_nonpos.mpr (by omega)) positive.le

/-- How far a logit is below the others, as its bits see it. -/
theorem shifted_bound_iff {x : Nat → Int8} {scale bound : ℝ} (positive : 0 < scale) (i : Nat) :
    -(12102203 * shifted x scale i) < bound ↔
      ∀ j < 64, 12102203 * scale * ((x j).toInt - (x i).toInt) < bound := by
  have expand : -(12102203 * shifted x scale i) =
      12102203 * scale * ((xMax x).toInt - (x i).toInt) := by
    have same : shifted x scale i = (((x i).toInt - (xMax x).toInt : Int) : ℝ) * scale := rfl
    rw [same, Int.cast_sub]
    ring
  rw [expand]
  constructor
  · intro low j below
    have largest : ((x j).toInt : ℝ) ≤ (xMax x).toInt :=
      Int.cast_le.mpr (Int8.le_iff_toInt_le.mp (le_xMax below))
    refine lt_of_le_of_lt ?_ low
    gcongr
  · intro low
    rcases exists_xMax x with ⟨j, below, same⟩
    rw [← same]
    exact low j below

/-! ## One side -/

/-- The accumulators are sums over the bins. -/
theorem decodeSide_eq (x : Nat → Int8) (scale : ℝ) (s : Nat) :
    decodeSide x scale s =
      ⟨((List.range 16).map fun k => fastExpf (shifted x scale (s * 16 + k))).sum,
        ((List.range 16).map fun (k : Nat) =>
          (k : ℝ) * fastExpf (shifted x scale (s * 16 + k))).sum⟩ := by
  have fold : ∀ (bins : List Nat) (sum output : ℝ),
      bins.foldl (fun (side : Side ℝ) k =>
          let e := fastExpf (shifted x scale (s * 16 + k))
          ⟨side.sum + e, side.output + FloatOps.ofNat k * e⟩) ⟨sum, output⟩ =
        ⟨sum + (bins.map fun k => fastExpf (shifted x scale (s * 16 + k))).sum,
          output + (bins.map fun (k : Nat) =>
            (k : ℝ) * fastExpf (shifted x scale (s * 16 + k))).sum⟩ := by
    intro bins
    induction bins with
    | nil => simp
    | cons k bins ih =>
        intro sum output
        rw [List.foldl_cons, ih, List.map_cons, List.map_cons, List.sum_cons, List.sum_cons,
          ← add_assoc, ← add_assoc]
        rfl
  have zero : (0.0 : ℝ) = 0 := by norm_num
  rw [decodeSide, zero, fold, zero_add, zero_add]

variable (x : Nat → Int8) (scale : ℝ) (s : Nat)

theorem sum_pos_iff : 0 < (decodeSide x scale s).sum ↔
    ∃ k < 16, 0 < fastExpf (shifted x scale (s * 16 + k)) := by
  rw [decodeSide_eq]
  constructor
  · intro positive
    by_contra absent
    simp only [not_exists, not_and, not_lt] at absent
    refine absurd positive (not_lt.mpr (le_of_eq (List.sum_eq_zero ?_)))
    rw [List.forall_mem_map]
    exact fun k among => le_antisymm (absent k (List.mem_range.mp among)) (fastExpf_nonneg _)
  · rintro ⟨k, below, positive⟩
    refine lt_of_lt_of_le positive (List.single_le_sum ?_ _ ?_)
    · rw [List.forall_mem_map]
      exact fun k _ => fastExpf_nonneg _
    · exact List.mem_map_of_mem (f := fun k => fastExpf (shifted x scale (s * 16 + k)))
        (List.mem_range.mpr below)

/-- A mean of bins is between the first and the last of them. -/
theorem distance_mem (positive : 0 < (decodeSide x scale s).sum) :
    0 ≤ decodeBox4 x scale s ∧ decodeBox4 x scale s ≤ 15 := by
  rw [decodeBox4]
  constructor
  · refine div_nonneg ?_ positive.le
    rw [decodeSide_eq]
    apply List.sum_nonneg
    rw [List.forall_mem_map]
    exact fun k _ => mul_nonneg k.cast_nonneg (fastExpf_nonneg _)
  · rw [div_le_iff₀ positive, decodeSide_eq, ← List.sum_map_mul_left]
    apply List.sum_le_sum
    intro k among
    have last : (k : ℝ) ≤ 15 := by exact_mod_cast Nat.le_of_lt_succ (List.mem_range.mp among)
    exact mul_le_mul_of_nonneg_right last (fastExpf_nonneg _)

variable {scale}

/-- A side with a bin far above its others has the distance of that bin. -/
theorem decodeBox4_single (bin : Nat) (positive : 0 < scale) (side : s < 4)
    (inside : bin < 16) (near : fastExpfBits (shifted x scale (s * 16 + bin)) > 0)
    (far : ∀ k < 16, k ≠ bin → 1065353216 ≤
      12102203 * scale * ((x (s * 16 + bin)).toInt - (x (s * 16 + k)).toInt)) :
    decodeBox4 x scale s = bin := by
  have vanishes : ∀ k ∈ Finset.range 16, k ≠ bin →
      fastExpf (shifted x scale (s * 16 + k)) = 0 := by
    intro k among other
    have below : s * 16 + k < 64 := by
      have within := Finset.mem_range.mp among
      omega
    refine le_antisymm (not_lt.mp fun above => ?_) (fastExpf_nonneg _)
    rw [fastExpf_pos_iff, bits_pos_iff (shifted_nonpos positive below),
      shifted_bound_iff positive] at above
    exact absurd (above (s * 16 + bin) (by omega))
      (not_lt.mpr (far k (Finset.mem_range.mp among) other))
  have among : bin ∈ Finset.range 16 := Finset.mem_range.mpr inside
  have sum : (decodeSide x scale s).sum = fastExpf (shifted x scale (s * 16 + bin)) := by
    rw [decodeSide_eq]
    exact Finset.sum_eq_single_of_mem (f := fun k => fastExpf (shifted x scale (s * 16 + k)))
      bin among vanishes
  have output : (decodeSide x scale s).output =
      bin * fastExpf (shifted x scale (s * 16 + bin)) := by
    rw [decodeSide_eq]
    refine Finset.sum_eq_single_of_mem (f := fun (k : Nat) =>
      (k : ℝ) * fastExpf (shifted x scale (s * 16 + k))) bin among fun k within other => ?_
    rw [vanishes k within other, mul_zero]
  rw [decodeBox4, output, sum, mul_div_cancel_right₀ _ (fastExpf_pos_iff.mpr near).ne']

/-- The decoding is well defined exactly when no logit is too far below another one, as
its bits see it. A side has a positive sum when this holds of one of its own logits, and
the conversions stay in range a little longer. -/
theorem decode_box4_defined_iff (positive : 0 < scale) :
    (WellDefined x scale ↔ ∀ i < 64, ∀ j < 64,
        12102203 * scale * ((x j).toInt - (x i).toInt) < 1065353216) ∧
      (∀ s < 4, 0 < (decodeSide x scale s).sum ↔ ∃ k < 16, ∀ j < 64,
        12102203 * scale * ((x j).toInt - (x (s * 16 + k)).toInt) < 1065353216) ∧
      (∀ s < 4, 0 < (decodeSide x scale s).sum →
        0 ≤ decodeBox4 x scale s ∧ decodeBox4 x scale s ≤ 15) ∧
      ((∀ i < 64, InRange (12102203.0 * shifted x scale i)) ↔ ∀ i < 64, ∀ j < 64,
        12102203 * scale * ((x j).toInt - (x i).toInt) < 2 ^ 31 + 1) := by
  have term : ∀ i < 64, (fastExpfBits (shifted x scale i) > 0 ↔ ∀ j < 64,
      12102203 * scale * ((x j).toInt - (x i).toInt) < 1065353216) := fun i below =>
    (bits_pos_iff (shifted_nonpos positive below)).trans (shifted_bound_iff positive i)
  have range : ∀ i < 64, (InRange (12102203.0 * shifted x scale i) ↔ ∀ j < 64,
      12102203 * scale * ((x j).toInt - (x i).toInt) < 2 ^ 31 + 1) := fun i below =>
    (inRange_iff (shifted_nonpos positive below)).trans (shifted_bound_iff positive i)
  have within : ∀ s < 4, ∀ k < 16, s * 16 + k < 64 := by omega
  have sum : ∀ s < 4, (0 < (decodeSide x scale s).sum ↔ ∃ k < 16, ∀ j < 64,
      12102203 * scale * ((x j).toInt - (x (s * 16 + k)).toInt) < 1065353216) := by
    intro s side
    rw [sum_pos_iff]
    refine exists_congr fun k => and_congr_right fun bin => ?_
    rw [fastExpf_pos_iff, term _ (within s side k bin)]
  have zero : (0.0 : ℝ) = 0 := by norm_num
  have last : (15.0 : ℝ) = 15 := by norm_num
  refine ⟨⟨fun defined i below => (term i below).mp (defined.bits i below), fun close => ?_⟩,
    sum, fun s _ => distance_mem x scale s, forall₂_congr range⟩
  have sums : ∀ s < 4, 0 < (decodeSide x scale s).sum := fun s side =>
    (sum s side).mpr ⟨0, by decide, close _ (within s side 0 (by decide))⟩
  refine ⟨fun s side => ?_, fun i below => (range i below).mpr fun j other => ?_,
    fun s side => ?_, fun i below => (term i below).mpr (close i below)⟩
  · rw [zero]
    refine ⟨decide_eq_true (sums s side), ?_⟩
    rcases (sum_pos_iff x scale s).mp (sums s side) with ⟨k, bin, above⟩
    exact ⟨k, bin, decide_eq_true above⟩
  · exact (close i below j other).trans (by norm_num)
  · rcases distance_mem x scale s (sums s side) with ⟨low, high⟩
    rw [zero, last]
    exact ⟨decide_eq_true low, decide_eq_true high⟩

end Exact

namespace Example

/-- One logit of the first side has a peak, the other logits are as low as they can be. -/
def peak (i : Nat) : Int8 := if i = 0 then 127 else -128

end Example

theorem decode_box4_defined_iff_peak :
    WellDefined Example.peak (0.25 : ℝ) ∧ 0 < (decodeSide Example.peak (0.25 : ℝ) 1).sum := by
  have near : ∀ i < 64, ∀ j < 64, 12102203 * (0.25 : ℝ) *
      ((Example.peak j).toInt - (Example.peak i).toInt) < 1065353216 := by
    intro i _ j _
    have low : (-128 : Int) ≤ (Example.peak i).toInt := (Example.peak i).le_toInt
    have high : (Example.peak j).toInt ≤ 127 := Int.lt_add_one_iff.mp (Example.peak j).toInt_lt
    have apart : ((Example.peak j).toInt : ℝ) - (Example.peak i).toInt ≤ 255 := by
      exact_mod_cast (show (Example.peak j).toInt - (Example.peak i).toInt ≤ 255 by omega)
    linarith
  have defined := decode_box4_defined_iff Example.peak (show (0 : ℝ) < 0.25 by norm_num)
  exact ⟨defined.1.mpr near,
    (defined.2.1 1 (by decide)).mpr ⟨0, by decide, near _ (by decide)⟩⟩

end KhadasYolo.Postprocess
