import KhadasYolo.Lib.SingleConversion
import KhadasYolo.Postprocess.BoxDecode

/-!
# Decoding of a box in single precision

The decoding as the machine rounds it. The exponential is at most one, so the sums of a
side stay finite, and every rounded step moves their quotient by a few parts in `2 ^ 24`.
A side with a logit close enough to the maximum has a positive sum, and its distance is
in the range of its bins up to that rounding. Any other side divides zero by zero.
-/

namespace KhadasYolo.Postprocess

open SinglePrecision Float.Model Float.Model.UnpackedFloat

/-! ## The argument of the exponential -/

/-- The product in `fast_expf` is above the one that makes its integer zero. -/
def Close (x : Nat → Int8) (scale : Float32) (i : Nat) : Prop :=
  FloatOps.less (-1065353216.0) (12102203.0 * shifted x scale i) = true

instance (x : Nat → Int8) (scale : Float32) : DecidablePred (Close x scale) := fun _ =>
  inferInstanceAs (Decidable (_ = true))

/-- A scale: a positive number. -/
structure Scale (scale : Float32) : Prop where
  positive : FloatOps.less 0.0 scale = true
  finite : scale.isFinite = true

section Exponential

variable {x : Nat → Int8} {scale : Float32} {i : Nat}

theorem Scale.unpack (sized : Scale scale) :
    ∃ m e positive, scale.toModel.unpack = .finite .positive m e positive := by
  have less : FloatOps.less 0.0 scale =
      ((0.0 : Float32).toModel.unpack.compare scale.toModel.unpack == some .lt) :=
    Bool.decide_eq_true
  have zero : (0.0 : Float32).toModel.unpack = .zero .positive := rfl
  have positive := sized.positive
  have finite : scale.toModel.unpack.isFinite = true := sized.finite
  rw [less, zero] at positive
  revert positive finite
  generalize scale.toModel.unpack = value
  intro positive finite
  cases value with
  | infinity => cases finite
  | notANumber => cases finite
  | zero => cases positive
  | finite sign m e above =>
      cases sign with
      | negative => cases positive
      | positive => exact ⟨m, e, above, rfl⟩

theorem shifted_nonpositive (sized : Scale scale) (below : i < 64) :
    Nonpositive (shifted x scale i).toModel.unpack := by
  have largest := Int8.le_iff_toInt_le.mp (le_xMax (x := x) below)
  have low := (x i).le_toInt
  have high := (xMax x).toInt_lt
  rcases sized.unpack with ⟨m, e, positive, value⟩
  have product : (shifted x scale i).toModel = .pack (UnpackedFloat.mul .binary32
      (Float32.ofInt ((x i).toInt - (xMax x).toInt)).toModel.unpack scale.toModel.unpack) := rfl
  rw [product, value]
  exact ((ofInt_nonpositive (by omega) (by omega)).mul m e positive).pack

theorem product_nonpositive (sized : Scale scale) (below : i < 64) :
    Nonpositive (12102203.0 * shifted x scale i).toModel.unpack := by
  have factor : (12102203.0 : Float32).toModel.unpack =
      .finite .positive 12102203 0 (by decide) := rfl
  have product : (12102203.0 * shifted x scale i).toModel = .pack (UnpackedFloat.mul .binary32
      (12102203.0 : Float32).toModel.unpack (shifted x scale i).toModel.unpack) := rfl
  rw [product, factor]
  exact ((shifted_nonpositive sized below).mul_left _ _ _).pack

/-- The conversion is in range exactly when the product is. -/
theorem inRange_iff_le (sized : Scale scale) (below : i < 64) :
    InRange (12102203.0 * shifted x scale i) ↔
      FloatConvert.lessEq (-2147483648.0) (12102203.0 * shifted x scale i) = true := by
  have bound : (-2147483648.0 : Float32).toModel.unpack =
      .finite .negative (2 ^ 23) (8 : Nat) (by decide) := rfl
  have part := (toInt64_bound (product_nonpositive (x := x) sized below) (by decide) (by decide)
    (by decide) bound).1
  have most := toInt64_nonpos (product_nonpositive (x := x) sized below)
  exact ⟨fun inside => part.mpr inside.1, fun le =>
    ⟨part.mp le, Int.lt_of_le_of_lt most (by decide)⟩⟩

/-- The integer of `fast_expf` is at most the one of `1.0`, and positive for a close logit. -/
theorem bits_rounded (sized : Scale scale) (below : i < 64) :
    (fastExpfBits (shifted x scale i)).toInt ≤ 127 * 2 ^ 23 ∧
      (fastExpfBits (shifted x scale i) > 0 ↔ Close x scale i) := by
  have bound : (-1065353216.0 : Float32).toModel.unpack =
      .finite .negative (127 * 2 ^ 17) (6 : Nat) (by decide) := rfl
  have most : FloatConvert.truncate (12102203.0 * shifted x scale i) ≤ 0 :=
    toInt64_nonpos (product_nonpositive sized below)
  have close : Close x scale i ↔
      -1065353216 < FloatConvert.truncate (12102203.0 * shifted x scale i) :=
    (toInt64_bound (product_nonpositive sized below) (by decide) (by decide) (by decide) bound).2
  have zero : (0 : Int32).toInt = 0 := rfl
  rw [close, gt_iff_lt, Int32.lt_iff_toInt_lt, zero, fastExpfBits_toInt most]
  constructor <;> omega

/-- A term of the sums: at most one, and positive for a close logit. -/
theorem fastExpf_value (sized : Scale scale) (below : i < 64) :
    ∃ n, Value (fastExpf (shifted x scale i)) n ∧ n ≤ 2 ^ 149 ∧ (0 < n ↔ Close x scale i) := by
  rcases bits_rounded (x := x) sized below with ⟨upper, set⟩
  rw [← set, fastExpf]
  split
  next positive =>
    have pattern : (fastExpfBits (shifted x scale i)).toUInt32.toNat =
        (fastExpfBits (shifted x scale i)).toInt.toNat :=
      Int32.toNat_toUInt32_of_le (Int32.le_of_lt positive)
    have nonneg := Int32.lt_iff_toInt_lt.mp positive
    have zero : (0 : Int32).toInt = 0 := rfl
    have most : (fastExpfBits (shifted x scale i)).toUInt32.toNat ≤ 127 * 2 ^ 23 := by omega
    rcases value_ofBits most with ⟨n, value, bounds, nonzero⟩
    exact ⟨n, value, bounds, iff_of_true (nonzero (by omega)) positive⟩
  next absent => exact ⟨0, .zero, Nat.zero_le _, iff_of_false (Nat.lt_irrefl 0) absent⟩

theorem term_rounded_iff (sized : Scale scale) (below : i < 64) :
    FloatOps.less 0.0 (fastExpf (shifted x scale i)) = true ↔ Close x scale i := by
  rcases fastExpf_value (x := x) sized below with ⟨n, value, _, positive⟩
  have least : Value 0.0 0 := .zero
  exact (least.lt_iff value).trans positive

/-- The maximum is close. -/
theorem close_xMax (sized : Scale scale) : ∃ i < 64, x i = xMax x ∧ Close x scale i := by
  rcases exists_xMax x with ⟨i, below, same⟩
  rcases sized.unpack with ⟨m, e, positive, value⟩
  refine ⟨i, below, same, ?_⟩
  have difference : shifted x scale i = Float32.ofInt 0 * scale := by
    rw [shifted, same, Int.sub_self]
    rfl
  have product : (Float32.ofInt 0 * scale).toModel =
      .pack (UnpackedFloat.mul .binary32 (.zero .positive) scale.toModel.unpack) := rfl
  have model : (Float32.ofInt 0 * scale).toModel = (0.0 : Float32).toModel := by
    rw [product, value]
    rfl
  have zero : shifted x scale i = 0.0 := difference.trans (congrArg Float32.ofModel model)
  rw [Close, zero]
  decide +kernel

end Exponential

/-! ## One side -/

/-- The accumulators after `count` terms of at most one: their sizes, and the weighted sum
against the plain one. -/
structure Accumulated (count : Nat) (side : Side Float32) (a b : Nat) : Prop where
  sum : Value side.sum a
  output : Value side.output b
  sum_le : a ≤ 2 ^ (150 + 2 * count)
  output_le : b ≤ 2 ^ (155 + 2 * count)
  ordered : (b : ℚ) ≤ (15 : Nat) * growth ^ (count + 1) * a

/-- Rounding at most doubles a number. -/
theorem nearest_le (n : Nat) : nearest n ≤ 2 * n := by
  have upper := (nearest_bounds n).1
  omega

theorem Accumulated.step {count : Nat} {side : Side Float32} {a b : Nat}
    (before : Accumulated count side a b) {e : Float32} {n k : Nat} (value : Value e n)
    (small : n ≤ 2 ^ 149) (bin : k ≤ 15) (few : count < 16) :
    Accumulated (count + 1) ⟨side.sum + e, side.output + FloatOps.ofNat k * e⟩
      (nearest (a + n)) (nearest (b + nearest (k * n))) := by
  have weighted : k * n ≤ 15 * 2 ^ 149 := Nat.mul_le_mul bin small
  have term := nearest_le (k * n)
  have sum := nearest_le (a + n)
  have output := nearest_le (b + nearest (k * n))
  have sumMost : 2 ^ 150 ≤ 2 ^ (150 + 2 * count) ∧ 2 ^ (150 + 2 * count) ≤ 2 ^ 182 :=
    ⟨Nat.pow_le_pow_right (by decide) (by omega), Nat.pow_le_pow_right (by decide) (by omega)⟩
  have outputMost : 2 ^ 155 ≤ 2 ^ (155 + 2 * count) ∧ 2 ^ (155 + 2 * count) ≤ 2 ^ 187 :=
    ⟨Nat.pow_le_pow_right (by decide) (by omega), Nat.pow_le_pow_right (by decide) (by omega)⟩
  have sumNext : 2 ^ (150 + 2 * (count + 1)) = 4 * 2 ^ (150 + 2 * count) := by
    rw [show 150 + 2 * (count + 1) = 150 + 2 * count + 2 by omega, Nat.pow_add, Nat.mul_comm]
  have outputNext : 2 ^ (155 + 2 * (count + 1)) = 4 * 2 ^ (155 + 2 * count) := by
    rw [show 155 + 2 * (count + 1) = 155 + 2 * count + 2 by omega, Nat.pow_add, Nat.mul_comm]
  have sizes := before.sum_le
  have outputs := before.output_le
  refine ⟨before.sum.add value (by omega),
    before.output.add (value.ofNat_mul (by omega) (by omega)) (by omega), by omega, by omega, ?_⟩
  rw [pow_succ]
  exact mean_step bin (le_self_pow₀ one_le_growth (by omega)) before.ordered

section Sides

variable {x : Nat → Int8} {scale : Float32} {s : Nat}

/-- The loop over the bins keeps the proportion, and close logits make the sum positive. -/
theorem Accumulated.run (sized : Scale scale) (below : s < 4) (bins : List Nat)
    {count : Nat} {side : Side Float32} {a b : Nat} (before : Accumulated count side a b)
    (inside : ∀ k ∈ bins, k < 16) (few : count + bins.length ≤ 16) :
    ∃ a' b', Accumulated (count + bins.length)
        (bins.foldl
          (fun side k =>
            let e := fastExpf (shifted x scale (s * 16 + k))
            ⟨side.sum + e, side.output + FloatOps.ofNat k * e⟩)
          side) a' b' ∧
      (0 < a' ↔ 0 < a ∨ ∃ k ∈ bins, Close x scale (s * 16 + k)) := by
  induction bins generalizing count side a b with
  | nil => exact ⟨a, b, before, by simp⟩
  | cons k bins ih =>
      rw [List.length_cons] at few
      have bin := inside k List.mem_cons_self
      rcases fastExpf_value (x := x) sized (show s * 16 + k < 64 by omega) with
        ⟨n, value, small, positive⟩
      rcases ih (before.step value small (Nat.le_of_lt_succ bin) (by omega))
        (fun later among => inside later (List.mem_cons_of_mem k among)) (by omega) with
        ⟨a', b', after, grown⟩
      rw [List.foldl_cons, List.length_cons, show count + (bins.length + 1) =
        count + 1 + bins.length by omega]
      refine ⟨a', b', after, ?_⟩
      rw [grown, nearest_pos_iff, Nat.add_pos_iff_pos_or_pos, positive, List.exists_mem_cons_iff,
        or_assoc]

/-- The sums of a side. -/
theorem accumulated_side (sized : Scale scale) (below : s < 4) :
    ∃ a b, Accumulated 16 (decodeSide x scale s) a b ∧
      (0 < a ↔ ∃ k < 16, Close x scale (s * 16 + k)) := by
  have start : Accumulated 0 ⟨0.0, 0.0⟩ 0 0 :=
    ⟨.zero, .zero, Nat.zero_le _, Nat.zero_le _, by rw [Nat.cast_zero, mul_zero]⟩
  rcases start.run (x := x) sized below (List.range 16) (fun k => List.mem_range.mp)
    (Nat.le_refl 16) with ⟨a, b, sums, positive⟩
  refine ⟨a, b, sums, positive.trans ?_⟩
  simp only [Nat.lt_irrefl, false_or, List.mem_range]

theorem sum_rounded_iff (sized : Scale scale) (below : s < 4) :
    FloatOps.less 0.0 (decodeSide x scale s).sum = true ↔
      ∃ k < 16, Close x scale (s * 16 + k) := by
  rcases accumulated_side (x := x) sized below with ⟨a, b, sums, positive⟩
  have least : Value 0.0 0 := .zero
  exact (least.lt_iff sums.sum).trans positive

/-- The distance of a side with a close logit. -/
theorem distance_value (sized : Scale scale) (below : s < 4)
    (close : ∃ k < 16, Close x scale (s * 16 + k)) :
    ∃ c, Value (decodeBox4 x scale s) c ∧ c ≤ 15728745 * 2 ^ 129 := by
  rcases accumulated_side (x := x) sized below with ⟨a, b, sums, positive⟩
  have above : 0 < a := positive.mpr close
  have nonzero : (0 : ℚ) < a := Nat.cast_pos.mpr above
  have ordered : (b : ℚ) ≤ 15 * (1 + 3 / 10 ^ 6) * a := by
    have grown : growth ^ 17 ≤ 1 + 3 / 10 ^ 6 := by norm_num [growth]
    have proportion : (b : ℚ) ≤ 15 * growth ^ 17 * a := sums.ordered
    exact proportion.trans (by gcongr)
  have small : b ≤ 16 * a := by
    have cast : (b : ℚ) ≤ 16 * a := by linarith
    exact_mod_cast cast
  rcases sums.output.div sums.sum above small with ⟨c, quotient, bound⟩
  refine ⟨c, quotient, ?_⟩
  have cast : (2 ^ 23 * (c * a) : ℚ) ≤ (2 ^ 23 + 1) * (b * 2 ^ 149) + 2 ^ 23 * a := by
    exact_mod_cast bound
  have scaled : (c * a : ℚ) ≤ 15728745 * 2 ^ 129 * a := by linarith
  exact_mod_cast le_of_mul_le_mul_right scaled nonzero

theorem distance_rounded (sized : Scale scale) (below : s < 4)
    (close : ∃ k < 16, Close x scale (s * 16 + k)) :
    FloatConvert.lessEq 0.0 (decodeBox4 x scale s) = true ∧
      FloatConvert.lessEq (decodeBox4 x scale s) 15.0001 = true := by
  rcases distance_value sized below close with ⟨c, quotient, most⟩
  have least : Value 0.0 0 := .zero
  have limit : (15.0001 : Float32).toModel.unpack =
      .finite .positive 15728745 ((129 : Nat) - 149) (by decide) := rfl
  have last : Value 15.0001 (15728745 * 2 ^ 129) := by
    rw [Value, limit]
    exact .finite _ (by decide) (.inl (by decide)) (by decide)
  exact ⟨(least.le_iff quotient).mpr (Nat.zero_le c), (quotient.le_iff last).mpr most⟩

/-- A side without a close logit divides zero by zero. -/
theorem distance_isNaN_iff (sized : Scale scale) (below : s < 4) :
    (decodeBox4 x scale s).isNaN = true ↔ ¬ ∃ k < 16, Close x scale (s * 16 + k) := by
  refine ⟨fun nan close => ?_, fun far => ?_⟩
  · rcases distance_value sized below close with ⟨c, quotient, _⟩
    exact absurd (quotient.isNaN_eq.symm.trans nan) Bool.false_ne_true
  rcases accumulated_side (x := x) sized below with ⟨a, b, sums, positive⟩
  have none : a = 0 := Nat.eq_zero_of_not_pos fun above => far (positive.mp above)
  have nothing : b = 0 := by
    have ordered := sums.ordered
    rw [none, Nat.cast_zero, mul_zero] at ordered
    exact Nat.le_zero.mp (by exact_mod_cast ordered)
  have output := sums.output
  have sum := sums.sum
  rw [nothing] at output
  rw [none] at sum
  exact output.zero_div sum

end Sides

/-- A close logit has a positive term, and products in the range of the integers are
converted. The maximum of the logits is close; a side with a close logit has a positive sum,
and its distance is in the range of its bins up to rounding. -/
theorem decode_box4_rounded (x : Nat → Int8) {scale : Float32} (sized : Scale scale) :
    (∀ i < 64, Close x scale i → fastExpfBits (shifted x scale i) > 0 ∧
        FloatOps.less 0.0 (fastExpf (shifted x scale i)) = true) ∧
      (∀ i < 64, FloatConvert.lessEq (-2147483648.0) (12102203.0 * shifted x scale i) = true →
        InRange (12102203.0 * shifted x scale i)) ∧
      (∃ i < 64, x i = xMax x ∧ Close x scale i) ∧
      ∀ s < 4, (∃ k < 16, Close x scale (s * 16 + k)) →
        FloatOps.less 0.0 (decodeSide x scale s).sum = true ∧
          FloatConvert.lessEq 0.0 (decodeBox4 x scale s) = true ∧
          FloatConvert.lessEq (decodeBox4 x scale s) 15.0001 = true := by
  refine ⟨fun i below close => ⟨(bits_rounded sized below).2.mpr close,
      (term_rounded_iff sized below).mpr close⟩,
    fun i below => (inRange_iff_le sized below).mpr, close_xMax sized, fun s below close =>
      ⟨(sum_rounded_iff sized below).mpr close, distance_rounded sized below close⟩⟩

namespace Example

/-- The second side has one logit, of its last bin, just below the peak of the first. -/
def far (i : Nat) : Int8 := if i = 0 then 127 else if i = 31 then 125 else -128

end Example

theorem decode_box4_rounded_far : Close Example.far 0.1 31 ∧
    FloatOps.less 0.0 (decodeSide Example.far (0.1 : Float32) 1).sum = true ∧
    FloatConvert.lessEq 0.0 (decodeBox4 Example.far (0.1 : Float32) 1) = true ∧
    FloatConvert.lessEq (decodeBox4 Example.far (0.1 : Float32) 1) 15.0001 = true := by
  have close : Close Example.far 0.1 31 := by decide +kernel
  have sized : Scale 0.1 := ⟨by decide +kernel, by decide +kernel⟩
  exact ⟨close, (decode_box4_rounded Example.far sized).2.2.2 1 (by decide) ⟨15, by decide, close⟩⟩

/-- The sum of the second side is zero, and the comment on `fast_expf` is not true. With
smaller arguments all terms are positive, and rounding moves a distance behind the last bin. -/
theorem decode_box4_undefined :
    (¬ WellDefined Example.peak (0.5 : Float32) ∧
      (decodeSide Example.peak (0.5 : Float32) 1).sum = 0.0 ∧
      (fastExpfBits (shifted Example.peak (0.5 : Float32) 1)).toInt = -477677696) ∧
    ¬ WellDefined Example.far (0.1 : Float32) ∧
      (∀ i < 64, fastExpfBits (shifted Example.far (0.1 : Float32) i) > 0) ∧
      FloatConvert.lessEq (decodeBox4 Example.far (0.1 : Float32) 1) 15.0 = false := by
  have sum : (decodeSide Example.peak (0.5 : Float32) 1).sum = 0.0 := by decide +kernel
  have behind : FloatConvert.lessEq (decodeBox4 Example.far (0.1 : Float32) 1) 15.0 = false := by
    decide +kernel
  refine ⟨⟨fun defined => ?_, sum, by decide +kernel⟩, fun defined => ?_, by decide +kernel, behind⟩
  · have positive := (defined.positive 1 (by decide)).1
    rw [sum] at positive
    exact absurd positive (by decide)
  · have within := (defined.distance 1 (by decide)).2
    rw [behind] at within
    exact absurd within Bool.false_ne_true

/-- What the decoding does for all logits. A side without a close one has no distance. -/
theorem decode_box4_rounded_iff (x : Nat → Int8) {scale : Float32} (sized : Scale scale) :
    (∀ i < 64, (fastExpfBits (shifted x scale i) > 0 ↔ Close x scale i) ∧
        (FloatOps.less 0.0 (fastExpf (shifted x scale i)) = true ↔ Close x scale i) ∧
        (InRange (12102203.0 * shifted x scale i) ↔
          FloatConvert.lessEq (-2147483648.0) (12102203.0 * shifted x scale i) = true)) ∧
      ∀ s < 4, (FloatOps.less 0.0 (decodeSide x scale s).sum = true ↔
          ∃ k < 16, Close x scale (s * 16 + k)) ∧
        ((decodeBox4 x scale s).isNaN = true ↔ ¬ ∃ k < 16, Close x scale (s * 16 + k)) :=
  ⟨fun _ below => ⟨(bits_rounded sized below).2, term_rounded_iff sized below,
    inRange_iff_le sized below⟩,
    fun _ below => ⟨sum_rounded_iff sized below, distance_isNaN_iff sized below⟩⟩

/-- The side with the peak has a distance, the one behind it has none. -/
theorem decode_box4_rounded_iff_peak :
    (decodeBox4 Example.peak (0.5 : Float32) 0).isNaN = false ∧
      (decodeBox4 Example.peak (0.5 : Float32) 1).isNaN = true := by
  have sized : Scale 0.5 := ⟨by decide +kernel, by decide +kernel⟩
  have sides := (decode_box4_rounded_iff Example.peak sized).2
  constructor
  · rw [Bool.eq_false_iff]
    intro nan
    exact (sides 0 (by decide)).2.mp nan ⟨0, by decide, by decide +kernel⟩
  · exact (sides 1 (by decide)).2.mpr (by decide +kernel)

end KhadasYolo.Postprocess
