import KhadasYolo.Lib.SingleUnits

/-!
# Conversion of single precision to integers

Values that are not positive stay so under products with positive ones, and their integer
parts are bounded by comparisons made in single precision before the conversion.
-/

namespace SinglePrecision

open Float.Model Float.Model.UnpackedFloat

/-! ## Values that are not positive -/

/-- The values that are not positive, the lower infinity among them. -/
inductive Nonpositive : UnpackedFloat → Prop where
  | zero (sign : Sign) : Nonpositive (.zero sign)
  | finite (m : Nat) (e : Int) (positive : 0 < m) : Nonpositive (.finite .negative m e positive)
  | infinity : Nonpositive (.infinity .negative)

theorem unpack_negative {exponent : BitVec 8} {mantissa : BitVec 23}
    (number : exponent = -1#8 → mantissa = 0#23) :
    Nonpositive (UnpackedFloat.unpack .binary32
      (packComponents .binary32 .negative exponent mantissa)) := by
  rw [UnpackedFloat.unpack]
  simp only [unpackMantissa_packComponents, unpackExponent_packComponents,
    unpackSign_packComponents, ofBitVec_toBitVec]
  split
  next last =>
    rw [if_pos (number last)]
    exact .infinity
  next =>
    split
    next =>
      split
      · exact .zero _
      · exact .finite _ _ _
    next => exact .finite _ _ _

/-- They stay so when they are stored. -/
theorem Nonpositive.pack {x : UnpackedFloat} (nonpositive : Nonpositive x) :
    Nonpositive (Float32.Model.pack x).unpack := by
  rw [unpack_model_pack]
  cases nonpositive with
  | zero sign => cases sign <;> exact .zero _
  | infinity => exact .infinity
  | finite m e positive =>
      rw [UnpackedFloat.pack]
      simp only
      split
      next => exact unpack_negative fun _ => rfl
      next small =>
        split
        next =>
          refine unpack_negative fun last => ?_
          have value := congrArg BitVec.toNat last
          simp at value small
          omega
        next => exact unpack_negative fun last => absurd last (by decide)

theorem roundWithAccuracy_nonpositive (m : Nat) (e : Int) (accuracy : Accuracy) :
    Nonpositive (roundWithAccuracy .binary32 .negative m e accuracy) := by
  simp only [roundWithAccuracy]
  split
  · exact .zero _
  · exact .finite _ _ _

/-- A product with a positive number keeps the sign. -/
theorem Nonpositive.mul {x : UnpackedFloat} (nonpositive : Nonpositive x) (m : Nat) (e : Int)
    (positive : 0 < m) :
    Nonpositive (UnpackedFloat.mul .binary32 x (.finite .positive m e positive)) := by
  cases nonpositive with
  | zero sign => exact .zero _
  | finite => exact roundWithAccuracy_nonpositive _ _ _
  | infinity => exact .infinity

theorem Nonpositive.mul_left {x : UnpackedFloat} (nonpositive : Nonpositive x) (m : Nat) (e : Int)
    (positive : 0 < m) :
    Nonpositive (UnpackedFloat.mul .binary32 (.finite .positive m e positive) x) := by
  cases nonpositive with
  | zero sign => exact .zero _
  | finite => exact roundWithAccuracy_nonpositive _ _ _
  | infinity => exact .infinity

/-- Small integers that are not positive. -/
theorem ofInt_nonpositive {d : Int} (nonpos : d ≤ 0) (small : -2 ^ 23 < d) :
    Nonpositive (Float32.ofInt d).toModel.unpack := by
  cases d with
  | ofNat n =>
      have zero : n = 0 := Nat.le_zero.mp (Int.ofNat_le.mp nonpos)
      subst zero
      exact .zero _
  | negSucc n =>
      rcases (ofNat_small (Nat.succ_pos n) (by omega)).finite with ⟨positive, value⟩
      have negated : (Float32.ofInt (.negSucc n)).toModel =
          .pack (Float32.ofNat (n + 1)).toModel.unpack.neg := rfl
      rw [negated, value]
      exact Nonpositive.pack (.finite _ _ _)

/-! ## Conversion to integers -/

theorem mantissa_lt {bits : BitVec 32} {sign : Sign} {m : Nat} {e : Int} {positive : 0 < m}
    (value : UnpackedFloat.unpack .binary32 bits = .finite sign m e positive) : m < 2 ^ 24 := by
  have short := BitVec.isLt (@unpackMantissa .binary32 bits)
  have whole := leading_bit (@unpackMantissa .binary32 bits)
  rw [UnpackedFloat.unpack] at value
  simp only at value
  split at value
  · split at value <;> cases value
  · split at value
    · split at value
      · cases value
      · cases value
        omega
    · cases value
      omega

/-- A mantissa above the least exponent is full. -/
theorem mantissa_ge {bits : BitVec 32} {sign : Sign} {m : Nat} {e : Int} {positive : 0 < m}
    (value : UnpackedFloat.unpack .binary32 bits = .finite sign m e positive) (normal : -149 < e) :
    2 ^ 23 ≤ m := by
  have whole := leading_bit (@unpackMantissa .binary32 bits)
  rw [UnpackedFloat.unpack] at value
  simp only at value
  split at value
  · split at value <;> cases value
  · split at value
    next least =>
      split at value
      · cases value
      · cases value
        rw [least] at normal
        exact absurd normal (by decide)
    · cases value
      omega

/-- The integer part of a negative number, which is the number when that is an integer. -/
theorem roundToInt_negative (m : Nat) (e : Int) :
    ∃ part : Nat, roundToInt .negative m e = -part ∧ part ≤ m * 2 ^ e.toNat ∧
      (0 ≤ e → part = m * 2 ^ e.toNat) := by
  refine ⟨_, rfl, ?_⟩
  simp only [mantissa_shift, mantissa_of, Nat.shiftLeft_eq, Int.sub_zero]
  refine ⟨Nat.div_le_self _ _, fun whole => ?_⟩
  rw [Int.toNat_of_nonneg whole, Int.sub_self]
  exact Nat.div_one _

theorem toInt_nonpos {x : UnpackedFloat} (nonpositive : Nonpositive x) :
    x.toInt Int64.minValue.toInt Int64.maxValue.toInt ≤ 0 := by
  cases nonpositive with
  | zero => exact Int.le_refl 0
  | infinity => exact Int64.minValue_le_toInt 0
  | finite m e positive =>
      rcases roundToInt_negative m e with ⟨part, same, _⟩
      rw [UnpackedFloat.toInt, same]
      omega

/-- The conversion saturates. -/
theorem toInt64_of_nonpositive {x : Float32} (nonpositive : Nonpositive x.toModel.unpack) :
    x.toModel.toInt64.toInt =
      max (-2 ^ 63) (x.toModel.unpack.toInt Int64.minValue.toInt Int64.maxValue.toInt) := by
  have part := toInt_nonpos nonpositive
  show (Int64.ofIntClamp _).toInt = _
  rw [Int64.ofIntClamp]
  split
  next least =>
    have most : x.toModel.unpack.toInt Int64.minValue.toInt Int64.maxValue.toInt ≤
        Int64.maxValue.toInt := Int.le_trans part (by decide)
    rw [dif_pos most, Int64.toInt_ofIntLE]
    exact (max_eq_right least).symm
  next low => exact (max_eq_left (Int.le_of_lt (Int.not_le.mp low))).symm

/-- A stored number that is not positive has an integer part that is not positive. -/
theorem toInt64_nonpos {x : Float32} (nonpositive : Nonpositive x.toModel.unpack) :
    x.toModel.toInt64.toInt ≤ 0 := by
  rw [toInt64_of_nonpositive nonpositive]
  exact max_le (by decide) (toInt_nonpos nonpositive)

/-- Negative numbers are in the order of their exponents and mantissas, the other way. -/
theorem compare_negative {M m : Nat} {E e : Int} (positive : 0 < M) (above : 0 < m) :
    ((UnpackedFloat.compare (.finite .negative M E positive)
      (.finite .negative m e above)).any (·.isLE) = true ↔ e < E ∨ e = E ∧ m ≤ M) ∧
    ((UnpackedFloat.compare (.finite .negative M E positive)
      (.finite .negative m e above) == some .lt) = true ↔ e < E ∨ e = E ∧ m < M) := by
  have swapped : UnpackedFloat.compare (.finite .negative M E positive)
      (.finite .negative m e above) =
        some ((Ord.compare E e).then (Ord.compare M m)).swap := rfl
  rw [swapped]
  rcases Int.lt_trichotomy E e with less | rfl | greater
  · rw [Int.compare_eq_lt.mpr less]
    exact ⟨iff_of_false Bool.false_ne_true (by omega), iff_of_false Bool.false_ne_true (by omega)⟩
  · rw [Int.compare_eq_eq.mpr rfl]
    rcases Nat.lt_trichotomy M m with less | rfl | greater
    · rw [Nat.compare_eq_lt.mpr less]
      exact ⟨iff_of_false Bool.false_ne_true (by omega), iff_of_false Bool.false_ne_true (by omega)⟩
    · rw [Nat.compare_eq_eq.mpr rfl]
      exact ⟨iff_of_true rfl (by omega), iff_of_false Bool.false_ne_true (by omega)⟩
    · rw [Nat.compare_eq_gt.mpr greater]
      exact ⟨iff_of_true rfl (by omega), iff_of_true rfl (by omega)⟩
  · rw [Int.compare_eq_gt.mpr greater]
    exact ⟨iff_of_true rfl (.inl greater), iff_of_true rfl (.inl greater)⟩

/-- The integer parts are in the order of exponents and mantissas where these are full. -/
theorem part_iff {M E m part : Nat} {e : Int} (full : 2 ^ 23 ≤ M ∧ M < 2 ^ 24) (shifted : 0 < E)
    (short : m < 2 ^ 24) (normal : -149 < e → 2 ^ 23 ≤ m) (cut : part ≤ m * 2 ^ e.toNat)
    (whole : 0 ≤ e → part = m * 2 ^ e.toNat) :
    (e < E ∨ e = E ∧ m ≤ M ↔ part ≤ M * 2 ^ E) ∧ (e < E ∨ e = E ∧ m < M ↔ part < M * 2 ^ E) := by
  have scale (first second : Nat) : 2 ^ 23 * 2 ^ (first + 1) = 2 ^ 24 * 2 ^ first := by
    rw [← Nat.pow_add, ← Nat.pow_add]
    congr 1
    omega
  rcases Int.lt_trichotomy e E with less | rfl | greater
  · have lower : part < M * 2 ^ E := by
      obtain ⟨lower, rfl⟩ : ∃ lower, E = lower + 1 := ⟨E - 1, by omega⟩
      calc part ≤ m * 2 ^ e.toNat := cut
        _ < 2 ^ 24 * 2 ^ e.toNat := Nat.mul_lt_mul_of_pos_right short (Nat.two_pow_pos _)
        _ ≤ 2 ^ 24 * 2 ^ lower :=
            Nat.mul_le_mul_left _ (Nat.pow_le_pow_right (by decide) (by omega))
        _ = 2 ^ 23 * 2 ^ (lower + 1) := (scale lower 0).symm
        _ ≤ M * 2 ^ (lower + 1) := Nat.mul_le_mul_right _ full.1
    exact ⟨iff_of_true (.inl less) (Nat.le_of_lt lower), iff_of_true (.inl less) lower⟩
  · have same : part = m * 2 ^ E := whole (Int.natCast_nonneg E)
    have power := Nat.two_pow_pos E
    rw [same, Nat.mul_le_mul_right_iff power, Nat.mul_lt_mul_right power]
    constructor <;> omega
  · have upper : M * 2 ^ E < part := by
      obtain ⟨larger, rfl⟩ : ∃ larger : Nat, e = larger := ⟨e.toNat, by omega⟩
      have same : part = m * 2 ^ larger := whole (Int.natCast_nonneg larger)
      calc M * 2 ^ E < 2 ^ 24 * 2 ^ E := Nat.mul_lt_mul_of_pos_right full.2 (Nat.two_pow_pos _)
        _ = 2 ^ 23 * 2 ^ (E + 1) := (scale E 0).symm
        _ ≤ 2 ^ 23 * 2 ^ larger :=
            Nat.mul_le_mul_left _ (Nat.pow_le_pow_right (by decide) (by omega))
        _ ≤ m * 2 ^ larger := Nat.mul_le_mul_right _ (normal (by omega))
        _ = part := same.symm
    exact ⟨iff_of_false (by omega) (Nat.not_le.mpr upper),
      iff_of_false (by omega) (Nat.not_lt.mpr (Nat.le_of_lt upper))⟩

/-- A number is not below `-(M * 2 ^ E)` exactly when its integer part is not, and the same
holds without equality. -/
theorem toInt64_bound {x bound : Float32} (nonpositive : Nonpositive x.toModel.unpack)
    {M E : Nat} (full : 2 ^ 23 ≤ M ∧ M < 2 ^ 24) (shifted : 0 < E) (range : M * 2 ^ E < 2 ^ 63)
    {positive : 0 < M} (value : bound.toModel.unpack = .finite .negative M E positive) :
    (Float32.le bound x = true ↔ -(M * 2 ^ E : Nat) ≤ x.toModel.toInt64.toInt) ∧
      (Float32.lt bound x = true ↔ -(M * 2 ^ E : Nat) < x.toModel.toInt64.toInt) := by
  have below : Float32.le bound x =
      (bound.toModel.unpack.compare x.toModel.unpack).any (·.isLE) := Bool.decide_eq_true
  have less : Float32.lt bound x = (bound.toModel.unpack.compare x.toModel.unpack == some .lt) :=
    Bool.decide_eq_true
  rw [below, less, value, toInt64_of_nonpositive nonpositive]
  generalize form : x.toModel.unpack = v at nonpositive
  cases nonpositive with
  | zero sign =>
      have above : 0 < M * 2 ^ E := Nat.mul_pos positive (Nat.two_pow_pos E)
      have part : (UnpackedFloat.zero sign).toInt Int64.minValue.toInt
          Int64.maxValue.toInt = 0 := rfl
      rw [part]
      exact ⟨iff_of_true rfl (by omega), iff_of_true rfl (by omega)⟩
  | infinity =>
      have part : (UnpackedFloat.infinity .negative).toInt Int64.minValue.toInt
          Int64.maxValue.toInt = -2 ^ 63 := rfl
      rw [part]
      exact ⟨iff_of_false Bool.false_ne_true (by omega), iff_of_false Bool.false_ne_true (by omega)⟩
  | finite m e above =>
      rcases roundToInt_negative m e with ⟨part, same, cut, whole⟩
      have bounds := part_iff full shifted (mantissa_lt form) (mantissa_ge form) cut whole
      have order := compare_negative (E := E) (e := e) positive above
      rw [order.1, order.2, bounds.1, bounds.2, UnpackedFloat.toInt, same]
      constructor <;> omega
end SinglePrecision
