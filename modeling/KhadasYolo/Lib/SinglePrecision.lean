import Mathlib

/-!
# Rounding in single precision

Positive integers that fit 32 bits, converted to `Float32`, and their quotients. The
results are normal numbers: a mantissa with all its bits, in a range of exponents
where nothing overflows or is flushed. Rounding is half to even on the mantissa, so
conversion keeps the order and a quotient of two numbers in order is at most one.
-/

namespace SinglePrecision

open Float.Model Float.Model.UnpackedFloat

/-! ## Mantissas -/

/-- Drop `s` bits, rounding half to even. -/
def halfEven (m s : Nat) : Nat :=
  if 2 * (m % 2 ^ s) < 2 ^ s then m / 2 ^ s
  else if 2 * (m % 2 ^ s) = 2 ^ s then m / 2 ^ s + m / 2 ^ s % 2
  else m / 2 ^ s + 1

theorem halfEven_bounds (m s : Nat) :
    m / 2 ^ s ≤ halfEven m s ∧ halfEven m s ≤ m / 2 ^ s + 1 := by
  rw [halfEven]
  split_ifs <;> omega

theorem halfEven_mono {m n : Nat} (le : m ≤ n) (s : Nat) : halfEven m s ≤ halfEven n s := by
  have quotients : m / 2 ^ s ≤ n / 2 ^ s := Nat.div_le_div_right le
  rcases Nat.eq_or_lt_of_le quotients with same | less
  · have first := Nat.div_add_mod m (2 ^ s)
    have second := Nat.div_add_mod n (2 ^ s)
    rw [same] at first
    simp only [halfEven, same]
    split_ifs <;> omega
  · have upper := (halfEven_bounds m s).2
    have lower := (halfEven_bounds n s).1
    omega

/-- The mantissa with its residual bits after `s` shifts. -/
theorem shifted (m s : Nat) :
    ExtendedMantissa.ofMantissaAndAccuracy m .exact >>> s =
      ExtendedMantissa.mk (m / 2 ^ s) (decide (2 ^ s ≤ 2 * (m % 2 ^ s)))
        (decide (2 * (m % 2 ^ s) ≠ 0 ∧ 2 * (m % 2 ^ s) ≠ 2 ^ s)) := by
  induction s with
  | zero =>
      simp [HShiftRight.hShiftRight, Nat.repeat, ExtendedMantissa.ofMantissaAndAccuracy,
        Nat.mod_one]
  | succ s ih =>
      have step : ExtendedMantissa.ofMantissaAndAccuracy m .exact >>> (s + 1) =
          (ExtendedMantissa.ofMantissaAndAccuracy m .exact >>> s).shiftRightOne := rfl
      have split : m % 2 ^ (s + 1) = m % 2 ^ s + 2 ^ s * (m / 2 ^ s % 2) := by
        rw [Nat.pow_succ, Nat.mod_mul]
      have below : m % 2 ^ s < 2 ^ s := Nat.mod_lt _ (Nat.two_pow_pos s)
      have twice : 2 ^ (s + 1) = 2 * 2 ^ s := by rw [Nat.pow_succ, Nat.mul_comm]
      rw [step, ih, ExtendedMantissa.shiftRightOne, ExtendedMantissa.mk.injEq, split, twice]
      refine ⟨by rw [Nat.div_div_eq_div_mul, ← twice, Nat.pow_succ], ?_, ?_⟩
      · rcases Nat.mod_two_eq_zero_or_one (m / 2 ^ s) with even | odd
        · rw [even, Bool.eq_iff_iff]
          exact iff_of_false Bool.false_ne_true (by rw [decide_eq_true_eq]; omega)
        · rw [odd, Bool.eq_iff_iff]
          exact iff_of_true rfl (by rw [decide_eq_true_eq]; omega)
      · rw [Bool.eq_iff_iff]
        simp only [Bool.or_eq_true, decide_eq_true_eq]
        rcases Nat.mod_two_eq_zero_or_one (m / 2 ^ s) with even | odd
        · simp only [even]
          omega
        · simp only [odd]
          omega

/-- The residual bits round half to even. -/
theorem roundedMantissa_shifted (m s : Nat) :
    (ExtendedMantissa.ofMantissaAndAccuracy m .exact >>> s).roundedMantissa = halfEven m s := by
  rw [shifted, ExtendedMantissa.roundedMantissa, halfEven]
  by_cases small : 2 * (m % 2 ^ s) < 2 ^ s
  · rw [if_pos small]
    by_cases zero : 2 * (m % 2 ^ s) = 0
    · simp [ExtendedMantissa.accuracy, Accuracy.roundToNearestEven, zero]
    · have unlike : 2 * (m % 2 ^ s) ≠ 2 ^ s := by omega
      have low : ¬ 2 ^ s ≤ 2 * (m % 2 ^ s) := by omega
      simp only [low, zero, unlike, decide_false, ne_eq, not_false_eq_true, and_self, decide_true]
      rfl
  · rw [if_neg small]
    by_cases tie : 2 * (m % 2 ^ s) = 2 ^ s
    · simp [ExtendedMantissa.accuracy, Accuracy.roundToNearestEven, tie]
    · have high : 2 ^ s ≤ 2 * (m % 2 ^ s) := by omega
      have nonzero : 2 * (m % 2 ^ s) ≠ 0 := by omega
      simp only [high, nonzero, tie, decide_true, ne_eq, not_false_eq_true, and_self, if_false]
      rfl

/-! ## Rounding -/

/-- A rounded mantissa that has carried into the next bit is moved back. -/
inductive Carried (rounded : Nat) (exponent : Int) : Nat → Int → Prop where
  | fits (below : rounded < 2 ^ 24) : Carried rounded exponent rounded exponent
  | carry (full : rounded = 2 ^ 24) : Carried rounded exponent (2 ^ 23) (exponent + 1)

/-- A number with all its bits and an exponent that is stored as it is. -/
structure Normal (x : UnpackedFloat) (m : Nat) (e : Int) : Prop where
  lower : 2 ^ 23 ≤ m
  upper : m < 2 ^ 24
  least : -149 ≤ e
  most : e ≤ 104
  finite : ∃ positive, x = .finite .positive m e positive

theorem mantissa_shift (em : ExtendedMantissa) (s : Nat) :
    (em >>> s).mantissa = em.mantissa / 2 ^ s := by
  induction s with
  | zero => simp [HShiftRight.hShiftRight, Nat.repeat]
  | succ s ih =>
      have step : em >>> (s + 1) = (em >>> s).shiftRightOne := rfl
      rw [step, ExtendedMantissa.shiftRightOne, ih, Nat.div_div_eq_div_mul, ← Nat.pow_succ]

theorem roundedMantissa_bounds (em : ExtendedMantissa) :
    em.mantissa ≤ em.roundedMantissa ∧ em.roundedMantissa ≤ em.mantissa + 1 := by
  rcases em with ⟨m, _ | _, _ | _⟩ <;>
    simp only [ExtendedMantissa.roundedMantissa, ExtendedMantissa.accuracy,
      Accuracy.roundToNearestEven] <;>
    omega

@[simp] theorem mantissa_of (m : Nat) (accuracy : Accuracy) :
    (ExtendedMantissa.ofMantissaAndAccuracy m accuracy).mantissa = m := by
  rcases accuracy with _ | (_ | _ | _) <;> rfl

/-- A number with `23 + s` bits behind the first loses `s` of them. -/
theorem target {m s : Nat} {e : Int} (bits : m.log2 = 23 + s) (least : -149 ≤ e + s) :
    Format.binary32.targetExponent (totalExponent m e) = e + s := by
  simp only [Format.targetExponent, totalExponent, bits, Format.mantissaBits, Format.minExponent]
  omega

theorem carried {rounded : Nat} {e : Int} (lower : 2 ^ 23 ≤ rounded) (upper : rounded ≤ 2 ^ 24)
    (least : -149 ≤ e) :
    Carried rounded e (shiftToTargetExponent .binary32 rounded e .exact).1.mantissa
      (shiftToTargetExponent .binary32 rounded e .exact).2 := by
  simp only [shiftToTargetExponent, shiftToExponent, mantissa_shift, mantissa_of]
  rcases Nat.lt_or_eq_of_le upper with below | full
  · have bits : rounded.log2 = 23 + 0 := (Nat.log2_eq_iff (by omega)).mpr ⟨lower, below⟩
    have amount : (e + (0 : Nat) - e).toNat = 0 := by omega
    rw [target bits (by omega), amount, Nat.pow_zero, Nat.div_one]
    exact (Int.add_zero e).symm ▸ Carried.fits below
  · have bits : rounded.log2 = 23 + 1 := by rw [full, Nat.log2_two_pow]
    have amount : (e + (1 : Nat) - e).toNat = 1 := by omega
    rw [target bits (by omega), amount, full]
    exact Carried.carry rfl

theorem Carried.range {rounded M : Nat} {e E : Int} (moved : Carried rounded e M E)
    (lower : 2 ^ 23 ≤ rounded) (least : -149 ≤ e) (most : e < 104) :
    2 ^ 23 ≤ M ∧ M < 2 ^ 24 ∧ -149 ≤ E ∧ E ≤ 104 := by
  cases moved <;> omega

/-- Rounding a number with enough bits. -/
theorem roundWithAccuracy_normal {m s : Nat} {e : Int} (accuracy : Accuracy)
    (bits : m.log2 = 23 + s) (least : -149 ≤ e + s) (most : e + s < 104) :
    ∃ M E, Normal (roundWithAccuracy .binary32 .positive m e accuracy) M E ∧
      Carried (ExtendedMantissa.ofMantissaAndAccuracy m accuracy >>> s).roundedMantissa (e + s)
        M E := by
  have amount : (e + s - e).toNat = s := by omega
  have bounds := roundedMantissa_bounds (ExtendedMantissa.ofMantissaAndAccuracy m accuracy >>> s)
  rw [mantissa_shift, mantissa_of] at bounds
  have nonzero : m ≠ 0 := by
    rintro rfl
    rw [Nat.log2_zero] at bits
    omega
  have within := (Nat.log2_eq_iff nonzero).mp bits
  have lower : 2 ^ 23 ≤ m / 2 ^ s := by
    rw [Nat.le_div_iff_mul_le (Nat.two_pow_pos s), ← Nat.pow_add]
    exact within.1
  have upper : m / 2 ^ s < 2 ^ 24 := by
    rw [Nat.div_lt_iff_lt_mul (Nat.two_pow_pos s), ← Nat.pow_add]
    exact Nat.lt_of_lt_of_eq within.2 (by congr 1; omega)
  have first : shiftToTargetExponent .binary32 m e accuracy =
      (ExtendedMantissa.ofMantissaAndAccuracy m accuracy >>> s, e + s) := by
    rw [shiftToTargetExponent, target bits least, shiftToExponent, amount]
  have moved := carried (Nat.le_trans lower bounds.1)
    (Nat.le_trans bounds.2 upper) least
  have range := moved.range (Nat.le_trans lower bounds.1) least most
  have positive := Nat.ne_of_gt (Nat.lt_of_lt_of_le (Nat.two_pow_pos 23) range.1)
  simp only [roundWithAccuracy, first]
  refine ⟨_, _, ⟨range.1, range.2.1, range.2.2.1, range.2.2.2, ?_⟩, moved⟩
  exact ⟨Nat.pos_of_ne_zero positive, dif_neg positive⟩

/-! ## Stored numbers -/

@[simp] theorem unpackSign_packComponents (sign : Sign) (exponent : BitVec 8)
    (mantissa : BitVec 23) :
    unpackSign (packComponents .binary32 sign exponent mantissa) = sign.toBitVec := by
  apply BitVec.eq_of_getLsbD_eq
  intro i inRange
  have first : i = 0 := by omega
  subst first
  simp only [unpackSign, packComponents]
  simp
  rw [BitVec.getLsbD_append, BitVec.getLsbD_append]
  simp

@[simp] theorem ofBitVec_toBitVec (sign : Sign) : Sign.ofBitVec sign.toBitVec = sign := by
  cases sign <;> rfl

/-- A normal number is stored without loss. -/
theorem unpack_pack {x : UnpackedFloat} {m : Nat} {e : Int} (normal : Normal x m e) :
    UnpackedFloat.unpack .binary32 (UnpackedFloat.pack .binary32 x) = x := by
  rcases normal with ⟨lower, upper, least, most, positive, rfl⟩
  have bits : m.log2 = 23 := (Nat.log2_eq_iff (by omega)).mpr ⟨lower, upper⟩
  have biased : (e + (Format.binary32.exponentBias : Int) + (23 : Nat)).toNat =
      (e + 150).toNat := by
    have bias : (Format.binary32.exponentBias : Int) = 127 := rfl
    omega
  have small : ¬ 2 ^ 8 ≤ (e + 150).toNat + 1 := by omega
  have exponent : (BitVec.ofNat 8 (e + 150).toNat).toNat = (e + 150).toNat := by
    rw [BitVec.toNat_ofNat, Nat.mod_eq_of_lt (by omega)]
  have notInfinite : BitVec.ofNat 8 (e + 150).toNat ≠ -1#8 := by
    intro same
    have value := congrArg BitVec.toNat same
    rw [exponent] at value
    simp at value
    omega
  have notSubnormal : BitVec.ofNat 8 (e + 150).toNat ≠ 0#8 := by
    intro same
    have value := congrArg BitVec.toNat same
    rw [exponent] at value
    simp at value
    omega
  have mantissa : (1#1 ++ BitVec.ofNat 23 m).toNat = m := by
    rw [BitVec.toNat_append, ← Nat.shiftLeft_add_eq_or_of_lt (BitVec.isLt _), Nat.shiftLeft_eq,
      BitVec.toNat_ofNat, BitVec.toNat_ofNat]
    omega
  have packed : UnpackedFloat.pack .binary32 (.finite .positive m e positive) =
      packComponents .binary32 .positive (BitVec.ofNat 8 (e + 150).toNat) (BitVec.ofNat 23 m) := by
    rw [UnpackedFloat.pack]
    simp only [biased, bits]
    rw [if_neg small, if_pos (show 23 + 1 = Format.binary32.mantissaBits from rfl)]
  rw [packed, UnpackedFloat.unpack]
  simp only [unpackMantissa_packComponents, unpackExponent_packComponents,
    unpackSign_packComponents, ofBitVec_toBitVec]
  rw [if_neg notInfinite, if_neg notSubnormal]
  simp only [mantissa, exponent]
  have bias : ((Format.binary32.exponentBias : Nat) : Int) = 127 := rfl
  congr 1
  omega

@[simp] theorem unpack_model_pack (x : UnpackedFloat) :
    (Float32.Model.pack x).unpack =
      UnpackedFloat.unpack .binary32 (UnpackedFloat.pack .binary32 x) :=
  rfl

theorem halfEven_mul (m s : Nat) : halfEven (m * 2 ^ s) s = m := by
  have positive := Nat.two_pow_pos s
  rw [halfEven, Nat.mul_mod_left, Nat.mul_div_cancel _ positive, if_pos (by omega)]

theorem log2_mul_two_pow {n : Nat} (positive : 0 < n) (s : Nat) :
    (n * 2 ^ s).log2 = n.log2 + s := by
  have within := (Nat.log2_eq_iff (Nat.ne_of_gt positive)).mp rfl
  have nonzero : n * 2 ^ s ≠ 0 := Nat.ne_of_gt (Nat.mul_pos positive (Nat.two_pow_pos s))
  apply (Nat.log2_eq_iff nonzero).mpr
  rw [Nat.pow_add, show n.log2 + s + 1 = n.log2 + 1 + s by omega, Nat.pow_add]
  exact ⟨Nat.mul_le_mul_right _ within.1,
    Nat.mul_lt_mul_of_pos_right within.2 (Nat.two_pow_pos s)⟩

/-- Rounding a scaled mantissa. -/
theorem round_scaled {n : Nat} (positive : 0 < n) (bound : n < 2 ^ 32) {scale s : Nat}
    (bits : n.log2 + scale = 23 + s) :
    ∃ M E,
      Normal (roundWithAccuracy .binary32 .positive (n * 2 ^ scale) (-scale : Int) .exact) M E ∧
      Carried (halfEven (n * 2 ^ scale) s) (n.log2 - 23 : Int) M E := by
  have log : n.log2 < 32 := (Nat.log2_lt (Nat.ne_of_gt positive)).mpr bound
  have exponent : (-scale + s : Int) = n.log2 - 23 := by omega
  have rounds := roundWithAccuracy_normal (m := n * 2 ^ scale) (s := s) (e := -scale) .exact
    (by rw [log2_mul_two_pow positive, bits]) (by omega) (by omega)
  rwa [roundedMantissa_shifted, exponent] at rounds

/-- The conversion of large integers scales its argument first. -/
theorem ofScientific_normal {n : Nat} (positive : 0 < n) (bound : n < 2 ^ 32) :
    ∃ M E, Normal (Float32.Model.ofScientific n 0).unpack M E ∧
      Carried (halfEven (n * 2 ^ 24) (n.log2 + 1)) (n.log2 - 23 : Int) M E := by
  have bits : n.log2 + 24 = 23 + (n.log2 + 1) := by omega
  rcases round_scaled positive bound bits with
    ⟨M, E, normal, moved⟩
  refine ⟨M, E, ?_, moved⟩
  have value : UnpackedFloat.ofScientific .binary32 n 0 =
      roundWithAccuracy .binary32 .positive (n * 2 ^ 24) (-(24 : Nat) : Int) .exact := by
    have range : (2 : Int) ^ Format.binary32.exponentBits = 256 := rfl
    rw [UnpackedFloat.ofScientific, dif_neg (Nat.ne_of_gt positive), range, if_neg (by omega),
      if_neg (by omega), if_pos (Int.le_refl 0)]
    simp only [UnpackedFloat.mul, Nat.shiftLeft_eq, Int.toNat_zero, Nat.pow_zero, Nat.mul_one,
      Int.add_zero]
    rfl
  rw [Float32.Model.ofScientific, unpack_model_pack, value, unpack_pack normal]
  exact normal

/-- Small integers are converted exactly. -/
theorem ofUInt64_normal {n : Nat} (positive : 0 < n) (bound : n < 2 ^ 23) :
    Normal n.toUInt64.toFloat32.toModel.unpack (n * 2 ^ (23 - n.log2)) (n.log2 - 23 : Int) := by
  have log : n.log2 < 23 := (Nat.log2_lt (Nat.ne_of_gt positive)).mpr bound
  have bits : n.log2 + (23 - n.log2) = 23 + 0 := by omega
  rcases round_scaled positive (by omega) bits with
    ⟨M, E, normal, moved⟩
  have whole : halfEven (n * 2 ^ (23 - n.log2)) 0 = n * 2 ^ (23 - n.log2) := by
    simp [halfEven, Nat.mod_one]
  rw [whole] at moved
  have below : n * 2 ^ (23 - n.log2) < 2 ^ 24 := by
    have within := ((Nat.log2_eq_iff (Nat.ne_of_gt positive)).mp rfl).2
    calc n * 2 ^ (23 - n.log2) < 2 ^ (n.log2 + 1) * 2 ^ (23 - n.log2) :=
          Nat.mul_lt_mul_of_pos_right within (Nat.two_pow_pos _)
      _ = 2 ^ 24 := by rw [← Nat.pow_add]; congr 1; omega
  have value : UnpackedFloat.ofUInt64 .binary32 n.toUInt64 =
      roundWithAccuracy .binary32 .positive (n * 2 ^ (23 - n.log2)) (-(23 - n.log2 : Nat) : Int)
        .exact := by
    have same : n.toUInt64.toNat = n := UInt64.toNat_ofNat_of_lt' (Nat.lt_trans bound (by decide))
    have exponent : Format.binary32.targetExponent (totalExponent n 0) = n.log2 - 23 := by
      simp only [Format.targetExponent, totalExponent, Format.mantissaBits, Format.minExponent]
      omega
    have amount : (0 - (n.log2 - 23 : Int)).toNat = 23 - n.log2 := by omega
    rw [UnpackedFloat.ofUInt64, UnpackedFloat.ofNat, UnpackedFloat.ofInt,
      UnpackedFloat.normalize, same, Int.compare_eq_gt.mpr (by omega)]
    simp only [Int.toNat_natCast, UnpackedFloat.round, exponent, decreaseExponent, amount,
      Nat.shiftLeft_eq]
    rw [Int.zero_sub]
  cases moved with
  | carry full => omega
  | fits =>
      show Normal (Float32.Model.pack (UnpackedFloat.ofUInt64 .binary32 n.toUInt64)).unpack _ _
      rw [unpack_model_pack, value, unpack_pack normal]
      exact normal

/-- Multiplication with one. -/
theorem mul_one_normal {x : Float32} {m : Nat} {e : Int} (normal : Normal x.toModel.unpack m e)
    (small : e < 104) : Normal (x * Float32.ofBits 0x3F800000).toModel.unpack m e := by
  have one : (Float32.ofBits 0x3F800000).toModel.unpack =
      .finite .positive (2 ^ 23) (-23) (Nat.two_pow_pos 23) := rfl
  have least := normal.least
  have positive : 0 < m := Nat.lt_of_lt_of_le (Nat.two_pow_pos 23) normal.lower
  have bits : m.log2 = 23 :=
    (Nat.log2_eq_iff (Nat.ne_of_gt positive)).mpr ⟨normal.lower, normal.upper⟩
  rcases roundWithAccuracy_normal (m := m * 2 ^ 23) (s := 23) (e := e + -23) .exact
    (by rw [log2_mul_two_pow positive, bits]) (by omega) (by omega) with ⟨M, E, rounds, moved⟩
  have exponent : e + -23 + (23 : Nat) = e := by omega
  rw [roundedMantissa_shifted, halfEven_mul, exponent] at moved
  have product : (x * Float32.ofBits 0x3F800000).toModel =
      .pack (UnpackedFloat.mul .binary32 x.toModel.unpack
        (Float32.ofBits 0x3F800000).toModel.unpack) := rfl
  rcases normal.finite with ⟨_, value⟩
  rw [product, unpack_model_pack, one, value, UnpackedFloat.mul]
  cases moved with
  | carry full => exact absurd full (Nat.ne_of_lt normal.upper)
  | fits =>
      have stored := rounds
      rw [← unpack_pack rounds] at stored
      exact stored

/-- Integers with few bits are kept. -/
theorem ofNat_small {n : Nat} (positive : 0 < n) (small : n < 2 ^ 23) :
    Normal (Float32.ofNat n).toModel.unpack (n * 2 ^ (23 - n.log2)) (n.log2 - 23 : Int) := by
  have expand : Float32.ofNat n = Float32.ofScientific n false 0 := rfl
  have log : n.log2 < 23 := (Nat.log2_lt (Nat.ne_of_gt positive)).mpr small
  rw [expand, Float32.ofScientific]
  split
  next => exact mul_one_normal (ofUInt64_normal positive small) (by omega)
  next large => exact absurd ⟨small, by decide⟩ large

/-- A converted integer: its highest bits, rounded. -/
theorem ofNat_normal {n : Nat} (positive : 0 < n) (bound : n < 2 ^ 32) :
    ∃ M E, Normal (Float32.ofNat n).toModel.unpack M E ∧
      Carried (halfEven (n * 2 ^ 24) (n.log2 + 1)) (n.log2 - 23 : Int) M E := by
  have expand : Float32.ofNat n = Float32.ofScientific n false 0 := rfl
  rcases Nat.lt_or_ge n (2 ^ 23) with small | large
  · have normal := ofNat_small positive small
    have log : n.log2 < 23 := (Nat.log2_lt (Nat.ne_of_gt positive)).mpr small
    have scaled : n * 2 ^ 24 = n * 2 ^ (23 - n.log2) * 2 ^ (n.log2 + 1) := by
      rw [Nat.mul_assoc, ← Nat.pow_add]
      congr 2
      omega
    refine ⟨_, _, normal, ?_⟩
    rw [scaled, halfEven_mul]
    exact .fits normal.upper
  · rw [expand, Float32.ofScientific]
    split
    next few => exact absurd few.1 (Nat.not_lt_of_le large)
    next => exact ofScientific_normal positive bound

/-! ## Quotients -/

/-- The order of numbers: by the exponent, then by the mantissa. -/
def Below (m₁ : Nat) (e₁ : Int) (m₂ : Nat) (e₂ : Int) : Prop := e₁ < e₂ ∨ e₁ = e₂ ∧ m₁ ≤ m₂

/-- Carrying keeps the order. -/
theorem Carried.below {R₁ R₂ M₁ M₂ : Nat} {e₁ e₂ E₁ E₂ : Int} (first : Carried R₁ e₁ M₁ E₁)
    (second : Carried R₂ e₂ M₂ E₂) (lower : 2 ^ 23 ≤ M₂)
    (le : e₁ < e₂ ∨ e₁ = e₂ ∧ R₁ ≤ R₂) : Below M₁ E₁ M₂ E₂ := by
  rw [Below]
  cases first <;> cases second <;> omega

/-- The quotient of numbers that are in order is at most one. -/
theorem div_normal {x y : Float32} {m₁ m₂ : Nat} {e₁ e₂ : Int}
    (first : Normal x.toModel.unpack m₁ e₁) (second : Normal y.toModel.unpack m₂ e₂)
    (le : Below m₁ e₁ m₂ e₂) (range : -100 ≤ e₁ - e₂) :
    ∃ M E, Normal (x / y).toModel.unpack M E ∧ Below M E (2 ^ 23) (-23) := by
  rcases first with ⟨lower₁, upper₁, _, _, positive₁, value₁⟩
  rcases second with ⟨lower₂, upper₂, _, _, positive₂, value₂⟩
  have bits₁ : m₁.log2 = 23 := (Nat.log2_eq_iff (by omega)).mpr ⟨lower₁, upper₁⟩
  have bits₂ : m₂.log2 = 23 := (Nat.log2_eq_iff (by omega)).mpr ⟨lower₂, upper₂⟩
  have quotient : (x / y).toModel =
      .pack (UnpackedFloat.div .binary32 x.toModel.unpack y.toModel.unpack) := rfl
  have core : divCore .binary32 m₁ e₁ m₂ e₂ =
      (m₁ * 2 ^ 24 / m₂, e₁ - e₂ - 24, accuracyOfFraction (m₁ * 2 ^ 24 % m₂) m₂) := by
    have exponent : Format.binary32.targetExponent (totalExponent m₁ e₁ - totalExponent m₂ e₂) =
        e₁ - e₂ - 24 := by
      simp only [Format.targetExponent, totalExponent, bits₁, bits₂, Format.mantissaBits,
        Format.minExponent]
      omega
    have least : min (e₁ - e₂) (e₁ - e₂ - 24) = e₁ - e₂ - 24 := by omega
    have amount : (e₁ - e₂ - (e₁ - e₂ - 24)).toNat = 24 := by omega
    simp only [divCore, exponent, least, amount, Nat.shiftLeft_eq]
  have sign : (Sign.positive / Sign.positive) = Sign.positive := rfl
  have value : UnpackedFloat.div .binary32 x.toModel.unpack y.toModel.unpack =
      roundWithAccuracy .binary32 .positive (m₁ * 2 ^ 24 / m₂) (e₁ - e₂ - 24)
        (accuracyOfFraction (m₁ * 2 ^ 24 % m₂) m₂) := by
    rw [value₁, value₂, UnpackedFloat.div]
    simp only [core]
    rfl
  have lowest : 2 ^ 23 ≤ m₁ * 2 ^ 24 / m₂ := by
    rw [Nat.le_div_iff_mul_le (by omega)]
    omega
  have highest : m₁ * 2 ^ 24 / m₂ < 2 ^ 25 := by
    rw [Nat.div_lt_iff_lt_mul (by omega)]
    omega
  rw [quotient, unpack_model_pack, value]
  rcases Nat.lt_or_ge (m₁ * 2 ^ 24 / m₂) (2 ^ 24) with short | long
  · have bits : (m₁ * 2 ^ 24 / m₂).log2 = 23 + 0 :=
      (Nat.log2_eq_iff (by omega)).mpr ⟨lowest, short⟩
    rcases roundWithAccuracy_normal (e := e₁ - e₂ - 24)
      (accuracyOfFraction (m₁ * 2 ^ 24 % m₂) m₂) bits (by omega)
      (by rw [Below] at le; omega) with ⟨M, E, rounds, moved⟩
    refine ⟨M, E, (unpack_pack rounds).symm ▸ rounds, ?_⟩
    rw [Below] at le ⊢
    cases moved <;> omega
  · have bits : (m₁ * 2 ^ 24 / m₂).log2 = 23 + 1 :=
      (Nat.log2_eq_iff (by omega)).mpr ⟨long, highest⟩
    rcases roundWithAccuracy_normal (e := e₁ - e₂ - 24)
      (accuracyOfFraction (m₁ * 2 ^ 24 % m₂) m₂) bits (by omega)
      (by rw [Below] at le; omega) with ⟨M, E, rounds, moved⟩
    refine ⟨M, E, (unpack_pack rounds).symm ▸ rounds, ?_⟩
    rcases le with less | ⟨same, ordered⟩
    · rw [Below]
      cases moved <;> omega
    · -- the two numbers are the same, and the quotient is exact
      have equal : m₁ = m₂ := by
        have scaled := (Nat.le_div_iff_mul_le (by omega)).mp long
        omega
      subst equal
      have exact_half : halfEven (2 ^ 24) 1 = 2 ^ 23 := rfl
      rw [Nat.mul_mod_right, Nat.mul_div_cancel_left _ (by omega),
        show accuracyOfFraction 0 m₁ = .exact from rfl, roundedMantissa_shifted,
        exact_half] at moved
      rw [Below]
      cases moved <;> omega

/-- Two positive counts in order have a quotient that is positive and at most one. -/
theorem ratio_bounds {m n : Nat} (positive : 0 < m) (le : m ≤ n) (bound : n < 2 ^ 32) :
    Float32.lt 0.0 (Float32.ofNat m / Float32.ofNat n) = true ∧
      Float32.lt 1.0 (Float32.ofNat m / Float32.ofNat n) = false := by
  rcases ofNat_normal positive (Nat.lt_of_le_of_lt le bound) with ⟨m₁, e₁, first, moved₁⟩
  rcases ofNat_normal (Nat.lt_of_lt_of_le positive le) bound with ⟨m₂, e₂, second, moved₂⟩
  have logs : m.log2 ≤ n.log2 :=
    (Nat.le_log2 (by omega)).mpr (Nat.le_trans (Nat.log2_self_le (by omega)) le)
  have log : n.log2 < 32 := (Nat.log2_lt (by omega)).mpr bound
  have ordered : Below m₁ e₁ m₂ e₂ := by
    refine moved₁.below moved₂ second.lower ?_
    rcases Nat.lt_or_eq_of_le logs with less | same
    · exact .inl (by omega)
    · refine .inr ⟨by omega, ?_⟩
      rw [same]
      exact halfEven_mono (Nat.mul_le_mul_right _ le) _
  have range : -100 ≤ e₁ - e₂ := by
    cases moved₁ <;> cases moved₂ <;> omega
  rcases div_normal first second ordered range with ⟨M, E, ⟨_, _, _, _, _, value⟩, small⟩
  have zero : (0.0 : Float32).toModel.unpack = .zero .positive := rfl
  have one : (1.0 : Float32).toModel.unpack =
      .finite .positive (2 ^ 23) (-23) (Nat.two_pow_pos 23) := rfl
  have less (x y : Float32) : Float32.lt x y =
      (x.toModel.unpack.compare y.toModel.unpack == some .lt) :=
    Bool.decide_eq_true
  rw [less, less, zero, one, value]
  refine ⟨rfl, ?_⟩
  simp only [UnpackedFloat.compare]
  rw [Below] at small
  rcases small with lower | ⟨rfl, le⟩
  · rw [Int.compare_eq_gt.mpr lower]
    rfl
  · rcases Nat.lt_or_eq_of_le le with lower | rfl
    · rw [Nat.compare_eq_gt.mpr lower]
      rfl
    · rfl

end SinglePrecision
