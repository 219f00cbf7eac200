import KhadasYolo.Lib.SinglePrecision

/-!
# Single precision in units of the smallest value

A finite value that is not negative is a natural number of units, one unit being the
smallest positive value. Sums, and products with small integers, round such a number to
its twenty-four highest bits, and quotients are bounded. Programs that accumulate
positive values are followed here without real numbers, over normal and subnormal values
alike.
-/

namespace SinglePrecision

open Float.Model Float.Model.UnpackedFloat

/-! ## Rounding of units -/

/-- The bits of `n` behind its twenty-four highest. -/
def spare (n : Nat) : Nat := n.log2 - 23

/-- The number of units that stands for `n`. -/
def nearest (n : Nat) : Nat := halfEven n (spare n) * 2 ^ spare n

theorem lt_spare {n : Nat} (positive : 0 < n) : n < 2 ^ 24 * 2 ^ spare n := by
  have within := ((Nat.log2_eq_iff (Nat.ne_of_gt positive)).mp rfl).2
  rw [← Nat.pow_add]
  exact Nat.lt_of_lt_of_le within (Nat.pow_le_pow_right (by decide) (by rw [spare]; omega))

/-- A number with bits to spare fills the others. -/
theorem spare_le {n : Nat} (bits : 0 < spare n) : 2 ^ 23 * 2 ^ spare n ≤ n := by
  have positive : n ≠ 0 := by
    rintro rfl
    simp [spare] at bits
  have within := ((Nat.log2_eq_iff positive).mp rfl).1
  rw [← Nat.pow_add]
  exact Nat.le_trans (Nat.pow_le_pow_right (by decide) (by rw [spare] at *; omega)) within

theorem spare_mono {m n : Nat} (le : m ≤ n) : spare m ≤ spare n := by
  rcases Nat.eq_zero_or_pos m with rfl | positive
  · simp [spare]
  · have logs : m.log2 ≤ n.log2 :=
      (Nat.le_log2 (by omega)).mpr (Nat.le_trans (Nat.log2_self_le (by omega)) le)
    rw [spare, spare]
    omega

/-- A number that fits is kept. -/
theorem nearest_of_scaled {m j : Nat} (upper : m < 2 ^ 24) (full : 2 ^ 23 ≤ m ∨ j = 0) :
    nearest (m * 2 ^ j) = m * 2 ^ j := by
  have bits : spare (m * 2 ^ j) = j := by
    rcases full with lower | rfl
    · have log : m.log2 = 23 := (Nat.log2_eq_iff (by omega)).mpr ⟨lower, upper⟩
      rw [spare, log2_mul_two_pow (by omega), log]
      omega
    · rcases Nat.eq_zero_or_pos m with rfl | positive
      · simp [spare]
      · have log : m.log2 < 24 := (Nat.log2_lt (by omega)).mpr upper
        rw [Nat.pow_zero, Nat.mul_one, spare]
        omega
  rw [nearest, bits, halfEven_mul]

/-- The error of rounding is half of the last bit. -/
theorem halfEven_error (n s : Nat) :
    2 * (halfEven n s * 2 ^ s) ≤ 2 * n + 2 ^ s ∧ 2 * n ≤ 2 * (halfEven n s * 2 ^ s) + 2 ^ s := by
  have split := Nat.div_add_mod n (2 ^ s)
  have below := Nat.mod_lt n (Nat.two_pow_pos s)
  rw [Nat.mul_comm] at split
  rw [halfEven]
  split_ifs with less tie
  · omega
  · rcases Nat.mod_two_eq_zero_or_one (n / 2 ^ s) with even | odd
    · rw [even, Nat.add_zero]
      omega
    · rw [odd, Nat.add_mul, Nat.one_mul]
      omega
  · rw [Nat.add_mul, Nat.one_mul]
    omega

/-- Rounding changes a number by at most one part in `2 ^ 24`. -/
theorem nearest_bounds (n : Nat) :
    2 ^ 24 * nearest n ≤ (2 ^ 24 + 1) * n ∧ (2 ^ 24 - 1) * n ≤ 2 ^ 24 * nearest n := by
  rcases Nat.eq_zero_or_pos (spare n) with exact_bits | bits
  · have kept : nearest n = n := by
      simp [nearest, exact_bits, halfEven, Nat.mod_one]
    rw [kept]
    omega
  · have error := halfEven_error n (spare n)
    have filled := spare_le bits
    rw [nearest]
    omega

theorem nearest_pos {n : Nat} (positive : 0 < n) : 0 < nearest n := by
  have lower := (nearest_bounds n).2
  omega

@[simp] theorem nearest_zero : nearest 0 = 0 := rfl

theorem nearest_pos_iff {n : Nat} : 0 < nearest n ↔ 0 < n := by
  refine ⟨fun positive => Nat.pos_of_ne_zero ?_, nearest_pos⟩
  rintro rfl
  exact absurd positive (by decide)

/-! ## Values in units -/

/-- A value that is not negative, by its number of units. -/
inductive Units : UnpackedFloat → Nat → Prop where
  | zero : Units (.zero .positive) 0
  | finite {m j : Nat} (positive : 0 < m) (upper : m < 2 ^ 24) (full : 2 ^ 23 ≤ m ∨ j = 0)
      (most : j ≤ 253) : Units (.finite .positive m (j - 149) positive) (m * 2 ^ j)

theorem Units.nearest_eq {x : UnpackedFloat} {n : Nat} (units : Units x n) : nearest n = n := by
  cases units with
  | zero => rfl
  | finite _ upper full _ => exact nearest_of_scaled upper full

/-- Scaling does not change how a number rounds. -/
theorem halfEven_scaled (m s a : Nat) : halfEven (m * 2 ^ a) (s + a) = halfEven m s := by
  have positive := Nat.two_pow_pos a
  have less (first second : Nat) : 2 * (first * 2 ^ a) < second * 2 ^ a ↔ 2 * first < second := by
    rw [← Nat.mul_assoc]
    exact Nat.mul_lt_mul_right positive
  have same (first second : Nat) : 2 * (first * 2 ^ a) = second * 2 ^ a ↔ 2 * first = second := by
    rw [← Nat.mul_assoc]
    exact Nat.mul_left_inj (Nat.ne_of_gt positive)
  simp only [halfEven, Nat.pow_add, Nat.mul_mod_mul_right, Nat.mul_div_mul_right _ _ positive,
    less, same]

/-- A rounded mantissa is moved back by one bit when it has carried. -/
theorem settled {R s : Nat} (upper : R ≤ 2 ^ 24) (full : 2 ^ 23 ≤ R ∨ s = 0)
    (most : s ≤ 252) {em : ExtendedMantissa} {e : Int}
    (shifts : shiftToTargetExponent .binary32 R (s - 149) .exact = (em, e)) :
    Units (if zero : em.mantissa = 0 then .zero .positive
      else .finite .positive em.mantissa e (Nat.pos_of_ne_zero zero)) (R * 2 ^ s) := by
  rw [shiftToTargetExponent, shiftToExponent, Prod.mk.injEq] at shifts
  rcases shifts with ⟨rfl, rfl⟩
  rcases Nat.eq_zero_or_pos R with rfl | above
  · simp only [mantissa_shift, mantissa_of, Nat.zero_div, Nat.zero_mul]
    exact .zero
  rcases Nat.lt_or_eq_of_le upper with below | rfl
  · have short : R.log2 < 24 := (Nat.log2_lt (Nat.ne_of_gt above)).mpr below
    have none : (Format.binary32.targetExponent (totalExponent R (s - 149)) -
        (s - 149)).toNat = 0 := by
      simp only [Format.targetExponent, totalExponent, Format.mantissaBits, Format.minExponent]
      omega
    simp only [none, mantissa_shift, mantissa_of, Nat.pow_zero, Nat.div_one, Int.natCast_zero,
      Int.add_zero]
    rw [dif_neg (Nat.ne_of_gt above)]
    exact .finite above below full (by omega)
  · have one : (Format.binary32.targetExponent (totalExponent (2 ^ 24) (s - 149)) -
        (s - 149)).toNat = 1 := by
      simp only [Format.targetExponent, totalExponent, Format.mantissaBits, Format.minExponent,
        Nat.log2_two_pow]
      omega
    have least : 0 < 2 ^ 24 / 2 ^ 1 := by decide
    have scaled : 2 ^ 24 * 2 ^ s = 2 ^ 24 / 2 ^ 1 * 2 ^ (s + 1) := by
      rw [Nat.pow_succ]
      omega
    have moved : (s - 149 + (1 : Nat) : Int) = (s + 1 : Nat) - 149 := by omega
    simp only [one, mantissa_shift, mantissa_of, scaled, moved]
    rw [dif_neg (Nat.ne_of_gt least)]
    exact .finite least (by decide) (.inl (by decide)) (by omega)

/-- A number of units with enough bits is rounded to the nearest. -/
theorem roundWithAccuracy_units {m n a j : Nat} {e : Int} (positive : 0 < n) (fits : n < 2 ^ 256)
    (value : m * 2 ^ a = n * 2 ^ j) (exponent : e = a - 149 - j) (bits : a ≤ spare n + j) :
    Units (roundWithAccuracy .binary32 .positive m e .exact) (nearest n) := by
  have nonzero : 0 < m := by
    rcases Nat.eq_zero_or_pos m with rfl | above
    · have product := Nat.mul_pos positive (Nat.two_pow_pos j)
      omega
    · exact above
  have logs : m.log2 + a = n.log2 + j := by
    rw [← log2_mul_two_pow nonzero, value, log2_mul_two_pow positive]
  have log : n.log2 < 256 := (Nat.log2_lt (Nat.ne_of_gt positive)).mpr fits
  have width : Format.binary32.targetExponent (totalExponent m e) = spare n - 149 := by
    simp only [Format.targetExponent, totalExponent, Format.mantissaBits, Format.minExponent,
      spare]
    omega
  have amount : ((spare n : Int) - 149 - e).toNat = spare n + j - a := by omega
  have moved : e + (spare n + j - a : Nat) = (spare n : Int) - 149 := by omega
  have rounded : halfEven m (spare n + j - a) = halfEven n (spare n) := by
    rw [← halfEven_scaled m _ a, value, Nat.sub_add_cancel bits, halfEven_scaled]
  have first : shiftToTargetExponent .binary32 m e .exact =
      (ExtendedMantissa.ofMantissaAndAccuracy m .exact >>> (spare n + j - a),
        (spare n : Int) - 149) := by
    rw [shiftToTargetExponent, width, shiftToExponent, amount, moved]
  have bounds := halfEven_bounds n (spare n)
  have quotient : n / 2 ^ spare n < 2 ^ 24 :=
    (Nat.div_lt_iff_lt_mul (Nat.two_pow_pos _)).mpr (lt_spare positive)
  have full : 2 ^ 23 ≤ halfEven n (spare n) ∨ spare n = 0 := by
    rcases Nat.eq_zero_or_pos (spare n) with none | some
    · exact .inr none
    · have filled := (Nat.le_div_iff_mul_le (Nat.two_pow_pos _)).mpr (spare_le some)
      exact .inl (Nat.le_trans filled bounds.1)
  have most : spare n ≤ 252 := by rw [spare]; omega
  simp only [roundWithAccuracy, first, roundedMantissa_shifted, rounded, nearest]
  exact settled (by omega) full most rfl

theorem round_units {m n j : Nat} (positive : 0 < n) (fits : n < 2 ^ 256)
    (value : m * 2 ^ j = n) :
    Units (UnpackedFloat.round .binary32 .positive m (j - 149)) (nearest n) := by
  have nonzero : 0 < m := by
    rcases Nat.eq_zero_or_pos m with rfl | above
    · omega
    · exact above
  have log : m.log2 + j = n.log2 := by rw [← log2_mul_two_pow nonzero, value]
  have width : Format.binary32.targetExponent (totalExponent m (j - 149)) = spare n - 149 := by
    simp only [Format.targetExponent, totalExponent, Format.mantissaBits, Format.minExponent,
      spare]
    omega
  have amount : ((j : Int) - 149 - (spare n - 149)).toNat = j - spare n := by omega
  simp only [UnpackedFloat.round, width, decreaseExponent, amount, Nat.shiftLeft_eq]
  refine roundWithAccuracy_units (a := min j (spare n)) (j := 0) positive fits ?_ (by omega)
    (by omega)
  rw [Nat.mul_assoc, ← Nat.pow_add, show j - spare n + min j (spare n) = j by omega, value,
    Nat.pow_zero, Nat.mul_one]

/-! ## Stored values -/

/-- A number below the normal ones is stored with the least exponent. -/
theorem pack_subnormal (sign : Sign) {m : Nat} (positive : 0 < m) (short : m < 2 ^ 23) :
    UnpackedFloat.pack .binary32 (.finite sign m (-149) positive) =
      packComponents .binary32 sign (0#8) (BitVec.ofNat 23 m) := by
  have log : m.log2 < 23 := (Nat.log2_lt (Nat.ne_of_gt positive)).mpr short
  have bits : Format.binary32.mantissaBits = 24 := rfl
  have small : ¬ 2 ^ Format.binary32.exponentBits ≤ (-149 + (Format.binary32.exponentBias : Int) +
      (Format.binary32.mantissaBitsWithoutImplicit : Int)).toNat + 1 := by decide
  rw [UnpackedFloat.pack]
  simp only
  rw [if_neg small, if_neg (by omega)]

theorem unpack_subnormal (sign : Sign) {mantissa : BitVec 23} (set : mantissa ≠ 0#23) :
    UnpackedFloat.unpack .binary32 (packComponents .binary32 sign (0#8) mantissa) =
      .finite sign mantissa.toNat (-149)
        (Nat.pos_of_ne_zero fun zero => set (BitVec.eq_of_toNat_eq zero)) := by
  have some : (0#8 : BitVec 8) ≠ -1#8 := by decide
  rw [UnpackedFloat.unpack]
  simp only [unpackMantissa_packComponents, unpackExponent_packComponents,
    unpackSign_packComponents, ofBitVec_toBitVec]
  rw [if_neg some, if_pos trivial, dif_neg set]
  rfl

/-- A value in units is stored without loss. -/
theorem Units.unpack_pack {x : UnpackedFloat} {n : Nat} (units : Units x n) :
    UnpackedFloat.unpack .binary32 (UnpackedFloat.pack .binary32 x) = x := by
  cases units with
  | zero => rfl
  | @finite m j positive upper full most =>
      rcases Nat.lt_or_ge m (2 ^ 23) with short | lower
      · rcases full with lower | rfl
        · exact absurd lower (Nat.not_le_of_lt short)
        · have mantissa : (BitVec.ofNat 23 m).toNat = m := by
            rw [BitVec.toNat_ofNat, Nat.mod_eq_of_lt short]
          have set : BitVec.ofNat 23 m ≠ 0#23 := by
            intro same
            rw [same] at mantissa
            exact absurd mantissa (Nat.ne_of_lt positive)
          have least : ((0 : Nat) : Int) - 149 = -149 := rfl
          simp only [least]
          rw [pack_subnormal _ positive short, unpack_subnormal _ set]
          simp only [mantissa]
      · exact SinglePrecision.unpack_pack
          ⟨lower, upper, by omega, by omega, positive, rfl⟩

/-! ## Operations -/

/-- The value of a stored number in units. -/
def Value (x : Float32) (n : Nat) : Prop := Units x.toModel.unpack n

theorem value_pack {x : UnpackedFloat} {n : Nat} (units : Units x n) :
    Units (Float32.Model.pack x).unpack n := by
  rw [unpack_model_pack, units.unpack_pack]
  exact units

/-- A mantissa is moved to a smaller exponent. -/
theorem aligned {k j : Nat} (le : k ≤ j) (m : Nat) : m * 2 ^ (j - k) * 2 ^ k = m * 2 ^ j := by
  rw [Nat.mul_assoc, ← Nat.pow_add, Nat.sub_add_cancel le]

/-- A sum is rounded to the nearest. -/
theorem Value.add {x y : Float32} {a b : Nat} (first : Value x a) (second : Value y b)
    (fits : a + b < 2 ^ 256) : Value (x + y) (nearest (a + b)) := by
  have sum : (x + y).toModel =
      .pack (UnpackedFloat.add .binary32 x.toModel.unpack y.toModel.unpack) := rfl
  rw [Value, sum]
  apply value_pack
  rw [Value] at first second
  revert first second
  generalize x.toModel.unpack = left
  generalize y.toModel.unpack = right
  intro first second
  cases first with
  | zero =>
      rw [Nat.zero_add, second.nearest_eq]
      cases second with
      | zero => exact .zero
      | finite positive upper full most => exact .finite positive upper full most
  | @finite m₁ j₁ positive₁ upper₁ full₁ most₁ =>
      cases second with
      | zero =>
          rw [Nat.add_zero, nearest_of_scaled upper₁ full₁]
          exact .finite positive₁ upper₁ full₁ most₁
      | @finite m₂ j₂ positive₂ upper₂ full₂ most₂ =>
          have least : min ((j₁ : Int) - 149) ((j₂ : Int) - 149) = (min j₁ j₂ : Nat) - 149 := by
            omega
          have shift₁ : ((j₁ : Int) - 149 - ((min j₁ j₂ : Nat) - 149)).toNat = j₁ - min j₁ j₂ := by
            omega
          have shift₂ : ((j₂ : Int) - 149 - ((min j₁ j₂ : Nat) - 149)).toNat = j₂ - min j₁ j₂ := by
            omega
          have whole : (m₁ * 2 ^ (j₁ - min j₁ j₂) + m₂ * 2 ^ (j₂ - min j₁ j₂)) * 2 ^ min j₁ j₂ =
              m₁ * 2 ^ j₁ + m₂ * 2 ^ j₂ := by
            rw [Nat.add_mul, aligned (Nat.min_le_left _ _),
              aligned (Nat.min_le_right _ _)]
          have above : 0 < m₁ * 2 ^ (j₁ - min j₁ j₂) + m₂ * 2 ^ (j₂ - min j₁ j₂) :=
            Nat.add_pos_left (Nat.mul_pos positive₁ (Nat.two_pow_pos _)) _
          have positive : 0 < m₁ * 2 ^ j₁ + m₂ * 2 ^ j₂ := by
            rw [← whole]
            exact Nat.mul_pos above (Nat.two_pow_pos _)
          simp only [UnpackedFloat.add, least, decreaseExponent, shift₁, shift₂, Nat.shiftLeft_eq,
            Sign.apply, UnpackedFloat.normalize]
          rw [← Int.natCast_add, Int.compare_eq_gt.mpr (by omega)]
          exact round_units positive fits whole

/-- A product with a small integer is rounded to the nearest. -/
theorem Value.ofNat_mul {x : Float32} {n : Nat} (value : Value x n) {k : Nat}
    (small : k < 2 ^ 23) (fits : k * n < 2 ^ 256) :
    Value (Float32.ofNat k * x) (nearest (k * n)) := by
  have product : (Float32.ofNat k * x).toModel =
      .pack (UnpackedFloat.mul .binary32 (Float32.ofNat k).toModel.unpack x.toModel.unpack) := rfl
  rw [Value, product]
  apply value_pack
  rw [Value] at value
  revert value
  generalize x.toModel.unpack = right
  intro value
  rcases Nat.eq_zero_or_pos k with rfl | positive
  · have zero : (Float32.ofNat 0).toModel.unpack = .zero .positive := rfl
    rw [zero, Nat.zero_mul, nearest_zero]
    cases value <;> exact .zero
  · rcases (ofNat_small positive small).finite with ⟨above, factor⟩
    rw [factor]
    cases value with
    | zero =>
        rw [Nat.mul_zero, nearest_zero]
        exact .zero
    | @finite m j positiveM upper full most =>
        have log : k.log2 < 23 := (Nat.log2_lt (Nat.ne_of_gt positive)).mpr small
        have scaled : k * 2 ^ (23 - k.log2) * m * 2 ^ j = k * (m * 2 ^ j) * 2 ^ (23 - k.log2) := by
          ac_rfl
        have unchanged : j ≤ spare (k * (m * 2 ^ j)) := by
          rcases full with lower | rfl
          · have bits : spare (m * 2 ^ j) = j := by
              have whole : m.log2 = 23 := (Nat.log2_eq_iff (by omega)).mpr ⟨lower, upper⟩
              rw [spare, log2_mul_two_pow positiveM, whole]
              omega
            calc j = spare (m * 2 ^ j) := bits.symm
              _ ≤ spare (k * (m * 2 ^ j)) := spare_mono (Nat.le_mul_of_pos_left _ positive)
          · exact Nat.zero_le _
        exact roundWithAccuracy_units
          (Nat.mul_pos positive (Nat.mul_pos positiveM (Nat.two_pow_pos j))) fits scaled
          (by omega) (by omega)

/-- A quotient that has been cut off is rounded within one unit of its last bit. -/
theorem roundWithAccuracy_bound {q p : Nat} (accuracy : Accuracy)
    (bits : -(p : Int) ≤ Format.binary32.targetExponent (totalExponent q (-p)))
    (fits : q ≤ 2 ^ (p + 4)) :
    ∃ c ulp, Units (roundWithAccuracy .binary32 .positive q (-p) accuracy) c ∧
      c * 2 ^ p ≤ q * 2 ^ 149 + ulp * 2 ^ p ∧ (ulp = 1 ∨ 2 ^ 23 * (ulp * 2 ^ p) ≤ q * 2 ^ 149) := by
  rcases Int.eq_ofNat_of_zero_le (Int.sub_nonneg_of_le bits) with ⟨shift, amount⟩
  have least : -149 ≤ Format.binary32.targetExponent (totalExponent q (-p)) := Int.le_max_right _ _
  rcases Int.eq_ofNat_of_zero_le (Int.sub_nonneg_of_le least) with ⟨s, moved⟩
  have first : shiftToTargetExponent .binary32 q (-p) accuracy =
      (ExtendedMantissa.ofMantissaAndAccuracy q accuracy >>> shift, (s : Int) - 149) := by
    have steps : (Format.binary32.targetExponent (totalExponent q (-p)) - -(p : Int)).toNat =
        shift := by omega
    rw [shiftToTargetExponent, shiftToExponent, steps, Prod.mk.injEq]
    exact ⟨rfl, by omega⟩
  have together : s + p = shift + 149 := by omega
  have bounds := roundedMantissa_bounds
    (ExtendedMantissa.ofMantissaAndAccuracy q accuracy >>> shift)
  rw [mantissa_shift, mantissa_of] at bounds
  generalize rounded :
    (ExtendedMantissa.ofMantissaAndAccuracy q accuracy >>> shift).roundedMantissa = R at bounds
  have log : q.log2 ≤ p + 4 := by
    rcases Nat.eq_zero_or_pos q with rfl | positive
    · simp
    · have power := Nat.log2_two_pow (n := p + 4)
      rw [← power]
      exact (Nat.le_log2 (by positivity)).mpr
        (Nat.le_trans (Nat.log2_self_le (by omega)) fits)
  have upper : q / 2 ^ shift < 2 ^ 24 := by
    rw [Nat.div_lt_iff_lt_mul (Nat.two_pow_pos _), ← Nat.pow_add]
    refine Nat.lt_of_lt_of_le Nat.lt_log2_self (Nat.pow_le_pow_right (by decide) ?_)
    simp only [Format.targetExponent, totalExponent, Format.mantissaBits] at amount
    omega
  have full : 2 ^ 23 ≤ q / 2 ^ shift ∨ s = 0 := by
    rcases Nat.eq_zero_or_pos s with none | some
    · exact .inr none
    · simp only [Format.targetExponent, totalExponent, Format.mantissaBits, Format.minExponent]
        at amount moved
      have nonzero : q ≠ 0 := by
        rintro rfl
        rw [Nat.log2_zero] at amount moved
        omega
      left
      rw [Nat.le_div_iff_mul_le (Nat.two_pow_pos _), ← Nat.pow_add]
      exact Nat.le_trans (Nat.pow_le_pow_right (by decide) (by omega)) (Nat.log2_self_le nonzero)
  have most : s ≤ 252 := by
    simp only [Format.targetExponent, totalExponent, Format.mantissaBits, Format.minExponent]
      at moved
    omega
  have below : q / 2 ^ shift * 2 ^ s * 2 ^ p ≤ q * 2 ^ 149 := by
    rw [Nat.mul_assoc, ← Nat.pow_add, together, Nat.pow_add, ← Nat.mul_assoc]
    exact Nat.mul_le_mul_right _ (Nat.div_mul_le_self _ _)
  refine ⟨R * 2 ^ s, 2 ^ s, ?_, ?_, ?_⟩
  · simp only [roundWithAccuracy, first, rounded]
    exact settled (by omega) (by omega) most rfl
  · calc R * 2 ^ s * 2 ^ p ≤ (q / 2 ^ shift + 1) * 2 ^ s * 2 ^ p :=
          Nat.mul_le_mul_right _ (Nat.mul_le_mul_right _ bounds.2)
      _ = q / 2 ^ shift * 2 ^ s * 2 ^ p + 2 ^ s * 2 ^ p := by
          rw [Nat.add_mul, Nat.add_mul, Nat.one_mul]
      _ ≤ q * 2 ^ 149 + 2 ^ s * 2 ^ p := Nat.add_le_add_right below _
  · rcases full with lower | rfl
    · right
      calc 2 ^ 23 * (2 ^ s * 2 ^ p) ≤ q / 2 ^ shift * (2 ^ s * 2 ^ p) :=
            Nat.mul_le_mul_right _ lower
        _ ≤ q * 2 ^ 149 := by rwa [← Nat.mul_assoc]
    · exact .inl rfl

/-- The quotient before it is rounded has enough bits. -/
theorem divCore_bound {m₁ j₁ m₂ j₂ : Nat} (positive₁ : 0 < m₁) (positive₂ : 0 < m₂)
    (small : m₁ * 2 ^ j₁ ≤ 16 * (m₂ * 2 ^ j₂)) :
    ∃ (q p : Nat) (accuracy : Accuracy),
      divCore .binary32 m₁ (j₁ - 149) m₂ (j₂ - 149) = (q, -(p : Int), accuracy) ∧
      q * (m₂ * 2 ^ j₂) ≤ m₁ * 2 ^ j₁ * 2 ^ p ∧ q ≤ 2 ^ (p + 4) ∧
      -(p : Int) ≤ Format.binary32.targetExponent (totalExponent q (-p)) := by
  have logs : m₁.log2 + j₁ ≤ m₂.log2 + (j₂ + 4) := by
    rw [← log2_mul_two_pow positive₁, ← log2_mul_two_pow positive₂, Nat.le_log2 (by positivity)]
    refine Nat.le_trans (Nat.log2_self_le (by positivity)) (Nat.le_trans small (Nat.le_of_eq ?_))
    rw [Nat.pow_add, Nat.mul_left_comm, Nat.mul_comm 16]
  have width : Format.binary32.targetExponent (totalExponent m₁ (j₁ - 149) -
      totalExponent m₂ (j₂ - 149)) = max ((m₁.log2 + j₁ - m₂.log2 - j₂ : Int) - 24) (-149) := by
    simp only [Format.targetExponent, totalExponent, Format.mantissaBits, Format.minExponent]
    omega
  rcases Int.exists_eq_neg_ofNat (show min ((j₁ : Int) - 149 - (j₂ - 149))
    (max ((m₁.log2 + j₁ - m₂.log2 - j₂ : Int) - 24) (-149)) ≤ 0 by omega) with ⟨p, exponent⟩
  obtain ⟨t, amount⟩ : ∃ t : Nat, t + j₂ = j₁ + p := ⟨j₁ + p - j₂, by omega⟩
  have steps : ((j₁ : Int) - 149 - (j₂ - 149) - -p).toNat = t := by omega
  have below : m₁ * 2 ^ t / m₂ * (m₂ * 2 ^ j₂) ≤ m₁ * 2 ^ j₁ * 2 ^ p := by
    calc m₁ * 2 ^ t / m₂ * (m₂ * 2 ^ j₂) = m₁ * 2 ^ t / m₂ * m₂ * 2 ^ j₂ :=
          (Nat.mul_assoc _ _ _).symm
      _ ≤ m₁ * 2 ^ t * 2 ^ j₂ := Nat.mul_le_mul_right _ (Nat.div_mul_le_self _ _)
      _ = m₁ * 2 ^ j₁ * 2 ^ p := by
          rw [Nat.mul_assoc, Nat.mul_assoc, ← Nat.pow_add, ← Nat.pow_add, amount]
  refine ⟨m₁ * 2 ^ t / m₂, p, accuracyOfFraction (m₁ * 2 ^ t % m₂) m₂, ?_, below, ?_, ?_⟩
  · simp only [divCore, width, exponent, steps, Nat.shiftLeft_eq]
  · refine Nat.le_of_mul_le_mul_right (Nat.le_trans below ?_)
      (show 0 < m₂ * 2 ^ j₂ by positivity)
    calc m₁ * 2 ^ j₁ * 2 ^ p ≤ 16 * (m₂ * 2 ^ j₂) * 2 ^ p := Nat.mul_le_mul_right _ small
      _ = 2 ^ (p + 4) * (m₂ * 2 ^ j₂) := by rw [Nat.pow_add]; ring
  · simp only [Format.targetExponent, totalExponent, Format.mantissaBits, Format.minExponent]
    rcases lt_or_ge (-149) ((m₁.log2 + j₁ - m₂.log2 - j₂ : Int) - 24) with normal | low
    · have lowest : 2 ^ 23 ≤ m₁ * 2 ^ t / m₂ := by
        rw [Nat.le_div_iff_mul_le positive₂]
        calc 2 ^ 23 * m₂ ≤ 2 ^ 23 * 2 ^ (m₂.log2 + 1) :=
              Nat.mul_le_mul_left _ (Nat.le_of_lt Nat.lt_log2_self)
          _ ≤ 2 ^ m₁.log2 * 2 ^ t := by
              rw [← Nat.pow_add, ← Nat.pow_add]
              exact Nat.pow_le_pow_right (by decide) (by omega)
          _ ≤ m₁ * 2 ^ t :=
              Nat.mul_le_mul_right _ (Nat.log2_self_le (Nat.ne_of_gt positive₁))
      have log : 23 ≤ (m₁ * 2 ^ t / m₂).log2 := (Nat.le_log2 (by omega)).mpr lowest
      omega
    · omega

/-- The error of a rounded quotient `c` of `a` and `b`, whose `q` has been cut off. -/
theorem quotient_error {a b c p q ulp : Nat} (cut : q * b ≤ a * 2 ^ p)
    (bound : c * 2 ^ p ≤ q * 2 ^ 149 + ulp * 2 ^ p)
    (ulps : ulp = 1 ∨ 2 ^ 23 * (ulp * 2 ^ p) ≤ q * 2 ^ 149) :
    2 ^ 23 * (c * b) ≤ (2 ^ 23 + 1) * (a * 2 ^ 149) + 2 ^ 23 * b := by
  have whole : q * 2 ^ 149 * b ≤ a * 2 ^ 149 * 2 ^ p := by
    calc q * 2 ^ 149 * b = q * b * 2 ^ 149 := Nat.mul_right_comm _ _ _
      _ ≤ a * 2 ^ p * 2 ^ 149 := Nat.mul_le_mul_right _ cut
      _ = a * 2 ^ 149 * 2 ^ p := Nat.mul_right_comm _ _ _
  have quotient : c * b ≤ a * 2 ^ 149 + ulp * b := by
    refine Nat.le_of_mul_le_mul_right ?_ (Nat.two_pow_pos p)
    calc c * b * 2 ^ p = c * 2 ^ p * b := Nat.mul_right_comm _ _ _
      _ ≤ (q * 2 ^ 149 + ulp * 2 ^ p) * b := Nat.mul_le_mul_right _ bound
      _ = q * 2 ^ 149 * b + ulp * b * 2 ^ p := by rw [Nat.add_mul, Nat.mul_right_comm ulp]
      _ ≤ a * 2 ^ 149 * 2 ^ p + ulp * b * 2 ^ p := Nat.add_le_add_right whole _
      _ = (a * 2 ^ 149 + ulp * b) * 2 ^ p := (Nat.add_mul _ _ _).symm
  rcases ulps with rfl | relative
  · omega
  · have part : 2 ^ 23 * (ulp * b) ≤ a * 2 ^ 149 := by
      refine Nat.le_of_mul_le_mul_right ?_ (Nat.two_pow_pos p)
      calc 2 ^ 23 * (ulp * b) * 2 ^ p = 2 ^ 23 * (ulp * 2 ^ p) * b := by ac_rfl
        _ ≤ q * 2 ^ 149 * b := Nat.mul_le_mul_right _ relative
        _ ≤ a * 2 ^ 149 * 2 ^ p := whole
    omega

/-- A quotient is larger than it should be by one part in `2 ^ 23` at most, or by a unit. -/
theorem Value.div {x y : Float32} {a b : Nat} (first : Value x a) (second : Value y b)
    (positive : 0 < b) (small : a ≤ 16 * b) :
    ∃ c, Value (x / y) c ∧ 2 ^ 23 * (c * b) ≤ (2 ^ 23 + 1) * (a * 2 ^ 149) + 2 ^ 23 * b := by
  have quotient : (x / y).toModel =
      .pack (UnpackedFloat.div .binary32 x.toModel.unpack y.toModel.unpack) := rfl
  simp only [Value, quotient]
  rw [Value] at first second
  revert first second
  generalize x.toModel.unpack = left
  generalize y.toModel.unpack = right
  intro first second
  cases second with
  | zero => exact absurd positive (Nat.lt_irrefl 0)
  | @finite m₂ j₂ positive₂ upper₂ full₂ most₂ =>
      cases first with
      | zero =>
          refine ⟨0, value_pack .zero, ?_⟩
          rw [Nat.zero_mul, Nat.mul_zero]
          exact Nat.zero_le _
      | @finite m₁ j₁ positive₁ upper₁ full₁ most₁ =>
          rcases divCore_bound positive₁ positive₂ small with
            ⟨q, p, accuracy, core, below, fits, bits⟩
          rcases roundWithAccuracy_bound accuracy bits fits with ⟨c, ulp, units, bound, ulps⟩
          have rounds : UnpackedFloat.div .binary32 (.finite .positive m₁ (j₁ - 149) positive₁)
              (.finite .positive m₂ (j₂ - 149) positive₂) =
                roundWithAccuracy .binary32 .positive q (-(p : Int)) accuracy := by
            simp only [UnpackedFloat.div, core]
            rfl
          rw [← rounds] at units
          exact ⟨c, value_pack units, quotient_error below bound ulps⟩

/-- Zero divided by zero is no number. -/
theorem Value.zero_div {x y : Float32} (first : Value x 0) (second : Value y 0) :
    (x / y).isNaN = true := by
  have zero {z : UnpackedFloat} (units : Units z 0) : z = .zero .positive := by
    generalize none : 0 = n at units
    cases units with
    | zero => rfl
    | @finite m j positive =>
        exact absurd none (Nat.ne_of_lt (Nat.mul_pos positive (Nat.two_pow_pos j)))
  have quotient : (x / y).toModel =
      .pack (UnpackedFloat.div .binary32 x.toModel.unpack y.toModel.unpack) := rfl
  have test : (x / y).isNaN = (x / y).toModel.unpack.isNaN := rfl
  rw [test, quotient, zero first, zero second]
  rfl

theorem Value.isNaN_eq {x : Float32} {n : Nat} (value : Value x n) : x.isNaN = false := by
  have test : x.isNaN = x.toModel.unpack.isNaN := rfl
  rw [Value] at value
  rw [test]
  revert value
  generalize x.toModel.unpack = stored
  intro value
  cases value <;> rfl

/-! ## Comparison -/

/-- A full mantissa with a larger exponent is larger. -/
theorem exponent_less {m₁ m₂ j₁ j₂ : Nat} (upper : m₁ < 2 ^ 24) (full : 2 ^ 23 ≤ m₂ ∨ j₂ = 0)
    (less : j₁ < j₂) : m₁ * 2 ^ j₁ < m₂ * 2 ^ j₂ := by
  have lower : 2 ^ 23 ≤ m₂ := full.resolve_right (by omega)
  calc m₁ * 2 ^ j₁ < 2 ^ 24 * 2 ^ j₁ := Nat.mul_lt_mul_of_pos_right upper (Nat.two_pow_pos _)
    _ = 2 ^ 23 * 2 ^ (j₁ + 1) := by rw [Nat.pow_succ]; omega
    _ ≤ 2 ^ 23 * 2 ^ j₂ := Nat.mul_le_mul_left _ (Nat.pow_le_pow_right (by decide) less)
    _ ≤ m₂ * 2 ^ j₂ := Nat.mul_le_mul_right _ lower

theorem Units.compare {x y : UnpackedFloat} {a b : Nat} (first : Units x a) (second : Units y b) :
    UnpackedFloat.compare x y = some (Ord.compare a b) := by
  cases first with
  | zero =>
      cases second with
      | zero => rfl
      | @finite m j positive _ _ _ =>
          have above : 0 < m * 2 ^ j := Nat.mul_pos positive (Nat.two_pow_pos j)
          exact congrArg some (Nat.compare_eq_lt.mpr above).symm
  | @finite m₁ j₁ positive₁ upper₁ full₁ _ =>
      cases second with
      | zero =>
          have above : 0 < m₁ * 2 ^ j₁ := Nat.mul_pos positive₁ (Nat.two_pow_pos j₁)
          exact congrArg some (Nat.compare_eq_gt.mpr above).symm
      | @finite m₂ j₂ positive₂ upper₂ full₂ _ =>
          simp only [UnpackedFloat.compare]
          rcases Nat.lt_trichotomy j₁ j₂ with less | rfl | more
          · rw [Int.compare_eq_lt.mpr (by omega),
              Nat.compare_eq_lt.mpr (exponent_less upper₁ full₂ less)]
            rfl
          · have scaled : Ord.compare (m₁ * 2 ^ j₁) (m₂ * 2 ^ j₁) = Ord.compare m₁ m₂ := by
              rcases Nat.lt_trichotomy m₁ m₂ with less | rfl | more
              · rw [Nat.compare_eq_lt.mpr less, Nat.compare_eq_lt.mpr
                  (Nat.mul_lt_mul_of_pos_right less (Nat.two_pow_pos _))]
              · rw [Nat.compare_eq_eq.mpr rfl, Nat.compare_eq_eq.mpr rfl]
              · rw [Nat.compare_eq_gt.mpr more, Nat.compare_eq_gt.mpr
                  (Nat.mul_lt_mul_of_pos_right more (Nat.two_pow_pos _))]
            rw [Int.compare_eq_eq.mpr rfl, scaled]
            rfl
          · rw [Int.compare_eq_gt.mpr (by omega),
              Nat.compare_eq_gt.mpr (exponent_less upper₂ full₁ more)]
            rfl

theorem Value.lt_iff {x y : Float32} {a b : Nat} (first : Value x a) (second : Value y b) :
    Float32.lt x y = true ↔ a < b := by
  have less : Float32.lt x y = (x.toModel.unpack.compare y.toModel.unpack == some .lt) :=
    Bool.decide_eq_true
  rw [less, first.compare second, ← Nat.compare_eq_lt]
  cases Ord.compare a b <;> decide

theorem Value.le_iff {x y : Float32} {a b : Nat} (first : Value x a) (second : Value y b) :
    Float32.le x y = true ↔ a ≤ b := by
  have below : Float32.le x y = (x.toModel.unpack.compare y.toModel.unpack).any (·.isLE) :=
    Bool.decide_eq_true
  rw [below, first.compare second, ← Nat.compare_ne_gt]
  cases Ord.compare a b <;> decide

/-! ## Bit patterns -/

/-- The fields of a pattern without a sign. -/
theorem unpackExponent_toNat {bits : BitVec 32} (unsigned : bits.toNat < 2 ^ 31) :
    (@unpackExponent .binary32 bits).toNat = bits.toNat / 2 ^ 23 := by
  simp [unpackExponent, BitVec.extractLsb, BitVec.extractLsb', Nat.shiftRight_eq_div_pow]
  omega

theorem unpackMantissa_toNat (bits : BitVec 32) :
    (@unpackMantissa .binary32 bits).toNat = bits.toNat % 2 ^ 23 := by
  simp [unpackMantissa, BitVec.extractLsb, BitVec.extractLsb']

theorem unpackSign_eq_zero {bits : BitVec 32} (unsigned : bits.toNat < 2 ^ 31) :
    @unpackSign .binary32 bits = 0#1 := by
  apply BitVec.eq_of_toNat_eq
  simp [unpackSign, BitVec.extractLsb, BitVec.extractLsb', Nat.shiftRight_eq_div_pow]
  omega

theorem leading_bit (mantissa : BitVec 23) : (1#1 ++ mantissa).toNat = 2 ^ 23 + mantissa.toNat := by
  rw [BitVec.toNat_append, ← Nat.shiftLeft_add_eq_or_of_lt (BitVec.isLt _), Nat.shiftLeft_eq]
  rfl

theorem units_finite {m j : Nat} {e : Int} (positive : 0 < m) (upper : m < 2 ^ 24)
    (full : 2 ^ 23 ≤ m ∨ j = 0) (most : j ≤ 253) (exponent : e = j - 149) :
    Units (.finite .positive m e positive) (m * 2 ^ j) := by
  subst exponent
  exact .finite positive upper full most

theorem unpack_units {bits : BitVec 32} (most : bits.toNat ≤ 127 * 2 ^ 23) :
    ∃ n, Units (UnpackedFloat.unpack .binary32 bits) n ∧ n ≤ 2 ^ 149 ∧
      (0 < bits.toNat → 0 < n) := by
  have unsigned : bits.toNat < 2 ^ 31 := by omega
  have exponent := unpackExponent_toNat unsigned
  have mantissa := unpackMantissa_toNat bits
  have short : bits.toNat % 2 ^ 23 < 2 ^ 23 := Nat.mod_lt _ (by decide)
  have finite : @unpackExponent .binary32 bits ≠ -1#8 := by
    intro same
    rw [same] at exponent
    simp at exponent
    omega
  rw [UnpackedFloat.unpack]
  simp only [unpackSign_eq_zero unsigned]
  rw [if_neg finite]
  by_cases subnormal : @unpackExponent .binary32 bits = 0#8
  · have small : bits.toNat < 2 ^ 23 := by
      rw [subnormal] at exponent
      simp at exponent
      omega
    rw [if_pos subnormal]
    by_cases none : @unpackMantissa .binary32 bits = 0#23
    · have zero : bits.toNat = 0 := by
        rw [none] at mantissa
        simp at mantissa
        omega
      rw [dif_pos none]
      exact ⟨0, .zero, by positivity, by omega⟩
    · have positive : 0 < (@unpackMantissa .binary32 bits).toNat :=
        Nat.pos_of_ne_zero fun zero => none (BitVec.eq_of_toNat_eq zero)
      have power : 2 ^ 23 ≤ 2 ^ 149 := Nat.pow_le_pow_right (by decide) (by decide)
      rw [dif_neg none]
      refine ⟨_, units_finite (j := 0) positive (by omega) (.inr rfl) (by decide) ?_, ?_, ?_⟩
      · rw [subnormal]
        rfl
      · omega
      · omega
  · have set : 0 < bits.toNat / 2 ^ 23 := by
      refine Nat.pos_of_ne_zero fun zero => subnormal (BitVec.eq_of_toNat_eq ?_)
      rw [exponent, zero]
      rfl
    have whole := leading_bit (@unpackMantissa .binary32 bits)
    have bias : (Format.binary32.exponentBias : Int) = 127 := rfl
    rw [if_neg subnormal]
    refine ⟨_, units_finite (j := bits.toNat / 2 ^ 23 - 1) (by omega) (by omega) (.inl (by omega))
      (by omega) (by omega), ?_, fun _ => Nat.mul_pos (by omega) (by positivity)⟩
    rw [whole, mantissa]
    rcases Nat.lt_or_ge (bits.toNat / 2 ^ 23) 127 with below | last
    · calc (2 ^ 23 + bits.toNat % 2 ^ 23) * 2 ^ (bits.toNat / 2 ^ 23 - 1) ≤ 2 ^ 24 * 2 ^ 125 :=
            Nat.mul_le_mul (by omega) (Nat.pow_le_pow_right (by decide) (by omega))
        _ = 2 ^ 149 := by rw [← Nat.pow_add]
    · have one : bits.toNat = 127 * 2 ^ 23 := by omega
      rw [one]
      decide

/-- A pattern that is not above the one of `1.0` has a value of at most one, which is
positive when the pattern is. -/
theorem value_ofBits {bits : UInt32} (most : bits.toNat ≤ 127 * 2 ^ 23) :
    ∃ n, Value (Float32.ofBits bits) n ∧ n ≤ 2 ^ 149 ∧ (0 < bits.toNat → 0 < n) := by
  rcases unpack_units most with ⟨n, units, bounds⟩
  exact ⟨n, value_pack units, bounds⟩

/-! ## Means -/

/-- What one rounded sum can add to the quotient of two sums. -/
def growth : ℚ := (2 ^ 24 + 1) / (2 ^ 24 - 1)

theorem one_le_growth : 1 ≤ growth := by
  norm_num [growth]

/-- A sum and a weighted sum stay in proportion when both are rounded. -/
theorem mean_step {a b n k most : Nat} (weight : k ≤ most) {r : ℚ} (large : growth ≤ r)
    (ordered : (b : ℚ) ≤ most * r * a) :
    (nearest (b + nearest (k * n)) : ℚ) ≤ most * (r * growth) * nearest (a + n) := by
  have product : (2 ^ 24 * nearest (k * n) : ℚ) ≤ (2 ^ 24 + 1) * (k * n) := by
    exact_mod_cast (nearest_bounds (k * n)).1
  have weighted : (2 ^ 24 * nearest (b + nearest (k * n)) : ℚ) ≤
      (2 ^ 24 + 1) * (b + nearest (k * n)) := by
    exact_mod_cast (nearest_bounds (b + nearest (k * n))).1
  have plain : (16777215 * (a + n) : ℚ) ≤ 16777216 * nearest (a + n) := by
    have lower := (nearest_bounds (a + n)).2
    norm_num at lower
    exact_mod_cast lower
  have term : (nearest (k * n) : ℚ) ≤ most * r * n := by
    have factor : ((2 ^ 24 + 1) / 2 ^ 24 : ℚ) ≤ r := le_trans (by norm_num [growth]) large
    have bound : (k * n : ℚ) ≤ most * n := by
      have cast : (k : ℚ) ≤ most := by exact_mod_cast weight
      gcongr
    calc (nearest (k * n) : ℚ) ≤ (2 ^ 24 + 1) / 2 ^ 24 * (k * n) := by linarith
      _ ≤ r * (most * n) := by gcongr
      _ = most * r * n := by ring
  have both : (b + nearest (k * n) : ℚ) ≤ most * r * (a + n) := by
    calc (b + nearest (k * n) : ℚ) ≤ most * r * a + most * r * n := add_le_add ordered term
      _ = most * r * (a + n) := by ring
  have nonneg : (0 : ℚ) ≤ most * r :=
    mul_nonneg most.cast_nonneg (le_trans zero_le_one (le_trans one_le_growth large))
  calc (nearest (b + nearest (k * n)) : ℚ)
      ≤ (2 ^ 24 + 1) / 2 ^ 24 * (b + nearest (k * n)) := by linarith
    _ ≤ (2 ^ 24 + 1) / 2 ^ 24 * (most * r * (a + n)) := by gcongr
    _ = most * r * ((2 ^ 24 + 1) / 2 ^ 24 * (a + n)) := by ring
    _ ≤ most * r * (growth * nearest (a + n)) := by
        refine mul_le_mul_of_nonneg_left ?_ nonneg
        norm_num [growth]
        linarith
    _ = most * (r * growth) * nearest (a + n) := by ring

end SinglePrecision
