import Mathlib
import ShortcutRelay.Decimal.Binary
import ShortcutRelay.Decimal.Whole

/-!
# Doubles that are whole numbers

Whole numbers below `2 ^ 53` are doubles, and what is computed from them is exact where the result
is such a number again.

* `wholeDouble s k` : the double `k` with sign `s`;
* `roundWithAccuracy_whole` : rounding leaves it alone, `normalize_whole`, `mul_whole`, `div_whole` :
  how it arises;
* `ofInt_positive`, `ofInt_negative` : it is what a whole number is converted to;
* `ofFloat_wholeDouble` : its exact value;
* `sub_self` : the difference of a finite double and itself;
* `unpack_ofNat_large`, `isWritable_of_ofInteger?` : a number that fits a double has few digits.
-/

namespace ShortcutRelay.Decimal
open Float.Model Float.Model.UnpackedFloat

/-! ## Shifts -/

theorem shiftRight_exact (a n : Nat) :
    (⟨a * 2 ^ n, false, false⟩ : ExtendedMantissa) >>> n = ⟨a, false, false⟩ := by
  induction n generalizing a with
  | zero => simp [HShiftRight.hShiftRight, Nat.repeat]
  | succ n ih =>
    have half : a * 2 ^ (n + 1) = (a * 2) * 2 ^ n := by
      rw [Nat.pow_succ']
      exact (Nat.mul_assoc ..).symm
    rw [half]
    change ExtendedMantissa.shiftRightOne
      ((⟨(a * 2) * 2 ^ n, false, false⟩ : ExtendedMantissa) >>> n) = _
    rw [ih]
    simp [ExtendedMantissa.shiftRightOne]

theorem targetExponent_binary64 (t : Int) :
    Format.binary64.targetExponent t = max (t - 53) (-1074) := rfl

theorem log2_mul_two_pow {k : Nat} (h : 0 < k) (n : Nat) : (k * 2 ^ n).log2 = k.log2 + n := by
  have positive : 0 < k * 2 ^ n := Nat.mul_pos h (Nat.two_pow_pos n)
  have lower := Nat.log2_self_le (Nat.ne_of_gt h)
  have upper := @Nat.lt_log2_self k
  apply Nat.le_antisymm
  · apply Nat.le_of_lt_succ
    rw [Nat.log2_lt (Nat.ne_of_gt positive)]
    calc k * 2 ^ n < 2 ^ (k.log2 + 1) * 2 ^ n := Nat.mul_lt_mul_of_pos_right upper (Nat.two_pow_pos n)
      _ = 2 ^ (k.log2 + n + 1) := by rw [← Nat.pow_add]; congr 1; omega
  · rw [Nat.le_log2 (Nat.ne_of_gt positive), Nat.pow_add]
    exact Nat.mul_le_mul_right _ lower

/-- A whole number fills a mantissa of 53 bits. -/
theorem shiftToTarget_whole {k j : Nat} (positive : 0 < k) (small : k.log2 ≤ 52)
    (room : 52 ≤ k.log2 + j) :
    shiftToTargetExponent Format.binary64 (k * 2 ^ j) (-j) .exact =
      (⟨k * 2 ^ (52 - k.log2), false, false⟩, (k.log2 : Int) - 52) := by
  have target : Format.binary64.targetExponent (totalExponent (k * 2 ^ j) (-j)) = (k.log2 : Int) - 52 := by
    rw [targetExponent_binary64, totalExponent, log2_mul_two_pow positive]
    omega
  have split : k * 2 ^ j = k * 2 ^ (52 - k.log2) * 2 ^ (k.log2 + j - 52) := by
    rw [Nat.mul_assoc, ← Nat.pow_add]
    congr 2
    omega
  have amount : ((k.log2 : Int) - 52 - -(j : Int)).toNat = k.log2 + j - 52 := by omega
  unfold shiftToTargetExponent shiftToExponent
  simp only [target, amount, ExtendedMantissa.ofMantissaAndAccuracy]
  rw [split, shiftRight_exact]
  congr 1
  omega

/-! ## Whole doubles -/

def wholeParts (s : Sign) {k : Nat} (positive : 0 < k) : UnpackedFloat :=
  .finite s (k * 2 ^ (52 - k.log2)) ((k.log2 : Int) - 52)
    (Nat.mul_pos positive (Nat.two_pow_pos _))

/-- The double `k` with sign `s`, where `k` is a positive whole number below `2 ^ 53`. -/
def wholeDouble (s : Sign) {k : Nat} (positive : 0 < k) : Float :=
  .ofModel (.pack (wholeParts s positive))

theorem log2_le_of_lt {k : Nat} (positive : 0 < k) (small : k < 2 ^ 53) : k.log2 ≤ 52 :=
  Nat.le_of_lt_succ ((Nat.log2_lt (Nat.ne_of_gt positive)).mpr small)

theorem roundWithAccuracy_whole (s : Sign) {k j : Nat} (positive : 0 < k) (small : k < 2 ^ 53)
    (room : 52 ≤ k.log2 + j) :
    roundWithAccuracy Format.binary64 s (k * 2 ^ j) (-j) .exact = wholeParts s positive := by
  have bits := log2_le_of_lt positive small
  have again := shiftToTarget_whole (j := 52 - k.log2) positive bits (by omega)
  have exponent : -((52 - k.log2 : Nat) : Int) = (k.log2 : Int) - 52 := by omega
  rw [exponent] at again
  have kept : (⟨k * 2 ^ (52 - k.log2), false, false⟩ : ExtendedMantissa).roundedMantissa =
      k * 2 ^ (52 - k.log2) := rfl
  unfold roundWithAccuracy
  rw [shiftToTarget_whole positive bits room]
  simp only [kept, again]
  rw [dif_neg (Nat.ne_of_gt (Nat.mul_pos positive (Nat.two_pow_pos _)))]
  rfl

theorem normalize_whole {k : Nat} (positive : 0 < k) (small : k < 2 ^ 53) (zero : Sign) :
    UnpackedFloat.normalize Format.binary64 k 0 zero = wholeParts .positive positive := by
  have bits := log2_le_of_lt positive small
  have target : Format.binary64.targetExponent (totalExponent k 0) = (k.log2 : Int) - 52 := by
    rw [targetExponent_binary64, totalExponent]
    omega
  have amount : (0 - ((k.log2 : Int) - 52)).toNat = 52 - k.log2 := by omega
  have exponent : (0 : Int) - ((52 - k.log2 : Nat) : Int) = -((52 - k.log2 : Nat) : Int) := by omega
  have sign : compare (k : Int) 0 = .gt := by
    rw [Int.compare_eq_gt]
    omega
  unfold UnpackedFloat.normalize
  rw [sign]
  simp only [UnpackedFloat.round, decreaseExponent, Int.toNat_natCast, target, amount,
    Nat.shiftLeft_eq, exponent]
  exact roundWithAccuracy_whole .positive positive small (by omega)

/-! ## Bits -/

theorem mantissa_bounds {k : Nat} (positive : 0 < k) (small : k < 2 ^ 53) :
    2 ^ 52 ≤ k * 2 ^ (52 - k.log2) ∧ k * 2 ^ (52 - k.log2) < 2 ^ 53 := by
  have bits := log2_le_of_lt positive small
  have lower := Nat.mul_le_mul_right (2 ^ (52 - k.log2)) (Nat.log2_self_le (Nat.ne_of_gt positive))
  have upper := Nat.mul_lt_mul_of_pos_right (@Nat.lt_log2_self k) (Nat.two_pow_pos (52 - k.log2))
  rw [← Nat.pow_add] at lower upper
  have low : k.log2 + (52 - k.log2) = 52 := by omega
  have high : k.log2 + 1 + (52 - k.log2) = 53 := by omega
  rw [low] at lower
  rw [high] at upper
  exact ⟨lower, upper⟩

theorem pack_wholeParts (s : Sign) {k : Nat} (positive : 0 < k) (small : k < 2 ^ 53) :
    UnpackedFloat.pack Format.binary64 (wholeParts s positive) =
      packComponents Format.binary64 s (BitVec.ofNat 11 (k.log2 + 1023))
        (BitVec.ofNat 52 (k * 2 ^ (52 - k.log2))) := by
  have bits := log2_le_of_lt positive small
  have log : (k * 2 ^ (52 - k.log2)).log2 + 1 = Format.binary64.mantissaBits := by
    rw [log2_mul_two_pow positive]
    change k.log2 + (52 - k.log2) + 1 = 53
    omega
  have biased : ((k.log2 : Int) - 52 + Format.binary64.exponentBias +
      Format.binary64.mantissaBitsWithoutImplicit).toNat = k.log2 + 1023 := by
    change ((k.log2 : Int) - 52 + 1023 + 52).toNat = k.log2 + 1023
    omega
  have fits : ¬ 2 ^ Format.binary64.exponentBits ≤ k.log2 + 1023 + 1 := by
    change ¬ 2048 ≤ k.log2 + 1023 + 1
    omega
  unfold wholeParts UnpackedFloat.pack
  simp only [biased, if_neg fits, if_pos log]

theorem toNat_packComponents (s : Sign) (e : BitVec 11) (m : BitVec 52) :
    (packComponents Format.binary64 s e m).toNat =
      (s.toBitVec.toNat * 2 ^ 11 + e.toNat) * 2 ^ 52 + m.toNat := by
  change (s.toBitVec ++ e ++ m).toNat = _
  rw [BitVec.toNat_append, BitVec.toNat_append, ← Nat.shiftLeft_add_eq_or_of_lt m.isLt,
    ← Nat.shiftLeft_add_eq_or_of_lt e.isLt, Nat.shiftLeft_eq, Nat.shiftLeft_eq]

theorem unpack_pack_wholeParts (s : Sign) {k : Nat} (positive : 0 < k) (small : k < 2 ^ 53) :
    UnpackedFloat.unpack Format.binary64 (UnpackedFloat.pack Format.binary64 (wholeParts s positive)) =
      wholeParts s positive := by
  have bits := log2_le_of_lt positive small
  obtain ⟨lower, upper⟩ := mantissa_bounds positive small
  have exponent : (BitVec.ofNat 11 (k.log2 + 1023)).toNat = k.log2 + 1023 := by
    rw [BitVec.toNat_ofNat]
    omega
  have not_all : BitVec.ofNat 11 (k.log2 + 1023) ≠ -1#11 := by
    intro h
    have := congrArg BitVec.toNat h
    rw [exponent] at this
    change k.log2 + 1023 = 2047 at this
    omega
  have not_zero : BitVec.ofNat 11 (k.log2 + 1023) ≠ 0#11 := by
    intro h
    have := congrArg BitVec.toNat h
    rw [exponent] at this
    change k.log2 + 1023 = 0 at this
    omega
  have mantissa : (1#1 ++ BitVec.ofNat 52 (k * 2 ^ (52 - k.log2))).toNat = k * 2 ^ (52 - k.log2) := by
    have fraction : (BitVec.ofNat 52 (k * 2 ^ (52 - k.log2))).toNat = k * 2 ^ (52 - k.log2) % 2 ^ 52 :=
      BitVec.toNat_ofNat ..
    rw [BitVec.toNat_append, ← Nat.shiftLeft_add_eq_or_of_lt (BitVec.isLt _), Nat.shiftLeft_eq, fraction]
    change 1 * 2 ^ 52 + _ = _
    omega
  have sign : Sign.ofBitVec s.toBitVec = s := by cases s <;> rfl
  have unbiased : ((k.log2 + 1023 : Nat) : Int) -
      (Format.binary64.exponentBias + Format.binary64.mantissaBitsWithoutImplicit) =
        (k.log2 : Int) - 52 := by
    change ((k.log2 + 1023 : Nat) : Int) - (1023 + 52) = _
    omega
  rw [pack_wholeParts s positive small]
  unfold UnpackedFloat.unpack
  simp only [unpackMantissa_packComponents, unpackExponent_packComponents,
    unpackSign_packComponents, if_neg not_all, if_neg not_zero, sign, exponent, unbiased, mantissa]
  rfl

theorem unpack_wholeDouble (s : Sign) {k : Nat} (positive : 0 < k) (small : k < 2 ^ 53) :
    (wholeDouble s positive).toModel.unpack = wholeParts s positive :=
  unpack_pack_wholeParts s positive small

/-! ## Operations -/

theorem toFloat_whole {k : Nat} (positive : 0 < k) (small : k < 2 ^ 53) :
    k.toUInt64.toFloat = wholeDouble .positive positive := by
  have kept : k.toUInt64.toNat = k := by
    change k % 2 ^ 64 = k
    omega
  change Float.ofModel
    (.pack (UnpackedFloat.normalize Format.binary64 (k.toUInt64.toNat : Int) 0 .positive)) = _
  rw [kept, normalize_whole positive small]
  rfl

theorem neg_wholeDouble {k : Nat} (positive : 0 < k) (small : k < 2 ^ 53) :
    -wholeDouble .positive positive = wholeDouble .negative positive := by
  change Float.ofModel (.pack (neg (wholeDouble .positive positive).toModel.unpack)) = _
  rw [unpack_wholeDouble .positive positive small]
  rfl

/-- A product that is a whole number is exact. -/
theorem mul_whole {k j m₁ m₂ : Nat} {e₁ e₂ : Int} (h₁ : 0 < m₁) (h₂ : 0 < m₂) (positive : 0 < k)
    (small : k < 2 ^ 53) (room : 52 ≤ k.log2 + j) (exponent : e₁ + e₂ = -j)
    (exact : m₁ * m₂ = k * 2 ^ j) :
    mul Format.binary64 (.finite .positive m₁ e₁ h₁) (.finite .positive m₂ e₂ h₂) =
      wholeParts .positive positive := by
  unfold UnpackedFloat.mul
  simp only [exponent, exact]
  exact roundWithAccuracy_whole .positive positive small room

theorem ofNat_eq_wholeDouble {k : Nat} (positive : 0 < k) (small : k < 2 ^ 53) :
    Float.ofNat k = wholeDouble .positive positive := by
  have bits := log2_le_of_lt positive small
  have fast : k < 2 ^ 53 ∧ 0 ≤ 22 := ⟨small, by decide⟩
  have one : (Float.ofBits 0x3FF0000000000000).toModel.unpack =
      .finite .positive (2 ^ 52) (-52) (by decide) := by rfl
  have product : mul Format.binary64 (wholeParts .positive positive)
      (.finite .positive (2 ^ 52) (-52) (by decide)) = wholeParts .positive positive := by
    apply mul_whole (j := 104 - k.log2) _ _ positive small
    · omega
    · omega
    · rw [Nat.mul_assoc, ← Nat.pow_add]
      congr 2
      omega
  change Float.ofScientific k false 0 = _
  unfold Float.ofScientific
  rw [dif_pos fast]
  change k.toUInt64.toFloat * Float.ofBits 0x3FF0000000000000 = _
  rw [toFloat_whole positive small]
  change Float.ofModel (.pack (mul Format.binary64 (wholeDouble .positive positive).toModel.unpack
    (Float.ofBits 0x3FF0000000000000).toModel.unpack)) = _
  rw [unpack_wholeDouble .positive positive small, one, product]
  rfl

theorem ofInt_positive {k : Nat} (positive : 0 < k) (small : k < 2 ^ 53) :
    Float.ofInt k = wholeDouble .positive positive :=
  ofNat_eq_wholeDouble positive small

theorem ofInt_negative {k : Nat} (positive : 0 < k) (small : k < 2 ^ 53) :
    Float.ofInt (-(k : Int)) = wholeDouble .negative positive := by
  obtain ⟨n, rfl⟩ : ∃ n, k = n + 1 := ⟨k - 1, by omega⟩
  change -Float.ofNat (n + 1) = _
  rw [ofNat_eq_wholeDouble positive small, neg_wholeDouble positive small]

/-! ## Exact values -/

theorem toNat_bits_wholeDouble (s : Sign) {k : Nat} (positive : 0 < k) (small : k < 2 ^ 53) :
    (wholeDouble s positive).toBits.toNat =
      (s.toBitVec.toNat * 2 ^ 11 + (k.log2 + 1023)) * 2 ^ 52 + (k * 2 ^ (52 - k.log2) - 2 ^ 52) := by
  have bits := log2_le_of_lt positive small
  obtain ⟨lower, upper⟩ := mantissa_bounds positive small
  change (UnpackedFloat.pack Format.binary64 (wholeParts s positive)).toNat = _
  rw [pack_wholeParts s positive small, toNat_packComponents, BitVec.toNat_ofNat, BitVec.toNat_ofNat]
  omega

theorem ofFloat_wholeDouble (s : Sign) {k : Nat} (positive : 0 < k) (small : k < 2 ^ 53) :
    FloatValue.ofFloat (wholeDouble s positive) =
      .finite (s.toBitVec.toNat == 1) (k * 2 ^ (52 - k.log2)) ((k.log2 : Int) - 52) := by
  have bits := log2_le_of_lt positive small
  obtain ⟨lower, upper⟩ := mantissa_bounds positive small
  have sign := s.toBitVec.isLt
  have encoded := toNat_bits_wholeDouble s positive small
  have top : (wholeDouble s positive).toBits.toNat / 2 ^ 63 = s.toBitVec.toNat := by omega
  have middle : (wholeDouble s positive).toBits.toNat / 2 ^ 52 % 2 ^ 11 = k.log2 + 1023 := by omega
  have low : (wholeDouble s positive).toBits.toNat % 2 ^ 52 = k * 2 ^ (52 - k.log2) - 2 ^ 52 := by omega
  have not_special : (k.log2 + 1023 == 2047) = false := by
    rw [beq_eq_false_iff_ne]
    omega
  have not_tiny : (k.log2 + 1023 == 0) = false := by
    rw [beq_eq_false_iff_ne]
    omega
  have mantissa : 2 ^ 52 + (k * 2 ^ (52 - k.log2) - 2 ^ 52) = k * 2 ^ (52 - k.log2) := by omega
  have exponent : ((k.log2 + 1023 : Nat) : Int) - 1075 = (k.log2 : Int) - 52 := by omega
  unfold FloatValue.ofFloat
  simp only [Nat.pow_eq, top, middle, low, not_special, not_tiny, Bool.false_eq_true, if_false,
    mantissa, exponent]

/-! ## Differences -/

theorem sub_self_parts {u : UnpackedFloat} (h : u.isFinite = true) :
    UnpackedFloat.sub Format.binary64 u u = .zero .positive := by
  cases u with
  | notANumber => cases h
  | infinity s => cases h
  | zero s => cases s <;> rfl
  | finite s m e positive =>
    unfold UnpackedFloat.sub
    simp only [Int.sub_self]
    rfl

/-- A finite double less itself is zero. -/
theorem sub_self {x : Float} (h : x.isFinite = true) : x - x = 0.0 := by
  change Float.ofModel (.pack (UnpackedFloat.sub Format.binary64 x.toModel.unpack x.toModel.unpack)) = _
  rw [sub_self_parts h]
  decide

/-! ## Numbers outside the range -/

theorem mantissa_shiftRight (em : ExtendedMantissa) (n : Nat) :
    (em >>> n).mantissa = em.mantissa / 2 ^ n := by
  induction n generalizing em with
  | zero => simp [HShiftRight.hShiftRight, Nat.repeat]
  | succ n ih =>
    change (em >>> n).mantissa / 2 = _
    rw [ih, Nat.div_div_eq_div_mul, Nat.pow_succ]

theorem le_roundedMantissa (em : ExtendedMantissa) : em.mantissa ≤ em.roundedMantissa := by
  unfold ExtendedMantissa.roundedMantissa Accuracy.roundToNearestEven
  split <;> omega

/-- A shift to the target exponent leaves the first bits of a number. -/
theorem shiftToTarget_large {m : Nat} (positive : 0 < m) {e : Int} (accuracy : Accuracy)
    (large : 1025 ≤ totalExponent m e) :
    0 < (shiftToTargetExponent Format.binary64 m e accuracy).1.mantissa ∧
      totalExponent m e - 53 ≤ (shiftToTargetExponent Format.binary64 m e accuracy).2 := by
  have target : Format.binary64.targetExponent (totalExponent m e) = totalExponent m e - 53 := by
    rw [targetExponent_binary64]
    omega
  have given : (ExtendedMantissa.ofMantissaAndAccuracy m accuracy).mantissa = m := by
    unfold ExtendedMantissa.ofMantissaAndAccuracy
    split <;> rfl
  have lower := Nat.log2_self_le (Nat.ne_of_gt positive)
  unfold shiftToTargetExponent shiftToExponent
  simp only [target]
  rw [mantissa_shiftRight, given]
  refine ⟨Nat.div_pos (Nat.le_trans (Nat.pow_le_pow_right (by decide) ?_) lower) (Nat.two_pow_pos _),
    by omega⟩
  rw [totalExponent] at large ⊢
  omega

/-- A number far outside the range of doubles is rounded to infinity. -/
theorem pack_roundWithAccuracy_large (s : Sign) {m : Nat} (positive : 0 < m) {e : Int} (accuracy : Accuracy)
    (large : 1100 ≤ totalExponent m e) :
    pack Format.binary64 (roundWithAccuracy Format.binary64 s m e accuracy) =
      packedInfinity Format.binary64 s := by
  obtain ⟨some_bits, far⟩ := shiftToTarget_large positive accuracy (Int.le_trans (by decide) large)
  unfold roundWithAccuracy
  generalize shiftToTargetExponent Format.binary64 m e accuracy = first at some_bits far
  obtain ⟨em, e₁⟩ := first
  have rounded : 0 < em.roundedMantissa := Nat.lt_of_lt_of_le some_bits (le_roundedMantissa em)
  have large' : 1025 ≤ totalExponent em.roundedMantissa e₁ := by
    rw [totalExponent]
    change totalExponent m e - 53 ≤ e₁ at far
    omega
  obtain ⟨some_bits', far'⟩ := shiftToTarget_large rounded .exact large'
  dsimp only
  generalize shiftToTargetExponent Format.binary64 em.roundedMantissa e₁ .exact = second at some_bits' far'
  obtain ⟨em', e₂⟩ := second
  dsimp only at some_bits' far' ⊢
  rw [dif_neg (Nat.ne_of_gt some_bits')]
  unfold UnpackedFloat.pack
  simp only
  rw [if_pos]
  change 2 ^ 11 ≤ (e₂ + 1023 + 52).toNat + 1
  omega

theorem pack_ofScientific_large {k : Nat} (positive : 0 < k) (large : 1100 ≤ k.log2) :
    UnpackedFloat.pack Format.binary64 (UnpackedFloat.ofScientific Format.binary64 k 0) =
      packedInfinity Format.binary64 .positive := by
  have scaled : 0 < k <<< Format.binary64.mantissaBits * 10 ^ (0 : Int).toNat := by
    rw [Nat.shiftLeft_eq]
    exact Nat.mul_pos (Nat.mul_pos positive (Nat.two_pow_pos _)) (by decide)
  have product : UnpackedFloat.ofScientific Format.binary64 k 0 =
      roundWithAccuracy Format.binary64 (.positive * .positive)
        (k <<< Format.binary64.mantissaBits * 10 ^ (0 : Int).toNat)
        (-(Format.binary64.mantissaBits : Int) + 0) .exact := by
    unfold UnpackedFloat.ofScientific
    rw [dif_neg (Nat.ne_of_gt positive), if_neg (by decide), if_neg, if_pos (by decide)]
    · rw [UnpackedFloat.mul]
    · change ¬ (0 : Int) < -(2048 + (k.log2 : Int))
      omega
  have size : 1100 ≤ totalExponent (k <<< Format.binary64.mantissaBits * 10 ^ (0 : Int).toNat)
      (-(Format.binary64.mantissaBits : Int) + 0) := by
    have one : 10 ^ (0 : Int).toNat = 1 := rfl
    rw [totalExponent, Nat.shiftLeft_eq, one, Nat.mul_one, log2_mul_two_pow positive]
    omega
  have sign : Sign.positive * Sign.positive = .positive := rfl
  rw [product, sign, pack_roundWithAccuracy_large .positive scaled .exact size]

/-- A number far outside the range of doubles has no double. -/
theorem unpack_ofNat_large {k : Nat} (large : 1100 ≤ k.log2) :
    (Float.ofNat k).toModel.unpack = .infinity .positive := by
  have positive : 0 < k := by
    by_contra zero
    obtain rfl : k = 0 := by omega
    exact absurd large (by decide)
  have slow : ¬ (k < 2 ^ 53 ∧ 0 ≤ 22) := by
    rintro ⟨small, -⟩
    have := log2_le_of_lt positive small
    omega
  change (Float.ofScientific k false 0).toModel.unpack = _
  unfold Float.ofScientific
  rw [dif_neg slow]
  change UnpackedFloat.unpack Format.binary64
    (UnpackedFloat.pack Format.binary64 (UnpackedFloat.ofScientific Format.binary64 k 0)) = _
  rw [pack_ofScientific_large positive large]
  rfl

theorem isFinite_ofInt_large {n : Int} (large : 1100 ≤ n.natAbs.log2) : (Float.ofInt n).isFinite = false := by
  cases n with
  | ofNat k =>
    have infinite : (Float.ofNat k).toModel.unpack = .infinity .positive := unpack_ofNat_large large
    change (Float.ofNat k).toModel.unpack.isFinite = false
    rw [infinite]
    rfl
  | negSucc k =>
    have infinite : (Float.ofNat (k + 1)).toModel.unpack = .infinity .positive := unpack_ofNat_large large
    change (UnpackedFloat.unpack Format.binary64 (UnpackedFloat.pack Format.binary64
      (UnpackedFloat.neg (Float.ofNat (k + 1)).toModel.unpack))).isFinite = false
    rw [infinite]
    rfl

/-- A number that fits a double can be written. -/
theorem isWritable_of_ofInteger? {n : Int} {x : Float} (h : ofInteger? n = some x) : isWritable n = true := by
  by_contra long
  have least : Nat.pow 10 digitLimit ≤ n.natAbs := by
    simpa [isWritable] using long
  have bits : 1100 ≤ (Nat.pow 10 digitLimit).log2 := by decide +kernel
  have large : 1100 ≤ n.natAbs.log2 := by
    rw [Nat.log2_eq_log_two] at bits ⊢
    exact Nat.le_trans bits (Nat.log_mono_right least)
  unfold ofInteger? at h
  simp only [isFinite_ofInt_large large, Bool.false_eq_true, if_false] at h
  cases h

end ShortcutRelay.Decimal
