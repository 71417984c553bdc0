/-
**Doubles that are powers of two.**

A double is a mantissa of 53 bits, whose first bit is set, at an exponent. That of a power of two is
`2 ^ 52`, so the product of two powers of two is `2 ^ 104`, which loses no bit when it is rounded:
within the range of the exponents, powers of two are multiplied without error.

* `powerOfTwo`: the double, from its parts.
* `unpack_powerOfTwo`: packing a power of two loses nothing.
* `roundWithAccuracy_twoPow`: rounding a power of two loses nothing.
* `powerOfTwo_mul`: powers of two multiply exactly.
* `toUInt64_powerOfTwo`: what is left of `2 ^ (64 - count)` in a word is `2 ^ 64 / 2 ^ count`.
-/

import Mathlib.Algebra.Group.Nat.Defs

namespace OrderedCollections

open Float.Model Float.Model.UnpackedFloat

/-- The parts of two to the power `exponent`. -/
def powerParts (exponent : Int) : UnpackedFloat :=
  .finite .positive (2 ^ 52) (exponent - 52) (by decide)

/-- The double that is two to the power `exponent`. -/
def powerOfTwo (exponent : Int) : Float :=
  .ofModel (.pack (powerParts exponent))

/-! ### Packing -/

/-- What is packed as positive has no bit in the place of the sign. -/
theorem unpackSign_positive {format : Format} (biased : BitVec format.exponentBits)
    (mantissa : BitVec format.mantissaBitsWithoutImplicit) :
    unpackSign (packComponents format .positive biased mantissa) = 0#1 := by
  refine BitVec.eq_of_getElem_eq fun place inside => ?_
  obtain rfl := Nat.lt_one_iff.mp inside
  show (BitVec.cast (by omega) (BitVec.extractLsb
    (format.mantissaBitsWithoutImplicit + format.exponentBits)
    (format.mantissaBitsWithoutImplicit + format.exponentBits) (0#1 ++ biased ++ mantissa)))[0] = _
  simp [BitVec.getLsbD_append, BitVec.getElem_append]

/-- A number whose exponent is neither the least nor the largest is unpacked into a sign, a mantissa
with its first bit, and an exponent. -/
theorem unpack_finite {format : Format} (bits : BitVec format.numBits)
    (notLargest : unpackExponent bits ≠ -BitVec.ofNat _ 1)
    (notLeast : unpackExponent bits ≠ BitVec.ofNat _ 0) :
    ∃ positive, unpack format bits = .finite (Sign.ofBitVec (unpackSign bits))
      (1#1 ++ unpackMantissa bits).toNat ((unpackExponent bits).toNat -
        (format.exponentBias + format.mantissaBitsWithoutImplicit : Int)) positive :=
  ⟨_, (if_neg notLargest).trans (if_neg notLeast)⟩

/-- Numbers of the same parts are the same. -/
theorem finite_congr {sign sign' : Sign} {mantissa mantissa' : Nat} {exponent exponent' : Int}
    {positive : 0 < mantissa} {positive' : 0 < mantissa'} (sameSign : sign = sign')
    (sameMantissa : mantissa = mantissa') (sameExponent : exponent = exponent') :
    UnpackedFloat.finite sign mantissa exponent positive =
      .finite sign' mantissa' exponent' positive' := by
  subst sameSign sameMantissa sameExponent
  rfl

section Range

variable {exponent : Int} (low : -1022 ≤ exponent) (high : exponent ≤ 1023)
include low high

theorem toNat_biased :
    (BitVec.ofNat 11 (exponent + 1023).toNat).toNat = (exponent + 1023).toNat := by
  rw [BitVec.toNat_ofNat]
  omega

theorem biased_ne {special : BitVec 11} (outside : special.toNat = 0 ∨ special.toNat = 2047) :
    BitVec.ofNat 11 (exponent + 1023).toNat ≠ special := by
  rintro rfl
  rw [toNat_biased low high] at outside
  omega

/-- The components that a power of two is packed into. -/
theorem pack_powerParts : UnpackedFloat.pack Format.binary64 (powerParts exponent) =
    packComponents Format.binary64 .positive (BitVec.ofNat 11 (exponent + 1023).toNat)
      (BitVec.ofNat 52 (2 ^ 52)) := by
  have biased : (exponent - 52 + (Format.binary64.exponentBias : Int) + (52 : Nat)).toNat =
      (exponent + 1023).toNat := by
    show (exponent - 52 + 1023 + 52).toNat = _
    omega
  have finite : ¬2 ^ 11 ≤ (exponent + 1023).toNat + 1 := by omega
  unfold powerParts UnpackedFloat.pack
  dsimp only
  rw [biased, if_neg finite, if_pos (by rw [Nat.log2_two_pow]; rfl)]

/-- **A power of two in the range of the exponents keeps its parts.** -/
theorem unpack_powerOfTwo : (powerOfTwo exponent).toModel.unpack = powerParts exponent := by
  show unpack Format.binary64 (UnpackedFloat.pack Format.binary64 (powerParts exponent)) =
    powerParts exponent
  rw [pack_powerParts low high]
  generalize packed : packComponents Format.binary64 .positive
    (BitVec.ofNat 11 (exponent + 1023).toNat) (BitVec.ofNat 52 (2 ^ 52)) = bits
  have sign : unpackSign bits = 0#1 := packed ▸ unpackSign_positive ..
  have mantissa : unpackMantissa bits = BitVec.ofNat 52 (2 ^ 52) :=
    packed ▸ unpackMantissa_packComponents
  have biased : unpackExponent bits = BitVec.ofNat 11 (exponent + 1023).toNat :=
    packed ▸ unpackExponent_packComponents
  obtain ⟨positive, unpacked⟩ := unpack_finite bits
    (biased ▸ biased_ne low high (Or.inr rfl)) (biased ▸ biased_ne low high (Or.inl rfl))
  rw [unpacked]
  refine finite_congr ?_ ?_ ?_
  · rw [sign]
    rfl
  · rw [mantissa]
    rfl
  · rw [biased, toNat_biased low high]
    show ((exponent + 1023).toNat : Int) - (1023 + 52) = _
    omega

end Range

/-! ### Rounding -/

theorem mantissa_shiftRight (extended : ExtendedMantissa) (amount : Nat) :
    (extended >>> amount).mantissa = extended.mantissa / 2 ^ amount := by
  induction amount with
  | zero => exact (Nat.div_one _).symm
  | succ amount ih =>
    show (extended >>> amount).mantissa / 2 = _
    rw [ih, Nat.div_div_eq_div_mul, Nat.pow_succ]

/-- The bits that a power of two loses are zeros. -/
theorem twoPow_shiftRight (amount more : Nat) :
    (⟨2 ^ (amount + more), false, false⟩ : ExtendedMantissa) >>> amount =
      ⟨2 ^ more, false, false⟩ := by
  induction amount generalizing more with
  | zero =>
    rw [Nat.zero_add]
    rfl
  | succ amount ih =>
    have shifted := ih (more + 1)
    rw [← Nat.add_assoc, Nat.add_right_comm] at shifted
    show ExtendedMantissa.shiftRightOne
      ((⟨2 ^ (amount + 1 + more), false, false⟩ : ExtendedMantissa) >>> amount) = _
    rw [shifted]
    simp [ExtendedMantissa.shiftRightOne, Nat.pow_succ]

section Rounding

variable {exponent : Int} (low : -1022 ≤ exponent)
include low

/-- Whatever mantissa a power of two comes with, the exponent looked for is that of its parts. -/
theorem targetExponent_twoPow (amount : Nat) :
    Format.binary64.targetExponent (totalExponent (2 ^ amount) (exponent - amount)) =
      exponent - 52 := by
  unfold Format.targetExponent totalExponent
  rw [Nat.log2_two_pow]
  show max ((amount : Int) + 1 + (exponent - amount) - 53) (3 - 1024 - 53 : Int) = _
  omega

/-- Shifting a power of two to the exponent of its parts gives their mantissa, and nothing is left
over. -/
theorem shiftToTargetExponent_twoPow (amount : Nat) :
    shiftToTargetExponent Format.binary64 (2 ^ (amount + 52)) (exponent - (amount + 52 : Nat))
      .exact = (⟨2 ^ 52, false, false⟩, exponent - 52) := by
  have distance : (exponent - 52 - (exponent - (amount + 52 : Nat))).toNat = amount := by omega
  unfold shiftToTargetExponent shiftToExponent
  simp only [targetExponent_twoPow low, distance, ExtendedMantissa.ofMantissaAndAccuracy,
    twoPow_shiftRight]
  congr 1
  omega

/-- **A power of two is rounded to itself.** -/
theorem roundWithAccuracy_twoPow (amount : Nat) :
    roundWithAccuracy Format.binary64 .positive (2 ^ (amount + 52))
      (exponent - (amount + 52 : Nat)) .exact = powerParts exponent := by
  have again : shiftToTargetExponent Format.binary64 (2 ^ 52) (exponent - 52) .exact =
      (⟨2 ^ 52, false, false⟩, exponent - 52) := by
    have unmoved := shiftToTargetExponent_twoPow low 0
    rwa [Nat.zero_add] at unmoved
  have rounded : (⟨2 ^ 52, false, false⟩ : ExtendedMantissa).roundedMantissa = 2 ^ 52 := rfl
  rw [roundWithAccuracy, shiftToTargetExponent_twoPow low amount]
  dsimp only
  rw [rounded, again]
  rfl

end Rounding

/-! ### Arithmetic -/

/-- **Powers of two multiply exactly.** -/
theorem powerOfTwo_mul {first second : Int} (low : -1022 ≤ first) (high : first ≤ 1023)
    (low' : -1022 ≤ second) (high' : second ≤ 1023) (lowSum : -1022 ≤ first + second) :
    powerOfTwo first * powerOfTwo second = powerOfTwo (first + second) := by
  show Float.ofModel (.pack (UnpackedFloat.mul Format.binary64 (powerOfTwo first).toModel.unpack
    (powerOfTwo second).toModel.unpack)) = _
  rw [unpack_powerOfTwo low high, unpack_powerOfTwo low' high']
  show Float.ofModel (.pack (roundWithAccuracy Format.binary64 .positive (2 ^ 52 * 2 ^ 52)
    (first - 52 + (second - 52)) .exact)) = _
  have place : first - 52 + (second - 52) = first + second - (52 + 52 : Nat) := by omega
  rw [← Nat.pow_add, place, roundWithAccuracy_twoPow lowSum]
  rfl

/-- What stands before the point of two to the power `64 - count`. -/
theorem roundToInt_twoPow (count : Nat) :
    roundToInt .positive (2 ^ 52) (64 - count - 52) = (2 ^ 64 / 2 ^ count : Nat) := by
  have up : ((64 - count - 52 : Int) - 0).toNat = 12 - count := by omega
  have down : (0 - ((64 - count - 52 : Int) - (12 - count : Nat))).toNat = count - 12 := by omega
  unfold roundToInt decreaseExponent shiftToExponent
  simp only [up, down, mantissa_shiftRight, ExtendedMantissa.ofMantissaAndAccuracy, Sign.apply,
    Nat.shiftLeft_eq]
  norm_cast
  obtain few | many := Nat.le_total count 12
  · rw [Nat.sub_eq_zero_of_le few, Nat.pow_zero, Nat.div_one, ← Nat.pow_add,
      Nat.pow_div (by omega) (by decide)]
    congr 1
    omega
  · have whole : 2 ^ count = 2 ^ (count - 12) * 2 ^ 12 := by
      rw [← Nat.pow_add, Nat.sub_add_cancel many]
    rw [Nat.sub_eq_zero_of_le many, whole, show 2 ^ 64 = 2 ^ 52 * 2 ^ 12 from rfl,
      Nat.mul_div_mul_right _ _ (by decide), Nat.pow_zero, Nat.mul_one]

/-- **A power of two below the largest word becomes the word before its point.** -/
theorem toUInt64_powerOfTwo {count : Nat} (positive : 1 ≤ count) (few : count ≤ 1000) :
    (powerOfTwo (64 - count)).toUInt64.toNat = 2 ^ 64 / 2 ^ count := by
  have small : 2 ^ 64 / 2 ^ count < UInt64.size :=
    Nat.div_lt_self (by decide) (Nat.one_lt_two_pow (Nat.ne_of_gt positive))
  show (UInt64.ofNatClamp
    (UnpackedFloat.toInt 0 _ (powerOfTwo (64 - count)).toModel.unpack).toNat).toNat = _
  rw [unpack_powerOfTwo (by omega) (by omega)]
  show (UInt64.ofNatClamp (roundToInt .positive (2 ^ 52) (64 - count - 52)).toNat).toNat = _
  rw [roundToInt_twoPow, Int.toNat_natCast, UInt64.ofNatClamp_eq_ofNat _ small,
    UInt64.toNat_ofNat_of_lt' small]

theorem one_div_twoPow : ∀ exponent : Nat, exponent < 32 →
    1.0 / (2 ^ exponent).toFloat = powerOfTwo (-(exponent : Int)) := by
  decide +kernel

end OrderedCollections
