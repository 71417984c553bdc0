/-
**Heights under a branching factor that is a power of two.**

With a branching factor of `2 ^ exponent` no threshold is rounded before it is cut down to a word:
threshold number `level` is `2 ^ 64 / 2 ^ (exponent * level)`. A word is below it if and only if it
begins with `exponent * level` zeros, so every `exponent` zeros in front let the tower rise by one
level.

* `share_eq_powerOfTwo`, `toNat_threshold`: the thresholds, without any error.
* `le_leadingZeros_iff`: the words below a power of two, by the zeros they begin with.
* `lt_heightOf_twoPow_iff`: the levels that a word rises above.
* `heightUnder_geometric`: the height of a word, and how many words rise above a level.
-/

import Mathlib.SetTheory.Cardinal.Finite
import OrderedCollections.Proofs.Heights.Climb
import OrderedCollections.Proofs.Heights.Doubles

namespace OrderedCollections.HeightGenerator

/-! ### The thresholds -/

section Thresholds

variable {branch : UInt32} {exponent : Nat} (power : branch.toNat = 2 ^ exponent)
include power

theorem exponent_lt : exponent < 32 := by
  have fits := branch.toNat_lt
  rw [power] at fits
  exact (Nat.pow_lt_pow_iff_right (by decide)).mp fits

/-- The share of towers above a level is a power of two. -/
theorem share_eq_powerOfTwo {level : Nat} (low : level < heightLimit) :
    share branch level = powerOfTwo (-(exponent * level : Nat)) := by
  have few := exponent_lt power
  induction level with
  | zero =>
    show (1.0 : Float) = powerOfTwo (-(0 : Nat))
    decide +kernel
  | succ level ih =>
    have product : exponent * (level + 1) ≤ 31 * 31 :=
      Nat.mul_le_mul (Nat.le_of_lt_succ few) (Nat.le_of_lt_succ low)
    rw [Nat.mul_add_one] at product
    rw [share, ih (Nat.lt_of_succ_lt low), power, one_div_twoPow exponent few,
      powerOfTwo_mul (by omega) (by omega) (by omega) (by omega) (by omega)]
    congr 1
    rw [Nat.mul_add_one]
    omega

/-- **A threshold is `2 ^ 64` over a power of two**, without the fraction that is left. -/
theorem toNat_threshold {level : Nat} (several : 0 < exponent) (positive : 0 < level)
    (low : level < heightLimit) :
    (threshold branch level).toNat = 2 ^ 64 / 2 ^ (exponent * level) := by
  have few := exponent_lt power
  have product : exponent * level ≤ 31 * 31 :=
    Nat.mul_le_mul (Nat.le_of_lt_succ few) (Nat.le_of_lt_succ low)
  have words : (18446744073709551616.0 : Float) = powerOfTwo 64 := by decide +kernel
  rw [threshold, words, share_eq_powerOfTwo power low,
    powerOfTwo_mul (by omega) (by omega) (by omega) (by omega) (by omega)]
  exact toUInt64_powerOfTwo (Nat.mul_pos several positive) (by omega)

end Thresholds

/-! ### Leading zeros -/

/-- The number of zero bits that a word begins with. -/
def leadingZeros (word : UInt64) : Nat :=
  word.toBitVec.clz.toNat

/-- **A word begins with `count` zeros if and only if it is below a power of two**, where no word
is below a fraction. -/
theorem le_leadingZeros_iff {word : UInt64} {count : Nat} :
    count ≤ leadingZeros word ↔ word.toNat < 2 ^ 64 / 2 ^ count := by
  have most : leadingZeros word ≤ 64 := BitVec.clz_le
  obtain long | short := Nat.lt_or_ge 64 count
  · rw [Nat.div_eq_of_lt (Nat.pow_lt_pow_right (by decide) long)]
    omega
  rw [Nat.pow_div short (by decide)]
  constructor
  · intro zeros
    calc word.toNat < 2 ^ (64 - leadingZeros word) := BitVec.toNat_lt_two_pow_sub_clz
      _ ≤ 2 ^ (64 - count) := Nat.pow_le_pow_right (by decide) (by omega)
  · intro below
    by_cases zero : word.toBitVec = 0#64
    · have all : leadingZeros word = 64 := by
        unfold leadingZeros
        rw [BitVec.clz_eq_iff_eq_zero.mpr zero]
        rfl
      rwa [all]
    · have first : 2 ^ (64 - 1 - leadingZeros word) ≤ word.toNat :=
        BitVec.two_pow_sub_clz_le_toNat_of_ne_zero (by decide) zero
      have less := (Nat.pow_lt_pow_iff_right (by decide)).mp (Nat.lt_of_le_of_lt first below)
      omega

/-- The number of words below a bound is the bound itself. -/
theorem card_toNat_lt {bound : Nat} (most : bound ≤ 2 ^ 64) :
    Nat.card {word : UInt64 // word.toNat < bound} = bound := by
  have index : {word : UInt64 // word.toNat < bound} ≃ Fin bound :=
    { toFun := fun word => ⟨word.1.toNat, word.2⟩
      invFun := fun index => ⟨.ofNat index.1, by
        rw [UInt64.toNat_ofNat_of_lt' (Nat.lt_of_lt_of_le index.2 most)]
        exact index.2⟩
      left_inv := fun word => Subtype.ext (UInt64.ofNat_toNat)
      right_inv := fun index =>
        Fin.ext (UInt64.toNat_ofNat_of_lt' (Nat.lt_of_lt_of_le index.2 most)) }
  rw [Nat.card_congr index, Nat.card_fin]

/-! ### The heights -/

section Heights

variable {branch : UInt32} {exponent : Nat} (power : branch.toNat = 2 ^ exponent)
  (several : 0 < exponent) {maxHeight : Nat} (most : maxHeight ≤ heightLimit)
include power several most

/-- **A tower rises above a level if its word begins with zeros enough.** -/
theorem lt_heightOf_twoPow_iff {word : UInt64} {level : Nat} (low : level < maxHeight) :
    level < heightOf (thresholdsOf branch) maxHeight word ↔
      exponent * level ≤ leadingZeros word := by
  have lookedUp : ∀ passed, passed ≤ level →
      (thresholdsOf branch)[passed]? = some (threshold branch passed) := by
    intro passed least
    have inTable : passed < heightLimit := by omega
    rw [Vector.getElem?_eq_getElem inTable, thresholdsOf, Vector.getElem_ofFn]
  rw [lt_heightOf_iff]
  constructor
  · rintro (rfl | ⟨-, all⟩)
    · exact Nat.zero_le _
    obtain rfl | positive := Nat.eq_zero_or_pos level
    · exact Nat.zero_le _
    obtain ⟨top, found, below⟩ := all level positive (Nat.le_refl _)
    rw [lookedUp level (Nat.le_refl _), Option.some.injEq] at found
    rw [← found, UInt64.lt_iff_toNat_lt,
      toNat_threshold power several positive (Nat.lt_of_lt_of_le low most)] at below
    exact le_leadingZeros_iff.mpr below
  · intro zeros
    refine Or.inr ⟨low, fun passed positive least => ⟨_, lookedUp passed least, ?_⟩⟩
    rw [UInt64.lt_iff_toNat_lt, toNat_threshold power several positive (by omega)]
    exact le_leadingZeros_iff.mp (Nat.le_trans (Nat.mul_le_mul_left exponent least) zeros)

/-- **The height of a word in closed form.** -/
theorem heightOf_twoPow (positive : 0 < maxHeight) (word : UInt64) :
    heightOf (thresholdsOf branch) maxHeight word =
      min maxHeight (1 + leadingZeros word / exponent) := by
  refine eq_of_forall_lt_iff fun level => ?_
  rw [Nat.lt_min, Nat.add_comm, Nat.lt_succ_iff, Nat.le_div_iff_mul_le several, Nat.mul_comm]
  constructor
  · intro rises
    have low := Nat.lt_of_lt_of_le rises (heightOf_le (thresholdsOf branch) positive word)
    exact ⟨low, (lt_heightOf_twoPow_iff power several most low).mp rises⟩
  · rintro ⟨low, zeros⟩
    exact (lt_heightOf_twoPow_iff power several most low).mpr zeros

/-- **How many words let a tower rise above a level.** -/
theorem card_lt_heightOf_twoPow {level : Nat} (low : level < maxHeight) :
    Nat.card {word : UInt64 // level < heightOf (thresholdsOf branch) maxHeight word} =
      2 ^ 64 / 2 ^ (exponent * level) := by
  simp only [lt_heightOf_twoPow_iff power several most low, le_leadingZeros_iff]
  exact card_toNat_lt (Nat.div_le_self _ _)

end Heights

/-- The heights drawn under options fall off by a factor of `2 ^ exponent` from one level to the
next, up to the limit. -/
structure Geometric (options : Options) (exponent : Nat) : Prop where
  /-- The height of a word. -/
  height : ∀ word, heightUnder thresholdsOf options word =
    min options.maxHeight (1 + leadingZeros word / exponent)
  /-- The height drawn is that of the word drawn. -/
  drawn : ∀ {ρ : Type} [RandomSource ρ] (source : ρ), (withSource options source).next.1 =
    min options.maxHeight (1 + leadingZeros (RandomSource.next source).1 / exponent)
  /-- The number of words above a level. -/
  words : ∀ level < options.maxHeight,
    Nat.card {word : UInt64 // level < heightUnder thresholdsOf options word} =
      2 ^ 64 / 2 ^ (exponent * level)

/-- **With a branching factor that is a power of two, the heights drawn are those of the leading
zeros**, whatever the limit and the source. -/
theorem heightUnder_geometric (options : Options) {exponent : Nat}
    (power : options.branch.toNat = 2 ^ exponent) : Geometric options exponent := by
  have several : 0 < exponent := by
    refine Nat.pos_of_ne_zero fun zero => ?_
    have two := UInt32.le_iff_toNat_le.mp options.two_le_branch
    rw [power, zero] at two
    exact absurd two (by decide)
  have height := heightOf_twoPow power several options.maxHeight_le options.maxHeight_pos
  refine ⟨height, fun source => height _, fun level low => ?_⟩
  exact card_lt_heightOf_twoPow power several options.maxHeight_le low

/-- The default branching factor of four: one tower in sixteen reaches the third level, and the
word zero reaches the highest level of all. -/
theorem heightUnder_geometric_default :
    ({} : Options).branch.toNat = 2 ^ 2 ∧
      Nat.card {word : UInt64 // 2 < heightUnder thresholdsOf {} word} = 2 ^ 60 ∧
      heightUnder thresholdsOf {} 1152921504606846975 = 3 ∧
      heightUnder thresholdsOf {} 1152921504606846976 = 2 ∧
      heightUnder thresholdsOf {} 0 = 32 := by
  have geometric : Geometric {} 2 := heightUnder_geometric {} rfl
  refine ⟨rfl, geometric.words 2 (by decide), ?_, ?_, ?_⟩
  · rw [geometric.height]
    decide
  · rw [geometric.height]
    decide
  · rw [geometric.height]
    decide

end OrderedCollections.HeightGenerator
