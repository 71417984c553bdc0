/-
**The heights of towers.**

A new tower reaches the next level with probability one in `branch`, up to `maxHeight` levels. One
random word decides: the tower rises from level to level while the word is below the threshold of
the next one, and threshold number `k` is `2 ^ 64` divided `k` times by `branch`, rounded as
double-precision numbers are.

* `HeightGenerator.heightOf`: the height that a word gives, for any table of thresholds.
* `heightOf_pos`, `heightOf_le`: a height lies between one and the tallest height allowed.
* `HeightGenerator.next`, `HeightGenerator.nextMany`: a word drawn and a height answered, one or many.
-/

import OrderedCollections.Options
import OrderedCollections.Random.KeyStream

namespace OrderedCollections

/-- A source of tower heights. -/
structure HeightGenerator (ρ : Type) where
  /-- Threshold number `k` decides whether a tower rises above level `k`. -/
  thresholds : Vector UInt64 heightLimit
  /-- The tallest height answered. -/
  maxHeight : Nat
  /-- The branching factor that the thresholds stand for. -/
  branch : UInt32
  /-- Where the words come from. -/
  source : ρ
  deriving DecidableEq

namespace HeightGenerator

variable {ρ : Type}

/-- The share of towers that rise above level `level`. -/
def share (branch : UInt32) : Nat → Float
  | 0 => 1.0
  | level + 1 => share branch level * (1.0 / branch.toNat.toFloat)

/-- The threshold of a level; a value of `2 ^ 64` or more is the largest word. -/
def threshold (branch : UInt32) (level : Nat) : UInt64 :=
  (18446744073709551616.0 * share branch level).toUInt64

/-- The thresholds of a branching factor. -/
def thresholdsOf (branch : UInt32) : Vector UInt64 heightLimit :=
  Vector.ofFn fun level => threshold branch level.val

/-- The height of a word: one more than the number of thresholds in a row, from the first on and
fewer than `maxHeight`, that the word stays below. -/
def heightOf (thresholds : Vector UInt64 heightLimit) (maxHeight : Nat) (word : UInt64) : Nat :=
  1 + (((thresholds.toList.drop 1).take (maxHeight - 1)).takeWhile (word < ·)).length

theorem heightOf_pos (thresholds : Vector UInt64 heightLimit) (maxHeight : Nat) (word : UInt64) :
    0 < heightOf thresholds maxHeight word := by
  unfold heightOf
  omega

/-- No tower is taller than allowed. -/
theorem heightOf_le {maxHeight : Nat} (thresholds : Vector UInt64 heightLimit)
    (positive : 0 < maxHeight) (word : UInt64) :
    heightOf thresholds maxHeight word ≤ maxHeight := by
  have passed := (List.takeWhile_sublist (word < ·)
    (l := (thresholds.toList.drop 1).take (maxHeight - 1))).length_le
  have taken := List.length_take_le (maxHeight - 1) (thresholds.toList.drop 1)
  unfold heightOf
  omega

/-- The generator of the given options that draws from `source`. -/
def withSource (options : Options) (source : ρ) : HeightGenerator ρ where
  thresholds := thresholdsOf options.branch
  maxHeight := options.maxHeight
  branch := options.branch
  source := source

/-- The generator of the given options that draws from the key stream of their seed, or of the seed
zero if they have none. -/
def ofOptions (options : Options) : HeightGenerator KeyStream :=
  withSource options (KeyStream.ofSeed (options.seed.getD 0))

variable [RandomSource ρ]

/-- The next height, and the generator after it. -/
def next (generator : HeightGenerator ρ) : Nat × HeightGenerator ρ :=
  let drawn := RandomSource.next generator.source
  (heightOf generator.thresholds generator.maxHeight drawn.1, { generator with source := drawn.2 })

/-- The next heights, and the generator after them. -/
def nextMany (generator : HeightGenerator ρ) : Nat → List Nat × HeightGenerator ρ
  | 0 => ([], generator)
  | count + 1 =>
    let first := generator.next
    let others := nextMany first.2 count
    (first.1 :: others.1, others.2)

theorem length_nextMany (generator : HeightGenerator ρ) (count : Nat) :
    (generator.nextMany count).1.length = count := by
  induction count generalizing generator with
  | zero => rfl
  | succ count ih => simp [nextMany, ih]

/-- One height more is the next one after those before it. -/
theorem nextMany_succ (generator : HeightGenerator ρ) (count : Nat) :
    generator.nextMany (count + 1) =
      ((generator.nextMany count).1 ++ [(generator.nextMany count).2.next.1],
        (generator.nextMany count).2.next.2) := by
  induction count generalizing generator with
  | zero => rfl
  | succ count ih => rw [nextMany, ih generator.next.2, nextMany, List.cons_append]

end HeightGenerator

end OrderedCollections
