/-
**Options of a skip structure.**

How tall a tower may grow, how quickly towers thin out from one level to the next, where the random
source starts, and how much room to reserve. The builders clamp, so every value of `Options` is
usable as it stands: `maxHeight` lies in `1 .. heightLimit` and `branch` is at least two.
-/

namespace OrderedCollections

/-- The number of levels that no tower exceeds. -/
def heightLimit : Nat := 32

theorem heightLimit_pos : 0 < heightLimit := by decide

/-- The branching factor used when none is chosen. -/
def defaultBranch : UInt32 := 4

/-- The options of a skip structure. -/
structure Options where
  /-- The number of levels a tower may reach. -/
  maxHeight : Nat := heightLimit
  /-- One tower in `branch` that reaches a level also reaches the next. -/
  branch : UInt32 := defaultBranch
  /-- The seed of the random source, if one was chosen. -/
  seed : Option UInt64 := none
  /-- The number of elements to reserve room for. -/
  capacity : Nat := 0
  maxHeight_pos : 0 < maxHeight := by decide
  maxHeight_le : maxHeight ≤ heightLimit := by decide
  two_le_branch : 2 ≤ branch := by decide
  deriving DecidableEq

namespace Options

/-- Sets the tallest height, moved into `1 .. heightLimit`. -/
def withMaxHeight (height : Nat) (options : Options) : Options :=
  { options with
    maxHeight := max 1 (min height heightLimit)
    maxHeight_pos := by omega
    maxHeight_le := by simp only [heightLimit]; omega }

/-- Sets the branching factor, raised to two if it is smaller. -/
def withBranch (branch : UInt32) (options : Options) : Options :=
  { options with
    branch := if branch < 2 then 2 else branch
    two_le_branch := by
      split
      · decide
      · rename_i large
        exact UInt32.not_lt.mp large }

/-- Sets the seed of the random source. -/
def withSeed (seed : UInt64) (options : Options) : Options :=
  { options with seed := some seed }

/-- Sets the number of elements to reserve room for. -/
def withCapacity (capacity : Nat) (options : Options) : Options :=
  { options with capacity := capacity }

/-- One choice among the options. -/
inductive Setting where
  | maxHeight (height : Nat)
  | branch (branch : UInt32)
  | seed (seed : UInt64)
  | capacity (capacity : Nat)
  deriving DecidableEq, Repr

/-- Makes one choice. -/
def set (options : Options) : Setting → Options
  | .maxHeight height => options.withMaxHeight height
  | .branch branch => options.withBranch branch
  | .seed seed => options.withSeed seed
  | .capacity capacity => options.withCapacity capacity

/-- Makes choices in order, the last one of a kind being the one that counts. -/
def setAll (options : Options) (settings : List Setting) : Options :=
  settings.foldl set options

/-- The options before the first choice and after each one. -/
def history (options : Options) : List Setting → List Options
  | [] => [options]
  | setting :: rest => options :: history (options.set setting) rest

end Options

end OrderedCollections
