/-
**Colours and sides.**

The two sides of a node are treated alike, so that every mirrored pair of cases is written once.
-/

namespace OrderedCollections.RedBlack

/-- The colour of a node. -/
inductive Color where
  | red
  | black
  deriving DecidableEq, Repr

/-- The two sides of a node. -/
inductive Side where
  | left
  | right
  deriving DecidableEq, Repr

namespace Side

/-- The other side. -/
def opposite : Side → Side
  | left => right
  | right => left

theorem ne_iff_eq_opposite {side other : Side} : side ≠ other ↔ side = other.opposite := by
  cases side <;> cases other <;> decide

end Side

end OrderedCollections.RedBlack
