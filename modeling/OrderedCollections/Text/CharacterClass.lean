/-
**Classes of characters.**

A class of characters is given by its runs of consecutive code points, in ascending order and apart
from each other, so that the search for a character can stop at the first run that ends past it.

* `CharacterClass.contains`: whether a character is in a class.
-/

namespace OrderedCollections

namespace CharacterClass

/-- Whether runs, each its first and its last code point, begin at a lower bound or above, hold
something each, and leave a gap before the next. -/
def areRunsFrom (low : Nat) : List (Nat × Nat) → Bool
  | [] => true
  | (first, last) :: rest => low ≤ first && first ≤ last && areRunsFrom (last + 2) rest

/-- Whether a code point is in one of some ascending runs. -/
def isInRuns (code : Nat) : List (Nat × Nat) → Bool
  | [] => false
  | (first, last) :: rest => if code ≤ last then first ≤ code else isInRuns code rest

end CharacterClass

/-- A class of characters. -/
structure CharacterClass where
  runs : List (Nat × Nat)
  ascending : CharacterClass.areRunsFrom 0 runs = true

namespace CharacterClass

/-- Whether a character is in a class. -/
def contains (kind : CharacterClass) (char : Char) : Bool :=
  isInRuns char.toNat kind.runs

end CharacterClass

end OrderedCollections
