/-
**Iterators that know how much is left.**

An iterator is a state with a step that yields an item and the state after it, or nothing, and with
a count of the items to come. The step follows the links of the collection.

* `drain`: the items of a number of steps.
* `ForwardIterator`, `BidirectionalIterator`: iterators taken from the front, or from both ends.
* `ForwardIterator.rest`, `BidirectionalIterator.restBack`: the items to come, from either end.
-/

import OrderedCollections.Checked

namespace OrderedCollections

variable {α σ : Type}

/-- The items of at most `steps` steps. -/
def drain (step : σ → Checked (Option (α × σ))) : Nat → σ → Checked (List α)
  | 0, _ => .ok []
  | steps + 1, state => do
    match ← step state with
    | none => return []
    | some (item, after) => return item :: (← drain step steps after)

/-- An iterator that yields its items from the front. -/
class ForwardIterator (σ : Type) (α : outParam Type) where
  /-- The next item, and the iterator after it. -/
  next? : σ → Checked (Option (α × σ))
  /-- The number of items to come. -/
  remaining : σ → Nat

/-- An iterator that also yields its items from the back. -/
class BidirectionalIterator (σ : Type) (α : outParam Type) extends ForwardIterator σ α where
  /-- The next item from the back, and the iterator after it. -/
  nextBack? : σ → Checked (Option (α × σ))

/-- The items to come, from the front. -/
def ForwardIterator.rest [ForwardIterator σ α] (iterator : σ) : Checked (List α) :=
  drain next? (remaining iterator) iterator

/-- The items to come, from the back. -/
def BidirectionalIterator.restBack [BidirectionalIterator σ α] (iterator : σ) : Checked (List α) :=
  drain nextBack? (ForwardIterator.remaining iterator) iterator

end OrderedCollections
