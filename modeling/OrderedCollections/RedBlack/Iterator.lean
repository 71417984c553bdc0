/-
**Iterating over a red-black map from both ends.**

An iterator holds the next node at each end and counts the entries that neither end has yielded yet;
only the count keeps the ends from passing each other. From a node it steps to the neighbour on
either side: down into the subtree on that side and then as far as possible the other way, or, where
there is no such subtree, up to the first node reached from its other side.
-/

import OrderedCollections.Iteration
import OrderedCollections.RedBlack.Map

namespace OrderedCollections

variable {κ ν : Type} {σ : Type → Type} [NodeStore σ]

namespace RedBlack.LinkedTree

/-- Climbs from `id` to the first node that is reached from its side opposite to `side`, in at most
the given number of rounds. -/
def climb (tree : LinkedTree κ ν σ) (side : Side) : Nat → NodeId → Checked (Option NodeId)
  | 0, _ => .error .endless
  | rounds + 1, id => do
    match (← tree.node id).parent with
    | none => return none
    | some parent =>
      if (← tree.child parent side.opposite) = some id then return some parent
      else tree.climb side rounds parent

/-- The neighbour of a node in the direction of `side`, if there is one. -/
def step (tree : LinkedTree κ ν σ) (side : Side) (id : NodeId) : Checked (Option NodeId) := do
  match ← tree.child id side with
  | some below => return some (← tree.extreme side.opposite tree.rounds below)
  | none => tree.climb side tree.rounds id

/-- The node of the whole tree that stands furthest on a side. -/
def furthest (tree : LinkedTree κ ν σ) (side : Side) : Checked (Option NodeId) :=
  match tree.root with
  | none => return none
  | some root => return some (← tree.extreme side tree.rounds root)

end RedBlack.LinkedTree

namespace RedBlackMap

/-- The entry of the node that stands furthest on a side. -/
def furthest? (side : RedBlack.Side) (map : RedBlackMap κ ν σ) : Checked (Option (κ × ν)) := do
  match ← map.tree.furthest side with
  | none => return none
  | some id =>
    let node ← map.tree.node id
    return some (node.key, node.value)

/-- The entry with the smallest key. -/
def first? (map : RedBlackMap κ ν σ) : Checked (Option (κ × ν)) :=
  map.furthest? .left

/-- The entry with the largest key. -/
def last? (map : RedBlackMap κ ν σ) : Checked (Option (κ × ν)) :=
  map.furthest? .right

/-- A run through the entries that can be taken from either end. -/
structure Iterator (κ ν : Type) (σ : Type → Type := Slots) where
  /-- The entries. -/
  tree : RedBlack.LinkedTree κ ν σ
  /-- The next node from the front. -/
  front : Option NodeId
  /-- The next node from the back. -/
  back : Option NodeId
  /-- The number of entries not yet taken. -/
  remaining : Nat

/-- The run through all entries. -/
def iterator (map : RedBlackMap κ ν σ) : Checked (Iterator κ ν σ) :=
  return {
    tree := map.tree
    front := ← map.tree.furthest .left
    back := ← map.tree.furthest .right
    remaining := map.size }

namespace Iterator

/-- Takes an entry from the front. -/
def next? (iterator : Iterator κ ν σ) : Checked (Option ((κ × ν) × Iterator κ ν σ)) :=
  match iterator.remaining, iterator.front with
  | remaining + 1, some id => do
    let front ← iterator.tree.step .right id
    let node ← iterator.tree.node id
    return some ((node.key, node.value), { iterator with front := front, remaining := remaining })
  | _, _ => return none

/-- Takes an entry from the back. -/
def nextBack? (iterator : Iterator κ ν σ) : Checked (Option ((κ × ν) × Iterator κ ν σ)) :=
  match iterator.remaining, iterator.back with
  | remaining + 1, some id => do
    let back ← iterator.tree.step .left id
    let node ← iterator.tree.node id
    return some ((node.key, node.value), { iterator with back := back, remaining := remaining })
  | _, _ => return none

instance : BidirectionalIterator (Iterator κ ν σ) (κ × ν) where
  next? := next?
  remaining := remaining
  nextBack? := nextBack?

end Iterator

/-- The entries in the order of their keys. -/
def entries (map : RedBlackMap κ ν σ) : Checked (List (κ × ν)) := do
  ForwardIterator.rest (← map.iterator)

end RedBlackMap

end OrderedCollections
