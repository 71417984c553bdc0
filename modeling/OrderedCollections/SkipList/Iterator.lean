/-
**Iterating over a skip list from both ends.**

An iterator holds the next tower at each end and counts the elements that neither end has yielded
yet; only the count keeps the ends from passing each other. From the front it follows the lowest
links, from the back the links to the towers before.
-/

import OrderedCollections.Iteration
import OrderedCollections.SkipList.Basic

namespace OrderedCollections.SkipList

variable {α ρ : Type} {σ : Type → Type} [NodeStore σ]

/-- A run through the elements that can be taken from either end. -/
structure Iterator (α : Type) (σ : Type → Type := Slots) where
  /-- The towers. -/
  nodes : σ (Node α)
  /-- The next tower from the front. -/
  front : Option NodeId
  /-- The next tower from the back. -/
  back : Option NodeId
  /-- The number of elements not yet taken. -/
  remaining : Nat

/-- The run through all elements. -/
def iterator (list : SkipList α ρ σ) : Iterator α σ where
  nodes := list.nodes
  front := list.first
  back := list.tail
  remaining := list.size

namespace Iterator

/-- Takes an element from the front. -/
def next? (iterator : Iterator α σ) : Checked (Option (α × Iterator α σ)) :=
  match iterator.remaining, iterator.front with
  | remaining + 1, some id => do
    let node ← NodeStore.fetch id iterator.nodes
    let link ← .ofOption .missingLevel node.links[0]?
    return some (node.value, { iterator with front := link.next, remaining := remaining })
  | _, _ => return none

/-- Takes an element from the back. -/
def nextBack? (iterator : Iterator α σ) : Checked (Option (α × Iterator α σ)) :=
  match iterator.remaining, iterator.back with
  | remaining + 1, some id => do
    let node ← NodeStore.fetch id iterator.nodes
    return some (node.value, { iterator with back := node.prev, remaining := remaining })
  | _, _ => return none

instance : BidirectionalIterator (Iterator α σ) α where
  next? := next?
  remaining := remaining
  nextBack? := nextBack?

end Iterator

/-- The elements in order. -/
def elements (list : SkipList α ρ σ) : Checked (List α) :=
  ForwardIterator.rest list.iterator

end OrderedCollections.SkipList
