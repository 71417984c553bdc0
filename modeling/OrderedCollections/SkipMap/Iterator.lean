/-
**Iterating over a skip map.**

An iterator follows the lowest links from the front and counts the entries to come. Nothing but the
end of the links stops it, so the count must be right for it to run to zero and no further.
-/

import OrderedCollections.Iteration
import OrderedCollections.SkipMap.Basic

namespace OrderedCollections.SkipMap

variable {κ ν ρ : Type} {σ : Type → Type} [NodeStore σ]

/-- A run through the entries from the front. -/
structure Iterator (κ ν : Type) (σ : Type → Type := Slots) where
  /-- The entries. -/
  nodes : σ (Node κ ν)
  /-- The next entry. -/
  next : Option NodeId
  /-- The number of entries to come. -/
  remaining : Nat

/-- The run through all entries. -/
def iterator (map : SkipMap κ ν ρ σ) : Iterator κ ν σ where
  nodes := map.nodes
  next := map.head.get ⟨0, heightLimit_pos⟩
  remaining := map.size

namespace Iterator

/-- Takes an entry. -/
def next? (iterator : Iterator κ ν σ) : Checked (Option ((κ × ν) × Iterator κ ν σ)) :=
  match iterator.next with
  | none => return none
  | some id => do
    let node ← NodeStore.fetch id iterator.nodes
    let next ← .ofOption .missingLevel node.forward[0]?
    let remaining ← .minus iterator.remaining 1
    return some ((node.key, node.value), { iterator with next := next, remaining := remaining })

instance : ForwardIterator (Iterator κ ν σ) (κ × ν) where
  next? := next?
  remaining := remaining

end Iterator

/-- The entries in the order of their keys: those of an iterator that is asked once more than there
are entries, so that it comes to its end. -/
def entries (map : SkipMap κ ν ρ σ) : Checked (List (κ × ν)) :=
  drain Iterator.next? (map.size + 1) map.iterator

end OrderedCollections.SkipMap
