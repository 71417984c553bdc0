/-
**Entries and their links.**

The entries of a skip map stand in towers of different heights, as the elements of a skip list do,
but nothing is counted: a link leads to the next entry whose tower is tall enough and knows nothing
of the positions it passes, an entry does not know the one before it, and the map does not know its
last entry.

* `SkipMap.Node`: an entry with its links.
* `SkipMap`: the entries, the header, and what is kept count of.
* `SkipMap.forwardAt`, `SkipMap.setForward`: the link of an owner on a level.
-/

import OrderedCollections.SkipList.Links

namespace OrderedCollections

open SkipList (Cursor)

/-- An entry with its links, the lowest level first. -/
structure SkipMap.Node (κ ν : Type) where
  key : κ
  value : ν
  forward : List (Option NodeId)
  deriving DecidableEq, Repr

/-- An ordered map on linked levels. -/
structure SkipMap (κ ν ρ : Type) (σ : Type → Type := Slots) where
  /-- The order of the keys. -/
  cmp : Comparator κ
  /-- Where the heights of new towers come from. -/
  heights : HeightGenerator ρ
  /-- The entries. -/
  nodes : σ (SkipMap.Node κ ν)
  /-- The links of the header, the lowest level first. -/
  head : Vector (Option NodeId) heightLimit := .replicate heightLimit none
  /-- The number of entries. -/
  size : Nat := 0
  /-- The number of levels in use. -/
  height : Nat := 1

namespace SkipMap

variable {κ ν ρ : Type} {σ : Type → Type} [NodeStore σ]

/-- The map without entries, with room for some. -/
def withCapacity (capacity : Nat) (cmp : Comparator κ) (heights : HeightGenerator ρ) :
    SkipMap κ ν ρ σ :=
  { cmp := cmp, heights := heights, nodes := NodeStore.withCapacity capacity }

/-- The map without entries. -/
def empty (cmp : Comparator κ) (heights : HeightGenerator ρ) : SkipMap κ ν ρ σ :=
  withCapacity 0 cmp heights

/-- The map of the given options that draws the heights of its towers from `source`. -/
def withSource (options : Options) (cmp : Comparator κ) (source : ρ) : SkipMap κ ν ρ σ :=
  withCapacity options.capacity cmp (.withSource options source)

/-- The map without its entries. What was drawn from the random source stays drawn. -/
def clear (map : SkipMap κ ν ρ σ) : SkipMap κ ν ρ σ :=
  { cmp := map.cmp, heights := map.heights, nodes := NodeStore.clear map.nodes }

/-- Whether there are no entries. -/
def isEmpty (map : SkipMap κ ν ρ σ) : Bool :=
  map.size == 0

/-- The entry under a key of the store. -/
def node (map : SkipMap κ ν ρ σ) (id : NodeId) : Checked (Node κ ν) :=
  NodeStore.fetch id map.nodes

/-- The entry that an owner leads to on a level. -/
def forwardAt (map : SkipMap κ ν ρ σ) (level : Nat) : Cursor → Checked (Option NodeId)
  | .head => .ofOption .missingLevel map.head[level]?
  | .node id => do
    let node ← map.node id
    .ofOption .missingLevel node.forward[level]?

/-- The map where an owner leads elsewhere on a level. -/
def setForward (level : Nat) (next : Option NodeId) (owner : Cursor) (map : SkipMap κ ν ρ σ) :
    Checked (SkipMap κ ν ρ σ) :=
  match owner with
  | .head =>
    if inside : level < heightLimit then .ok { map with head := map.head.set level next }
    else .error .missingLevel
  | .node id => do
    let node ← map.node id
    if level < node.forward.length then
      let changed := { node with forward := node.forward.set level next }
      return { map with nodes := NodeStore.set id changed map.nodes }
    else .error .missingLevel

end SkipMap

end OrderedCollections
