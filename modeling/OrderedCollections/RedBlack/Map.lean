/-
**Ordered maps on red-black trees.**

A map holds its entries in a red-black tree ordered by key. A search compares the wanted key with
the stored ones from the root on and stops at the first key that compares equal. Beside the
operations that insert or overwrite, two strict ones refuse: `tryInsert` where the key is present,
`update` where it is absent.

* `RedBlackMap.search`: where the search for a key ends.
* `RedBlackMap.put`, `RedBlackMap.tryInsert`, `RedBlackMap.update`, `RedBlackMap.remove`: the
  changes.
-/

import OrderedCollections.Comparator
import OrderedCollections.Error
import OrderedCollections.OrderedMap
import OrderedCollections.RedBlack.Repair

namespace OrderedCollections

/-- An ordered map on a red-black tree. -/
structure RedBlackMap (κ ν : Type) (σ : Type → Type := Slots) where
  /-- The order of the keys. -/
  cmp : Comparator κ
  /-- The entries. -/
  tree : RedBlack.LinkedTree κ ν σ
  /-- The number of entries. -/
  size : Nat := 0

namespace RedBlackMap

variable {κ ν : Type} {σ : Type → Type} [NodeStore σ]

/-- The map without entries, with room for some. -/
def withCapacity (capacity : Nat) (cmp : Comparator κ) : RedBlackMap κ ν σ :=
  { cmp := cmp, tree := { nodes := NodeStore.withCapacity capacity } }

/-- The map without entries. -/
def empty (cmp : Comparator κ) : RedBlackMap κ ν σ :=
  withCapacity 0 cmp

/-- Whether there are no entries. -/
def isEmpty (map : RedBlackMap κ ν σ) : Bool :=
  map.size == 0

/-- The map without its entries. -/
def clear (map : RedBlackMap κ ν σ) : RedBlackMap κ ν σ :=
  { cmp := map.cmp, tree := { nodes := NodeStore.clear map.tree.nodes } }

/-- Where a search ends. -/
inductive Search where
  /-- At a node whose key compares equal. -/
  | found (id : NodeId)
  /-- At a vacant place on a side of a node, or at the root of a tree without nodes. -/
  | vacant (parent : Option NodeId) (side : RedBlack.Side)
  deriving DecidableEq, Repr

/-- Searches below the place `id?` on a side of `parent`, for at most the given number of rounds. -/
def searchFrom (map : RedBlackMap κ ν σ) (key : κ) :
    Nat → Option NodeId → Option NodeId → RedBlack.Side → Checked Search
  | 0, _, _, _ => .error .endless
  | _ + 1, none, parent, side => return .vacant parent side
  | rounds + 1, some id, _, _ => do
    let node ← map.tree.node id
    match map.cmp key node.key with
    | .lt => map.searchFrom key rounds node.left (some id) .left
    | .gt => map.searchFrom key rounds node.right (some id) .right
    | .eq => return .found id

/-- Where the search for a key ends. -/
def search (map : RedBlackMap κ ν σ) (key : κ) : Checked Search :=
  map.searchFrom key map.tree.rounds map.tree.root none .left

/-- The value under a key of the store. -/
def valueAt (map : RedBlackMap κ ν σ) (id : NodeId) : Checked ν :=
  return (← map.tree.node id).value

/-- The map with a change made to the value under a key of the store: the value before, and the
map. -/
def replaceAt (id : NodeId) (change : ν → ν) (map : RedBlackMap κ ν σ) :
    Checked (ν × RedBlackMap κ ν σ) := do
  let before ← map.valueAt id
  let tree ← map.tree.modifyNode id fun node => { node with value := change node.value }
  return (before, { map with tree := tree })

/-- The value of a key. -/
def get? (key : κ) (map : RedBlackMap κ ν σ) : Checked (Option ν) := do
  match ← map.search key with
  | .found id => return some (← map.valueAt id)
  | .vacant _ _ => return none

/-- Whether a key is present. -/
def contains (key : κ) (map : RedBlackMap κ ν σ) : Checked Bool := do
  match ← map.search key with
  | .found _ => return true
  | .vacant _ _ => return false

/-- Hangs a new node into a vacant place and repairs the tree: the key of the node in the store, and
the map. -/
def attach (parent : Option NodeId) (side : RedBlack.Side) (key : κ) (value : ν)
    (map : RedBlackMap κ ν σ) : Checked (NodeId × RedBlackMap κ ν σ) := do
  let (id, nodes) := NodeStore.insert ⟨key, value, .red, parent, none, none⟩ map.tree.nodes
  let tree : RedBlack.LinkedTree κ ν σ := { map.tree with nodes := nodes }
  let tree ← tree.hang parent side (some id)
  let tree ← tree.settle tree.rounds id
  return (id, { map with tree := tree, size := map.size + 1 })

/-- Puts a value under a key: the value that it replaces, and the map. The stored key stays. -/
def put (key : κ) (value : ν) (map : RedBlackMap κ ν σ) :
    Checked (Option ν × RedBlackMap κ ν σ) := do
  match ← map.search key with
  | .found id =>
    let (before, after) ← map.replaceAt id fun _ => value
    return (some before, after)
  | .vacant parent side =>
    let (_, after) ← map.attach parent side key value
    return (none, after)

/-- Puts a value under a key that must not be present: the key of the new node in the store, which is
the place of the value, and the map. -/
def tryInsert (key : κ) (value : ν) (map : RedBlackMap κ ν σ) :
    Checked (Except Error NodeId × RedBlackMap κ ν σ) := do
  match ← map.search key with
  | .found _ => return (.error .duplicated, map)
  | .vacant parent side =>
    let (id, after) ← map.attach parent side key value
    return (.ok id, after)

/-- The value of a key after a change, if the key is present, and the map after it. -/
def modify (key : κ) (change : ν → ν) (map : RedBlackMap κ ν σ) :
    Checked (Option ν × RedBlackMap κ ν σ) := do
  match ← map.search key with
  | .found id =>
    let (before, after) ← map.replaceAt id change
    return (some (change before), after)
  | .vacant _ _ => return (none, map)

/-- Replaces the value of a key that must be present: the value before, and the map. -/
def update (key : κ) (value : ν) (map : RedBlackMap κ ν σ) :
    Checked (Except Error ν × RedBlackMap κ ν σ) := do
  match ← map.search key with
  | .found id =>
    let (before, after) ← map.replaceAt id fun _ => value
    return (.ok before, after)
  | .vacant _ _ => return (.error .notFound, map)

/-- Takes a node out of the map: the node, and the map without it. -/
def delete (id : NodeId) (map : RedBlackMap κ ν σ) :
    Checked (RedBlack.Node κ ν × RedBlackMap κ ν σ) := do
  let tree ← map.tree.delete id
  let size ← .minus map.size 1
  let (node, nodes) ← NodeStore.take id tree.nodes
  if NodeStore.size nodes = size then
    return (node, { map with tree := { tree with nodes := nodes }, size := size })
  else .error .miscounted

/-- Removes the entry of a key: its value, if the key is present, and the map without it. -/
def remove (key : κ) (map : RedBlackMap κ ν σ) : Checked (Option ν × RedBlackMap κ ν σ) := do
  match ← map.search key with
  | .found id =>
    let (node, after) ← map.delete id
    return (some node.value, after)
  | .vacant _ _ => return (none, map)

instance : OrderedMap (RedBlackMap κ ν σ) κ ν where
  put := put
  get? := get?
  modify := modify
  remove := remove
  size := size
  contains := contains

end RedBlackMap

end OrderedCollections
