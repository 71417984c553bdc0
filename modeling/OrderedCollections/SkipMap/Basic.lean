/-
**Ordered maps on linked levels.**

A map holds its entries in the order of their keys, on levels that let a search skip most of them. A
search compares the stored keys it meets with the wanted one, in this order of the arguments. Putting
and removing go to the first entry that is not below the wanted key and then ask whether it is equal;
looking a key up stops at the first equal one met on the way down.

* `SkipMap.get?`, `SkipMap.put`, `SkipMap.modify`, `SkipMap.remove`: the point operations.
* `SkipMap.first?`, `SkipMap.last?`: the two ends.
-/

import OrderedCollections.OrderedMap
import OrderedCollections.SkipMap.Splice

namespace OrderedCollections.SkipMap

open SkipList (Cursor)

variable {κ ν ρ : Type} {σ : Type → Type} [NodeStore σ]

/-- The key and the value of an entry. -/
def entryAt (map : SkipMap κ ν ρ σ) (id : NodeId) : Checked (κ × ν) := do
  let node ← map.node id
  return (node.key, node.value)

/-- The map with a change made to the value of an entry: the value before, and the map. -/
def replaceAt (id : NodeId) (change : ν → ν) (map : SkipMap κ ν ρ σ) :
    Checked (ν × SkipMap κ ν ρ σ) := do
  let node ← map.node id
  let changed := { node with value := change node.value }
  return (node.value, { map with nodes := NodeStore.set id changed map.nodes })

/-! ### Questions -/

/-- The first entry met on a search that compares equal to the wanted key. -/
def find? (map : SkipMap κ ν ρ σ) (wanted : κ) : Checked (Option NodeId) :=
  return (← map.descend fun stored => map.cmp stored wanted).id?

/-- The value of a key. -/
def get? (key : κ) (map : SkipMap κ ν ρ σ) : Checked (Option ν) := do
  match ← map.find? key with
  | none => return none
  | some id => return some (← map.node id).value

/-- Whether a key is present. -/
def contains (key : κ) (map : SkipMap κ ν ρ σ) : Checked Bool :=
  return (← map.find? key).isSome

/-- The entry with the smallest key. -/
def first? (map : SkipMap κ ν ρ σ) : Checked (Option (κ × ν)) :=
  match map.head.get ⟨0, heightLimit_pos⟩ with
  | none => return none
  | some id => return some (← map.entryAt id)

/-- The entry with the largest key, where a descent that passes every entry ends. -/
def last? (map : SkipMap κ ν ρ σ) : Checked (Option (κ × ν)) := do
  match place (← map.descend fun _ => .lt).turns with
  | .head => return none
  | .node id => return some (← map.entryAt id)

/-! ### Changes -/

/-- The value of a key after a change, if the key is present, and the map after it. -/
def modify (key : κ) (change : ν → ν) (map : SkipMap κ ν ρ σ) :
    Checked (Option ν × SkipMap κ ν ρ σ) := do
  match ← map.find? key with
  | none => return (none, map)
  | some id =>
    let (before, after) ← map.replaceAt id change
    return (some (change before), after)

/-- Whether the key of an entry compares equal to the wanted one. -/
def isTaken (wanted : κ) (id : NodeId) (map : SkipMap κ ν ρ σ) : Checked Bool :=
  return map.cmp (← map.node id).key wanted == .eq

/-- Puts a new entry into a gap. The height of its tower is drawn. -/
def insert [RandomSource ρ] (key : κ) (value : ν) (turns : List Cursor) (map : SkipMap κ ν ρ σ) :
    Checked (SkipMap κ ν ρ σ) :=
  let drawn := map.heights.next
  { map with heights := drawn.2 }.insertAt key value drawn.1 turns

/-- Puts a value under a key: the value that it replaces, and the map. A key that compares equal to
the given one stays as it is. -/
def put [RandomSource ρ] (key : κ) (value : ν) (map : SkipMap κ ν ρ σ) :
    Checked (Option ν × SkipMap κ ν ρ σ) := do
  let gap ← map.gap key
  match gap.ahead with
  | none => return (none, ← map.insert key value gap.turns)
  | some id =>
    if ← map.isTaken key id then
      let (before, after) ← map.replaceAt id fun _ => value
      return (some before, after)
    else return (none, ← map.insert key value gap.turns)

/-- Removes the entry of a key: its value, if the key is present, and the map without it. -/
def remove (key : κ) (map : SkipMap κ ν ρ σ) : Checked (Option ν × SkipMap κ ν ρ σ) := do
  let gap ← map.gap key
  match gap.ahead with
  | none => return (none, map)
  | some id =>
    if ← map.isTaken key id then
      let (value, after) ← map.unlink id gap.turns
      return (some value, after)
    else return (none, map)

instance [RandomSource ρ] : OrderedMap (SkipMap κ ν ρ σ) κ ν where
  put := put
  get? := get?
  modify := modify
  remove := remove
  size := size
  contains := contains

end OrderedCollections.SkipMap
