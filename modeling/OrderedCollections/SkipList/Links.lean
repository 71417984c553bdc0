/-
**Towers and their links.**

The elements of a skip list stand in towers of different heights. A tower takes part in the levels
below its height: on each of them it has a link to the next tower that is tall enough, and the link
knows how many positions it passes. The header has a link for every level there can be. Towers are
nodes of a store and lead to each other by key; each one also knows the tower before it.

* `SkipList.Link`, `SkipList.Node`: a link of one level, and a tower.
* `SkipList`: the towers, the header, and what is kept count of.
* `SkipList.linkAt`, `SkipList.setLink`: the link of an owner on a level.
-/

import OrderedCollections.Comparator
import OrderedCollections.HeightGenerator
import OrderedCollections.NodeStore.Slots

namespace OrderedCollections

namespace SkipList

/-- A link of one level. One that leads past the last tower counts the towers that follow its
owner. -/
structure Link where
  /-- The tower that the link leads to. -/
  next : Option NodeId := none
  /-- The number of positions that the link passes. -/
  span : Nat := 0
  deriving DecidableEq, Repr

/-- An element with its links, the lowest level first. -/
structure Node (α : Type) where
  value : α
  /-- The tower before this one. -/
  prev : Option NodeId
  links : List Link
  deriving DecidableEq, Repr

/-- An owner of links: the header or a tower. -/
inductive Cursor where
  | head
  | node (id : NodeId)
  deriving DecidableEq, Repr

/-- The tower that owns the links, if it is one. -/
def Cursor.id? : Cursor → Option NodeId
  | head => none
  | node id => some id

/-- The number of levels in use, at most the given number, after those at the top are given up on
which the header leads nowhere; the lowest level stays. -/
def usedLevels (leads : Nat → Checked (Option NodeId)) : Nat → Checked Nat
  | 0 => return 0
  | 1 => return 1
  | level + 2 => do
    if (← leads (level + 1)).isNone then usedLevels leads (level + 1) else return level + 2

end SkipList

/-- An ordered collection of elements with ranks. -/
structure SkipList (α ρ : Type) (σ : Type → Type := Slots) where
  /-- The order of the elements. -/
  cmp : Comparator α
  /-- Where the heights of new towers come from. -/
  heights : HeightGenerator ρ
  /-- The towers. -/
  nodes : σ (SkipList.Node α)
  /-- The links of the header, the lowest level first. -/
  head : Vector SkipList.Link heightLimit := .replicate heightLimit {}
  /-- The last tower. -/
  tail : Option NodeId := none
  /-- The number of elements. -/
  size : Nat := 0
  /-- The number of levels in use. -/
  height : Nat := 1

namespace SkipList

variable {α ρ : Type} {σ : Type → Type} [NodeStore σ]

/-- The list without elements, with room for some. -/
def withCapacity (capacity : Nat) (cmp : Comparator α) (heights : HeightGenerator ρ) :
    SkipList α ρ σ :=
  { cmp := cmp, heights := heights, nodes := NodeStore.withCapacity capacity }

/-- The list without elements. -/
def empty (cmp : Comparator α) (heights : HeightGenerator ρ) : SkipList α ρ σ :=
  withCapacity 0 cmp heights

/-- The list of the given options that draws the heights of its towers from `source`. -/
def withSource (options : Options) (cmp : Comparator α) (source : ρ) : SkipList α ρ σ :=
  withCapacity options.capacity cmp (.withSource options source)

/-- The list without its elements. What was drawn from the random source stays drawn. -/
def clear (list : SkipList α ρ σ) : SkipList α ρ σ :=
  { cmp := list.cmp, heights := list.heights, nodes := NodeStore.clear list.nodes }

/-- Whether there are no elements. -/
def isEmpty (list : SkipList α ρ σ) : Bool :=
  list.size == 0

/-- The tower that the header leads to on the lowest level. -/
def first (list : SkipList α ρ σ) : Option NodeId :=
  (list.head.get ⟨0, heightLimit_pos⟩).next

/-- The tower under a key. -/
def node (list : SkipList α ρ σ) (id : NodeId) : Checked (Node α) :=
  NodeStore.fetch id list.nodes

/-- The link of an owner on a level. -/
def linkAt (list : SkipList α ρ σ) (level : Nat) : Cursor → Checked Link
  | .head => .ofOption .missingLevel list.head[level]?
  | .node id => do
    let node ← list.node id
    .ofOption .missingLevel node.links[level]?

/-- The list with another link of an owner on a level. -/
def setLink (level : Nat) (link : Link) (owner : Cursor) (list : SkipList α ρ σ) :
    Checked (SkipList α ρ σ) :=
  match owner with
  | .head =>
    if inside : level < heightLimit then .ok { list with head := list.head.set level link }
    else .error .missingLevel
  | .node id => do
    let node ← list.node id
    if level < node.links.length then
      let changed := { node with links := node.links.set level link }
      return { list with nodes := NodeStore.set id changed list.nodes }
    else .error .missingLevel

/-- The list with `before` as what stands before a tower, or as the last tower where none is
given. -/
def setBefore (before : Option NodeId) (place : Option NodeId) (list : SkipList α ρ σ) :
    Checked (SkipList α ρ σ) :=
  match place with
  | some id => do
    let nodes ← NodeStore.modify id (fun node => { node with prev := before }) list.nodes
    return { list with nodes := nodes }
  | none => .ok { list with tail := before }

end SkipList

end OrderedCollections
