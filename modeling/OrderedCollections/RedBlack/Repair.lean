/-
**Repairing a linked tree.**

A new node hangs red where its search ended; where its parent is red too, colours are exchanged
upwards until one or two rotations end the repair. A node that goes away leaves its place to a child
or to the next node in order; where a black node went away the place lacks one black node on every
way down, and the shortage is taken upwards until it can be made up.

* `LinkedTree.settle`: the repair above a red node.
* `LinkedTree.detach`: a node gives up its place.
* `LinkedTree.mend`: the repair above a place that lacks a black node.
-/

import OrderedCollections.RedBlack.LinkedTree

namespace OrderedCollections.RedBlack.LinkedTree

variable {κ ν : Type} {σ : Type → Type} [NodeStore σ]

/-! ### After an insertion -/

/-- Turns a red node that hangs on the inner side of its red parent outwards: the tree, and which
of the two is the parent then. -/
def straighten (id parent : NodeId) (side : Side) (tree : LinkedTree κ ν σ) :
    Checked (LinkedTree κ ν σ × NodeId × NodeId) := do
  if (← tree.child parent side.opposite) = some id then
    return (← tree.rotate parent side, parent, id)
  else return (tree, id, parent)

/-- Repairs the tree above the red node `id`, for at most the given number of rounds. A red parent
has a parent itself; the case without one ends the repair. -/
def settle : Nat → NodeId → LinkedTree κ ν σ → Checked (LinkedTree κ ν σ)
  | 0, _, _ => .error .endless
  | rounds + 1, id, tree => do
    match (← tree.node id).parent with
    | none => tree.paint tree.root .black
    | some parent =>
      let parentNode ← tree.node parent
      if parentNode.color = .black then tree.paint tree.root .black
      else
        match parentNode.parent with
        | none => tree.paint tree.root .black
        | some grandparent =>
          let side ← tree.sideOf grandparent (some parent)
          let uncle ← tree.child grandparent side.opposite
          if ← tree.isRed uncle then
            let tree ← tree.paint (some parent) .black
            let tree ← tree.paint uncle .black
            let tree ← tree.paint (some grandparent) .red
            settle rounds grandparent tree
          else
            let (tree, id, parent) ← tree.straighten id parent side
            let tree ← tree.paint (some parent) .black
            let tree ← tree.paint (some grandparent) .red
            let tree ← tree.rotate grandparent side.opposite
            settle rounds id tree

/-! ### After a deletion -/

/-- Lifts a red sibling into the place of the parent, which turns red: the tree, and the sibling
then. -/
def liftSibling (parent : NodeId) (side : Side) (tree : LinkedTree κ ν σ) :
    Checked (LinkedTree κ ν σ × Option NodeId) := do
  let sibling ← tree.child parent side.opposite
  if ← tree.isRed sibling then
    let tree ← tree.paint sibling .black
    let tree ← tree.paint (some parent) .red
    let tree ← tree.rotate parent side
    return (tree, ← tree.child parent side.opposite)
  else return (tree, sibling)

/-- Turns a sibling whose far child is not red, so that its red near child takes its place: the
tree, and the sibling then. -/
def turnSibling (parent sibling : NodeId) (side : Side) (tree : LinkedTree κ ν σ) :
    Checked (LinkedTree κ ν σ × Option NodeId) := do
  if ← tree.isRed (← tree.child sibling side.opposite) then return (tree, some sibling)
  else
    let tree ← tree.paint (← tree.child sibling side) .black
    let tree ← tree.paint (some sibling) .red
    let tree ← tree.rotate sibling side.opposite
    return (tree, ← tree.child parent side.opposite)

/-- Makes up for the shortage by a rotation towards it: the sibling takes the place and the colour
of the parent. -/
def makeUp (parent sibling : NodeId) (side : Side) (tree : LinkedTree κ ν σ) :
    Checked (LinkedTree κ ν σ) := do
  let color := (← tree.node parent).color
  let tree ← tree.paint (some sibling) color
  let tree ← tree.paint (some parent) .black
  let tree ← tree.paint (← tree.child sibling side.opposite) .black
  let tree ← tree.rotate parent side
  tree.paint tree.root .black

/-- Repairs the tree above the place `id?` below `parent`, which lacks a black node on every way
down, for at most the given number of rounds. Below the root such a place has a parent and a
sibling; the cases without one end the repair or hand the shortage on. -/
def mend : Nat → Option NodeId → Option NodeId → LinkedTree κ ν σ → Checked (LinkedTree κ ν σ)
  | 0, _, _, _ => .error .endless
  | rounds + 1, id?, parent, tree => do
    if id? = tree.root then tree.paint id? .black
    else if ← tree.isRed id? then tree.paint id? .black
    else
      match parent with
      | none => tree.paint id? .black
      | some parent =>
        let side ← tree.sideOf parent id?
        let (tree, sibling) ← tree.liftSibling parent side
        match sibling with
        | none => mend rounds (some parent) (← tree.node parent).parent tree
        | some sibling =>
          let near ← tree.isRed (← tree.child sibling side)
          let far ← tree.isRed (← tree.child sibling side.opposite)
          if !near && !far then
            let tree ← tree.paint (some sibling) .red
            mend rounds (some parent) (← tree.node parent).parent tree
          else
            let (tree, sibling) ← tree.turnSibling parent sibling side
            match sibling with
            | none => tree.paint id? .black
            | some sibling => tree.makeUp parent sibling side

/-- A place that a node gave up. -/
structure Vacancy (κ ν : Type) (σ : Type → Type := Slots) where
  tree : LinkedTree κ ν σ
  /-- What hangs in the place. -/
  id? : Option NodeId
  /-- The node above the place. -/
  parent : Option NodeId
  /-- The colour that the place lost. -/
  color : Color

/-- Takes the next node in order out of its own place and puts it into that of `id`, whose children
are `left` and `right`. -/
def promote (id : NodeId) (color : Color) (left right : NodeId) (tree : LinkedTree κ ν σ) :
    Checked (Vacancy κ ν σ) := do
  let next ← tree.extreme .left tree.rounds right
  let nextNode ← tree.node next
  let (tree, parent) ←
    if nextNode.parent = some id then pure (tree, some next)
    else do
      let tree ← tree.transplant next nextNode.right
      let tree ← tree.setChild next .right (some right)
      let tree ← tree.setParent (some right) (some next)
      pure (tree, nextNode.parent)
  let tree ← tree.transplant id (some next)
  let tree ← tree.setChild next .left (some left)
  let tree ← tree.setParent (some left) (some next)
  let tree ← tree.paint (some next) color
  return ⟨tree, nextNode.right, parent, nextNode.color⟩

/-- Takes a node out of its place. -/
def detach (id : NodeId) (tree : LinkedTree κ ν σ) : Checked (Vacancy κ ν σ) := do
  let node ← tree.node id
  match node.left, node.right with
  | none, right => return ⟨← tree.transplant id right, right, node.parent, node.color⟩
  | left, none => return ⟨← tree.transplant id left, left, node.parent, node.color⟩
  | some left, some right => tree.promote id node.color left right

/-- The tree with a node taken out of its place and repaired. The node itself stays in the store. -/
def delete (id : NodeId) (tree : LinkedTree κ ν σ) : Checked (LinkedTree κ ν σ) := do
  let vacancy ← tree.detach id
  match vacancy.color with
  | .red => return vacancy.tree
  | .black => vacancy.tree.mend vacancy.tree.rounds vacancy.id? vacancy.parent

end OrderedCollections.RedBlack.LinkedTree
