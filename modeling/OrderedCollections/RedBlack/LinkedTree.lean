/-
**Trees of linked nodes.**

The nodes of a tree stand in a store and lead to each other by key: each one to its children on both
sides and to its parent. The two sides are treated alike, so that every mirrored pair of cases is
written once.

* `RedBlack.Node`, `RedBlack.LinkedTree`: a node, and the nodes with their root.
* `LinkedTree.rotate`: a rotation, where the child that it lifts is present.
* `LinkedTree.transplant`: one node in the place of another.
* `LinkedTree.extreme`: the node of a subtree that stands furthest on a side.
-/

import OrderedCollections.NodeStore.Slots
import OrderedCollections.RedBlack.Side

namespace OrderedCollections.RedBlack

/-- A node with the keys of its neighbours. -/
structure Node (κ ν : Type) where
  key : κ
  value : ν
  color : Color
  parent : Option NodeId
  left : Option NodeId
  right : Option NodeId
  deriving DecidableEq, Repr

namespace Node

variable {κ ν : Type}

/-- The child on a side. -/
def child (side : Side) (node : Node κ ν) : Option NodeId :=
  match side with
  | .left => node.left
  | .right => node.right

/-- The node with another child on a side. -/
def withChild (side : Side) (child : Option NodeId) (node : Node κ ν) : Node κ ν :=
  match side with
  | .left => { node with left := child }
  | .right => { node with right := child }

end Node

/-- The nodes of a tree, and which of them is the root. -/
structure LinkedTree (κ ν : Type) (σ : Type → Type := Slots) where
  nodes : σ (Node κ ν)
  root : Option NodeId := none

namespace LinkedTree

variable {κ ν : Type} {σ : Type → Type} [NodeStore σ]

/-- The node under a key. -/
def node (tree : LinkedTree κ ν σ) (id : NodeId) : Checked (Node κ ν) :=
  NodeStore.fetch id tree.nodes

/-- The tree with a change made to the node under a key. -/
def modifyNode (id : NodeId) (change : Node κ ν → Node κ ν) (tree : LinkedTree κ ν σ) :
    Checked (LinkedTree κ ν σ) := do
  let nodes ← NodeStore.modify id change tree.nodes
  return { tree with nodes := nodes }

/-- The number of rounds that no loop along the links of a tree exceeds. -/
def rounds (tree : LinkedTree κ ν σ) : Nat :=
  NodeStore.size tree.nodes + 1

/-- The child of a node on a side. -/
def child (tree : LinkedTree κ ν σ) (id : NodeId) (side : Side) : Checked (Option NodeId) :=
  return (← tree.node id).child side

/-- The tree with another child of a node on a side. -/
def setChild (id : NodeId) (side : Side) (child : Option NodeId) (tree : LinkedTree κ ν σ) :
    Checked (LinkedTree κ ν σ) :=
  tree.modifyNode id (Node.withChild side child)

/-- The tree with another parent of a node, if there is a node. -/
def setParent (id? : Option NodeId) (parent : Option NodeId) (tree : LinkedTree κ ν σ) :
    Checked (LinkedTree κ ν σ) :=
  match id? with
  | none => .ok tree
  | some id => tree.modifyNode id fun node => { node with parent := parent }

/-- The tree with a node in the given colour, if there is a node. -/
def paint (id? : Option NodeId) (color : Color) (tree : LinkedTree κ ν σ) :
    Checked (LinkedTree κ ν σ) :=
  match id? with
  | none => .ok tree
  | some id => tree.modifyNode id fun node => { node with color := color }

/-- Whether there is a node, and it is red. -/
def isRed (tree : LinkedTree κ ν σ) : Option NodeId → Checked Bool
  | none => return false
  | some id => return (← tree.node id).color == .red

/-- The side of a parent on which a child hangs. -/
def sideOf (tree : LinkedTree κ ν σ) (parent : NodeId) (child : Option NodeId) : Checked Side :=
  return if (← tree.node parent).left = child then .left else .right

/-- The node of the subtree below `id` that stands furthest on a side, looked for in at most the
given number of rounds. -/
def extreme (tree : LinkedTree κ ν σ) (side : Side) : Nat → NodeId → Checked NodeId
  | 0, _ => .error .endless
  | rounds + 1, id => do
    match ← tree.child id side with
    | some next => tree.extreme side rounds next
    | none => return id

/-- Puts `new` on a side of a parent, or at the root. -/
def hang (parent : Option NodeId) (side : Side) (new : Option NodeId) (tree : LinkedTree κ ν σ) :
    Checked (LinkedTree κ ν σ) :=
  match parent with
  | none => .ok { tree with root := new }
  | some parent => tree.setChild parent side new

/-- Puts `new` in the place of the child `old` of a parent, or of the root. -/
def replaceChild (parent : Option NodeId) (old : NodeId) (new : Option NodeId)
    (tree : LinkedTree κ ν σ) : Checked (LinkedTree κ ν σ) :=
  match parent with
  | none => .ok { tree with root := new }
  | some parent => do
    let side ← tree.sideOf parent (some old)
    tree.setChild parent side new

/-- Turns the subtree at `pivot` towards `side`: its child on the other side takes its place. Where
that child is missing nothing changes. -/
def rotate (pivot : NodeId) (side : Side) (tree : LinkedTree κ ν σ) :
    Checked (LinkedTree κ ν σ) := do
  match ← tree.child pivot side.opposite with
  | none => return tree
  | some lifted =>
    let inner ← tree.child lifted side
    let tree ← tree.setChild pivot side.opposite inner
    let tree ← tree.setParent inner (some pivot)
    let parent := (← tree.node pivot).parent
    let tree ← tree.setParent (some lifted) parent
    let tree ← tree.replaceChild parent pivot (some lifted)
    let tree ← tree.setChild lifted side (some pivot)
    tree.setParent (some pivot) (some lifted)

/-- Puts `new` where `old` hangs. The children of both stay as they are. -/
def transplant (old : NodeId) (new : Option NodeId) (tree : LinkedTree κ ν σ) :
    Checked (LinkedTree κ ν σ) := do
  let parent := (← tree.node old).parent
  let tree ← tree.replaceChild parent old new
  tree.setParent new parent

end LinkedTree

end OrderedCollections.RedBlack
