/-
**Linked trees.**

A linked tree stands for a tree of items if its store holds the cells of that tree, each with the
links that its place in the tree asks for. The cells of a tree are a bag: those of a subtree stand
beside those of the path above it, and a change to one link is a change to one cell of the bag.

* `Tree.cells`, `Path.cells`: the cells of a tree, and of the path above a place.
* `cells_plug`: the cells of the whole tree, seen from a place in it.
* `Holds`: a linked tree with a root and a bag of cells.
* `Linked`: a linked tree that stands for a tree of items, beside cells that belong to none.
* `setParent_spec`, `paint_spec`, `replaceChild_spec`: what the small changes do to the bag.
-/

import Mathlib.Algebra.Order.Group.Multiset
import OrderedCollections.Proofs.NodeStore.Cells
import OrderedCollections.Proofs.RedBlack.Tree
import OrderedCollections.RedBlack.LinkedTree

namespace OrderedCollections.RedBlack

/-- What a node holds beside its colour and its links, with its key in the store. -/
structure Item (κ ν : Type) where
  id : NodeId
  key : κ
  value : ν

variable {κ ν : Type}

/-! ### Cells -/

/-- The node of an item with the given child on a side and the other one on the other side. -/
def nodeAt (side : Side) (item : Item κ ν) (color : Color) (parent near far : Option NodeId) :
    Node κ ν :=
  match side with
  | .left => ⟨item.key, item.value, color, parent, near, far⟩
  | .right => ⟨item.key, item.value, color, parent, far, near⟩

section NodeAt

variable (side : Side) (item : Item κ ν) (color : Color) (parent near far : Option NodeId)

@[simp] theorem color_nodeAt : (nodeAt side item color parent near far).color = color := by
  cases side <;> rfl

@[simp] theorem parent_nodeAt : (nodeAt side item color parent near far).parent = parent := by
  cases side <;> rfl

@[simp] theorem key_nodeAt : (nodeAt side item color parent near far).key = item.key := by
  cases side <;> rfl

@[simp] theorem value_nodeAt : (nodeAt side item color parent near far).value = item.value := by
  cases side <;> rfl

@[simp] theorem child_nodeAt : (nodeAt side item color parent near far).child side = near := by
  cases side <;> rfl

@[simp] theorem child_opposite_nodeAt :
    (nodeAt side item color parent near far).child side.opposite = far := by
  cases side <;> rfl

@[simp] theorem withChild_nodeAt (child : Option NodeId) :
    (nodeAt side item color parent near far).withChild side child =
      nodeAt side item color parent child far := by
  cases side <;> rfl

@[simp] theorem withChild_opposite_nodeAt (child : Option NodeId) :
    (nodeAt side item color parent near far).withChild side.opposite child =
      nodeAt side item color parent near child := by
  cases side <;> rfl

theorem withParent_nodeAt (other : Option NodeId) :
    { nodeAt side item color parent near far with parent := other } =
      nodeAt side item color other near far := by
  cases side <;> rfl

theorem withColor_nodeAt (other : Color) :
    { nodeAt side item color parent near far with color := other } =
      nodeAt side item other parent near far := by
  cases side <;> rfl

@[simp] theorem left_nodeAt : (nodeAt .left item color parent near far).left = near := rfl

@[simp] theorem right_nodeAt : (nodeAt .left item color parent near far).right = far := rfl

end NodeAt

namespace Tree

/-- The key of the root. -/
def rootId? : Tree (Item κ ν) → Option NodeId
  | leaf => none
  | node _ _ item _ => some item.id

/-- The cells of a tree that hangs below `parent`. -/
def cells (parent : Option NodeId) : Tree (Item κ ν) → Multiset (NodeId × Node κ ν)
  | leaf => 0
  | node color left item right =>
    {(item.id, nodeAt .left item color parent left.rootId? right.rootId?)} +
      (left.cells (some item.id) + right.cells (some item.id))

@[simp] theorem rootId?_leaf : (leaf : Tree (Item κ ν)).rootId? = none := rfl

@[simp] theorem cells_leaf (parent : Option NodeId) : (leaf : Tree (Item κ ν)).cells parent = 0 :=
  rfl

@[simp] theorem rootId?_join (side : Side) (color : Color) (near : Tree (Item κ ν))
    (item : Item κ ν) (far : Tree (Item κ ν)) :
    (join side color near item far).rootId? = some item.id := by
  cases side <;> rfl

@[simp] theorem rootId?_paint (color : Color) (tree : Tree (Item κ ν)) :
    (tree.paint color).rootId? = tree.rootId? := by
  cases tree <;> rfl

theorem rootId?_eq_none {tree : Tree (Item κ ν)} : tree.rootId? = none ↔ tree = leaf := by
  cases tree <;> simp [rootId?]

theorem cells_join (side : Side) (color : Color) (near : Tree (Item κ ν)) (item : Item κ ν)
    (far : Tree (Item κ ν)) (parent : Option NodeId) :
    (join side color near item far).cells parent =
      {(item.id, nodeAt side item color parent near.rootId? far.rootId?)} +
        (near.cells (some item.id) + far.cells (some item.id)) := by
  cases side with
  | left => rfl
  | right =>
    rw [add_comm (near.cells _)]
    rfl

theorem root_mem_cells {tree : Tree (Item κ ν)} {id : NodeId} (root : tree.rootId? = some id)
    (parent : Option NodeId) : ∃ node, (id, node) ∈ tree.cells parent := by
  cases tree with
  | leaf => cases root
  | node color left item right =>
    cases root
    exact ⟨_, Multiset.mem_add.mpr (Or.inl (Multiset.mem_singleton_self _))⟩

/-- There are as many cells as items. -/
theorem card_cells (tree : Tree (Item κ ν)) (parent : Option NodeId) :
    (tree.cells parent).card = tree.toList.length := by
  induction tree generalizing parent with
  | leaf => rfl
  | node color left item right left_ih right_ih =>
    rw [cells, Multiset.card_add, Multiset.card_add, Multiset.card_singleton, left_ih, right_ih,
      toList_node, List.length_append, List.length_cons]
    omega

end Tree

namespace Path

/-- The key of the node above a place. -/
def parentId? : Path (Item κ ν) → Option NodeId
  | [] => none
  | frame :: _ => some frame.item.id

/-- The key of the root of the whole tree, where `hole` hangs in the place. -/
def rootId? (hole : Option NodeId) : Path (Item κ ν) → Option NodeId
  | [] => hole
  | frame :: above => rootId? (some frame.item.id) above

/-- The cells of the path above a place, where `hole` hangs in the place. -/
def cells (hole : Option NodeId) : Path (Item κ ν) → Multiset (NodeId × Node κ ν)
  | [] => 0
  | frame :: above =>
    {(frame.item.id, nodeAt frame.side frame.item frame.color (parentId? above) hole
      frame.sibling.rootId?)} +
      (frame.sibling.cells (some frame.item.id) + cells (some frame.item.id) above)

theorem rootId?_plug (path : Path (Item κ ν)) (subtree : Tree (Item κ ν)) :
    (path.plug subtree).rootId? = path.rootId? subtree.rootId? := by
  induction path generalizing subtree with
  | nil => rfl
  | cons frame above ih => rw [plug_cons, ih, Frame.fill, Tree.rootId?_join, rootId?]

/-- **The cells of the whole tree** are those of a subtree and those of the path above it. -/
theorem cells_plug (path : Path (Item κ ν)) (subtree : Tree (Item κ ν)) :
    (path.plug subtree).cells none =
      subtree.cells path.parentId? + path.cells subtree.rootId? := by
  induction path generalizing subtree with
  | nil => exact (add_zero _).symm
  | cons frame above ih =>
    rw [plug_cons, ih, Frame.fill, Tree.rootId?_join, Tree.cells_join, cells, parentId?]
    ac_rfl

/-- Below a frame, the root of the whole tree is one of the path. -/
theorem root_mem_cells {path : Path (Item κ ν)} (nonempty : path ≠ []) (hole : Option NodeId) :
    ∃ id node, path.rootId? hole = some id ∧ (id, node) ∈ path.cells hole := by
  induction path generalizing hole with
  | nil => exact absurd rfl nonempty
  | cons frame above ih =>
    by_cases last : above = []
    · subst last
      exact ⟨frame.item.id, _, rfl, Multiset.mem_add.mpr (Or.inl (Multiset.mem_singleton_self _))⟩
    · obtain ⟨id, node, root, member⟩ := ih last (some frame.item.id)
      refine ⟨id, node, root, ?_⟩
      rw [cells, Multiset.mem_add, Multiset.mem_add]
      exact Or.inr (Or.inr member)

/-- Every node above a place has a cell. -/
theorem item_mem_cells {path : Path (Item κ ν)} {frame : Frame (Item κ ν)} (member : frame ∈ path)
    (hole : Option NodeId) : ∃ node, (frame.item.id, node) ∈ path.cells hole := by
  induction path generalizing hole with
  | nil => cases member
  | cons first above ih =>
    rcases List.mem_cons.mp member with rfl | inAbove
    · exact ⟨_, Multiset.mem_add.mpr (Or.inl (Multiset.mem_singleton_self _))⟩
    · obtain ⟨node, inCells⟩ := ih inAbove (some first.item.id)
      refine ⟨node, ?_⟩
      rw [cells, Multiset.mem_add, Multiset.mem_add]
      exact Or.inr (Or.inr inCells)

/-- A path has no more frames than cells. -/
theorem length_le_card_cells (path : Path (Item κ ν)) (hole : Option NodeId) :
    path.length ≤ (path.cells hole).card := by
  induction path generalizing hole with
  | nil => exact Nat.le_refl 0
  | cons frame above ih =>
    have shorter := ih (some frame.item.id)
    rw [cells, Multiset.card_add, Multiset.card_add, Multiset.card_singleton, List.length_cons]
    omega

end Path

/-! ### Linked trees and their cells -/

variable {σ : Type → Type} [NodeStore σ]

/-- A linked tree with this root and these cells. -/
structure Holds (tree : LinkedTree κ ν σ) (root : Option NodeId)
    (cells : Multiset (NodeId × Node κ ν)) : Prop where
  root : tree.root = root
  stores : Stores tree.nodes cells

/-- **A linked tree stands for a tree of items.** Its store may hold further cells. -/
def Linked (tree : LinkedTree κ ν σ) (whole : Tree (Item κ ν))
    (further : Multiset (NodeId × Node κ ν)) : Prop :=
  Holds tree whole.rootId? (whole.cells none + further)

/-- A linked tree, seen from a place in the tree that it stands for. -/
theorem linked_plug {tree : LinkedTree κ ν σ} {path : Path (Item κ ν)} {subtree : Tree (Item κ ν)}
    {further : Multiset (NodeId × Node κ ν)} :
    Linked tree (path.plug subtree) further ↔ Holds tree (path.rootId? subtree.rootId?)
      (subtree.cells path.parentId? + (path.cells subtree.rootId? + further)) := by
  unfold Linked
  rw [Path.rootId?_plug, Path.cells_plug, add_assoc]

namespace Holds

variable {tree : LinkedTree κ ν σ} {root : Option NodeId}
  {cells rest : Multiset (NodeId × Node κ ν)} {id : NodeId} {node : Node κ ν}

theorem perm {other : Multiset (NodeId × Node κ ν)} (holds : Holds tree root cells)
    (same : cells = other) : Holds tree root other :=
  same ▸ holds

theorem node_eq (holds : Holds tree root ({(id, node)} + rest)) : tree.node id = .ok node :=
  holds.stores.fetch

theorem child_eq (holds : Holds tree root ({(id, node)} + rest)) (side : Side) :
    tree.child id side = .ok (node.child side) := by
  simp only [LinkedTree.child, holds.node_eq, Checked.ok_bind, Checked.pure_eq_ok]

/-- Whether the root of a subtree is red. -/
theorem isRed_eq {subtree : Tree (Item κ ν)} {parent : Option NodeId}
    (holds : Holds tree root (subtree.cells parent + rest)) :
    tree.isRed subtree.rootId? = .ok subtree.isRed := by
  cases subtree with
  | leaf => rfl
  | node color left item right =>
    rw [Tree.cells, add_assoc] at holds
    simp only [Tree.rootId?, LinkedTree.isRed, holds.node_eq, Checked.ok_bind, color_nodeAt]
    cases color <;> rfl

theorem sideOf_eq {side : Side} {item : Item κ ν} {color : Color} {parent near far : Option NodeId}
    (holds : Holds tree root ({(item.id, nodeAt side item color parent near far)} + rest))
    (different : far ≠ near) : tree.sideOf item.id near = .ok side := by
  simp only [LinkedTree.sideOf, holds.node_eq, Checked.ok_bind, Checked.pure_eq_ok]
  cases side with
  | left => exact congrArg _ (if_pos rfl)
  | right => exact congrArg _ (if_neg different)

theorem card_lt_rounds (holds : Holds tree root cells) : cells.card < tree.rounds := by
  unfold LinkedTree.rounds
  rw [holds.stores.size_eq]
  exact Nat.lt_succ_self _

section Changes

variable [LawfulNodeStore σ]

theorem modifyNode_spec (holds : Holds tree root ({(id, node)} + rest))
    (change : Node κ ν → Node κ ν) :
    ∃ after, tree.modifyNode id change = .ok after ∧
      Holds after root ({(id, change node)} + rest) := by
  refine ⟨{ tree with nodes := NodeStore.set id (change node) tree.nodes }, ?_, holds.root,
    holds.stores.set (change node)⟩
  simp only [LinkedTree.modifyNode, NodeStore.modify_eq_ok holds.stores.get?, Checked.ok_bind,
    Checked.pure_eq_ok]

theorem setChild_spec (holds : Holds tree root ({(id, node)} + rest)) (side : Side)
    (child : Option NodeId) :
    ∃ after, tree.setChild id side child = .ok after ∧
      Holds after root ({(id, node.withChild side child)} + rest) :=
  holds.modifyNode_spec (Node.withChild side child)

/-- A subtree gets another parent. -/
theorem setParent_spec {subtree : Tree (Item κ ν)} {old : Option NodeId}
    (holds : Holds tree root (subtree.cells old + rest)) (new : Option NodeId) :
    ∃ after, tree.setParent subtree.rootId? new = .ok after ∧
      Holds after root (subtree.cells new + rest) := by
  cases subtree with
  | leaf => exact ⟨tree, rfl, holds⟩
  | node color left item right =>
    rw [Tree.cells, add_assoc] at holds
    obtain ⟨after, done, holdsAfter⟩ :=
      holds.modifyNode_spec fun node => { node with parent := new }
    rw [withParent_nodeAt] at holdsAfter
    exact ⟨after, done, by rw [Tree.cells, add_assoc]; exact holdsAfter⟩

/-- A single node gets another parent. -/
theorem setParentOf_spec {side : Side} {item : Item κ ν} {color : Color}
    {parent near far : Option NodeId}
    (holds : Holds tree root ({(item.id, nodeAt side item color parent near far)} + rest))
    (new : Option NodeId) :
    ∃ after, tree.setParent (some item.id) new = .ok after ∧
      Holds after root ({(item.id, nodeAt side item color new near far)} + rest) := by
  obtain ⟨after, done, holdsAfter⟩ := holds.modifyNode_spec fun node => { node with parent := new }
  rw [withParent_nodeAt] at holdsAfter
  exact ⟨after, done, holdsAfter⟩

/-- A subtree is painted at its root. -/
theorem paint_spec {subtree : Tree (Item κ ν)} {parent : Option NodeId}
    (holds : Holds tree root (subtree.cells parent + rest)) (color : Color) :
    ∃ after, tree.paint subtree.rootId? color = .ok after ∧
      Holds after root ((subtree.paint color).cells parent + rest) := by
  cases subtree with
  | leaf => exact ⟨tree, rfl, holds⟩
  | node old left item right =>
    rw [Tree.cells, add_assoc] at holds
    obtain ⟨after, done, holdsAfter⟩ :=
      holds.modifyNode_spec fun node => { node with color := color }
    rw [withColor_nodeAt] at holdsAfter
    exact ⟨after, done, by rw [Tree.paint, Tree.cells, add_assoc]; exact holdsAfter⟩

/-- A subtree hangs on the side on which the path goes on, or as the root. -/
theorem hang_spec {path : Path (Item κ ν)} {old : Option NodeId} {side : Side}
    (holds : Holds tree (path.rootId? old) (path.cells old + rest))
    (onSide : ∀ frame ∈ path.head?, frame.side = side) (new : Option NodeId) :
    ∃ after, tree.hang path.parentId? side new = .ok after ∧
      Holds after (path.rootId? new) (path.cells new + rest) := by
  cases path with
  | nil => exact ⟨{ tree with root := new }, rfl, rfl, holds.stores⟩
  | cons frame above =>
    obtain rfl := onSide frame rfl
    rw [Path.cells, add_assoc] at holds
    obtain ⟨after, done, holdsAfter⟩ := holds.setChild_spec frame.side new
    rw [withChild_nodeAt] at holdsAfter
    exact ⟨after, done, by rw [Path.cells, add_assoc]; exact holdsAfter⟩

/-- Another subtree hangs in a place below a path, or as the root. -/
theorem replaceChild_spec {path : Path (Item κ ν)} {old : NodeId}
    (holds : Holds tree (path.rootId? (some old)) (path.cells (some old) + rest))
    (different : ∀ frame ∈ path.head?, frame.sibling.rootId? ≠ some old) (new : Option NodeId) :
    ∃ after, tree.replaceChild path.parentId? old new = .ok after ∧
      Holds after (path.rootId? new) (path.cells new + rest) := by
  cases path with
  | nil => exact ⟨{ tree with root := new }, rfl, rfl, holds.stores⟩
  | cons frame above =>
    rw [Path.cells, add_assoc] at holds
    have side := holds.sideOf_eq (different frame rfl)
    obtain ⟨after, done, holdsAfter⟩ := holds.setChild_spec frame.side new
    rw [withChild_nodeAt] at holdsAfter
    refine ⟨after, ?_, by rw [Path.cells, add_assoc]; exact holdsAfter⟩
    simp only [Path.parentId?, LinkedTree.replaceChild, side, Checked.ok_bind, done]

end Changes

/-- A node with a cell of its own is not the root of a sibling on a path. -/
theorem sibling_ne {path : Path (Item κ ν)} {hole : Option NodeId}
    (holds : Holds tree root ({(id, node)} + (path.cells hole + rest))) :
    ∀ frame ∈ path.head?, frame.sibling.rootId? ≠ some id := by
  intro frame isFirst same
  obtain ⟨above, rfl⟩ : ∃ above, path = frame :: above := by
    cases path with
    | nil => cases isFirst
    | cons first above => cases isFirst; exact ⟨above, rfl⟩
  obtain ⟨other, member⟩ := Tree.root_mem_cells same (some frame.item.id)
  refine holds.stores.fresh other ?_
  rw [Path.cells]
  simp [member]

end Holds

/-! ### A place in a linked tree -/

namespace Linked

variable {tree : LinkedTree κ ν σ} {path : Path (Item κ ν)} {side : Side} {color : Color}
  {near far subtree : Tree (Item κ ν)} {item : Item κ ν} {further : Multiset (NodeId × Node κ ν)}

theorem node_eq (linked : Linked tree (path.plug (.join side color near item far)) further) :
    tree.node item.id =
      .ok (nodeAt side item color path.parentId? near.rootId? far.rootId?) := by
  rw [linked_plug, Tree.cells_join, add_assoc] at linked
  exact Holds.node_eq linked

theorem get?_eq (linked : Linked tree (path.plug (.join side color near item far)) further) :
    NodeStore.get? item.id tree.nodes =
      some (nodeAt side item color path.parentId? near.rootId? far.rootId?) := by
  rw [linked_plug, Tree.cells_join, add_assoc] at linked
  exact linked.stores.get?

/-- The parent of the root of a subtree is the node above the place. -/
theorem parent_eq {id : NodeId} (linked : Linked tree (path.plug subtree) further)
    (root : subtree.rootId? = some id) :
    ∃ node, tree.node id = .ok node ∧ node.parent = path.parentId? := by
  rcases subtree.eq_leaf_or_join .left with rfl | ⟨color, near, item, far, rfl⟩
  · cases root
  · rw [Tree.rootId?_join, Option.some.injEq] at root
    subst root
    exact ⟨_, linked.node_eq, parent_nodeAt ..⟩

theorem child_eq (linked : Linked tree (path.plug (.join side color near item far)) further) :
    tree.child item.id side = .ok near.rootId? ∧
      tree.child item.id side.opposite = .ok far.rootId? := by
  simp only [LinkedTree.child, linked.node_eq, Checked.ok_bind, Checked.pure_eq_ok, child_nodeAt,
    child_opposite_nodeAt, and_self]

theorem isRed_eq (linked : Linked tree (path.plug subtree) further) :
    tree.isRed subtree.rootId? = .ok subtree.isRed :=
  Holds.isRed_eq (linked_plug.mp linked)

/-- Only the whole tree hangs at the root. -/
theorem eq_root_iff (linked : Linked tree (path.plug subtree) further) :
    subtree.rootId? = tree.root ↔ path = [] := by
  have holds := linked_plug.mp linked
  rw [holds.root]
  constructor
  · intro same
    by_contra nonempty
    obtain ⟨id, node, root, member⟩ := Path.root_mem_cells nonempty subtree.rootId?
    obtain ⟨other, inSubtree⟩ := Tree.root_mem_cells (same.trans root) path.parentId?
    obtain ⟨rest, split⟩ := Multiset.exists_cons_of_mem inSubtree
    rw [split, ← Multiset.singleton_add, add_assoc] at holds
    exact holds.stores.fresh node (by simp [member])
  · rintro rfl
    rfl

/-- A loop along the links has a round for every node above a place, and one more. -/
theorem length_lt_rounds (linked : Linked tree (path.plug subtree) further) :
    List.length path < tree.rounds := by
  have fewer := Holds.card_lt_rounds linked
  have shorter := Path.length_le_card_cells path subtree.rootId?
  rw [Path.cells_plug] at fewer
  simp only [Multiset.card_add] at fewer
  omega

theorem size_lt_rounds (linked : Linked tree (path.plug subtree) further) :
    subtree.toList.length < tree.rounds := by
  have fewer := Holds.card_lt_rounds linked
  rw [Path.cells_plug] at fewer
  simp only [Multiset.card_add, Tree.card_cells] at fewer
  omega

theorem item_ne {frame : Frame (Item κ ν)}
    (linked : Linked tree (path.plug (.join side color near item far)) further)
    (member : frame ∈ path) : frame.item.id ≠ item.id := by
  obtain ⟨node, inCells⟩ := Path.item_mem_cells member (some item.id)
  rw [linked_plug, Tree.rootId?_join, Tree.cells_join, add_assoc] at linked
  exact linked.stores.id_ne
    (Multiset.mem_add.mpr (Or.inr (Multiset.mem_add.mpr (Or.inl inCells))))

/-- The two children of a node are different, unless both are missing. -/
theorem rootId?_ne (linked : Linked tree (path.plug (.join side color near item far)) further)
    (present : near ≠ .leaf ∨ far ≠ .leaf) : far.rootId? ≠ near.rootId? := by
  intro same
  cases root : near.rootId? with
  | none =>
    rw [root] at same
    rcases present with nearPresent | farPresent
    · exact nearPresent (Tree.rootId?_eq_none.mp root)
    · exact farPresent (Tree.rootId?_eq_none.mp same)
  | some id =>
    rw [root] at same
    obtain ⟨node, inNear⟩ := Tree.root_mem_cells root (some item.id)
    obtain ⟨other, inFar⟩ := Tree.root_mem_cells same (some item.id)
    obtain ⟨rest, split⟩ := Multiset.exists_cons_of_mem inNear
    have holds := linked_plug.mp linked
    rw [Tree.cells_join, split, ← Multiset.singleton_add] at holds
    have first : Holds tree _ ({(id, node)} + (rest +
        ({(item.id, nodeAt side item color path.parentId? near.rootId? far.rootId?)} +
          far.cells (some item.id) +
          (path.cells (Tree.join side color near item far).rootId? + further)))) :=
      holds.perm (by ac_rfl)
    exact first.stores.fresh other (by simp [inFar])

theorem sideOf_eq (linked : Linked tree (path.plug (.join side color near item far)) further)
    (present : near ≠ .leaf ∨ far ≠ .leaf) : tree.sideOf item.id near.rootId? = .ok side := by
  have different := linked.rootId?_ne present
  rw [linked_plug, Tree.cells_join, add_assoc] at linked
  exact Holds.sideOf_eq linked different

end Linked

end OrderedCollections.RedBlack
