/-
**Turning and replacing subtrees.**

A rotation changes six links at three nodes and at the root; what it does to the tree that the links
stand for is to turn one subtree and leave the path above it alone. Putting another subtree into a
place changes the link above it and the link back up.

* `rotate_spec`: a rotation turns a subtree.
* `paintRoot_spec`, `repaint_spec`: the root is painted, or a node with one of its children.
* `transplant_spec`: another subtree comes into a place; the node that hung there keeps its links.
* `Repaired`: what a repair leaves behind.
-/

import OrderedCollections.Proofs.RedBlack.Balance
import OrderedCollections.Proofs.RedBlack.Linked

namespace OrderedCollections.RedBlack

variable {κ ν : Type} {σ : Type → Type} [NodeStore σ] [LawfulNodeStore σ]
  {tree : LinkedTree κ ν σ} {further : Multiset (NodeId × Node κ ν)}

section Rotate

variable {path : Path (Item κ ν)} {side : Side} {upper lower : Color} {pivot lifted : Item κ ν}
  {near far : Option NodeId} {inner : Tree (Item κ ν)} {outside : Multiset (NodeId × Node κ ν)}

/-- The inner subtree is hung below the pivot. -/
theorem Holds.hangInner_spec {root above : Option NodeId}
    (holds : Holds tree root
      ({(pivot.id, nodeAt side pivot upper above near (some lifted.id))} +
        (inner.cells (some lifted.id) + outside))) :
    ∃ first after, tree.setChild pivot.id side.opposite inner.rootId? = .ok first ∧
      first.setParent inner.rootId? (some pivot.id) = .ok after ∧
      Holds after root ({(pivot.id, nodeAt side pivot upper above near inner.rootId?)} +
        (inner.cells (some pivot.id) + outside)) := by
  obtain ⟨first, setInner, holdsFirst⟩ := holds.setChild_spec side.opposite inner.rootId?
  rw [withChild_opposite_nodeAt] at holdsFirst
  obtain ⟨after, setInnerParent, holdsAfter⟩ :=
    (holdsFirst.perm (add_left_comm _ _ _)).setParent_spec (some pivot.id)
  exact ⟨first, after, setInner, setInnerParent, holdsAfter.perm (add_left_comm _ _ _)⟩

/-- The lifted node learns of its new parent, which still leads to the pivot. -/
theorem Holds.adopt_spec {root above : Option NodeId}
    (holds : Holds tree root
      ({(pivot.id, nodeAt side pivot upper path.parentId? near inner.rootId?)} +
        (path.cells (some pivot.id) +
          ({(lifted.id, nodeAt side lifted lower above inner.rootId? far)} + outside)))) :
    ∃ after, tree.setParent (some lifted.id) path.parentId? = .ok after ∧
      Holds after root (path.cells (some pivot.id) +
        ({(lifted.id, nodeAt side lifted lower path.parentId? inner.rootId? far)} +
          ({(pivot.id, nodeAt side pivot upper path.parentId? near inner.rootId?)} + outside))) := by
  have liftedFirst : Holds tree root
      ({(lifted.id, nodeAt side lifted lower above inner.rootId? far)} +
        ({(pivot.id, nodeAt side pivot upper path.parentId? near inner.rootId?)} +
          (path.cells (some pivot.id) + outside))) :=
    holds.perm (by ac_rfl)
  obtain ⟨after, setParent, holdsAfter⟩ := liftedFirst.setParentOf_spec path.parentId?
  exact ⟨after, setParent, holdsAfter.perm (by ac_rfl)⟩

/-- The lifted node takes the place of the pivot. -/
theorem Holds.lift_spec {above : Option NodeId}
    (holds : Holds tree (path.rootId? (some pivot.id))
      ({(pivot.id, nodeAt side pivot upper path.parentId? near inner.rootId?)} +
        (path.cells (some pivot.id) +
          ({(lifted.id, nodeAt side lifted lower above inner.rootId? far)} + outside)))) :
    ∃ first after, tree.setParent (some lifted.id) path.parentId? = .ok first ∧
      first.replaceChild path.parentId? pivot.id (some lifted.id) = .ok after ∧
      Holds after (path.rootId? (some lifted.id))
        ({(pivot.id, nodeAt side pivot upper path.parentId? near inner.rootId?)} +
          (path.cells (some lifted.id) +
            ({(lifted.id, nodeAt side lifted lower path.parentId? inner.rootId? far)} +
              outside))) := by
  obtain ⟨first, setParent, holdsFirst⟩ := holds.adopt_spec
  obtain ⟨after, replaced, holdsAfter⟩ :=
    holdsFirst.replaceChild_spec holds.sibling_ne (some lifted.id)
  exact ⟨first, after, setParent, replaced, holdsAfter.perm (by ac_rfl)⟩

/-- The pivot is hung below the lifted node. -/
theorem Holds.hangPivot_spec {root above above' inner' pivotFar : Option NodeId}
    (holds : Holds tree root
      ({(lifted.id, nodeAt side lifted lower above inner' far)} +
        ({(pivot.id, nodeAt side pivot upper above' near pivotFar)} + outside))) :
    ∃ first after, tree.setChild lifted.id side (some pivot.id) = .ok first ∧
      first.setParent (some pivot.id) (some lifted.id) = .ok after ∧
      Holds after root ({(pivot.id, nodeAt side pivot upper (some lifted.id) near pivotFar)} +
        ({(lifted.id, nodeAt side lifted lower above (some pivot.id) far)} + outside)) := by
  obtain ⟨first, setPivot, holdsFirst⟩ := holds.setChild_spec side (some pivot.id)
  rw [withChild_nodeAt] at holdsFirst
  obtain ⟨after, setPivotParent, holdsAfter⟩ :=
    (holdsFirst.perm (add_left_comm _ _ _)).setParentOf_spec (some lifted.id)
  exact ⟨first, after, setPivot, setPivotParent, holdsAfter⟩

/-- What a rotation does to the cells: the inner subtree goes from the lifted node to the pivot, and
the pivot goes below the lifted node. -/
theorem Holds.rotate_spec
    (holds : Holds tree (path.rootId? (some pivot.id))
      ({(pivot.id, nodeAt side pivot upper path.parentId? near (some lifted.id))} +
        ({(lifted.id, nodeAt side lifted lower (some pivot.id) inner.rootId? far)} +
          (inner.cells (some lifted.id) + (path.cells (some pivot.id) + outside))))) :
    ∃ after, tree.rotate pivot.id side = .ok after ∧
      Holds after (path.rootId? (some lifted.id))
        ({(pivot.id, nodeAt side pivot upper (some lifted.id) near inner.rootId?)} +
          ({(lifted.id, nodeAt side lifted lower path.parentId? (some pivot.id) far)} +
            (inner.cells (some pivot.id) + (path.cells (some lifted.id) + outside)))) := by
  have liftedFirst : Holds tree (path.rootId? (some pivot.id))
      ({(lifted.id, nodeAt side lifted lower (some pivot.id) inner.rootId? far)} +
        ({(pivot.id, nodeAt side pivot upper path.parentId? near (some lifted.id))} +
          (inner.cells (some lifted.id) + (path.cells (some pivot.id) + outside)))) :=
    holds.perm (by ac_rfl)
  obtain ⟨first, second, setInner, setInnerParent, holdsSecond⟩ :=
    (holds.perm (congrArg _ (add_left_comm _ _ _))).hangInner_spec
  have atPivot : Holds second (path.rootId? (some pivot.id))
      ({(pivot.id, nodeAt side pivot upper path.parentId? near inner.rootId?)} +
        (path.cells (some pivot.id) +
          ({(lifted.id, nodeAt side lifted lower (some pivot.id) inner.rootId? far)} +
            (inner.cells (some pivot.id) + outside)))) :=
    holdsSecond.perm (by ac_rfl)
  obtain ⟨third, fourth, setLiftedParent, replaced, holdsFourth⟩ := atPivot.lift_spec
  have atLifted : Holds fourth (path.rootId? (some lifted.id))
      ({(lifted.id, nodeAt side lifted lower path.parentId? inner.rootId? far)} +
        ({(pivot.id, nodeAt side pivot upper path.parentId? near inner.rootId?)} +
          (inner.cells (some pivot.id) + (path.cells (some lifted.id) + outside)))) :=
    holdsFourth.perm (by ac_rfl)
  obtain ⟨fifth, after, setPivot, setPivotParent, holdsAfter⟩ := atLifted.hangPivot_spec
  refine ⟨after, ?_, holdsAfter⟩
  simp only [LinkedTree.rotate, holds.child_eq, child_opposite_nodeAt, Checked.ok_bind,
    liftedFirst.child_eq, child_nodeAt, setInner, setInnerParent, atPivot.node_eq, parent_nodeAt,
    setLiftedParent, replaced, setPivot, setPivotParent]

end Rotate

/-- **A rotation towards `side`** lifts the child on the other side into the place of the pivot. -/
theorem rotate_spec {path : Path (Item κ ν)} {side : Side} {upper lower : Color}
    {pivot lifted : Item κ ν} {outer inner far : Tree (Item κ ν)}
    (linked : Linked tree (path.plug (.join side upper outer pivot
      (.join side lower inner lifted far))) further) :
    ∃ after, tree.rotate pivot.id side = .ok after ∧
      Linked after (path.plug (.join side lower (.join side upper outer pivot inner) lifted far))
        further := by
  simp only [linked_plug, Tree.rootId?_join, Tree.cells_join] at linked ⊢
  have focused : Holds tree (path.rootId? (some pivot.id))
      ({(pivot.id, nodeAt side pivot upper path.parentId? outer.rootId? (some lifted.id))} +
        ({(lifted.id, nodeAt side lifted lower (some pivot.id) inner.rootId? far.rootId?)} +
          (inner.cells (some lifted.id) + (path.cells (some pivot.id) +
            (outer.cells (some pivot.id) + far.cells (some lifted.id) + further))))) :=
    linked.perm (by ac_rfl)
  obtain ⟨after, rotated, holds⟩ := focused.rotate_spec
  exact ⟨after, rotated, holds.perm (by ac_rfl)⟩

/-- The root is painted. -/
theorem paintRoot_spec {whole : Tree (Item κ ν)} (linked : Linked tree whole further)
    (color : Color) :
    ∃ after, tree.paint tree.root color = .ok after ∧
      Linked after (whole.paint color) further := by
  obtain ⟨after, painted, holds⟩ := linked.paint_spec color
  refine ⟨after, ?_, ?_⟩
  · rw [linked.root, painted]
  · unfold Linked
    rw [Tree.rootId?_paint]
    exact holds

/-- A subtree is painted at its root. -/
theorem paintAt_spec {path : Path (Item κ ν)} {subtree : Tree (Item κ ν)}
    (linked : Linked tree (path.plug subtree) further) (color : Color) :
    ∃ after, tree.paint subtree.rootId? color = .ok after ∧
      Linked after (path.plug (subtree.paint color)) further := by
  rw [linked_plug] at linked
  obtain ⟨after, painted, holds⟩ := linked.paint_spec color
  refine ⟨after, painted, ?_⟩
  rw [linked_plug, Tree.rootId?_paint]
  exact holds

/-- A node and its child on a side are painted, the child first. -/
theorem repaint_spec {path : Path (Item κ ν)} {side : Side} {color : Color}
    {child far : Tree (Item κ ν)} {item : Item κ ν}
    (linked : Linked tree (path.plug (.join side color child item far)) further)
    (childColor itemColor : Color) :
    ∃ first second, tree.paint child.rootId? childColor = .ok first ∧
      first.paint (some item.id) itemColor = .ok second ∧
      Linked second (path.plug (.join side itemColor (child.paint childColor) item far)) further := by
  rw [Path.plug_join] at linked
  obtain ⟨first, paintedChild, linkedFirst⟩ := paintAt_spec linked childColor
  rw [← Path.plug_join] at linkedFirst
  obtain ⟨second, paintedItem, linkedSecond⟩ := paintAt_spec linkedFirst itemColor
  rw [Tree.rootId?_join] at paintedItem
  rw [Tree.paint_join] at linkedSecond
  exact ⟨first, second, paintedChild, paintedItem, linkedSecond⟩

/-- **A node with one missing child** leaves its place to the other child. It keeps its own links. -/
theorem transplant_spec {path : Path (Item κ ν)} {side : Side} {color : Color} {item : Item κ ν}
    {far : Tree (Item κ ν)}
    (linked : Linked tree (path.plug (.join side color .leaf item far)) further) :
    ∃ after, tree.transplant item.id far.rootId? = .ok after ∧
      Linked after (path.plug far)
        ({(item.id, nodeAt side item color path.parentId? none far.rootId?)} + further) := by
  rw [linked_plug, Tree.rootId?_join, Tree.cells_join, Tree.cells_leaf, Tree.rootId?_leaf,
    zero_add] at linked
  have itemFirst : Holds tree (path.rootId? (some item.id))
      ({(item.id, nodeAt side item color path.parentId? none far.rootId?)} +
        (path.cells (some item.id) + (far.cells (some item.id) + further))) :=
    linked.perm (by ac_rfl)
  have pathFirst := itemFirst.perm (add_left_comm _ _ _)
  obtain ⟨first, replaced, holdsFirst⟩ :=
    pathFirst.replaceChild_spec itemFirst.sibling_ne far.rootId?
  have farFirst : Holds first (path.rootId? far.rootId?) (far.cells (some item.id) +
      (path.cells far.rootId? +
        ({(item.id, nodeAt side item color path.parentId? none far.rootId?)} + further))) :=
    holdsFirst.perm (by ac_rfl)
  obtain ⟨after, setParent, holdsAfter⟩ := farFirst.setParent_spec path.parentId?
  refine ⟨after, ?_, linked_plug.mpr holdsAfter⟩
  simp only [LinkedTree.transplant, itemFirst.node_eq, Checked.ok_bind, parent_nodeAt, replaced,
    setParent]

/-- What a repair leaves behind: a proper tree with the same items in the same order. -/
def Repaired (outcome : Checked (LinkedTree κ ν σ)) (before : Tree (Item κ ν))
    (further : Multiset (NodeId × Node κ ν)) : Prop :=
  ∃ after whole, outcome = .ok after ∧ Linked after whole further ∧ whole.Proper ∧
    whole.toList = before.toList

end OrderedCollections.RedBlack
