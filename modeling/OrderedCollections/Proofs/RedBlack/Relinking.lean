/-
**Rotations as changes of links.**

A rotation was shown to turn a subtree of the tree that the links stand for. Here the same is said by
following the links that are there, in any tree whose root, child links and parent links agree, with or
without a red-black colouring, and beside nodes that are in the store but not in the tree. A rotation
turns three links down and three links up, and the opposite rotation turns them back.

* `rotate_replaced`: no node comes or goes.
* `Tree.shown`: the items of a tree with their colours; a rotation keeps them in order.
* `Consistent`: the links lead through a tree of nodes and back up.
* `Relinked`: the links that a rotation turns.
* `rotate_relinks`: what a rotation keeps, what it turns, and that it can be taken back.
-/

import OrderedCollections.Proofs.NodeStore.Replaced
import OrderedCollections.Proofs.RedBlack.Rotation
import OrderedCollections.Proofs.RedBlack.Run

namespace OrderedCollections.RedBlack

variable {κ ν : Type} {σ : Type → Type} [NodeStore σ]

/-! ### No node comes or goes -/

section Replaced

variable {tree after : LinkedTree κ ν σ}

theorem modifyNode_replaced {id : NodeId} {change : Node κ ν → Node κ ν}
    (done : tree.modifyNode id change = .ok after) : Replaced tree.nodes after.nodes := by
  unfold LinkedTree.modifyNode NodeStore.modify NodeStore.fetch at done
  obtain ⟨nodes, modified, rest⟩ := Checked.bind_eq_ok.mp done
  obtain ⟨node, fetched, replaced⟩ := Checked.bind_eq_ok.mp modified
  rw [Checked.ofOption_eq_ok] at fetched
  cases rest
  cases replaced
  exact Replaced.none.set (by rw [fetched]; rfl) (change node)

theorem setParent_replaced {id? parent : Option NodeId}
    (done : tree.setParent id? parent = .ok after) : Replaced tree.nodes after.nodes := by
  cases id? with
  | none =>
    cases done
    exact .none
  | some id => exact modifyNode_replaced done

theorem replaceChild_replaced {parent new : Option NodeId} {old : NodeId}
    (done : tree.replaceChild parent old new = .ok after) : Replaced tree.nodes after.nodes := by
  cases parent with
  | none =>
    cases done
    exact .none
  | some parent =>
    obtain ⟨side, -, rest⟩ := Checked.bind_eq_ok.mp done
    exact modifyNode_replaced rest

/-- **A rotation replaces nodes**, and none comes or goes. -/
theorem rotate_replaced {pivot : NodeId} {side : Side} (done : tree.rotate pivot side = .ok after) :
    Replaced tree.nodes after.nodes := by
  unfold LinkedTree.rotate at done
  obtain ⟨child, -, done⟩ := Checked.bind_eq_ok.mp done
  cases child with
  | none =>
    cases done
    exact .none
  | some lifted =>
    obtain ⟨inner, -, done⟩ := Checked.bind_eq_ok.mp done
    obtain ⟨first, hungInner, done⟩ := Checked.bind_eq_ok.mp done
    obtain ⟨second, innerParent, done⟩ := Checked.bind_eq_ok.mp done
    obtain ⟨node, -, done⟩ := Checked.bind_eq_ok.mp done
    obtain ⟨third, liftedParent, done⟩ := Checked.bind_eq_ok.mp done
    obtain ⟨fourth, hungLifted, done⟩ := Checked.bind_eq_ok.mp done
    obtain ⟨fifth, hungPivot, done⟩ := Checked.bind_eq_ok.mp done
    calc Replaced tree.nodes first.nodes := modifyNode_replaced hungInner
      Replaced _ second.nodes := setParent_replaced innerParent
      Replaced _ third.nodes := setParent_replaced liftedParent
      Replaced _ fourth.nodes := replaceChild_replaced hungLifted
      Replaced _ fifth.nodes := modifyNode_replaced hungPivot
      Replaced _ after.nodes := setParent_replaced done

end Replaced

/-! ### Items with their colours -/

/-- What a node holds beside its links, with its key in the store. -/
def shown (cell : NodeId × Node κ ν) : NodeId × κ × ν × Color :=
  (cell.1, cell.2.key, cell.2.value, cell.2.color)

namespace Tree

/-- The items of a tree with their colours, from left to right. -/
def shown : Tree (Item κ ν) → List (NodeId × κ × ν × Color)
  | leaf => []
  | node color left item right =>
    left.shown ++ (item.id, item.key, item.value, color) :: right.shown

theorem shown_row (tree : Tree (Item κ ν)) (parent : Option NodeId) :
    (tree.row parent).map RedBlack.shown = tree.shown := by
  induction tree generalizing parent with
  | leaf => rfl
  | node color left item right left_ih right_ih =>
    rw [row, List.map_append, List.map_cons, left_ih, right_ih]
    rfl

/-- A node depends on a subtree only through the items and colours of that. -/
theorem shown_join_congr (side : Side) (color : Color) {near other : Tree (Item κ ν)}
    (item : Item κ ν) (far : Tree (Item κ ν)) (same : near.shown = other.shown) :
    (join side color near item far).shown = (join side color other item far).shown := by
  cases side <;> simp only [join, shown, same]

theorem shown_plug_congr (path : Path (Item κ ν)) {subtree other : Tree (Item κ ν)}
    (same : subtree.shown = other.shown) : (path.plug subtree).shown = (path.plug other).shown := by
  induction path generalizing subtree other with
  | nil => exact same
  | cons frame above ih => exact ih (shown_join_congr frame.side frame.color frame.item _ same)

/-- **Turning a tree keeps the items in order and in their colours.** -/
theorem shown_rotate (side : Side) (lower upper : Color) (outer : Tree (Item κ ν))
    (pivot : Item κ ν) (inner : Tree (Item κ ν)) (lifted : Item κ ν) (far : Tree (Item κ ν)) :
    (join side lower (join side upper outer pivot inner) lifted far).shown =
      (join side upper outer pivot (join side lower inner lifted far)).shown := by
  cases side <;> simp [join, shown]

end Tree

/-! ### Nodes that a rotation leaves alone -/

/-- Where a subtree hangs is known to its root only. -/
theorem Tree.mem_cells_iff {tree : Tree (Item κ ν)} {id : NodeId} (different : tree.rootId? ≠ some id)
    (node : Node κ ν) (parent other : Option NodeId) :
    (id, node) ∈ tree.cells parent ↔ (id, node) ∈ tree.cells other := by
  cases tree with
  | leaf => exact Iff.rfl
  | node color left item right =>
    have notRoot : id ≠ item.id := fun same => different (congrArg some same.symm)
    simp [Tree.cells, notRoot]

/-- What hangs in a place is known to the node above it only. -/
theorem Path.mem_cells_iff {path : Path (Item κ ν)} {id : NodeId} (different : path.parentId? ≠ some id)
    (node : Node κ ν) (hole other : Option NodeId) :
    (id, node) ∈ path.cells hole ↔ (id, node) ∈ path.cells other := by
  cases path with
  | nil => exact Iff.rfl
  | cons frame above =>
    have notParent : id ≠ frame.item.id := fun same => different (congrArg some same.symm)
    simp [Path.cells, notParent]

/-! ### Consistent trees -/

/-- **The links of a tree are consistent**: from the root they lead through the nodes of `row`, in
this order, and back up. The nodes `apart` are in the store but not in the tree. -/
structure Consistent (tree : LinkedTree κ ν σ) (row apart : List (NodeId × Node κ ν)) : Prop where
  hangs : Hangs tree.nodes none tree.root row
  nodup : ((row ++ apart).map Prod.fst).Nodup
  live : ∀ id node, NodeStore.get? id tree.nodes = some node ↔ (id, node) ∈ row ++ apart
  stored : NodeStore.size tree.nodes = (row ++ apart).length

section Consistent

variable {tree : LinkedTree κ ν σ} {apart : List (NodeId × Node κ ν)}

theorem Consistent.exists_linked {row : List (NodeId × Node κ ν)}
    (consistent : Consistent tree row apart) :
    ∃ whole : Tree (Item κ ν), whole.row none = row ∧ Linked tree whole apart := by
  obtain ⟨whole, root, rfl⟩ := consistent.hangs.exists_tree
  refine ⟨whole, rfl, root.symm, ?_⟩
  rw [← Tree.coe_row, Multiset.coe_add]
  exact Stores.coe_iff.mpr ⟨consistent.nodup, consistent.live, consistent.stored⟩

/-- The links of a tree of items are consistent. -/
theorem Linked.consistent {whole : Tree (Item κ ν)} (linked : Linked tree whole apart) :
    Consistent tree (whole.row none) apart := by
  have stores := linked.stores
  rw [← Tree.coe_row, Multiset.coe_add, Stores.coe_iff] at stores
  obtain ⟨nodup, live, stored⟩ := stores
  refine ⟨?_, nodup, live, stored⟩
  rw [linked.root]
  exact hangs_row fun cell member => (live cell.1 cell.2).mpr (List.mem_append_left _ member)

end Consistent

/-! ### Rotations -/

/-- **The links that a rotation turns**, where `above` is the node at the pivot and `below` the one
that is lifted: the lifted node takes the place of the pivot, the pivot hangs below it, and what hung
between them goes to the pivot. -/
structure Relinked (tree after : LinkedTree κ ν σ) (pivot lifted : NodeId) (side : Side)
    (above below : Node κ ν) : Prop where
  pivot_eq : after.node pivot =
    .ok { above.withChild side.opposite (below.child side) with parent := some lifted }
  lifted_eq : after.node lifted = .ok { below.withChild side (some pivot) with parent := above.parent }
  root_eq : after.root = if above.parent = none then some lifted else tree.root
  /-- All nodes but these two, the one above them and the one between them stay as they are. -/
  others : ∀ id, id ≠ pivot → id ≠ lifted → above.parent ≠ some id → below.child side ≠ some id →
    NodeStore.get? id after.nodes = NodeStore.get? id tree.nodes

section Rotate

variable {tree after : LinkedTree κ ν σ} {path : Path (Item κ ν)} {side : Side}
  {upper lower : Color} {pivot lifted : Item κ ν} {outer inner far : Tree (Item κ ν)}
  {further : Multiset (NodeId × Node κ ν)}

/-- The links of a tree before and after one of its subtrees is turned. -/
theorem relinked_of_linked
    (linked : Linked tree (path.plug (.join side upper outer pivot (.join side lower inner lifted far)))
      further)
    (turned : Linked after (path.plug (.join side lower (.join side upper outer pivot inner) lifted far))
      further) :
    Relinked tree after pivot.id lifted.id side
      (nodeAt side pivot upper path.parentId? outer.rootId? (some lifted.id))
      (nodeAt side lifted lower (some pivot.id) inner.rootId? far.rootId?) := by
  refine ⟨?_, ?_, ?_, fun id notPivot notLifted notParent notInner => ?_⟩
  · rw [Path.plug_join] at turned
    rw [turned.node_eq, withChild_opposite_nodeAt, child_nodeAt, withParent_nodeAt]
    rfl
  · rw [turned.node_eq, withChild_nodeAt, withParent_nodeAt, parent_nodeAt, Tree.rootId?_join]
  · rw [parent_nodeAt, turned.root, linked.root, Path.rootId?_plug, Path.rootId?_plug,
      Tree.rootId?_join, Tree.rootId?_join]
    cases path with
    | nil => rfl
    | cons frame rest => rfl
  · rw [parent_nodeAt] at notParent
    rw [child_nodeAt] at notInner
    refine Option.ext fun node => ?_
    rw [← turned.stores.mem_iff, ← linked.stores.mem_iff, Path.cells_plug, Path.cells_plug]
    simp only [Tree.cells_join, Tree.rootId?_join, Multiset.mem_add, Multiset.mem_singleton,
      Prod.mk.injEq, notPivot, notLifted, false_and, false_or]
    rw [Tree.mem_cells_iff notInner node (some pivot.id) (some lifted.id),
      Path.mem_cells_iff notParent node (some lifted.id) (some pivot.id)]
    tauto

/-- **The opposite rotation takes a rotation back.** -/
theorem rotate_back [LawfulNodeStore σ] [FaithfulStore σ]
    (linked : Linked tree (path.plug (.join side upper outer pivot (.join side lower inner lifted far)))
      further)
    (rotated : tree.rotate pivot.id side = .ok after)
    (turned : Linked after (path.plug (.join side lower (.join side upper outer pivot inner) lifted far))
      further) : after.rotate lifted.id side.opposite = .ok tree := by
  rw [← Tree.join_opposite, ← Tree.join_opposite side upper outer] at turned
  obtain ⟨restored, rotatedBack, linkedBack⟩ := rotate_spec turned
  rw [Tree.join_opposite, Tree.join_opposite] at linkedBack
  have replaced := (rotate_replaced rotated).trans (rotate_replaced rotatedBack)
  have nodes : restored.nodes = tree.nodes := by
    refine FaithfulStore.eq_of_replaced replaced fun id => Option.ext fun node => ?_
    rw [← linkedBack.stores.mem_iff, ← linked.stores.mem_iff]
  have root : restored.root = tree.root := linkedBack.root.trans linked.root.symm
  rw [rotatedBack]
  cases restored
  cases tree
  cases nodes
  cases root
  rfl

end Rotate

/-- **A rotation is a relinking that keeps the order and can be taken back.** In a consistent tree,
wherever a node has a child on the other side, the rotation runs into no fault and leaves the tree
consistent, with the same nodes in the same order, each with its key, its value and its colour. The
opposite rotation at the lifted node gives back the tree that there was. -/
theorem rotate_relinks [LawfulNodeStore σ] [FaithfulStore σ] {tree : LinkedTree κ ν σ}
    {row apart : List (NodeId × Node κ ν)} (consistent : Consistent tree row apart)
    {pivot lifted : NodeId} {side : Side} {above : Node κ ν} (member : (pivot, above) ∈ row)
    (hangs : above.child side.opposite = some lifted) :
    ∃ below after row', (lifted, below) ∈ row ∧ tree.rotate pivot side = .ok after ∧
      Consistent after row' apart ∧ row'.map shown = row.map shown ∧
      Relinked tree after pivot lifted side above below ∧
      after.rotate lifted side.opposite = .ok tree := by
  obtain ⟨whole, rfl, linked⟩ := consistent.exists_linked
  obtain ⟨path, upper, outer, pivot, subtree, rfl, rfl, rfl⟩ := linked.exists_place_of_mem member side
  rw [child_opposite_nodeAt] at hangs
  rcases subtree.eq_leaf_or_join side with rfl | ⟨lower, inner, item, far, rfl⟩
  · cases hangs
  rw [Tree.rootId?_join, Option.some.injEq] at hangs
  subst hangs
  obtain ⟨after, rotated, turned⟩ := rotate_spec linked
  rw [Tree.rootId?_join]
  refine ⟨_, after, _, ?_, rotated, turned.consistent, ?_, relinked_of_linked linked turned,
    rotate_back linked rotated turned⟩
  · rw [Tree.mem_row, Path.cells_plug, Tree.cells_join, Tree.cells_join]
    simp
  · rw [Tree.shown_row, Tree.shown_row]
    exact Tree.shown_plug_congr path (Tree.shown_rotate ..)

/-- Three entries, where every key is above every other: at the root, the node on the right is lifted,
between which and the root there is none, and the opposite rotation lifts the old root again. -/
theorem rotate_relinks_root :
    ∃ map : RedBlackMap Nat Nat Slots, ∃ row above below after row',
      (RedBlackMap.withCapacity 0 (Comparator.constant .gt) : RedBlackMap Nat Nat Slots).run
          [.put 1 0, .put 2 0, .put 3 0] = .ok map ∧
        Consistent map.tree row [] ∧ (⟨1⟩, above) ∈ row ∧ above.parent = none ∧
        map.tree.rotate ⟨1⟩ .left = .ok after ∧ Consistent after row' [] ∧
        row'.map shown = row.map shown ∧ Relinked map.tree after ⟨1⟩ ⟨2⟩ .left above below ∧
        below.left = none ∧ after.root = some ⟨2⟩ ∧ after.rotate ⟨2⟩ .right = .ok map.tree := by
  obtain ⟨map, entries, ran, keeps, -⟩ :=
    RedBlackMap.run_spec (RedBlackMap.keeps_withCapacity (σ := Slots) 0 (Comparator.constant .gt))
      [.put 1 0, .put 2 0, .put (3 : Nat) (0 : Nat)]
  obtain ⟨-, whole, sound, -⟩ := keeps_iff.mp keeps
  have consistent : Consistent map.tree (whole.row none) [] := Linked.consistent sound.linked
  have looked : ((RedBlackMap.withCapacity 0 (Comparator.constant .gt) :
      RedBlackMap Nat Nat Slots).run [.put 1 0, .put 2 0, .put 3 0]).map (fun map =>
        (NodeStore.get? ⟨1⟩ map.tree.nodes, NodeStore.get? ⟨2⟩ map.tree.nodes)) =
      .ok (some ⟨2, 0, .black, none, some ⟨0⟩, some ⟨2⟩⟩,
        some ⟨3, 0, .red, some ⟨1⟩, none, none⟩) := by
    decide +kernel
  rw [ran] at looked
  obtain ⟨root, right⟩ := Prod.mk.inj (Except.ok.inj looked)
  have member := (sound.mem_row_iff ⟨1⟩ _).mp root
  obtain ⟨below, after, row', inRow, rotated, consistent', same, relinked, back⟩ :=
    rotate_relinks consistent member (show Node.child Side.left.opposite _ = some ⟨2⟩ from rfl)
  have missing : below.left = none := by
    have stored := (sound.mem_row_iff ⟨2⟩ below).mpr inRow
    rw [right, Option.some.injEq] at stored
    rw [← stored]
  exact ⟨map, whole.row none, _, below, after, row', ran, consistent, member, rfl, rotated,
    consistent', same, relinked, missing, relinked.root_eq, back⟩

end OrderedCollections.RedBlack
