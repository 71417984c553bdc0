/-
**What the links of a map lead through.**

Soundness speaks of the cells that a tree of items asks for. Here the same is said by following the
links that are there: from the root they lead through a tree of nodes whose parent links lead back
up, this tree has every node of the store once, and its colours are those of a red-black tree.

* `Hangs`: the nodes that the links lead through below a place, in order.
* `Way`: a way down to a missing child, with the number of black nodes on it.
* `WellFormed`: the nodes of a map form a red-black tree.
* `Sound.wellFormed`, `WellFormed.sound`: the nodes of a map form a red-black tree exactly if it is
  sound.
* `Hangs.unique`: the links lead through their nodes in one order only.
-/

import OrderedCollections.Proofs.RedBlack.Operations

namespace OrderedCollections.RedBlack

variable {κ ν : Type} {σ : Type → Type} [NodeStore σ]

/-! ### Following the links -/

/-- **The nodes below a place, in order**: those on the left of its node, the node itself, and those
on its right. The node in the place knows the one above it. -/
inductive Hangs (nodes : σ (Node κ ν)) :
    Option NodeId → Option NodeId → List (NodeId × Node κ ν) → Prop
  | missing {parent : Option NodeId} : Hangs nodes parent none []
  | node {parent : Option NodeId} {id : NodeId} {node : Node κ ν}
      {front back : List (NodeId × Node κ ν)} (stored : NodeStore.get? id nodes = some node)
      (above : node.parent = parent) (left : Hangs nodes (some id) node.left front)
      (right : Hangs nodes (some id) node.right back) :
      Hangs nodes parent (some id) (front ++ (id, node) :: back)

/-- A way from a place down to a missing child, with the number of black nodes on it. -/
inductive Way (nodes : σ (Node κ ν)) : Option NodeId → Nat → Prop
  | missing : Way nodes none 0
  | down {id : NodeId} {node : Node κ ν} {blacks : Nat} (side : Side)
      (stored : NodeStore.get? id nodes = some node) (below : Way nodes (node.child side) blacks) :
      Way nodes (some id) (blacks + if node.color = .black then 1 else 0)

/-- **The nodes of a map form a red-black tree.** -/
structure WellFormed (map : RedBlackMap κ ν σ) (row : List (NodeId × Node κ ν)) : Prop where
  /-- The links lead from the root through these nodes, and back up. -/
  hangs : Hangs map.tree.nodes none map.tree.root row
  /-- Every node of the store is in the row exactly once. -/
  nodup : (row.map Prod.fst).Nodup
  live : ∀ id node, NodeStore.get? id map.tree.nodes = some node ↔ (id, node) ∈ row
  size_eq : map.size = row.length
  stored : NodeStore.size map.tree.nodes = row.length
  root_black : ∀ id node, map.tree.root = some id →
    NodeStore.get? id map.tree.nodes = some node → node.color = .black
  /-- No red node has a red child. -/
  reds_apart : ∀ id node side childId child, NodeStore.get? id map.tree.nodes = some node →
    node.color = .red → node.child side = some childId →
    NodeStore.get? childId map.tree.nodes = some child → child.color = .black
  /-- Every way from the root to a missing child passes the same number of black nodes. -/
  black_height : ∃ height, ∀ blacks, Way map.tree.nodes map.tree.root blacks → blacks = height

/-- The links lead through their nodes in one order only. -/
theorem Hangs.unique {nodes : σ (Node κ ν)} {parent id? : Option NodeId}
    {row other : List (NodeId × Node κ ν)} (hangs : Hangs nodes parent id? row)
    (hangs' : Hangs nodes parent id? other) : row = other := by
  induction hangs generalizing other with
  | missing =>
    cases hangs'
    rfl
  | node stored above left right left_ih right_ih =>
    cases hangs' with
    | node stored' above' left' right' =>
      obtain rfl := Option.some.inj (stored.symm.trans stored')
      rw [left_ih left', right_ih right']

/-! ### The row of a tree -/

/-- The item that a cell of the store holds. -/
def cellItem (cell : NodeId × Node κ ν) : Item κ ν :=
  ⟨cell.1, cell.2.key, cell.2.value⟩

namespace Tree

/-- The cells of a tree that hangs below `parent`, from left to right. -/
def row (parent : Option NodeId) : Tree (Item κ ν) → List (NodeId × Node κ ν)
  | leaf => []
  | node color left item right =>
    left.row (some item.id) ++
      (item.id, nodeAt .left item color parent left.rootId? right.rootId?) ::
        right.row (some item.id)

theorem coe_row (tree : Tree (Item κ ν)) (parent : Option NodeId) :
    (tree.row parent : Multiset (NodeId × Node κ ν)) = tree.cells parent := by
  induction tree generalizing parent with
  | leaf => rfl
  | node color left item right left_ih right_ih =>
    rw [row, ← Multiset.coe_add, ← Multiset.cons_coe, left_ih, right_ih, cells,
      ← Multiset.singleton_add]
    ac_rfl

theorem mem_row {tree : Tree (Item κ ν)} {parent : Option NodeId} {cell : NodeId × Node κ ν} :
    cell ∈ tree.row parent ↔ cell ∈ tree.cells parent := by
  rw [← coe_row, Multiset.mem_coe]

theorem length_row (tree : Tree (Item κ ν)) (parent : Option NodeId) :
    (tree.row parent).length = tree.toList.length := by
  rw [← card_cells tree parent, ← coe_row, Multiset.coe_card]

theorem items_row (tree : Tree (Item κ ν)) (parent : Option NodeId) :
    (tree.row parent).map cellItem = tree.toList := by
  induction tree generalizing parent with
  | leaf => rfl
  | node color left item right left_ih right_ih =>
    rw [row, List.map_append, List.map_cons, left_ih, right_ih, toList_node]
    rfl

/-- The root of a tree is one of its cells, in its colour. -/
theorem root_mem_row {tree : Tree (Item κ ν)} {id : NodeId} (root : tree.rootId? = some id)
    (parent : Option NodeId) :
    ∃ node, (id, node) ∈ tree.row parent ∧ (tree.isRed = false → node.color = .black) := by
  cases tree with
  | leaf => cases root
  | node color left item right =>
    cases root
    refine ⟨_, List.mem_append_right _ List.mem_cons_self, fun notRed => ?_⟩
    cases color with
    | red => cases notRed
    | black => rfl

/-- In a balanced tree the child of a red node is black. -/
theorem child_of_red {tree : Tree (Item κ ν)} {height : Nat} (balanced : tree.Balanced height)
    {parent : Option NodeId} {id : NodeId} {node : Node κ ν} (member : (id, node) ∈ tree.row parent)
    (red : node.color = .red) {side : Side} {childId : NodeId}
    (hangs : node.child side = some childId) :
    ∃ child, (childId, child) ∈ tree.row parent ∧ child.color = .black := by
  induction tree generalizing height parent with
  | leaf => cases member
  | node color left item right left_ih right_ih =>
    have below : ∃ less, left.Balanced less ∧ right.Balanced less := by
      cases color with
      | red => exact ⟨height, balanced.2⟩
      | black =>
        obtain ⟨less, -, both⟩ := balanced
        exact ⟨less, both⟩
    obtain ⟨less, leftBalanced, rightBalanced⟩ := below
    rcases List.mem_append.mp member with inLeft | atRoot
    · obtain ⟨child, inRow, black⟩ := left_ih leftBalanced inLeft
      exact ⟨child, List.mem_append_left _ inRow, black⟩
    · rcases List.mem_cons.mp atRoot with same | inRight
      · obtain ⟨rfl, rfl⟩ := Prod.mk.inj same
        rw [color_nodeAt] at red
        subst red
        obtain ⟨⟨leftNotRed, rightNotRed⟩, -⟩ := balanced
        cases side with
        | left =>
          obtain ⟨child, inRow, black⟩ := root_mem_row hangs (some item.id)
          exact ⟨child, List.mem_append_left _ inRow, black leftNotRed⟩
        | right =>
          obtain ⟨child, inRow, black⟩ := root_mem_row hangs (some item.id)
          exact ⟨child, List.mem_append_right _ (List.mem_cons_of_mem _ inRow), black rightNotRed⟩
      · obtain ⟨child, inRow, black⟩ := right_ih rightBalanced inRight
        exact ⟨child, List.mem_append_right _ (List.mem_cons_of_mem _ inRow), black⟩

end Tree

section Stored

variable {nodes : σ (Node κ ν)} {tree : Tree (Item κ ν)} {parent : Option NodeId}

/-- The links of stored cells lead through them. -/
theorem hangs_row (stored : ∀ cell ∈ tree.row parent, NodeStore.get? cell.1 nodes = some cell.2) :
    Hangs nodes parent tree.rootId? (tree.row parent) := by
  induction tree generalizing parent with
  | leaf => exact .missing
  | node color left item right left_ih right_ih =>
    rw [Tree.row, List.forall_mem_append, List.forall_mem_cons] at stored
    obtain ⟨inLeft, root, inRight⟩ := stored
    exact .node root (parent_nodeAt ..) (left_ih inLeft) (right_ih inRight)

/-- In a balanced tree the number of black nodes on a way down is the height. -/
theorem eq_height_of_way {height blacks : Nat} (balanced : tree.Balanced height)
    (stored : ∀ cell ∈ tree.row parent, NodeStore.get? cell.1 nodes = some cell.2)
    (way : Way nodes tree.rootId? blacks) : blacks = height := by
  induction tree generalizing parent height blacks with
  | leaf =>
    cases way
    exact balanced.symm
  | node color left item right left_ih right_ih =>
    rw [Tree.row, List.forall_mem_append, List.forall_mem_cons] at stored
    obtain ⟨inLeft, root, inRight⟩ := stored
    cases way with
    | down side found below =>
      obtain rfl := Option.some.inj (root.symm.trans found)
      have fewer : ∀ {less passed : Nat}, left.Balanced less → right.Balanced less →
          Way nodes ((nodeAt .left item color parent left.rootId? right.rootId?).child side) passed →
          passed = less := by
        intro less passed leftBalanced rightBalanced below
        cases side with
        | left => exact left_ih leftBalanced inLeft below
        | right => exact right_ih rightBalanced inRight below
      cases color with
      | red => exact fewer balanced.2.1 balanced.2.2 below
      | black =>
        obtain ⟨less, rfl, leftBalanced, rightBalanced⟩ := balanced
        exact congrArg Nat.succ (fewer leftBalanced rightBalanced below)

end Stored

/-! ### Sound maps -/

namespace Sound

variable {map : RedBlackMap κ ν σ} {whole : Tree (Item κ ν)}

theorem stores_row (sound : Sound map whole) : Stores map.tree.nodes (whole.row none) := by
  have stores := sound.linked.stores
  rwa [add_zero, ← Tree.coe_row] at stores

theorem mem_row_iff (sound : Sound map whole) (id : NodeId) (node : Node κ ν) :
    NodeStore.get? id map.tree.nodes = some node ↔ (id, node) ∈ whole.row none :=
  (Stores.coe_iff.mp sound.stores_row).2.1 id node

/-- **The nodes of a sound map form a red-black tree.** -/
theorem wellFormed (sound : Sound map whole) : WellFormed map (whole.row none) := by
  obtain ⟨nodup, live, size⟩ := Stores.coe_iff.mp sound.stores_row
  have stored : ∀ cell ∈ whole.row none, NodeStore.get? cell.1 map.tree.nodes = some cell.2 :=
    fun cell member => (live cell.1 cell.2).mpr member
  obtain ⟨notRed, height, balanced⟩ := sound.proper
  refine ⟨?_, nodup, live, ?_, size, ?_, ?_, height, ?_⟩
  · rw [sound.linked.root]
    exact hangs_row stored
  · rw [sound.size_eq, Tree.length_row]
  · intro id node root found
    obtain ⟨other, member, black⟩ := Tree.root_mem_row (sound.linked.root.symm.trans root) none
    obtain rfl := Option.some.inj (found.symm.trans (stored _ member))
    exact black notRed
  · intro id node side childId child found red hangs foundChild
    obtain ⟨other, member, black⟩ :=
      Tree.child_of_red balanced ((sound.mem_row_iff id node).mp found) red hangs
    obtain rfl := Option.some.inj (foundChild.symm.trans (stored _ member))
    exact black
  · intro blacks way
    rw [sound.linked.root] at way
    exact eq_height_of_way balanced stored way

end Sound

/-! ### Sound again -/

/-- Nodes that the links lead through are the cells of a tree. -/
theorem Hangs.exists_tree {nodes : σ (Node κ ν)} {parent id? : Option NodeId}
    {row : List (NodeId × Node κ ν)} (hangs : Hangs nodes parent id? row) :
    ∃ tree : Tree (Item κ ν), tree.rootId? = id? ∧ tree.row parent = row := by
  induction hangs with
  | missing => exact ⟨.leaf, rfl, rfl⟩
  | @node parent id node front back stored above left right left_ih right_ih =>
    obtain ⟨leftTree, leftRoot, leftRow⟩ := left_ih
    obtain ⟨rightTree, rightRoot, rightRow⟩ := right_ih
    refine ⟨.node node.color leftTree ⟨id, node.key, node.value⟩ rightTree, rfl, ?_⟩
    rw [Tree.row, leftRow, rightRow, leftRoot, rightRoot, ← above]
    rfl

section Stored

variable {nodes : σ (Node κ ν)} {tree : Tree (Item κ ν)} {parent : Option NodeId}

/-- There is a way down through stored cells. -/
theorem exists_way (stored : ∀ cell ∈ tree.row parent, NodeStore.get? cell.1 nodes = some cell.2) :
    ∃ blacks, Way nodes tree.rootId? blacks := by
  induction tree generalizing parent with
  | leaf => exact ⟨0, .missing⟩
  | node color left item right left_ih _ =>
    rw [Tree.row, List.forall_mem_append, List.forall_mem_cons] at stored
    obtain ⟨inLeft, root, -⟩ := stored
    obtain ⟨blacks, way⟩ := left_ih inLeft
    exact ⟨_, .down .left root way⟩

/-- A red root is a red node. -/
theorem isRed_eq_false {tree : Tree (Item κ ν)}
    (stored : ∀ cell ∈ tree.row parent, NodeStore.get? cell.1 nodes = some cell.2)
    (black : ∀ id node, tree.rootId? = some id → NodeStore.get? id nodes = some node →
      node.color = .black) : tree.isRed = false := by
  cases tree with
  | leaf => rfl
  | node color left item right =>
    rw [Tree.row, List.forall_mem_append, List.forall_mem_cons] at stored
    have isBlack := black item.id _ rfl stored.2.1
    rw [color_nodeAt] at isBlack
    subst isBlack
    rfl

/-- Where red nodes have no red children and all ways down pass equally many black nodes, the tree
is balanced. -/
theorem balanced_of_ways {height : Nat}
    (stored : ∀ cell ∈ tree.row parent, NodeStore.get? cell.1 nodes = some cell.2)
    (apart : ∀ id node side childId child, NodeStore.get? id nodes = some node →
      node.color = .red → node.child side = some childId →
      NodeStore.get? childId nodes = some child → child.color = .black)
    (ways : ∀ blacks, Way nodes tree.rootId? blacks → blacks = height) : tree.Balanced height := by
  induction tree generalizing parent height with
  | leaf => exact (ways 0 .missing).symm
  | node color left item right left_ih right_ih =>
    rw [Tree.row, List.forall_mem_append, List.forall_mem_cons] at stored
    obtain ⟨inLeft, root, inRight⟩ := stored
    cases color with
    | red =>
      have leftBlack : left.isRed = false := isRed_eq_false inLeft fun id node hangs found =>
        apart item.id _ .left id node root (color_nodeAt ..) hangs found
      have rightBlack : right.isRed = false := isRed_eq_false inRight fun id node hangs found =>
        apart item.id _ .right id node root (color_nodeAt ..) hangs found
      exact ⟨⟨leftBlack, rightBlack⟩,
        left_ih inLeft fun blacks way => ways blacks (.down .left root way),
        right_ih inRight fun blacks way => ways blacks (.down .right root way)⟩
    | black =>
      obtain ⟨below, way⟩ := exists_way inLeft
      obtain rfl : below + 1 = height := ways (below + 1) (.down .left root way)
      exact ⟨below, rfl,
        left_ih inLeft fun blacks way => Nat.succ.inj (ways (blacks + 1) (.down .left root way)),
        right_ih inRight fun blacks way => Nat.succ.inj (ways (blacks + 1) (.down .right root way))⟩

end Stored

/-- **A map whose nodes form a red-black tree is sound.** -/
theorem WellFormed.sound {map : RedBlackMap κ ν σ} {row : List (NodeId × Node κ ν)}
    (wellFormed : WellFormed map row) : ∃ whole, Sound map whole ∧ whole.row none = row := by
  obtain ⟨whole, root, rfl⟩ := wellFormed.hangs.exists_tree
  have stored : ∀ cell ∈ whole.row none, NodeStore.get? cell.1 map.tree.nodes = some cell.2 :=
    fun cell member => (wellFormed.live cell.1 cell.2).mpr member
  obtain ⟨height, ways⟩ := wellFormed.black_height
  have stores : Stores map.tree.nodes (whole.cells none + 0) := by
    rw [add_zero, ← Tree.coe_row]
    exact Stores.coe_iff.mpr ⟨wellFormed.nodup, wellFormed.live, wellFormed.stored⟩
  refine ⟨whole, ⟨⟨root.symm, stores⟩, ⟨?_, height, ?_⟩, ?_⟩, rfl⟩
  · exact isRed_eq_false stored fun id node hangs found =>
      wellFormed.root_black id node (root.symm.trans hangs) found
  · refine balanced_of_ways stored wellFormed.reds_apart fun blacks way => ways blacks ?_
    rwa [← root]
  · rw [wellFormed.size_eq, Tree.length_row]

end OrderedCollections.RedBlack
