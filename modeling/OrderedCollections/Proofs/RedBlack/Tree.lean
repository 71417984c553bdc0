/-
**Trees and the places in them.**

What the nodes of a linked tree stand for is a tree of items in two colours. A place in it is a path:
one frame for every node above the place, the nearest first. A subtree and the path to it are the
whole tree seen from that subtree, and the whole tree is the same from wherever it is seen.

A node is put together from the subtree on a given side, its item and the subtree on the other side,
so that every mirrored pair of cases is written once.

* `Tree.join`: the node whose subtree on a side is the given one.
* `Path.plug`: the whole tree again.
* `toList_plug`: the items of the whole tree, in order.
* `toList_rotate`: turning a subtree to a side keeps the order of its items.
-/

import OrderedCollections.RedBlack.Side

namespace OrderedCollections.RedBlack

/-- A binary tree whose nodes carry a colour and an item. -/
inductive Tree (α : Type) where
  | leaf
  | node (color : Color) (left : Tree α) (item : α) (right : Tree α)

variable {α : Type}

namespace Tree

/-- The items, from left to right. -/
def toList : Tree α → List α
  | leaf => []
  | node _ left item right => left.toList ++ item :: right.toList

/-- Whether the root is a red node. -/
def isRed : Tree α → Bool
  | node .red _ _ _ => true
  | _ => false

/-- The tree with its root in the given colour; a leaf has none. -/
def paint (color : Color) : Tree α → Tree α
  | leaf => leaf
  | node _ left item right => node color left item right

/-- The node whose subtree on `side` is `near`. -/
def join (side : Side) (color : Color) (near : Tree α) (item : α) (far : Tree α) : Tree α :=
  match side with
  | .left => node color near item far
  | .right => node color far item near

@[simp] theorem toList_leaf : (leaf : Tree α).toList = [] := rfl

@[simp] theorem toList_node (color : Color) (left : Tree α) (item : α) (right : Tree α) :
    (node color left item right).toList = left.toList ++ item :: right.toList := rfl

@[simp] theorem toList_paint (color : Color) (tree : Tree α) :
    (tree.paint color).toList = tree.toList := by
  cases tree <;> rfl

@[simp] theorem paint_join (side : Side) (color other : Color) (near : Tree α) (item : α)
    (far : Tree α) : (join side color near item far).paint other = join side other near item far := by
  cases side <;> rfl

theorem join_opposite (side : Side) (color : Color) (near : Tree α) (item : α) (far : Tree α) :
    join side.opposite color far item near = join side color near item far := by
  cases side <;> rfl

/-- A tree is a leaf, or a node put together from any side. -/
theorem eq_leaf_or_join (side : Side) (tree : Tree α) :
    tree = leaf ∨ ∃ color near item far, tree = join side color near item far := by
  cases tree with
  | leaf => exact Or.inl rfl
  | node color left item right =>
    cases side with
    | left => exact Or.inr ⟨color, left, item, right, rfl⟩
    | right => exact Or.inr ⟨color, right, item, left, rfl⟩

theorem eq_join_of_isRed (side : Side) {tree : Tree α} (red : tree.isRed = true) :
    ∃ near item far, tree = join side .red near item far := by
  rcases eq_leaf_or_join side tree with rfl | ⟨color, near, item, far, rfl⟩
  · cases red
  · cases color with
    | red => exact ⟨near, item, far, rfl⟩
    | black => cases side <;> cases red

@[simp] theorem isRed_join (side : Side) (color : Color) (near : Tree α) (item : α) (far : Tree α) :
    (join side color near item far).isRed = (color == .red) := by
  cases side <;> cases color <;> rfl

theorem join_ne_leaf (side : Side) (color : Color) (near : Tree α) (item : α) (far : Tree α) :
    join side color near item far ≠ leaf := by
  cases side <;> simp [join]

theorem paint_ne_leaf (color : Color) {tree : Tree α} (present : tree ≠ leaf) :
    tree.paint color ≠ leaf := by
  cases tree with
  | leaf => exact present
  | node _ left item right => simp [paint]

theorem ne_leaf_of_isRed {tree : Tree α} (red : tree.isRed = true) : tree ≠ leaf := by
  rintro rfl
  cases red

theorem toList_join_congr (side : Side) (color other : Color) {near near' far far' : Tree α}
    (item : α) (same : near.toList = near'.toList) (same' : far.toList = far'.toList) :
    (join side color near item far).toList = (join side other near' item far').toList := by
  cases side <;> simp [join, same, same']

theorem toList_rotate (side : Side) (lower upper lower' upper' : Color) (outer : Tree α) (item : α)
    (inner : Tree α) (lifted : α) (far : Tree α) :
    (join side lower (join side upper outer item inner) lifted far).toList =
      (join side upper' outer item (join side lower' inner lifted far)).toList := by
  cases side <;> simp [join]

end Tree

/-! ### Paths -/

/-- A node seen from one of its subtrees. -/
structure Frame (α : Type) where
  color : Color
  /-- The side on which the subtree hangs. -/
  side : Side
  item : α
  /-- The subtree on the other side. -/
  sibling : Tree α

/-- The frames above a subtree, the nearest first. -/
abbrev Path (α : Type) := List (Frame α)

/-- The node again, with a subtree in the place the frame leaves open. -/
def Frame.fill (frame : Frame α) (subtree : Tree α) : Tree α :=
  Tree.join frame.side frame.color subtree frame.item frame.sibling

namespace Path

/-- The whole tree again, with a subtree in the place the path leads to. -/
def plug (path : Path α) (subtree : Tree α) : Tree α :=
  path.foldl (fun below frame => frame.fill below) subtree

/-- The items to the left of the place, from left to right. -/
def before : Path α → List α
  | [] => []
  | frame :: above =>
    before above ++
      match frame.side with
      | .left => []
      | .right => frame.sibling.toList ++ [frame.item]

/-- The items to the right of the place, from left to right. -/
def after : Path α → List α
  | [] => []
  | frame :: above =>
    (match frame.side with
      | .left => frame.item :: frame.sibling.toList
      | .right => []) ++ after above

@[simp] theorem plug_nil (subtree : Tree α) : plug [] subtree = subtree := rfl

@[simp] theorem plug_cons (frame : Frame α) (above : Path α) (subtree : Tree α) :
    plug (frame :: above) subtree = plug above (frame.fill subtree) := rfl

theorem plug_append (lower upper : Path α) (subtree : Tree α) :
    plug (lower ++ upper) subtree = plug upper (plug lower subtree) := by
  simp [plug, List.foldl_append]

theorem plug_join (path : Path α) (side : Side) (color : Color) (near : Tree α) (item : α)
    (far : Tree α) :
    path.plug (.join side color near item far) = plug (⟨color, side, item, far⟩ :: path) near :=
  rfl

theorem plug_join_opposite (path : Path α) (side : Side) (color : Color) (near : Tree α) (item : α)
    (far : Tree α) :
    path.plug (.join side color near item far) =
      plug (⟨color, side.opposite, item, near⟩ :: path) far := by
  rw [← Tree.join_opposite]
  rfl

/-- The items of the whole tree are those before the place, those of the subtree, and those
after it. -/
theorem toList_plug (path : Path α) (subtree : Tree α) :
    (path.plug subtree).toList = path.before ++ (subtree.toList ++ path.after) := by
  induction path generalizing subtree with
  | nil => simp [before, after]
  | cons frame above ih =>
    rw [plug_cons, ih]
    obtain ⟨color, side, item, sibling⟩ := frame
    cases side <;> simp [Frame.fill, Tree.join, before, after]

theorem toList_plug_congr (path : Path α) {subtree other : Tree α}
    (same : subtree.toList = other.toList) :
    (path.plug subtree).toList = (path.plug other).toList := by
  rw [toList_plug, toList_plug, same]

end Path

end OrderedCollections.RedBlack
