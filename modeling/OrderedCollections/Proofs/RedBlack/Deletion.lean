/-
**Deletion.**

A node with a missing child leaves its place to the other child. A node with two children leaves its
place to the next node in order, which has no left child and leaves its own place to its right
child. Either way one place of the tree loses the colour of the node that stood in it, and the items
but one stay in their order.

* `extreme_spec`: the walk to the node of a subtree that stands furthest on a side.
* `promote_spec`: the next node in the place of one with two children.
* `detach_spec`: a node gives up its place.
* `delete_spec`: a proper tree without the node, which stays in the store.
-/

import OrderedCollections.Proofs.RedBlack.Mending

namespace OrderedCollections.RedBlack

variable {κ ν : Type} {σ : Type → Type} [NodeStore σ]
  {tree : LinkedTree κ ν σ} {further : Multiset (NodeId × Node κ ν)}

/-! ### The next node in order -/

/-- **The node furthest on a side** has no child there, and every node above it has the rest of its
subtree on the other side. -/
theorem extreme_spec (side : Side) (rounds : Nat) {path : Path (Item κ ν)}
    {subtree : Tree (Item κ ν)} {id : NodeId} (linked : Linked tree (path.plug subtree) further)
    (root : subtree.rootId? = some id) (enough : subtree.toList.length ≤ rounds) :
    ∃ lower color item far, subtree = Path.plug lower (.join side color .leaf item far) ∧
      (∀ frame ∈ lower, frame.side = side) ∧ tree.extreme side rounds id = .ok item.id := by
  induction rounds generalizing path subtree id with
  | zero =>
    cases subtree with
    | leaf => cases root
    | node color left item right => simp at enough
  | succ rounds ih =>
    rcases subtree.eq_leaf_or_join side with rfl | ⟨color, near, item, far, rfl⟩
    · cases root
    · rw [Tree.rootId?_join, Option.some.injEq] at root
      subst root
      have childEq := linked.child_eq.1
      cases next : near.rootId? with
      | none =>
        obtain rfl := Tree.rootId?_eq_none.mp next
        refine ⟨[], color, item, far, rfl, List.forall_mem_nil _, ?_⟩
        simp only [LinkedTree.extreme, childEq, next, Checked.ok_bind, Checked.pure_eq_ok]
      | some nextId =>
        rw [Path.plug_join] at linked
        have shorter : near.toList.length ≤ rounds := by
          cases side <;> simp [Tree.join] at enough <;> omega
        obtain ⟨lower, lowest, least, rest, rfl, onSide, walked⟩ := ih linked next shorter
        refine ⟨lower ++ [⟨color, side, item, far⟩], lowest, least, rest, ?_, ?_, ?_⟩
        · rw [Path.plug_append]
          rfl
        · intro frame member
          rcases List.mem_append.mp member with inLower | isLast
          · exact onSide frame inLower
          · rw [List.mem_singleton.mp isLast]
        · simp only [LinkedTree.extreme, childEq, next, Checked.ok_bind, walked]

/-- Nothing stands to the left of a place to which only left children lead. -/
theorem before_of_left {lower : Path (Item κ ν)} (onSide : ∀ frame ∈ lower, frame.side = .left) :
    lower.before = [] := by
  induction lower with
  | nil => rfl
  | cons frame above ih =>
    rw [Path.before, ih fun other member => onSide other (List.mem_cons_of_mem _ member),
      onSide frame List.mem_cons_self]
    rfl

/-- A place that a node gave up: where it is, and what hangs in it. The item of the node is in the
store still. -/
structure Vacated (vacancy : LinkedTree.Vacancy κ ν σ) (item : Item κ ν) (path : Path (Item κ ν))
    (subtree : Tree (Item κ ν)) (further : Multiset (NodeId × Node κ ν)) : Prop where
  linked : ∃ node : Node κ ν, node.value = item.value ∧
    Linked vacancy.tree (path.plug subtree) ({(item.id, node)} + further)
  id?_eq : vacancy.id? = subtree.rootId?
  parent_eq : vacancy.parent = path.parentId?

section Promotion

variable [LawfulNodeStore σ] {path : Path (Item κ ν)} {color lost : Color}
  {left right far : Tree (Item κ ν)} {item next : Item κ ν}

/-- **A node that has left its own place** comes into that of another one, with its right subtree
already below it. -/
theorem takeOver_spec {node : Node κ ν} {parent : Option NodeId}
    (holds : Holds tree (path.rootId? (some item.id))
      ({(item.id, node)} + ({(next.id, nodeAt .left next lost parent none right.rootId?)} +
        (left.cells (some item.id) + (right.cells (some next.id) +
          (path.cells (some item.id) + further))))))
    (hangs : node.parent = path.parentId?) (color : Color) :
    ∃ first second third after, tree.transplant item.id (some next.id) = .ok first ∧
      first.setChild next.id .left left.rootId? = .ok second ∧
      second.setParent left.rootId? (some next.id) = .ok third ∧
      third.paint (some next.id) color = .ok after ∧
      Linked after (path.plug (.join .left color left next right)) ({(item.id, node)} + further) := by
  have itemFirst : Holds tree (path.rootId? (some item.id)) ({(item.id, node)} +
      (path.cells (some item.id) + ({(next.id, nodeAt .left next lost parent none right.rootId?)} +
        (left.cells (some item.id) + (right.cells (some next.id) + further))))) :=
    holds.perm (by ac_rfl)
  obtain ⟨hung, replaced, holdsHung⟩ :=
    (itemFirst.perm (add_left_comm _ _ _)).replaceChild_spec itemFirst.sibling_ne (some next.id)
  have nextFirst : Holds hung (path.rootId? (some next.id))
      ({(next.id, nodeAt .left next lost parent none right.rootId?)} +
        (left.cells (some item.id) + ({(item.id, node)} + (path.cells (some next.id) +
          (right.cells (some next.id) + further))))) :=
    holdsHung.perm (by ac_rfl)
  obtain ⟨first, setParent, holdsFirst⟩ := nextFirst.setParentOf_spec path.parentId?
  obtain ⟨second, setLeft, holdsSecond⟩ := holdsFirst.setChild_spec .left left.rootId?
  rw [withChild_nodeAt] at holdsSecond
  obtain ⟨third, setLeftParent, holdsThird⟩ :=
    (holdsSecond.perm (add_left_comm _ _ _)).setParent_spec (some next.id)
  have linkedThird : Linked third (path.plug (.join .left lost left next right))
      ({(item.id, node)} + further) := by
    rw [linked_plug, Tree.rootId?_join, Tree.cells_join]
    exact holdsThird.perm (by ac_rfl)
  obtain ⟨after, painted, linkedAfter⟩ := paintAt_spec linkedThird color
  rw [Tree.rootId?_join] at painted
  rw [Tree.paint_join] at linkedAfter
  refine ⟨first, second, third, after, ?_, setLeft, setLeftParent, painted, linkedAfter⟩
  simp only [LinkedTree.transplant, itemFirst.node_eq, Checked.ok_bind, hangs, replaced, setParent]

/-- The next node is the child of the one whose place it takes. -/
theorem promote_child_spec {leftId : NodeId}
    (linked : Linked tree (path.plug (.join .left color left item
      (.join .left lost .leaf next far))) further)
    (leftRoot : left.rootId? = some leftId)
    (walked : tree.extreme .left tree.rounds next.id = .ok next.id) :
    ∃ vacancy, tree.promote item.id color leftId next.id = .ok vacancy ∧ vacancy.color = lost ∧
      Vacated vacancy item (⟨color, .right, next, left⟩ :: path) far further := by
  have nextEq : tree.node next.id = .ok (nodeAt .left next lost (some item.id) none far.rootId?) := by
    rw [Path.plug_join_opposite] at linked
    exact linked.node_eq
  have holds : Holds tree (path.rootId? (some item.id))
      ({(item.id, nodeAt .left item color path.parentId? left.rootId? (some next.id))} +
        ({(next.id, nodeAt .left next lost (some item.id) none far.rootId?)} +
          (left.cells (some item.id) + (far.cells (some next.id) +
            (path.cells (some item.id) + further))))) := by
    simp only [linked_plug, Tree.rootId?_join, Tree.cells_join, Tree.rootId?_leaf, Tree.cells_leaf,
      zero_add] at linked
    exact linked.perm (by ac_rfl)
  obtain ⟨first, second, third, after, transplanted, setLeft, setLeftParent, painted, linkedAfter⟩ :=
    takeOver_spec holds (parent_nodeAt ..) color
  rw [leftRoot] at setLeft setLeftParent
  refine ⟨⟨after, far.rootId?, some next.id, lost⟩, ?_, rfl, ⟨_, value_nodeAt .., linkedAfter⟩, rfl,
    rfl⟩
  simp only [LinkedTree.promote, walked, nextEq, parent_nodeAt, color_nodeAt, if_true, transplanted,
    setLeft, setLeftParent, painted, Checked.ok_bind, Checked.pure_eq_ok]
  rfl

/-- **The next node steps out** of a place further down: it leaves that place to its right child, and
the right subtree is hung below it. -/
theorem stepOut_spec {frame : Frame (Item κ ν)} {lower : Path (Item κ ν)}
    (linked : Linked tree (path.plug (.join .left color left item
      (Path.plug (frame :: lower) (.join .left lost .leaf next far)))) further)
    (rightEq : Path.plug (frame :: lower) far = right) :
    ∃ hung held ready, tree.transplant next.id far.rootId? = .ok hung ∧
      hung.setChild next.id .right right.rootId? = .ok held ∧
      held.setParent right.rootId? (some next.id) = .ok ready ∧
      Holds ready (path.rootId? (some item.id))
        ({(item.id, nodeAt .left item color path.parentId? left.rootId? right.rootId?)} +
          ({(next.id, nodeAt .left next lost (some frame.item.id) none right.rootId?)} +
            (left.cells (some item.id) + (right.cells (some next.id) +
              (path.cells (some item.id) + further))))) := by
  have whole : ∀ subtree : Tree (Item κ ν), path.plug (.join .left color left item
      (Path.plug (frame :: lower) subtree)) =
        Path.plug (frame :: lower ++ ⟨color, .right, item, left⟩ :: path) subtree := by
    intro subtree
    rw [Path.plug_append]
    rfl
  rw [whole] at linked
  obtain ⟨hung, steppedOut, linkedHung⟩ := transplant_spec linked
  rw [← whole, rightEq, linked_plug, Tree.rootId?_join, Tree.cells_join] at linkedHung
  have nextFirst : Holds hung (path.rootId? (some item.id))
      ({(next.id, nodeAt .left next lost (some frame.item.id) none far.rootId?)} +
        (right.cells (some item.id) +
          ({(item.id, nodeAt .left item color path.parentId? left.rootId? right.rootId?)} +
            (left.cells (some item.id) + (path.cells (some item.id) + further))))) :=
    linkedHung.perm (by rw [List.cons_append, Path.parentId?]; ac_rfl)
  obtain ⟨held, setRight, holdsHeld⟩ := nextFirst.setChild_spec (Side.left.opposite) right.rootId?
  rw [withChild_opposite_nodeAt] at holdsHeld
  obtain ⟨ready, setRightParent, holdsReady⟩ :=
    (holdsHeld.perm (add_left_comm _ _ _)).setParent_spec (some next.id)
  exact ⟨hung, held, ready, steppedOut, setRight, setRightParent, holdsReady.perm (by ac_rfl)⟩

/-- The next node stands further down than the child of the one whose place it takes. -/
theorem promote_lower_spec {leftId rightId : NodeId} {frame : Frame (Item κ ν)}
    {lower : Path (Item κ ν)}
    (linked : Linked tree (path.plug (.join .left color left item
      (Path.plug (frame :: lower) (.join .left lost .leaf next far)))) further)
    (leftRoot : left.rootId? = some leftId)
    (rightRoot : Path.rootId? (some next.id) (frame :: lower) = some rightId)
    (walked : tree.extreme .left tree.rounds rightId = .ok next.id) :
    ∃ vacancy, tree.promote item.id color leftId rightId = .ok vacancy ∧ vacancy.color = lost ∧
      Vacated vacancy item (frame :: lower ++ ⟨color, .right, next, left⟩ :: path) far
        further := by
  have atNext := linked
  rw [Path.plug_join_opposite, ← Path.plug_append, List.cons_append] at atNext
  have nextEq := atNext.node_eq
  have elsewhere : ¬some frame.item.id = some item.id := by
    rw [Path.plug_cons] at atNext
    have different := atNext.item_ne (List.mem_append_right lower List.mem_cons_self)
    exact fun same => different (Option.some.inj same).symm
  generalize rightEq : Path.plug (frame :: lower) far = right
  have rightRoot' : right.rootId? = some rightId := by
    rw [← rightEq, Path.rootId?_plug, ← rightRoot]
    rfl
  obtain ⟨hung, held, ready, steppedOut, setRight, setRightParent, holds⟩ :=
    stepOut_spec linked rightEq
  rw [rightRoot'] at setRight setRightParent
  obtain ⟨first, second, third, after, transplanted, setLeft, setLeftParent, painted, linkedAfter⟩ :=
    takeOver_spec holds (parent_nodeAt ..) color
  rw [leftRoot] at setLeft setLeftParent
  have placed : path.plug (.join .left color left next right) =
      Path.plug (frame :: lower ++ ⟨color, .right, next, left⟩ :: path) far := by
    rw [Path.plug_append, rightEq]
    rfl
  rw [placed] at linkedAfter
  refine ⟨⟨after, far.rootId?, some frame.item.id, lost⟩, ?_, rfl,
    ⟨_, value_nodeAt .., linkedAfter⟩, rfl, rfl⟩
  simp only [LinkedTree.promote, walked, nextEq, Path.parentId?, parent_nodeAt, color_nodeAt,
    right_nodeAt, if_neg elsewhere, steppedOut, setRight, setRightParent, transplanted, setLeft,
    setLeftParent, painted, Checked.ok_bind, Checked.pure_eq_ok]

/-- **A node with two children** leaves its place to the next node in order. -/
theorem promote_spec {leftId rightId : NodeId}
    (linked : Linked tree (path.plug (.join .left color left item right)) further)
    (leftRoot : left.rootId? = some leftId) (rightRoot : right.rootId? = some rightId) :
    ∃ vacancy lower lost next far, tree.promote item.id color leftId rightId = .ok vacancy ∧
      right = Path.plug lower (.join .left lost .leaf next far) ∧
      (∀ frame ∈ lower, frame.side = .left) ∧ vacancy.color = lost ∧
      Vacated vacancy item (lower ++ ⟨color, .right, next, left⟩ :: path) far further := by
  have atRight := linked
  rw [Path.plug_join_opposite] at atRight
  obtain ⟨lower, lost, next, far, rfl, onSide, walked⟩ :=
    extreme_spec .left tree.rounds atRight rightRoot (Nat.le_of_lt atRight.size_lt_rounds)
  rw [Path.rootId?_plug, Tree.rootId?_join] at rightRoot
  cases lower with
  | nil =>
    obtain rfl := Option.some.inj rightRoot
    obtain ⟨vacancy, promoted, colorEq, vacated⟩ := promote_child_spec linked leftRoot walked
    exact ⟨vacancy, [], lost, next, far, promoted, rfl, List.forall_mem_nil _, colorEq, vacated⟩
  | cons frame lower =>
    obtain ⟨vacancy, promoted, colorEq, vacated⟩ :=
      promote_lower_spec linked leftRoot rightRoot walked
    exact ⟨vacancy, frame :: lower, lost, next, far, promoted, rfl, onSide, colorEq, vacated⟩

end Promotion

/-! ### A node without its place -/

/-- **A place lost a colour**: with a red node nothing else went missing, and with a black node one
black node on every way down. -/
def Deprived (path : Path (Item κ ν)) (subtree : Tree (Item κ ν)) : Color → Prop
  | .red => (path.plug subtree).Proper
  | .black => ∃ height, path.Fits (height + 1) ∧ subtree.Balanced height

/-- A node with a missing child takes its colour with it. -/
theorem deprived_of_proper {path : Path (Item κ ν)} {side : Side} {lost : Color}
    {item : Item κ ν} {far : Tree (Item κ ν)}
    (proper : (path.plug (.join side lost .leaf item far)).Proper) : Deprived path far lost := by
  obtain ⟨height, fits, balanced, takes⟩ := proper_plug_iff.mp proper
  cases lost with
  | red =>
    have farBalanced := (Tree.balanced_join_red.mp balanced).2.2
    exact proper_plug_of_takesRed (takes (by simp)) fits farBalanced
  | black =>
    obtain ⟨below, rfl, -, farBalanced⟩ := Tree.balanced_join_black.mp balanced
    exact ⟨below, fits, farBalanced⟩

/-- What a place lost does not depend on the items above it. -/
theorem deprived_withItem {lower above : Path (Item κ ν)} {color lost : Color} {side : Side}
    {item : Item κ ν} {sibling subtree : Tree (Item κ ν)} (other : Item κ ν)
    (deprived : Deprived (lower ++ ⟨color, side, item, sibling⟩ :: above) subtree lost) :
    Deprived (lower ++ ⟨color, side, other, sibling⟩ :: above) subtree lost := by
  cases lost with
  | red =>
    obtain ⟨height, fits, balanced, takes⟩ := proper_plug_iff.mp deprived
    exact proper_plug_iff.mpr ⟨height, (Path.fits_withItem other).mpr fits, balanced,
      fun red => (Path.takesRed_withItem other).mpr (takes red)⟩
  | black =>
    obtain ⟨height, fits, balanced⟩ := deprived
    exact ⟨height, (Path.fits_withItem other).mpr fits, balanced⟩

section Deletion

variable [LawfulNodeStore σ] {path : Path (Item κ ν)} {color : Color}
  {left right : Tree (Item κ ν)} {item : Item κ ν}

/-- **A node gives up its place.** The other items keep their order. -/
theorem detach_spec (linked : Linked tree (path.plug (.join .left color left item right)) further)
    (proper : (path.plug (.join .left color left item right)).Proper) :
    ∃ vacancy vacated subtree, tree.detach item.id = .ok vacancy ∧
      Vacated vacancy item vacated subtree further ∧
      Deprived vacated subtree vacancy.color ∧
      (Path.plug vacated subtree).toList =
        path.before ++ (left.toList ++ right.toList ++ path.after) := by
  have nodeEq := linked.node_eq
  cases leftRoot : left.rootId? with
  | none =>
    obtain rfl := Tree.rootId?_eq_none.mp leftRoot
    obtain ⟨after, transplanted, linkedAfter⟩ := transplant_spec linked
    refine ⟨⟨after, right.rootId?, path.parentId?, color⟩, path, right, ?_,
      ⟨⟨_, value_nodeAt .., linkedAfter⟩, rfl, rfl⟩, deprived_of_proper proper, Path.toList_plug ..⟩
    simp only [LinkedTree.detach, nodeEq, left_nodeAt, right_nodeAt, parent_nodeAt, color_nodeAt,
      leftRoot, transplanted, Checked.ok_bind, Checked.pure_eq_ok]
  | some leftId =>
    cases rightRoot : right.rootId? with
    | none =>
      obtain rfl := Tree.rootId?_eq_none.mp rightRoot
      rw [← Tree.join_opposite] at linked proper
      obtain ⟨after, transplanted, linkedAfter⟩ := transplant_spec linked
      rw [leftRoot] at transplanted
      refine ⟨⟨after, left.rootId?, path.parentId?, color⟩, path, left, ?_,
        ⟨⟨_, value_nodeAt .., linkedAfter⟩, rfl, rfl⟩, deprived_of_proper proper, ?_⟩
      · simp only [LinkedTree.detach, nodeEq, left_nodeAt, right_nodeAt, parent_nodeAt,
          color_nodeAt, leftRoot, rightRoot, transplanted, Checked.ok_bind, Checked.pure_eq_ok]
      · rw [Path.toList_plug, Tree.toList_leaf, List.append_nil]
    | some rightId =>
      obtain ⟨vacancy, lower, lost, next, far, promoted, rfl, onSide, rfl, vacated⟩ :=
        promote_spec linked leftRoot rightRoot
      rw [Path.plug_join_opposite, ← Path.plug_append] at proper
      have deprived := deprived_withItem next (deprived_of_proper proper)
      refine ⟨vacancy, _, far, ?_, vacated, deprived, ?_⟩
      · simp only [LinkedTree.detach, nodeEq, left_nodeAt, right_nodeAt, color_nodeAt, leftRoot,
          rightRoot, promoted, Checked.ok_bind]
      · rw [Path.plug_append, Path.plug_cons, Path.toList_plug, Path.toList_plug lower,
          before_of_left onSide]
        simp [Frame.fill, Tree.join, Path.toList_plug, before_of_left onSide]

/-- **Deletion** leaves a proper tree with the other items in their order. The node stays in the
store, in no place of the tree. -/
theorem delete_spec (linked : Linked tree (path.plug (.join .left color left item right)) further)
    (proper : (path.plug (.join .left color left item right)).Proper) :
    ∃ after whole, ∃ node : Node κ ν, tree.delete item.id = .ok after ∧
      node.value = item.value ∧ Linked after whole ({(item.id, node)} + further) ∧ whole.Proper ∧
      whole.toList = path.before ++ (left.toList ++ right.toList ++ path.after) := by
  obtain ⟨vacancy, vacated, subtree, detached, ⟨⟨node, valueEq, linkedVacancy⟩, idEq, parentEq⟩,
    deprived, same⟩ := detach_spec linked proper
  cases lost : vacancy.color with
  | red =>
    rw [lost] at deprived
    refine ⟨vacancy.tree, _, node, ?_, valueEq, linkedVacancy, deprived, same⟩
    simp only [LinkedTree.delete, detached, lost, Checked.ok_bind, Checked.pure_eq_ok]
  | black =>
    rw [lost] at deprived
    obtain ⟨height, fits, balanced⟩ := deprived
    obtain ⟨after, whole, mended, linkedAfter, properAfter, sameAfter⟩ :=
      mend_spec vacancy.tree.rounds linkedVacancy fits (lacks_of_balanced balanced)
        (Or.inl linkedVacancy.length_lt_rounds)
    refine ⟨after, whole, node, ?_, valueEq, linkedAfter, properAfter, sameAfter.trans same⟩
    simp only [LinkedTree.delete, detached, lost, idEq, parentEq, mended, Checked.ok_bind]

end Deletion

end OrderedCollections.RedBlack
