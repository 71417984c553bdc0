/-
**No alarm is ever raised.**

Each repair goes through trees that are out of balance in one place and in one known way, and this is
enough for what it needs there: a red node below the root has a black parent above its red one, a place
that lacks a black node has a sibling with a black node on every way down, and of the two children that
it has to tell apart one is present, even where the place itself is vacant. So the code with alarms does
what the code without them does, whichever alarms are on.

* `replaceChild_quiet`, `rotate_quiet`, `transplant_quiet`: the changes to the links.
* `settle_quiet`: the repair after an insertion, by induction on its rounds.
* `mend_quiet`: the repair after a deletion, by induction on its rounds.
* `perform_quiet`: every operation on a sound map.
* `run_quiet`: the code with alarms is the code, and every operation on a map that a run leads to comes
  to its end and raises none.
-/

import OrderedCollections.Proofs.RedBlack.Alarms

namespace OrderedCollections.RedBlack

variable {κ ν : Type} {σ : Type → Type} [NodeStore σ] {tree : LinkedTree κ ν σ}
  {further : Multiset (NodeId × Node κ ν)} (alarms : Alarms)

/-! ### Turning and replacing subtrees -/

section Links

variable {path : Path (Item κ ν)} {side : Side} {color : Color} {item : Item κ ν}
  {near far : Tree (Item κ ν)} {root : Option NodeId} {rest : Multiset (NodeId × Node κ ν)}

theorem Holds.sideOf_quiet {parent nearId farId : Option NodeId}
    (holds : Holds tree root ({(item.id, nodeAt side item color parent nearId farId)} + rest))
    (different : farId ≠ nearId) :
    alarms.sideOf item.id nearId tree = tree.sideOf item.id nearId := by
  simp only [Alarms.sideOf, holds.node_eq, holds.sideOf_eq different, Checked.ok_bind, child_nodeAt,
    child_opposite_nodeAt, ne_eq, different, not_false_eq_true, and_self, if_true,
    Checked.pure_eq_ok]

theorem Linked.sideOf_quiet
    (linked : Linked tree (path.plug (.join side color near item far)) further)
    (present : near ≠ .leaf ∨ far ≠ .leaf) :
    alarms.sideOf item.id near.rootId? tree = tree.sideOf item.id near.rootId? := by
  have different := linked.rootId?_ne present
  rw [linked_plug, Tree.cells_join, add_assoc] at linked
  exact Holds.sideOf_quiet alarms linked different

theorem Holds.replaceChild_quiet {old : NodeId}
    (holds : Holds tree root (path.cells (some old) + rest))
    (different : ∀ frame ∈ path.head?, frame.sibling.rootId? ≠ some old) (new : Option NodeId) :
    alarms.replaceChild path.parentId? old new tree = tree.replaceChild path.parentId? old new := by
  cases path with
  | nil => rfl
  | cons frame above =>
    rw [Path.cells, add_assoc] at holds
    have quiet := holds.sideOf_quiet alarms (different frame rfl)
    simp only [Path.parentId?, Alarms.replaceChild, LinkedTree.replaceChild, quiet]

theorem Holds.transplant_quiet {old : NodeId} {node : Node κ ν}
    (holds : Holds tree root ({(old, node)} + (path.cells (some old) + rest)))
    (hangs : node.parent = path.parentId?) (new : Option NodeId) :
    alarms.transplant old new tree = tree.transplant old new := by
  have pathFirst := holds.perm (add_left_comm _ _ _)
  have quiet := pathFirst.replaceChild_quiet alarms holds.sibling_ne new
  simp only [Alarms.transplant, LinkedTree.transplant, holds.node_eq, Checked.ok_bind, hangs, quiet]

theorem Linked.transplant_quiet
    (linked : Linked tree (path.plug (.join side color near item far)) further)
    (new : Option NodeId) :
    alarms.transplant item.id new tree = tree.transplant item.id new := by
  rw [linked_plug, Tree.rootId?_join, Tree.cells_join] at linked
  have itemFirst : Holds tree (path.rootId? (some item.id))
      ({(item.id, nodeAt side item color path.parentId? near.rootId? far.rootId?)} +
        (path.cells (some item.id) +
          (near.cells (some item.id) + far.cells (some item.id) + further))) :=
    linked.perm (by ac_rfl)
  exact itemFirst.transplant_quiet alarms (parent_nodeAt ..) new

variable [LawfulNodeStore σ]

/-- **A rotation with a child to lift** raises no alarm. -/
theorem Linked.rotate_quiet
    (linked : Linked tree (path.plug (.join side color near item far)) further)
    (present : far ≠ .leaf) : alarms.rotate item.id side tree = tree.rotate item.id side := by
  obtain ⟨lower, inner, lifted, outer, rfl⟩ := (far.eq_leaf_or_join side).resolve_left present
  simp only [linked_plug, Tree.rootId?_join, Tree.cells_join] at linked
  have focused : Holds tree (path.rootId? (some item.id))
      ({(item.id, nodeAt side item color path.parentId? near.rootId? (some lifted.id))} +
        (inner.cells (some lifted.id) +
          ({(lifted.id, nodeAt side lifted lower (some item.id) inner.rootId? outer.rootId?)} +
            (path.cells (some item.id) +
              (near.cells (some item.id) + outer.cells (some lifted.id) + further))))) :=
    linked.perm (by ac_rfl)
  have liftedFirst : Holds tree (path.rootId? (some item.id))
      ({(lifted.id, nodeAt side lifted lower (some item.id) inner.rootId? outer.rootId?)} +
        ({(item.id, nodeAt side item color path.parentId? near.rootId? (some lifted.id))} +
          (inner.cells (some lifted.id) + (path.cells (some item.id) +
            (near.cells (some item.id) + outer.cells (some lifted.id) + further))))) :=
    focused.perm (by ac_rfl)
  obtain ⟨first, second, setInner, setInnerParent, holdsSecond⟩ := focused.hangInner_spec
  have atPivot : Holds second (path.rootId? (some item.id))
      ({(item.id, nodeAt side item color path.parentId? near.rootId? inner.rootId?)} +
        (path.cells (some item.id) +
          ({(lifted.id, nodeAt side lifted lower (some item.id) inner.rootId? outer.rootId?)} +
            (inner.cells (some item.id) +
              (near.cells (some item.id) + outer.cells (some lifted.id) + further))))) :=
    holdsSecond.perm (by ac_rfl)
  obtain ⟨third, setLiftedParent, holdsThird⟩ := atPivot.adopt_spec
  have quiet := holdsThird.replaceChild_quiet alarms atPivot.sibling_ne (some lifted.id)
  simp only [Alarms.rotate, LinkedTree.rotate, focused.child_eq, child_opposite_nodeAt,
    liftedFirst.child_eq, child_nodeAt, setInner, setInnerParent, atPivot.node_eq, parent_nodeAt,
    setLiftedParent, quiet, Checked.ok_bind]

end Links

/-! ### After an insertion -/

variable [LawfulNodeStore σ]

section Insertion

variable {above : Path (Item κ ν)} {side outward : Side} {subtree sibling uncle : Tree (Item κ ν)}
  {parent grandparent : Item κ ν} {id : NodeId} {height : Nat}

/-- The red node on the inner side is the child that its red parent lifts. -/
theorem straighten_quiet (side : Side)
    (linked : Linked tree (above.plug (.join outward .red subtree parent sibling)) further)
    (root : subtree.rootId? = some id) :
    alarms.straighten id parent.id side tree = tree.straighten id parent.id side := by
  have present : subtree ≠ .leaf := by
    rintro rfl
    cases root
  by_cases straight : outward = side
  · subst straight
    have elsewhere : ¬sibling.rootId? = some id := root ▸ linked.rootId?_ne (Or.inl present)
    simp only [Alarms.straighten, LinkedTree.straighten, linked.child_eq.2, Checked.ok_bind,
      if_neg elsewhere]
  · obtain rfl := Side.ne_iff_eq_opposite.mp straight
    have inward := linked.child_eq.1
    rw [root] at inward
    rw [Tree.join_opposite] at linked
    simp only [Alarms.straighten, LinkedTree.straighten, inward, Checked.ok_bind, if_true,
      linked.rotate_quiet alarms present]

/-- One round below a red uncle, with alarms and without. -/
theorem settle_redUncle_quiet
    (linked : Linked tree (above.plug (.join side .black (.join outward .red subtree parent sibling)
      grandparent uncle)) further)
    (root : subtree.rootId? = some id) (uncleRed : uncle.isRed = true) (rounds : Nat) :
    ∃ after : LinkedTree κ ν σ,
      alarms.settle (rounds + 1) id tree = alarms.settle rounds grandparent.id after ∧
      tree.settle (rounds + 1) id = after.settle rounds grandparent.id ∧
      Linked after (above.plug (.join side .red (.join outward .black subtree parent sibling)
        grandparent (uncle.paint .black))) further := by
  obtain ⟨⟨node, nodeEq, nodeParent⟩, parentEq, sideEq, uncleEq, isRed⟩ := settle_reads linked root
  have sideQuiet := linked.sideOf_quiet alarms (Or.inl (Tree.join_ne_leaf _ _ _ _ _))
  rw [Tree.rootId?_join, sideEq] at sideQuiet
  obtain ⟨first, second, after, paintedParent, paintedUncle, paintedGrandparent, linkedAfter⟩ :=
    recolor_spec linked (Tree.rootId?_join ..)
  rw [Tree.paint_join] at linkedAfter
  refine ⟨after, ?_, ?_, linkedAfter⟩
  · simp only [Alarms.settle, nodeEq, Checked.ok_bind, nodeParent, parentEq, color_nodeAt,
      parent_nodeAt, reduceCtorEq, if_false, sideQuiet, uncleEq, isRed, uncleRed, if_true,
      paintedParent, paintedUncle, paintedGrandparent]
  · simp only [(settle_round linked root rounds).1 uncleRed, paintedParent, paintedUncle,
      paintedGrandparent, Checked.ok_bind]

/-- One round below a black uncle: the parent, straightened, is the child of the grandparent that the
rotation lifts. -/
theorem settle_blackUncle_quiet
    (linked : Linked tree (above.plug (.join side .black (.join outward .red subtree parent sibling)
      grandparent uncle)) further)
    (root : subtree.rootId? = some id) (red : subtree.isRed = true)
    (balanced : subtree.Balanced height) (siblingBalanced : sibling.Balanced height)
    (siblingNotRed : sibling.isRed = false) (uncleBalanced : uncle.Balanced height)
    (uncleNotRed : uncle.isRed = false) (rounds : Nat) :
    ∃ after : LinkedTree κ ν σ, ∃ outer outerId upper lowered,
      alarms.settle (rounds + 1) id tree = alarms.settle rounds outerId after ∧
      tree.settle (rounds + 1) id = after.settle rounds outerId ∧
      Linked after (above.plug (.join side .black outer upper lowered)) further ∧
      outer.rootId? = some outerId ∧ outer.isRed = true ∧ outer.Balanced height ∧
      lowered.Balanced height := by
  obtain ⟨⟨node, nodeEq, nodeParent⟩, parentEq, sideEq, uncleEq, isRed⟩ := settle_reads linked root
  have sideQuiet := linked.sideOf_quiet alarms (Or.inl (Tree.join_ne_leaf _ _ _ _ _))
  rw [Tree.rootId?_join, sideEq] at sideQuiet
  have round := settle_round linked root rounds
  rw [Path.plug_join] at linked
  have straightQuiet := straighten_quiet alarms side linked root
  obtain ⟨straight, outer, outerId, upper, inner, straightened, linkedStraight, outerRoot, outerRed,
    outerBalanced, innerNotRed, innerBalanced, -⟩ :=
    straighten_spec linked root red balanced siblingBalanced siblingNotRed
  rw [← Path.plug_join] at linkedStraight
  obtain ⟨first, second, turned, paintedParent, paintedGrandparent, ready, rotated, linkedTurned⟩ :=
    turnOut_spec linkedStraight
  have turnQuiet := ready.rotate_quiet alarms (Tree.join_ne_leaf _ _ _ _ _)
  refine ⟨turned, outer, outerId, upper, _, ?_, ?_, linkedTurned, outerRoot, outerRed, outerBalanced,
    Tree.balanced_join_red.mpr ⟨⟨uncleNotRed, innerNotRed⟩, uncleBalanced, innerBalanced⟩⟩
  · simp only [Alarms.settle, nodeEq, Checked.ok_bind, nodeParent, parentEq, color_nodeAt,
      parent_nodeAt, reduceCtorEq, if_false, sideQuiet, uncleEq, isRed, uncleNotRed,
      Bool.false_eq_true, straightQuiet, straightened, paintedParent, paintedGrandparent, turnQuiet,
      rotated]
  · simp only [round.2 uncleNotRed straight outerId upper.id straightened, paintedParent,
      paintedGrandparent, rotated, Checked.ok_bind]

end Insertion

/-- **The repair after an insertion raises no alarm.** -/
theorem settle_quiet (rounds : Nat) {path : Path (Item κ ν)} {subtree : Tree (Item κ ν)}
    {id : NodeId} {height : Nat} (linked : Linked tree (path.plug subtree) further)
    (root : subtree.rootId? = some id) (red : subtree.isRed = true) (fits : path.Fits height)
    (balanced : subtree.Balanced height) : alarms.settle rounds id tree = tree.settle rounds id := by
  induction rounds generalizing tree path subtree id height with
  | zero => rfl
  | succ rounds ih =>
    match path with
    | [] =>
      obtain ⟨node, nodeEq, nodeParent⟩ := linked.parent_eq root
      simp only [Alarms.settle, LinkedTree.settle, nodeEq, Checked.ok_bind, nodeParent,
        Path.parentId?]
    | ⟨.black, side, parent, sibling⟩ :: above =>
      obtain ⟨node, nodeEq, nodeParent⟩ := linked.parent_eq root
      rw [← Path.plug_join] at linked
      simp only [Alarms.settle, LinkedTree.settle, nodeEq, Checked.ok_bind, nodeParent,
        Path.parentId?, linked.node_eq, color_nodeAt, if_true]
    | [⟨.red, side, parent, sibling⟩] => exact fits.2.2.1.elim
    | ⟨.red, outward, parent, sibling⟩ :: ⟨.red, side, grandparent, uncle⟩ :: above =>
      cases (fits.2.2.1 : Color.red = .black)
    | ⟨.red, outward, parent, sibling⟩ :: ⟨.black, side, grandparent, uncle⟩ :: above =>
      obtain ⟨siblingBalanced, siblingNotRed, -, uncleBalanced, fitsAbove⟩ := fits
      rw [← Path.plug_join, ← Path.plug_join] at linked
      by_cases uncleRed : uncle.isRed = true
      · obtain ⟨after, roundQuiet, round, linkedAfter⟩ :=
          settle_redUncle_quiet alarms linked root uncleRed rounds
        rw [roundQuiet, round]
        exact ih linkedAfter (Tree.rootId?_join ..) (by simp) fitsAbove
          (balanced_recolored balanced siblingBalanced uncleRed uncleBalanced)
      · obtain ⟨after, outer, outerId, upper, lowered, roundQuiet, round, linkedAfter, outerRoot,
          outerRed, outerBalanced, loweredBalanced⟩ :=
          settle_blackUncle_quiet alarms linked root red balanced siblingBalanced siblingNotRed
            uncleBalanced (Bool.eq_false_iff.mpr uncleRed) rounds
        rw [roundQuiet, round]
        rw [Path.plug_join] at linkedAfter
        exact ih linkedAfter outerRoot outerRed (Path.fits_black.mpr ⟨loweredBalanced, fitsAbove⟩)
          outerBalanced

/-! ### After a deletion -/

section Deletion

variable {above : Path (Item κ ν)} {side : Side} {color : Color} {parent middle : Item κ ν}
  {subtree sibling near far : Tree (Item κ ν)} {height : Nat}

/-- A red sibling is the child that the parent lifts. -/
theorem liftSibling_quiet
    (linked : Linked tree (above.plug (.join side color subtree parent sibling)) further) :
    alarms.liftSibling parent.id side tree = tree.liftSibling parent.id side := by
  have siblingEq := linked.child_eq.2
  have siblingRed : tree.isRed sibling.rootId? = .ok sibling.isRed := by
    rw [Path.plug_join_opposite] at linked
    exact linked.isRed_eq
  cases red : sibling.isRed with
  | true =>
    rw [← Tree.join_opposite] at linked
    obtain ⟨first, second, paintedSibling, paintedParent, linkedSecond⟩ :=
      repaint_spec linked .black .red
    rw [Tree.join_opposite] at linkedSecond
    have quiet := linkedSecond.rotate_quiet alarms
      (Tree.paint_ne_leaf .black (Tree.ne_leaf_of_isRed red))
    simp only [Alarms.liftSibling, LinkedTree.liftSibling, siblingEq, siblingRed, red, if_true,
      paintedSibling, paintedParent, quiet, Checked.ok_bind]
  | false =>
    simp only [Alarms.liftSibling, LinkedTree.liftSibling, siblingEq, siblingRed, red,
      Bool.false_eq_true, if_false, Checked.ok_bind]

/-- The red near child is the one that the sibling lifts. -/
theorem turnSibling_quiet
    (linked : Linked tree (above.plug (.join side color subtree parent
      (.join side .black near middle far))) further)
    (redChild : near.isRed = true ∨ far.isRed = true) :
    alarms.turnSibling parent.id middle.id side tree =
      tree.turnSibling parent.id middle.id side := by
  obtain ⟨⟨nearEq, farEq⟩, -, farRed⟩ := nephews_eq linked
  cases red : far.isRed with
  | true =>
    simp only [Alarms.turnSibling, LinkedTree.turnSibling, farEq, farRed, red, if_true,
      Checked.ok_bind]
  | false =>
    have nearRed : near.isRed = true := redChild.resolve_right (by rw [red]; exact Bool.false_ne_true)
    rw [Path.plug_join_opposite] at linked
    obtain ⟨first, second, paintedNear, paintedSibling, linkedSecond⟩ :=
      repaint_spec linked .black .red
    rw [← Tree.join_opposite] at linkedSecond
    have quiet := linkedSecond.rotate_quiet alarms
      (Tree.paint_ne_leaf .black (Tree.ne_leaf_of_isRed nearRed))
    simp only [Alarms.turnSibling, LinkedTree.turnSibling, farEq, farRed, red, Bool.false_eq_true,
      if_false, nearEq, paintedNear, paintedSibling, quiet, Checked.ok_bind]

/-- The sibling is the child that the parent lifts. -/
theorem makeUp_quiet
    (linked : Linked tree (above.plug (.join side color subtree parent
      (.join side .black near middle far))) further) :
    alarms.makeUp parent.id middle.id side tree = tree.makeUp parent.id middle.id side := by
  obtain ⟨first, second, third, paintedSibling, paintedParent, farEq, paintedFar, linkedThird⟩ :=
    makeUp_ready linked
  have quiet := linkedThird.rotate_quiet alarms (Tree.join_ne_leaf _ _ _ _ _)
  simp only [Alarms.makeUp, LinkedTree.makeUp, linked.node_eq, color_nodeAt, paintedSibling,
    paintedParent, farEq, paintedFar, quiet, Checked.ok_bind]

end Deletion

/-- **The repair after a deletion raises no alarm.** -/
theorem mend_quiet (rounds : Nat) {path : Path (Item κ ν)} {subtree : Tree (Item κ ν)} {height : Nat}
    (linked : Linked tree (path.plug subtree) further) (fits : path.Fits (height + 1))
    (lacks : Lacks subtree height) :
    alarms.mend rounds subtree.rootId? path.parentId? tree =
      tree.mend rounds subtree.rootId? path.parentId? := by
  induction rounds generalizing tree path subtree height with
  | zero => rfl
  | succ rounds ih =>
    rcases lacks with ⟨red, -⟩ | ⟨notRed, balanced⟩
    · simp only [Alarms.mend, LinkedTree.mend, linked.isRed_eq, red, if_true, Checked.ok_bind]
    · cases path with
      | nil =>
        have atRoot := linked.eq_root_iff.mpr rfl
        simp only [Alarms.mend, LinkedTree.mend, if_pos atRoot]
      | cons frame above =>
        obtain ⟨color, side, parent, sibling⟩ := frame
        have siblingPresent := Tree.ne_leaf_of_balanced (fits.1 : sibling.Balanced (height + 1))
        rw [← Path.plug_join] at linked
        obtain ⟨notRoot, subtreeRed, sideEq⟩ := mend_reads linked siblingPresent
        have sideQuiet := linked.sideOf_quiet alarms (Or.inr siblingPresent)
        have liftQuiet := liftSibling_quiet alarms linked
        obtain ⟨lifted, color', above', sibling', liftedEq, linkedLifted, fitsLifted,
          siblingNotRed, siblingBalanced, -, -⟩ := liftSibling_spec linked fits
        obtain ⟨near, middle, far, rfl, nearBalanced, farBalanced⟩ :=
          Tree.eq_join_black side siblingBalanced siblingNotRed
        rw [Tree.rootId?_join] at liftedEq
        obtain ⟨⟨nearEq, farEq⟩, nearRed, farRed⟩ := nephews_eq linkedLifted
        by_cases redChild : near.isRed = true ∨ far.isRed = true
        · have notBoth : ¬(!near.isRed && !far.isRed) = true := by
            rcases redChild with isRed | isRed <;> simp [isRed]
          have turnQuiet := turnSibling_quiet alarms linkedLifted redChild
          obtain ⟨turned, near', middle', far', turnedEq, linkedTurned, -⟩ :=
            turnSibling_spec linkedLifted nearBalanced farBalanced redChild
          have makeQuiet := makeUp_quiet alarms linkedTurned
          simp only [Alarms.mend, LinkedTree.mend, Path.parentId?, if_neg notRoot, subtreeRed, notRed,
            Bool.false_eq_true, if_false, sideQuiet, sideEq, liftQuiet, liftedEq, nearEq, farEq,
            nearRed, farRed, if_neg notBoth, turnQuiet, turnedEq, makeQuiet, Checked.ok_bind]
        · obtain ⟨nearIsRed, farIsRed⟩ := not_or.mp redChild
          have nearNotRed := Bool.eq_false_iff.mpr nearIsRed
          have farNotRed := Bool.eq_false_iff.mpr farIsRed
          obtain ⟨handed, height', painted, linkedHanded, fitsHanded, lacksHanded⟩ :=
            handOn_spec linkedLifted fitsLifted balanced nearBalanced farBalanced nearNotRed
              farNotRed
          have onward := ih linkedHanded fitsHanded lacksHanded
          rw [Tree.rootId?_join] at onward
          simp only [Alarms.mend, LinkedTree.mend, Path.parentId?, if_neg notRoot, subtreeRed, notRed,
            Bool.false_eq_true, if_false, sideQuiet, sideEq, liftQuiet, liftedEq, nearEq, farEq,
            nearRed, farRed, nearNotRed, farNotRed, Bool.not_false, Bool.and_self, if_true, painted,
            linkedHanded.node_eq, parent_nodeAt, Checked.ok_bind]
          exact onward

/-! ### Taking a node out of its place -/

section Detach

variable {path : Path (Item κ ν)} {color : Color} {item : Item κ ν} {left right : Tree (Item κ ν)}

/-- The next node in order comes out of its own place and into that of another one. -/
theorem promote_quiet {leftId rightId : NodeId}
    (linked : Linked tree (path.plug (.join .left color left item right)) further)
    (rightRoot : right.rootId? = some rightId) :
    alarms.promote item.id color leftId rightId tree = tree.promote item.id color leftId rightId := by
  have atRight := linked
  rw [Path.plug_join_opposite] at atRight
  obtain ⟨lower, lost, next, far, rfl, -, walked⟩ :=
    extreme_spec .left tree.rounds atRight rightRoot (Nat.le_of_lt atRight.size_lt_rounds)
  have atNext := atRight
  rw [← Path.plug_append] at atNext
  cases lower with
  | nil =>
    have takeQuiet := linked.transplant_quiet alarms (some next.id)
    simp only [Alarms.promote, LinkedTree.promote, walked, atNext.node_eq, List.nil_append,
      Path.parentId?, parent_nodeAt, if_true, takeQuiet, Checked.ok_bind, Checked.pure_eq_ok]
  | cons frame lower =>
    have nextEq := atNext.node_eq
    have elsewhere : ¬some frame.item.id = some item.id := by
      rw [List.cons_append, Path.plug_cons] at atNext
      have different := atNext.item_ne (List.mem_append_right lower List.mem_cons_self)
      exact fun same => different (Option.some.inj same).symm
    have stepQuiet := atNext.transplant_quiet alarms far.rootId?
    rw [Path.rootId?_plug, Tree.rootId?_join] at rightRoot
    obtain ⟨rest, rightEq⟩ : ∃ rest, Path.plug (frame :: lower) far = rest := ⟨_, rfl⟩
    have restRoot : rest.rootId? = some rightId := by
      rw [← rightEq, Path.rootId?_plug, ← rightRoot]
      rfl
    obtain ⟨hung, held, ready, steppedOut, setRight, setRightParent, holds⟩ :=
      stepOut_spec linked rightEq
    rw [restRoot] at setRight setRightParent
    have itemFirst : Holds ready (path.rootId? (some item.id))
        ({(item.id, nodeAt .left item color path.parentId? left.rootId? rest.rootId?)} +
          (path.cells (some item.id) +
            ({(next.id, nodeAt .left next lost (some frame.item.id) none rest.rootId?)} +
              (left.cells (some item.id) + (rest.cells (some next.id) + further))))) :=
      holds.perm (by ac_rfl)
    have takeQuiet := itemFirst.transplant_quiet alarms (parent_nodeAt ..) (some next.id)
    simp only [Alarms.promote, LinkedTree.promote, walked, nextEq, List.cons_append, Path.parentId?,
      parent_nodeAt, right_nodeAt, if_neg elsewhere, stepQuiet, steppedOut, setRight, setRightParent,
      takeQuiet, Checked.ok_bind, Checked.pure_eq_ok]

/-- A node gives up its place. -/
theorem detach_quiet
    (linked : Linked tree (path.plug (.join .left color left item right)) further) :
    alarms.detach item.id tree = tree.detach item.id := by
  have nodeEq := linked.node_eq
  have transplantQuiet := fun new => linked.transplant_quiet alarms new
  cases leftRoot : left.rootId? with
  | none =>
    simp only [Alarms.detach, LinkedTree.detach, nodeEq, left_nodeAt, right_nodeAt, leftRoot,
      transplantQuiet, Checked.ok_bind]
  | some leftId =>
    cases rightRoot : right.rootId? with
    | none =>
      simp only [Alarms.detach, LinkedTree.detach, nodeEq, left_nodeAt, right_nodeAt, leftRoot,
        rightRoot, transplantQuiet, Checked.ok_bind]
    | some rightId =>
      simp only [Alarms.detach, LinkedTree.detach, nodeEq, left_nodeAt, right_nodeAt, leftRoot,
        color_nodeAt, rightRoot, promote_quiet alarms linked rightRoot, Checked.ok_bind]

/-- **Deletion raises no alarm.** -/
theorem deleteNode_quiet
    (linked : Linked tree (path.plug (.join .left color left item right)) further)
    (proper : (path.plug (.join .left color left item right)).Proper) :
    alarms.deleteNode item.id tree = tree.delete item.id := by
  have detachQuiet := detach_quiet alarms linked
  obtain ⟨vacancy, vacated, subtree, detached, ⟨⟨node, -, linkedVacancy⟩, idEq, parentEq⟩,
    deprived, -⟩ := detach_spec linked proper
  cases lost : vacancy.color with
  | red =>
    simp only [Alarms.deleteNode, LinkedTree.delete, detachQuiet, detached, lost, Checked.ok_bind]
  | black =>
    rw [lost] at deprived
    obtain ⟨height, fits, balanced⟩ := deprived
    have mendQuiet :=
      mend_quiet alarms vacancy.tree.rounds linkedVacancy fits (lacks_of_balanced balanced)
    simp only [Alarms.deleteNode, LinkedTree.delete, detachQuiet, detached, lost, idEq, parentEq,
      mendQuiet, Checked.ok_bind]

end Detach

/-! ### Operations on a map -/

section Operations

variable {map : RedBlackMap κ ν σ} {place : Path (Item κ ν)}

/-- A new node in a vacant place. -/
theorem attach_quiet (sound : Sound map (place.plug .leaf)) {side : Side}
    (onSide : ∀ frame ∈ place.head?, frame.side = side) (key : κ) (value : ν) :
    alarms.attach place.parentId? side key value map =
      map.attach place.parentId? side key value := by
  obtain ⟨id, nodes, inserted⟩ : ∃ id nodes, NodeStore.insert
      (⟨key, value, .red, place.parentId?, none, none⟩ : Node κ ν) map.tree.nodes = (id, nodes) :=
    ⟨_, _, rfl⟩
  obtain ⟨hung, hangs, linked⟩ := hang_new_spec sound onSide inserted
  obtain ⟨fits, balanced⟩ := fits_of_vacant sound ⟨id, key, value⟩
  have settleQuiet :=
    settle_quiet alarms hung.rounds linked (Tree.rootId?_join ..) (by simp) fits balanced
  simp only [Alarms.attach, RedBlackMap.attach, inserted, hangs, settleQuiet, Checked.ok_bind]

variable {whole : Tree (Item κ ν)}

theorem put_quiet (sound : Sound map whole) (key : κ) (value : ν) :
    alarms.put key value map = map.put key value := by
  rcases sound.found_or_vacant key with ⟨place, color, left, item, right, rfl, -, found⟩ |
    ⟨place, side, rfl, -, onSide, vacant⟩
  · simp only [Alarms.put, RedBlackMap.put, found, Checked.ok_bind]
  · simp only [Alarms.put, RedBlackMap.put, vacant, Checked.ok_bind,
      attach_quiet alarms sound onSide]

theorem tryInsert_quiet (sound : Sound map whole) (key : κ) (value : ν) :
    alarms.tryInsert key value map = map.tryInsert key value := by
  rcases sound.found_or_vacant key with ⟨place, color, left, item, right, rfl, -, found⟩ |
    ⟨place, side, rfl, -, onSide, vacant⟩
  · simp only [Alarms.tryInsert, RedBlackMap.tryInsert, found, Checked.ok_bind]
  · simp only [Alarms.tryInsert, RedBlackMap.tryInsert, vacant, Checked.ok_bind,
      attach_quiet alarms sound onSide]

theorem remove_quiet (sound : Sound map whole) (key : κ) :
    alarms.remove key map = map.remove key := by
  rcases sound.found_or_vacant key with ⟨place, color, left, item, right, rfl, -, found⟩ |
    ⟨place, side, rfl, -, -, vacant⟩
  · simp only [Alarms.remove, RedBlackMap.remove, found, Alarms.delete, RedBlackMap.delete,
      Checked.ok_bind, deleteNode_quiet alarms sound.linked sound.proper]
  · simp only [Alarms.remove, RedBlackMap.remove, vacant, Checked.ok_bind]

/-- **No operation on a sound map raises an alarm.** -/
theorem perform_quiet (sound : Sound map whole) (operation : RedBlackMap.Operation κ ν) :
    alarms.perform map operation = map.perform operation := by
  cases operation with
  | put key value =>
    simp only [Alarms.perform, RedBlackMap.perform, put_quiet alarms sound]
  | tryInsert key value change =>
    exact Checked.bind_eq_bind (tryInsert_quiet alarms sound key value) fun _ => rfl
  | remove key =>
    simp only [Alarms.perform, RedBlackMap.perform, remove_quiet alarms sound]
  | update key value => rfl
  | modify key change => rfl
  | clear => rfl

end Operations

end OrderedCollections.RedBlack

namespace OrderedCollections.RedBlackMap

open RedBlack

/-- **No alarm is ever raised.** With all alarms off an operation is the operation itself, on every map
whatsoever. In every map that a run leads to, under every comparator, each operation comes to its end,
and it comes to the same end whichever alarms are on: no exit is taken on the way, and the repairs do
not run out of rounds. -/
theorem run_quiet {κ ν : Type} {σ : Type → Type} [NodeStore σ] [LawfulNodeStore σ] (capacity : Nat)
    (cmp : Comparator κ) (operations : List (Operation κ ν)) :
    (∀ (map : RedBlackMap κ ν σ) (operation : Operation κ ν),
      Alarms.off.perform map operation = map.perform operation) ∧
    ∃ map, (withCapacity capacity cmp : RedBlackMap κ ν σ).run operations = .ok map ∧
      ∀ operation, ∃ after, map.perform operation = .ok after ∧
        ∀ alarms : Alarms, alarms.perform map operation = .ok after := by
  obtain ⟨map, _, ran, keeps, -⟩ :=
    run_spec (keeps_withCapacity (σ := σ) capacity cmp) operations
  refine ⟨Alarms.perform_off, map, ran, fun operation => ?_⟩
  obtain ⟨after, _, performed, -, -⟩ := perform_spec keeps operation
  obtain ⟨-, whole, sound, -⟩ := keeps_iff.mp keeps
  exact ⟨after, performed, fun alarms => (perform_quiet alarms sound operation).trans performed⟩

/-- A black leaf is removed, so the place that lacks a black node is vacant, and a rotation makes up for
it; with all alarms on the removal comes to the same end. So does the insertion of a number where every
number is below every other. -/
theorem run_quiet_ascend :
    (∃ map after : RedBlackMap Nat Nat Slots,
      (withCapacity 0 Comparator.ascend : RedBlackMap Nat Nat Slots).run
          [.put 1 0, .put 2 0, .put 3 0, .put 4 0] = .ok map ∧
        map.perform (.remove 1) = .ok after ∧ Alarms.on.perform map (.remove 1) = .ok after ∧
        after.size = 3) ∧
    ∃ map after : RedBlackMap Nat Nat Slots,
      (withCapacity 0 (Comparator.constant .lt) : RedBlackMap Nat Nat Slots).run
          [.put 1 0, .put 2 0, .put 3 0] = .ok map ∧
        map.perform (.put 3 1) = .ok after ∧ Alarms.on.perform map (.put 3 1) = .ok after ∧
        after.size = 4 := by
  constructor
  · obtain ⟨-, map, ran, quiet⟩ := run_quiet (σ := Slots) 0 (Comparator.ascend : Comparator Nat)
      [.put 1 0, .put 2 0, .put 3 0, .put 4 (0 : Nat)]
    obtain ⟨after, performed, same⟩ := quiet (.remove 1)
    have counted : ((withCapacity 0 Comparator.ascend : RedBlackMap Nat Nat Slots).run
        [.put 1 0, .put 2 0, .put 3 0, .put 4 0] >>= fun map => map.perform (.remove 1)).map size =
          .ok 3 := by
      decide +kernel
    rw [ran, Checked.ok_bind, performed] at counted
    exact ⟨map, after, ran, performed, same .on, Except.ok.inj counted⟩
  · obtain ⟨-, map, ran, quiet⟩ := run_quiet (σ := Slots) 0 (Comparator.constant .lt : Comparator Nat)
      [.put 1 0, .put 2 0, .put 3 (0 : Nat)]
    obtain ⟨after, performed, same⟩ := quiet (.put 3 1)
    have counted : ((withCapacity 0 (Comparator.constant .lt) : RedBlackMap Nat Nat Slots).run
        [.put 1 0, .put 2 0, .put 3 0] >>= fun map => map.perform (.put 3 1)).map size = .ok 4 := by
      decide +kernel
    rw [ran, Checked.ok_bind, performed] at counted
    exact ⟨map, after, ran, performed, same .on, Except.ok.inj counted⟩

end OrderedCollections.RedBlackMap
