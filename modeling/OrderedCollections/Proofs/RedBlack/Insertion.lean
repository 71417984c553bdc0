/-
**Repair after an insertion.**

A new node hangs red below a node that may be red too. Nothing else is out of balance, and nothing
else is on any of the subtrees that the repair takes upwards: the red node is the root of a balanced
subtree, and the path above it fits the height of that subtree.

* `settle_of_takesRed`: where the parent is black or missing, the repair only paints the root.
* `settle_reads`: what a round reads before it changes anything.
* `settle_of_redUncle`, `settle_of_blackUncle`: one round with a red parent.
* `settle_spec`: the repair makes the whole tree proper and keeps the order of its items.
-/

import OrderedCollections.Proofs.RedBlack.Rotation
import OrderedCollections.RedBlack.Repair

namespace OrderedCollections.RedBlack

variable {κ ν : Type} {σ : Type → Type} [NodeStore σ] [LawfulNodeStore σ]
  {tree : LinkedTree κ ν σ} {further : Multiset (NodeId × Node κ ν)}

/-- Where the path takes a red subtree, or there is none, the repair ends with a black root. -/
theorem settle_of_takesRed {path : Path (Item κ ν)} {subtree : Tree (Item κ ν)} {id : NodeId}
    {height : Nat} (linked : Linked tree (path.plug subtree) further)
    (root : subtree.rootId? = some id) (red : subtree.isRed = true) (fits : path.Fits height)
    (balanced : subtree.Balanced height) (takes : path = [] ∨ path.TakesRed) (rounds : Nat) :
    Repaired (tree.settle (rounds + 1) id) (path.plug subtree) further := by
  obtain ⟨after, painted, linkedAfter⟩ := paintRoot_spec linked .black
  obtain ⟨node, nodeEq, nodeParent⟩ := linked.parent_eq root
  refine ⟨after, _, ?_, linkedAfter, ?_, Tree.toList_paint _ _⟩
  · simp only [LinkedTree.settle, nodeEq, Checked.ok_bind, nodeParent]
    cases path with
    | nil => exact painted
    | cons frame above =>
      obtain ⟨color, side, parent, sibling⟩ := frame
      have black : color = .black := by
        rcases takes with none | takes
        · cases none
        · exact takes
      subst black
      rw [← Path.plug_join] at linked
      simp only [Path.parentId?, linked.node_eq, Checked.ok_bind, color_nodeAt, if_true, painted]
  · rcases takes with rfl | takes
    · exact ⟨Tree.isRed_paint_black _, height + 1, Tree.balanced_paint_black red balanced⟩
    · have proper := proper_plug_of_takesRed takes fits balanced
      rw [Tree.paint_black_of_not_red proper.notRed]
      exact proper

/-- **A red node on the inner side is turned outwards**; one on the outer side stays there. -/
theorem straighten_spec {above : Path (Item κ ν)} {side outward : Side}
    {subtree sibling : Tree (Item κ ν)} {id : NodeId} {item : Item κ ν} {height : Nat}
    (linked : Linked tree (above.plug (.join outward .red subtree item sibling)) further)
    (root : subtree.rootId? = some id) (red : subtree.isRed = true)
    (balanced : subtree.Balanced height) (siblingBalanced : sibling.Balanced height)
    (siblingNotRed : sibling.isRed = false) :
    ∃ after outer outerId upper inner, tree.straighten id item.id side =
        .ok (after, outerId, upper.id) ∧
      Linked after (above.plug (.join side .red outer upper inner)) further ∧
      outer.rootId? = some outerId ∧ outer.isRed = true ∧ outer.Balanced height ∧
      inner.isRed = false ∧ inner.Balanced height ∧
      (Tree.join side .red outer upper inner).toList =
        (Tree.join outward .red subtree item sibling).toList := by
  by_cases straight : outward = side
  · subst straight
    have present : subtree ≠ .leaf := by
      rintro rfl
      cases red
    have elsewhere : ¬sibling.rootId? = some id := root ▸ linked.rootId?_ne (Or.inl present)
    refine ⟨tree, subtree, id, item, sibling, ?_, linked, root, red, balanced, siblingNotRed,
      siblingBalanced, rfl⟩
    simp only [LinkedTree.straighten, linked.child_eq.2, Checked.ok_bind, if_neg elsewhere,
      Checked.pure_eq_ok]
  · obtain rfl := Side.ne_iff_eq_opposite.mp straight
    obtain ⟨near, lifted, far, rfl⟩ := Tree.eq_join_of_isRed side red
    rw [Tree.rootId?_join, Option.some.injEq] at root
    subst root
    obtain ⟨⟨nearNotRed, farNotRed⟩, nearBalanced, farBalanced⟩ :=
      Tree.balanced_join_red.mp balanced
    have inward := linked.child_eq.1
    rw [Tree.rootId?_join] at inward
    rw [Tree.join_opposite] at linked
    obtain ⟨after, rotated, linkedAfter⟩ := rotate_spec linked
    refine ⟨after, .join side .red sibling item near, item.id, lifted, far, ?_, linkedAfter,
      Tree.rootId?_join .., by simp, ?_, farNotRed, farBalanced, ?_⟩
    · simp only [LinkedTree.straighten, inward, Checked.ok_bind, if_true, rotated,
        Checked.pure_eq_ok]
    · exact Tree.balanced_join_red.mpr ⟨⟨siblingNotRed, nearNotRed⟩, siblingBalanced, nearBalanced⟩
    · rw [Tree.join_opposite]
      exact Tree.toList_rotate ..

/-- Where both children of a node are red, the colours of the three are exchanged. -/
theorem recolor_spec {above : Path (Item κ ν)} {side : Side} {color : Color}
    {parentTree uncle : Tree (Item κ ν)} {grandparent : Item κ ν} {parent : NodeId}
    (linked : Linked tree (above.plug (.join side color parentTree grandparent uncle)) further)
    (root : parentTree.rootId? = some parent) :
    ∃ first second after, tree.paint (some parent) .black = .ok first ∧
      first.paint uncle.rootId? .black = .ok second ∧
      second.paint (some grandparent.id) .red = .ok after ∧
      Linked after (above.plug
        (.join side .red (parentTree.paint .black) grandparent (uncle.paint .black))) further := by
  rw [Path.plug_join] at linked
  obtain ⟨first, paintedParent, linkedFirst⟩ := paintAt_spec linked .black
  rw [root] at paintedParent
  rw [← Path.plug_join, Path.plug_join_opposite] at linkedFirst
  obtain ⟨second, paintedUncle, linkedSecond⟩ := paintAt_spec linkedFirst .black
  rw [← Path.plug_join_opposite] at linkedSecond
  obtain ⟨after, paintedGrandparent, linkedAfter⟩ := paintAt_spec linkedSecond .red
  rw [Tree.rootId?_join] at paintedGrandparent
  rw [Tree.paint_join] at linkedAfter
  exact ⟨first, second, after, paintedParent, paintedUncle, paintedGrandparent, linkedAfter⟩

/-- The rotation that ends a repair: the parent, which turns black, takes the place of the grandparent,
which turns red. -/
theorem turnOut_spec {above : Path (Item κ ν)} {side : Side} {color : Color}
    {outer inner uncle : Tree (Item κ ν)} {upper grandparent : Item κ ν}
    (linked : Linked tree (above.plug
      (.join side color (.join side .red outer upper inner) grandparent uncle)) further) :
    ∃ first second after, tree.paint (some upper.id) .black = .ok first ∧
      first.paint (some grandparent.id) .red = .ok second ∧
      Linked second (above.plug (.join side.opposite .red uncle grandparent
        (.join side.opposite .black inner upper outer))) further ∧
      second.rotate grandparent.id side.opposite = .ok after ∧
      Linked after (above.plug (.join side .black outer upper
        (.join side.opposite .red uncle grandparent inner))) further := by
  obtain ⟨first, second, paintedParent, paintedGrandparent, linkedSecond⟩ :=
    repaint_spec linked .black .red
  rw [Tree.rootId?_join] at paintedParent
  rw [Tree.paint_join, ← Tree.join_opposite side .red, ← Tree.join_opposite side .black]
    at linkedSecond
  obtain ⟨after, rotated, linkedAfter⟩ := rotate_spec linkedSecond
  rw [Tree.join_opposite] at linkedAfter
  exact ⟨first, second, after, paintedParent, paintedGrandparent, linkedSecond, rotated, linkedAfter⟩

section Round

variable {above : Path (Item κ ν)} {side outward : Side} {subtree sibling uncle : Tree (Item κ ν)}
  {parent grandparent : Item κ ν} {id : NodeId} {height : Nat}

omit [LawfulNodeStore σ] in
/-- What the repair reads below a red parent. -/
theorem settle_reads {color : Color}
    (linked : Linked tree (above.plug (.join side color (.join outward .red subtree parent sibling)
      grandparent uncle)) further)
    (root : subtree.rootId? = some id) :
    (∃ node, tree.node id = .ok node ∧ node.parent = some parent.id) ∧
      tree.node parent.id = .ok (nodeAt outward parent .red (some grandparent.id) subtree.rootId?
        sibling.rootId?) ∧
      tree.sideOf grandparent.id (some parent.id) = .ok side ∧
      tree.child grandparent.id side.opposite = .ok uncle.rootId? ∧
      tree.isRed uncle.rootId? = .ok uncle.isRed := by
  have present : Tree.join outward .red subtree parent sibling ≠ .leaf ∨ uncle ≠ .leaf :=
    Or.inl (Tree.join_ne_leaf _ _ _ _ _)
  have sideEq := linked.sideOf_eq present
  rw [Tree.rootId?_join] at sideEq
  have uncleEq := linked.child_eq.2
  rw [Path.plug_join_opposite] at linked
  have uncleRed := linked.isRed_eq
  rw [← Path.plug_join_opposite, Path.plug_join] at linked
  have parentEq := linked.node_eq
  rw [Path.plug_join] at linked
  exact ⟨linked.parent_eq root, parentEq, sideEq, uncleEq, uncleRed⟩

omit [LawfulNodeStore σ] in
/-- One round of the repair below a red parent and a black grandparent. -/
theorem settle_round
    (linked : Linked tree (above.plug (.join side .black (.join outward .red subtree parent sibling)
      grandparent uncle)) further)
    (root : subtree.rootId? = some id) (rounds : Nat) :
    (uncle.isRed = true → tree.settle (rounds + 1) id = do
      let tree ← tree.paint (some parent.id) .black
      let tree ← tree.paint uncle.rootId? .black
      let tree ← tree.paint (some grandparent.id) .red
      tree.settle rounds grandparent.id) ∧
    (uncle.isRed = false → ∀ straight outerId upperId,
      tree.straighten id parent.id side = .ok (straight, outerId, upperId) →
      tree.settle (rounds + 1) id = do
        let tree ← straight.paint (some upperId) .black
        let tree ← tree.paint (some grandparent.id) .red
        let tree ← tree.rotate grandparent.id side.opposite
        tree.settle rounds outerId) := by
  obtain ⟨⟨node, nodeEq, nodeParent⟩, parentEq, sideEq, uncleEq, uncleRed⟩ := settle_reads linked root
  constructor
  · intro red
    simp only [LinkedTree.settle, nodeEq, Checked.ok_bind, nodeParent, parentEq, color_nodeAt,
      parent_nodeAt, reduceCtorEq, if_false, sideEq, uncleEq, uncleRed, red, if_true]
  · intro notRed straight outerId upperId straightened
    simp only [LinkedTree.settle, nodeEq, Checked.ok_bind, nodeParent, parentEq, color_nodeAt,
      parent_nodeAt, reduceCtorEq, if_false, sideEq, uncleEq, uncleRed, notRed,
      Bool.false_eq_true, straightened]

/-- **Below a red uncle** the red of the grandparent is all that is left to repair. -/
theorem settle_of_redUncle
    (linked : Linked tree (above.plug (.join side .black (.join outward .red subtree parent sibling)
      grandparent uncle)) further)
    (root : subtree.rootId? = some id) (uncleRed : uncle.isRed = true) (rounds : Nat) :
    ∃ after, tree.settle (rounds + 1) id = after.settle rounds grandparent.id ∧
      Linked after (above.plug (.join side .red (.join outward .black subtree parent sibling)
        grandparent (uncle.paint .black))) further := by
  obtain ⟨first, second, after, paintedParent, paintedUncle, paintedGrandparent, linkedAfter⟩ :=
    recolor_spec linked (Tree.rootId?_join ..)
  rw [Tree.paint_join] at linkedAfter
  refine ⟨after, ?_, linkedAfter⟩
  simp only [(settle_round linked root rounds).1 uncleRed, paintedParent, paintedUncle,
    paintedGrandparent, Checked.ok_bind]

omit [NodeStore σ] [LawfulNodeStore σ] in
/-- The exchange of colours leaves a balanced subtree with a red root. -/
theorem balanced_recolored (balanced : subtree.Balanced height)
    (siblingBalanced : sibling.Balanced height) (uncleRed : uncle.isRed = true)
    (uncleBalanced : uncle.Balanced height) :
    (Tree.join side .red (.join outward .black subtree parent sibling) grandparent
      (uncle.paint .black)).Balanced (height + 1) :=
  Tree.balanced_join_red.mpr ⟨⟨by simp, Tree.isRed_paint_black uncle⟩,
    Tree.balanced_join_black_succ.mpr ⟨balanced, siblingBalanced⟩,
    Tree.balanced_paint_black uncleRed uncleBalanced⟩

/-- **Below a black uncle** a rotation leaves nothing to repair. -/
theorem settle_of_blackUncle
    (linked : Linked tree (above.plug (.join side .black (.join outward .red subtree parent sibling)
      grandparent uncle)) further)
    (root : subtree.rootId? = some id) (red : subtree.isRed = true)
    (balanced : subtree.Balanced height) (siblingBalanced : sibling.Balanced height)
    (siblingNotRed : sibling.isRed = false) (uncleBalanced : uncle.Balanced height)
    (uncleNotRed : uncle.isRed = false) (fits : above.Fits (height + 1)) (rounds : Nat) :
    Repaired (tree.settle (rounds + 2) id) (above.plug (.join side .black
      (.join outward .red subtree parent sibling) grandparent uncle)) further := by
  have round := settle_round linked root (rounds + 1)
  rw [Path.plug_join] at linked
  obtain ⟨straight, outer, outerId, upper, inner, straightened, linkedStraight, outerRoot, outerRed,
    outerBalanced, innerNotRed, innerBalanced, sameStraight⟩ :=
    straighten_spec linked root red balanced siblingBalanced siblingNotRed
  rw [← Path.plug_join] at linkedStraight
  obtain ⟨first, second, turned, paintedParent, paintedGrandparent, -, rotated, linkedTurned⟩ :=
    turnOut_spec linkedStraight
  have loweredBalanced : (Tree.join side.opposite .red uncle grandparent inner).Balanced height :=
    Tree.balanced_join_red.mpr ⟨⟨uncleNotRed, innerNotRed⟩, uncleBalanced, innerBalanced⟩
  rw [Path.plug_join] at linkedTurned
  obtain ⟨after, whole, done, linkedAfter, proper, same⟩ :=
    settle_of_takesRed linkedTurned outerRoot outerRed
      (Path.fits_black.mpr ⟨loweredBalanced, fits⟩) outerBalanced (Or.inr rfl) rounds
  refine ⟨after, whole, ?_, linkedAfter, proper, ?_⟩
  · simp only [round.2 uncleNotRed straight outerId upper.id straightened, paintedParent,
      paintedGrandparent, rotated, Checked.ok_bind, done]
  · rw [same, ← Path.plug_join, Tree.join_opposite]
    refine Path.toList_plug_congr above ?_
    calc (Tree.join side .black outer upper (.join side .red inner grandparent uncle)).toList
        = (Tree.join side .black (.join side .red outer upper inner) grandparent uncle).toList :=
          (Tree.toList_rotate ..).symm
      _ = _ := Tree.toList_join_congr side _ _ grandparent sameStraight rfl

end Round

/-- **The repair after an insertion.** Above a red node it makes the whole tree proper. -/
theorem settle_spec (rounds : Nat) {path : Path (Item κ ν)} {subtree : Tree (Item κ ν)}
    {id : NodeId} {height : Nat} (linked : Linked tree (path.plug subtree) further)
    (root : subtree.rootId? = some id) (red : subtree.isRed = true) (fits : path.Fits height)
    (balanced : subtree.Balanced height) (enough : path.length < rounds) :
    Repaired (tree.settle rounds id) (path.plug subtree) further := by
  induction rounds generalizing tree path subtree id height with
  | zero => omega
  | succ rounds ih =>
    match path with
    | [] => exact settle_of_takesRed linked root red fits balanced (Or.inl rfl) rounds
    | ⟨.black, side, parent, sibling⟩ :: above =>
      exact settle_of_takesRed linked root red fits balanced (Or.inr rfl) rounds
    | [⟨.red, side, parent, sibling⟩] => exact fits.2.2.1.elim
    | ⟨.red, outward, parent, sibling⟩ :: ⟨.red, side, grandparent, uncle⟩ :: above =>
      cases (fits.2.2.1 : Color.red = .black)
    | ⟨.red, outward, parent, sibling⟩ :: ⟨.black, side, grandparent, uncle⟩ :: above =>
      obtain ⟨siblingBalanced, siblingNotRed, -, uncleBalanced, fitsAbove⟩ := fits
      rw [List.length_cons, List.length_cons] at enough
      rw [← Path.plug_join, ← Path.plug_join] at linked ⊢
      by_cases uncleRed : uncle.isRed = true
      · obtain ⟨after, round, linkedAfter⟩ := settle_of_redUncle linked root uncleRed rounds
        obtain ⟨settled, whole, done, linkedSettled, proper, same⟩ :=
          ih linkedAfter (Tree.rootId?_join ..) (by simp) fitsAbove
            (balanced_recolored balanced siblingBalanced uncleRed uncleBalanced) (by omega)
        refine ⟨settled, whole, round.trans done, linkedSettled, proper, ?_⟩
        rw [same]
        exact Path.toList_plug_congr above (Tree.toList_join_congr side _ _ grandparent
          (Tree.toList_join_congr outward _ _ parent rfl rfl) (Tree.toList_paint ..))
      · obtain ⟨further, rfl⟩ : ∃ further, rounds = further + 1 := ⟨rounds - 1, by omega⟩
        exact settle_of_blackUncle linked root red balanced siblingBalanced siblingNotRed
          uncleBalanced (Bool.eq_false_iff.mpr uncleRed) fitsAbove further

end OrderedCollections.RedBlack
