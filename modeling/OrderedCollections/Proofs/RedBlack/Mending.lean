/-
**Repair after a deletion.**

Where a black node went away, a place lacks one black node on every way down: the path above it fits
trees that are one higher than the subtree in the place. A red root of that subtree makes up for the
shortage when it is painted black. Otherwise the sibling has a black node on every way down, and
depending on its children either a rotation makes up for the shortage or the shortage is handed on to
the place of the parent.

* `Lacks`: a subtree that lacks one black node on every way down.
* `mend_reads`, `nephews_eq`: what a round reads at a place and at the children of its sibling.
* `liftSibling_spec`: after it the sibling is black.
* `handOn_spec`: a sibling without red children turns red.
* `turnSibling_spec`: after it the far child of the sibling is red.
* `mend_spec`: the repair makes the whole tree proper and keeps the order of its items.
-/

import OrderedCollections.Proofs.RedBlack.Rotation
import OrderedCollections.RedBlack.Repair

namespace OrderedCollections.RedBlack

variable {κ ν : Type} {σ : Type → Type} [NodeStore σ]
  {tree : LinkedTree κ ν σ} {further : Multiset (NodeId × Node κ ν)}
  {above : Path (Item κ ν)} {side : Side} {color : Color} {parent : Item κ ν}
  {subtree sibling : Tree (Item κ ν)} {height : Nat}

/-- **A subtree lacks one black node** on every way down: painted black if its root is red, it would
have passed `height + 1` of them, and otherwise it passes `height`. -/
def Lacks (subtree : Tree (Item κ ν)) (height : Nat) : Prop :=
  (subtree.isRed = true ∧ (subtree.paint .black).Balanced (height + 1)) ∨
    (subtree.isRed = false ∧ subtree.Balanced height)

theorem lacks_of_balanced (balanced : subtree.Balanced height) : Lacks subtree height := by
  by_cases red : subtree.isRed = true
  · exact Or.inl ⟨red, Tree.balanced_paint_black red balanced⟩
  · exact Or.inr ⟨Bool.eq_false_iff.mpr red, balanced⟩

/-- Two trees that are not red, one black node higher than the place, make up for the shortage. -/
theorem proper_of_two {near far : Tree (Item κ ν)} {item : Item κ ν}
    (fits : Path.Fits (⟨color, side, parent, sibling⟩ :: above) (height + 1))
    (nearBalanced : near.Balanced (height + 1)) (farBalanced : far.Balanced (height + 1))
    (nearNotRed : near.isRed = false) (farNotRed : far.isRed = false) :
    (above.plug (.join side color near item far)).Proper := by
  rw [Path.plug_join]
  refine proper_plug_iff.mpr ⟨height + 1, fits.withSibling farBalanced farNotRed, nearBalanced, ?_⟩
  intro red
  rw [nearNotRed] at red
  cases red

/-! ### What the repair reads -/

/-- What the repair reads at a place that is not the root. -/
theorem mend_reads
    (linked : Linked tree (above.plug (.join side color subtree parent sibling)) further)
    (siblingPresent : sibling ≠ .leaf) :
    ¬subtree.rootId? = tree.root ∧ tree.isRed subtree.rootId? = .ok subtree.isRed ∧
      tree.sideOf parent.id subtree.rootId? = .ok side := by
  have sideEq := linked.sideOf_eq (Or.inr siblingPresent)
  rw [Path.plug_join] at linked
  exact ⟨fun same => List.cons_ne_nil _ _ (linked.eq_root_iff.mp same), linked.isRed_eq, sideEq⟩

/-- What the repair reads at the children of the sibling. -/
theorem nephews_eq {near far : Tree (Item κ ν)} {middle : Item κ ν} {siblingColor : Color}
    (linked : Linked tree (above.plug (.join side color subtree parent
      (.join side siblingColor near middle far))) further) :
    (tree.child middle.id side = .ok near.rootId? ∧
      tree.child middle.id side.opposite = .ok far.rootId?) ∧
    tree.isRed near.rootId? = .ok near.isRed ∧ tree.isRed far.rootId? = .ok far.isRed := by
  rw [Path.plug_join_opposite] at linked
  refine ⟨linked.child_eq, ?_, ?_⟩
  · rw [Path.plug_join] at linked
    exact linked.isRed_eq
  · rw [Path.plug_join_opposite] at linked
    exact linked.isRed_eq

/-! ### The steps of the repair -/

section Steps

variable [LawfulNodeStore σ]

/-- Where the place is the root or its subtree has a red root, painting ends the repair. -/
theorem repaired_of_paint {path : Path (Item κ ν)}
    (linked : Linked tree (path.plug subtree) further) (fits : path.Fits (height + 1))
    (lacks : Lacks subtree height) (ends : path = [] ∨ subtree.isRed = true) :
    Repaired (tree.paint subtree.rootId? .black) (path.plug subtree) further := by
  obtain ⟨after, painted, linkedAfter⟩ := paintAt_spec linked .black
  refine ⟨after, _, painted, linkedAfter, proper_plug_iff.mpr ?_,
    path.toList_plug_congr (Tree.toList_paint ..)⟩
  have notRed : ∀ {goal : Prop}, (subtree.paint .black).isRed = true → goal := by
    intro goal red
    rw [Tree.isRed_paint_black] at red
    cases red
  rcases lacks with ⟨-, balanced⟩ | ⟨black, balanced⟩
  · exact ⟨height + 1, fits, balanced, notRed⟩
  · rcases ends with rfl | red
    · refine ⟨height, trivial, ?_, notRed⟩
      rw [Tree.paint_black_of_not_red black]
      exact balanced
    · rw [black] at red
      cases red

/-- **A red sibling is lifted** above the parent, and the sibling of the place is black then. -/
theorem liftSibling_spec
    (linked : Linked tree (above.plug (.join side color subtree parent sibling)) further)
    (fits : Path.Fits (⟨color, side, parent, sibling⟩ :: above) (height + 1)) :
    ∃ after color' above' sibling',
      tree.liftSibling parent.id side = .ok (after, sibling'.rootId?) ∧
      Linked after (Path.plug above' (.join side color' subtree parent sibling')) further ∧
      Path.Fits (⟨color', side, parent, sibling'⟩ :: above') (height + 1) ∧
      sibling'.isRed = false ∧ sibling'.Balanced (height + 1) ∧
      (color' = .red ∨ above' = above) ∧
      (Path.plug above' (.join side color' subtree parent sibling')).toList =
        (above.plug (.join side color subtree parent sibling)).toList := by
  have siblingEq := linked.child_eq.2
  have siblingRed : tree.isRed sibling.rootId? = .ok sibling.isRed := by
    rw [Path.plug_join_opposite] at linked
    exact linked.isRed_eq
  by_cases red : sibling.isRed = true
  · obtain ⟨near, lifted, far, rfl⟩ := Tree.eq_join_of_isRed side red
    cases color with
    | red =>
      rw [(Path.fits_red.mp fits).2.1] at red
      cases red
    | black =>
      obtain ⟨balanced, fitsAbove⟩ := Path.fits_black.mp fits
      obtain ⟨⟨nearNotRed, farNotRed⟩, nearBalanced, farBalanced⟩ :=
        Tree.balanced_join_red.mp balanced
      rw [← Tree.join_opposite] at linked
      obtain ⟨first, second, paintedSibling, paintedParent, linkedSecond⟩ :=
        repaint_spec linked .black .red
      rw [Tree.paint_join, Tree.join_opposite] at linkedSecond
      obtain ⟨after, rotated, linkedAfter⟩ := rotate_spec linkedSecond
      rw [Path.plug_join] at linkedAfter
      refine ⟨after, .red, ⟨.black, side, lifted, far⟩ :: above, near, ?_, linkedAfter,
        Path.fits_red.mpr ⟨nearBalanced, nearNotRed, rfl,
          Path.fits_black.mpr ⟨farBalanced, fitsAbove⟩⟩,
        nearNotRed, nearBalanced, Or.inl rfl, ?_⟩
      · simp only [LinkedTree.liftSibling, siblingEq, siblingRed, red, if_true, paintedSibling,
          paintedParent, rotated, linkedAfter.child_eq.2, Checked.ok_bind, Checked.pure_eq_ok]
      · rw [← Path.plug_join]
        exact above.toList_plug_congr (Tree.toList_rotate ..)
  · have notRed := Bool.eq_false_iff.mpr red
    have balanced : sibling.Balanced (height + 1) := fits.1
    refine ⟨tree, color, above, sibling, ?_, linked, fits, notRed, balanced, Or.inr rfl, rfl⟩
    simp only [LinkedTree.liftSibling, siblingEq, siblingRed, notRed, Bool.false_eq_true, if_false,
      Checked.ok_bind, Checked.pure_eq_ok]

/-- **A sibling without red children** turns red, and the subtree of the parent lacks a black node
as a whole. -/
theorem handOn_spec {near far : Tree (Item κ ν)} {middle : Item κ ν}
    (linked : Linked tree (above.plug (.join side color subtree parent
      (.join side .black near middle far))) further)
    (fits : Path.Fits (⟨color, side, parent, sibling⟩ :: above) (height + 1))
    (balanced : subtree.Balanced height)
    (nearBalanced : near.Balanced height) (farBalanced : far.Balanced height)
    (nearNotRed : near.isRed = false) (farNotRed : far.isRed = false) :
    ∃ after height', tree.paint (some middle.id) .red = .ok after ∧
      Linked after (above.plug (.join side color subtree parent
        (.join side .red near middle far))) further ∧
      above.Fits (height' + 1) ∧
      Lacks (.join side color subtree parent (.join side .red near middle far)) height' := by
  rw [Path.plug_join_opposite] at linked
  obtain ⟨after, painted, linkedAfter⟩ := paintAt_spec linked .red
  rw [Tree.rootId?_join] at painted
  rw [Tree.paint_join, ← Path.plug_join_opposite] at linkedAfter
  have redBalanced : (Tree.join side .red near middle far).Balanced height :=
    Tree.balanced_join_red.mpr ⟨⟨nearNotRed, farNotRed⟩, nearBalanced, farBalanced⟩
  have blackened : (Tree.join side .black subtree parent
      (.join side .red near middle far)).Balanced (height + 1) :=
    Tree.balanced_join_black_succ.mpr ⟨balanced, redBalanced⟩
  cases color with
  | red =>
    refine ⟨after, height, painted, linkedAfter, (Path.fits_red.mp fits).2.2.2,
      Or.inl ⟨by simp, ?_⟩⟩
    rw [Tree.paint_join]
    exact blackened
  | black =>
    exact ⟨after, height + 1, painted, linkedAfter, (Path.fits_black.mp fits).2,
      Or.inr ⟨by simp, blackened⟩⟩

/-- **A sibling with a red child** is turned so that its far child is red. -/
theorem turnSibling_spec {near far : Tree (Item κ ν)} {middle : Item κ ν}
    (linked : Linked tree (above.plug (.join side color subtree parent
      (.join side .black near middle far))) further)
    (nearBalanced : near.Balanced height) (farBalanced : far.Balanced height)
    (red : near.isRed = true ∨ far.isRed = true) :
    ∃ after near' middle' far',
      tree.turnSibling parent.id middle.id side = .ok (after, some middle'.id) ∧
      Linked after (above.plug (.join side color subtree parent
        (.join side .black near' middle' far'))) further ∧
      near'.Balanced height ∧ far'.Balanced height ∧ far'.isRed = true ∧
      (Tree.join side .black near' middle' far').toList =
        (Tree.join side .black near middle far).toList := by
  obtain ⟨⟨nearEq, farEq⟩, -, farRed⟩ := nephews_eq linked
  rw [Path.plug_join_opposite] at linked
  by_cases straight : far.isRed = true
  · rw [← Path.plug_join_opposite] at linked
    refine ⟨tree, near, middle, far, ?_, linked, nearBalanced, farBalanced, straight, rfl⟩
    simp only [LinkedTree.turnSibling, farEq, farRed, straight, if_true, Checked.ok_bind,
      Checked.pure_eq_ok]
  · have farNotRed := Bool.eq_false_iff.mpr straight
    have nearRed : near.isRed = true := red.resolve_right straight
    obtain ⟨inner, lifted, outer, rfl⟩ := Tree.eq_join_of_isRed side nearRed
    obtain ⟨⟨innerNotRed, outerNotRed⟩, innerBalanced, outerBalanced⟩ :=
      Tree.balanced_join_red.mp nearBalanced
    obtain ⟨first, second, paintedNear, paintedSibling, linkedSecond⟩ :=
      repaint_spec linked .black .red
    rw [Tree.paint_join, ← Tree.join_opposite side .red, ← Tree.join_opposite side .black]
      at linkedSecond
    obtain ⟨after, rotated, linkedAfter⟩ := rotate_spec linkedSecond
    rw [Tree.join_opposite, Tree.join_opposite, ← Path.plug_join_opposite] at linkedAfter
    refine ⟨after, inner, lifted, .join side .red outer middle far, ?_, linkedAfter, innerBalanced,
      Tree.balanced_join_red.mpr ⟨⟨outerNotRed, farNotRed⟩, outerBalanced, farBalanced⟩, by simp, ?_⟩
    · have siblingEq := linkedAfter.child_eq.2
      rw [Tree.rootId?_join] at siblingEq
      simp only [LinkedTree.turnSibling, farEq, farRed, farNotRed, Bool.false_eq_true, if_false,
        nearEq, paintedNear, paintedSibling, rotated, siblingEq, Checked.ok_bind,
        Checked.pure_eq_ok]
    · exact (Tree.toList_rotate ..).symm

/-- Before the rotation the sibling gets the colour of the parent, and the parent and the far child
turn black. -/
theorem makeUp_ready {near far : Tree (Item κ ν)} {middle : Item κ ν}
    (linked : Linked tree (above.plug (.join side color subtree parent
      (.join side .black near middle far))) further) :
    ∃ first second third, tree.paint (some middle.id) color = .ok first ∧
      first.paint (some parent.id) .black = .ok second ∧
      second.child middle.id side.opposite = .ok far.rootId? ∧
      second.paint far.rootId? .black = .ok third ∧
      Linked third (above.plug (.join side .black subtree parent
        (.join side color near middle (far.paint .black)))) further := by
  rw [← Tree.join_opposite] at linked
  obtain ⟨first, second, paintedSibling, paintedParent, linkedSecond⟩ :=
    repaint_spec linked color .black
  rw [Tree.rootId?_join] at paintedSibling
  rw [Tree.paint_join, Tree.join_opposite, Path.plug_join_opposite] at linkedSecond
  have farEq := linkedSecond.child_eq.2
  rw [Path.plug_join_opposite] at linkedSecond
  obtain ⟨third, paintedFar, linkedThird⟩ := paintAt_spec linkedSecond .black
  rw [← Path.plug_join_opposite, ← Path.plug_join_opposite] at linkedThird
  exact ⟨first, second, third, paintedSibling, paintedParent, farEq, paintedFar, linkedThird⟩

/-- **A sibling with a red far child** makes up for the shortage by a rotation. -/
theorem makeUp_spec {near far : Tree (Item κ ν)} {middle : Item κ ν}
    (linked : Linked tree (above.plug (.join side color subtree parent
      (.join side .black near middle far))) further)
    (fits : Path.Fits (⟨color, side, parent, sibling⟩ :: above) (height + 1))
    (balanced : subtree.Balanced height) (nearBalanced : near.Balanced height)
    (farBalanced : far.Balanced height) (farRed : far.isRed = true) :
    Repaired (tree.makeUp parent.id middle.id side) (above.plug (.join side color subtree parent
      (.join side .black near middle far))) further := by
  have parentEq := linked.node_eq
  obtain ⟨first, second, third, paintedSibling, paintedParent, farEq, paintedFar, linkedThird⟩ :=
    makeUp_ready linked
  obtain ⟨fourth, rotated, linkedFourth⟩ := rotate_spec linkedThird
  obtain ⟨after, paintedRoot, linkedAfter⟩ := paintRoot_spec linkedFourth .black
  have proper : (above.plug (.join side color (.join side .black subtree parent near) middle
      (far.paint .black))).Proper :=
    proper_of_two fits (Tree.balanced_join_black_succ.mpr ⟨balanced, nearBalanced⟩)
      (Tree.balanced_paint_black farRed farBalanced) (by simp) (Tree.isRed_paint_black far)
  rw [Tree.paint_black_of_not_red proper.notRed] at linkedAfter
  refine ⟨after, _, ?_, linkedAfter, proper, above.toList_plug_congr ?_⟩
  · simp only [LinkedTree.makeUp, parentEq, color_nodeAt, paintedSibling, paintedParent, farEq,
      paintedFar, rotated, paintedRoot, Checked.ok_bind]
  · calc (Tree.join side color (.join side .black subtree parent near) middle
          (far.paint .black)).toList
        = (Tree.join side color subtree parent (.join side color near middle
            (far.paint .black))).toList := Tree.toList_rotate ..
      _ = _ := Tree.toList_join_congr side _ _ parent rfl
          (Tree.toList_join_congr side _ _ middle rfl (Tree.toList_paint ..))

end Steps

/-! ### The repair -/

/-- One round of the repair at a place that is not the root and whose subtree has no red root. -/
theorem mend_round {lifted : LinkedTree κ ν σ} {color' : Color} {above' : Path (Item κ ν)}
    {near far : Tree (Item κ ν)} {middle : Item κ ν}
    (linked : Linked tree (above.plug (.join side color subtree parent sibling)) further)
    (notRed : subtree.isRed = false) (siblingPresent : sibling ≠ .leaf)
    (liftedEq : tree.liftSibling parent.id side = .ok (lifted, some middle.id))
    (linkedLifted : Linked lifted (Path.plug above' (.join side color' subtree parent
      (.join side .black near middle far))) further) (rounds : Nat) :
    (near.isRed = false → far.isRed = false →
      ∀ handed node, lifted.paint (some middle.id) .red = .ok handed →
        handed.node parent.id = .ok node →
        tree.mend (rounds + 1) subtree.rootId? (some parent.id) =
          handed.mend rounds (some parent.id) node.parent) ∧
    (near.isRed = true ∨ far.isRed = true →
      ∀ turned middle', lifted.turnSibling parent.id middle.id side = .ok (turned, some middle') →
        tree.mend (rounds + 1) subtree.rootId? (some parent.id) =
          turned.makeUp parent.id middle' side) := by
  obtain ⟨notRoot, subtreeRed, sideEq⟩ := mend_reads linked siblingPresent
  obtain ⟨⟨nearEq, farEq⟩, nearRed, farRed⟩ := nephews_eq linkedLifted
  constructor
  · intro nearNotRed farNotRed handed node painted nodeEq
    simp only [LinkedTree.mend, if_neg notRoot, subtreeRed, notRed, Bool.false_eq_true,
      if_false, sideEq, liftedEq, nearEq, farEq, nearRed, farRed, nearNotRed, farNotRed,
      Bool.not_false, Bool.and_self, if_true, painted, nodeEq, Checked.ok_bind]
  · intro redChild turned middle' turnedEq
    have notBoth : ¬(!near.isRed && !far.isRed) = true := by
      rcases redChild with isRed | isRed <;> simp [isRed]
    simp only [LinkedTree.mend, if_neg notRoot, subtreeRed, notRed, Bool.false_eq_true,
      if_false, sideEq, liftedEq, nearEq, farEq, nearRed, farRed, if_neg notBoth, turnedEq,
      Checked.ok_bind]

/-- The repair ends at the root, and at a subtree with a red root. -/
theorem mend_of_ends [LawfulNodeStore σ] {path : Path (Item κ ν)}
    (linked : Linked tree (path.plug subtree) further) (fits : path.Fits (height + 1))
    (lacks : Lacks subtree height) (ends : path = [] ∨ subtree.isRed = true) (rounds : Nat) :
    Repaired (tree.mend (rounds + 1) subtree.rootId? path.parentId?) (path.plug subtree)
      further := by
  obtain ⟨after, whole, painted, repaired⟩ := repaired_of_paint linked fits lacks ends
  refine ⟨after, whole, ?_, repaired⟩
  by_cases root : subtree.rootId? = tree.root
  · simp only [LinkedTree.mend, if_pos root, painted]
  · have red : subtree.isRed = true :=
      ends.resolve_left fun none => root (linked.eq_root_iff.mpr none)
    simp only [LinkedTree.mend, if_neg root, linked.isRed_eq, red, if_true, painted,
      Checked.ok_bind]

/-- The repair ends where the sibling, once it is black, has a red child. -/
theorem makeUp_of_redChild [LawfulNodeStore σ] {lifted : LinkedTree κ ν σ}
    {near far : Tree (Item κ ν)} {middle : Item κ ν}
    (linked : Linked lifted (above.plug (.join side color subtree parent
      (.join side .black near middle far))) further)
    (fits : Path.Fits (⟨color, side, parent, sibling⟩ :: above) (height + 1))
    (balanced : subtree.Balanced height) (nearBalanced : near.Balanced height)
    (farBalanced : far.Balanced height) (redChild : near.isRed = true ∨ far.isRed = true) :
    ∃ turned middle', lifted.turnSibling parent.id middle.id side = .ok (turned, some middle') ∧
      Repaired (turned.makeUp parent.id middle' side) (above.plug (.join side color subtree parent
        (.join side .black near middle far))) further := by
  obtain ⟨turned, near', middle', far', turnedEq, linkedTurned, nearBalanced', farBalanced',
    farRed', sameTurned⟩ := turnSibling_spec linked nearBalanced farBalanced redChild
  obtain ⟨after, whole, made, linkedAfter, proper, same⟩ :=
    makeUp_spec linkedTurned fits balanced nearBalanced' farBalanced' farRed'
  refine ⟨turned, middle'.id, turnedEq, after, whole, made, linkedAfter, proper, ?_⟩
  rw [same]
  exact above.toList_plug_congr (Tree.toList_join_congr side _ _ parent rfl sameTurned)

/-- **The repair after a deletion.** At a place that lacks a black node it makes the whole tree
proper. The last round is at a subtree with a red root, which need not be far from its start. -/
theorem mend_spec [LawfulNodeStore σ] (rounds : Nat) {path : Path (Item κ ν)}
    (linked : Linked tree (path.plug subtree) further) (fits : path.Fits (height + 1))
    (lacks : Lacks subtree height)
    (enough : path.length < rounds ∨ (subtree.isRed = true ∧ 0 < rounds)) :
    Repaired (tree.mend rounds subtree.rootId? path.parentId?) (path.plug subtree) further := by
  induction rounds generalizing tree path subtree height with
  | zero => omega
  | succ rounds ih =>
    by_cases ends : path = [] ∨ subtree.isRed = true
    · exact mend_of_ends linked fits lacks ends rounds
    · obtain ⟨nonempty, red⟩ := not_or.mp ends
      have notRed := Bool.eq_false_iff.mpr red
      have balanced : subtree.Balanced height := by
        rcases lacks with ⟨isRed, -⟩ | ⟨-, balanced⟩
        · exact absurd isRed red
        · exact balanced
      cases path with
      | nil => exact absurd rfl nonempty
      | cons frame above =>
        obtain ⟨color, side, parent, sibling⟩ := frame
        have siblingPresent := Tree.ne_leaf_of_balanced (fits.1 : sibling.Balanced (height + 1))
        rw [← Path.plug_join] at linked ⊢
        unfold Path.parentId?
        obtain ⟨lifted, color', above', sibling', liftedEq, linkedLifted, fitsLifted,
          siblingNotRed, siblingBalanced, shorter, sameLifted⟩ := liftSibling_spec linked fits
        obtain ⟨near, middle, far, rfl, nearBalanced, farBalanced⟩ :=
          Tree.eq_join_black side siblingBalanced siblingNotRed
        rw [Tree.rootId?_join] at liftedEq
        have round := mend_round linked notRed siblingPresent liftedEq linkedLifted rounds
        by_cases redChild : near.isRed = true ∨ far.isRed = true
        · obtain ⟨turned, middle', turnedEq, after, whole, made, linkedAfter, proper, same⟩ :=
            makeUp_of_redChild linkedLifted fitsLifted balanced nearBalanced farBalanced redChild
          exact ⟨after, whole, (round.2 redChild turned middle' turnedEq).trans made, linkedAfter,
            proper, same.trans sameLifted⟩
        · obtain ⟨nearRed, farRed⟩ := not_or.mp redChild
          have nearNotRed := Bool.eq_false_iff.mpr nearRed
          have farNotRed := Bool.eq_false_iff.mpr farRed
          obtain ⟨handed, height', paintedSibling, linkedHanded, fitsHanded, lacksHanded⟩ :=
            handOn_spec linkedLifted fitsLifted balanced nearBalanced farBalanced nearNotRed
              farNotRed
          have enoughHanded : List.length above' < rounds ∨ ((Tree.join side color' subtree parent
              (.join side .red near middle far)).isRed = true ∧ 0 < rounds) := by
            have shortEnough := enough.resolve_right fun other => red other.1
            rw [List.length_cons] at shortEnough
            rcases shorter with rfl | rfl
            · exact Or.inr ⟨by simp, by omega⟩
            · exact Or.inl (by omega)
          obtain ⟨after, whole, mended, linkedAfter, proper, same⟩ :=
            ih linkedHanded fitsHanded lacksHanded enoughHanded
          rw [Tree.rootId?_join] at mended
          refine ⟨after, whole, ?_, linkedAfter, proper, ?_⟩
          · rw [round.1 nearNotRed farNotRed handed _ paintedSibling linkedHanded.node_eq,
              parent_nodeAt, mended]
          · rw [same, ← sameLifted]
            exact Path.toList_plug_congr above' (Tree.toList_join_congr side _ _ parent rfl
              (Tree.toList_join_congr side _ _ middle rfl rfl))

end OrderedCollections.RedBlack
