/-
**Balanced trees.**

A tree is balanced if no red node has a red child and every way down to a missing child passes the
same number of black nodes. A path fits a height if every balanced subtree of that height, in a
colour that the path takes, makes a balanced whole tree.

* `Tree.Balanced`, `Tree.Proper`: balanced trees, and those with a root that is not red.
* `Path.Fits`: the paths into them.
* `proper_plug_iff`: a tree seen from a place in it is proper exactly if path and subtree fit.
-/

import OrderedCollections.Proofs.RedBlack.Tree

namespace OrderedCollections.RedBlack

variable {α : Type}

namespace Tree

/-- No red node has a red child, and every way down passes `height` black nodes. -/
def Balanced : Tree α → Nat → Prop
  | leaf, height => height = 0
  | node .red left _ right, height =>
    (left.isRed = false ∧ right.isRed = false) ∧ left.Balanced height ∧ right.Balanced height
  | node .black left _ right, height =>
    ∃ below, height = below + 1 ∧ left.Balanced below ∧ right.Balanced below

/-- A balanced tree whose root is not red. -/
structure Proper (tree : Tree α) : Prop where
  notRed : tree.isRed = false
  balanced : ∃ height, tree.Balanced height

theorem balanced_join_red {side : Side} {near far : Tree α} {item : α} {height : Nat} :
    (join side .red near item far).Balanced height ↔
      (near.isRed = false ∧ far.isRed = false) ∧ near.Balanced height ∧ far.Balanced height := by
  cases side with
  | left => rfl
  | right =>
    show (_ ∧ _) ∧ _ ∧ _ ↔ _
    rw [and_comm (a := far.isRed = false), and_comm (a := far.Balanced height)]

theorem balanced_join_black {side : Side} {near far : Tree α} {item : α} {height : Nat} :
    (join side .black near item far).Balanced height ↔
      ∃ below, height = below + 1 ∧ near.Balanced below ∧ far.Balanced below := by
  cases side with
  | left => rfl
  | right =>
    show (∃ below, _ ∧ _ ∧ _) ↔ _
    simp only [and_comm (a := far.Balanced _)]

theorem balanced_join_black_succ {side : Side} {near far : Tree α} {item : α} {height : Nat} :
    (join side .black near item far).Balanced (height + 1) ↔
      near.Balanced height ∧ far.Balanced height := by
  rw [balanced_join_black]
  constructor
  · rintro ⟨below, same, balanced⟩
    obtain rfl := Nat.succ.inj same
    exact balanced
  · exact fun balanced => ⟨height, rfl, balanced⟩

/-- A tree whose root is not red is the same with its root painted black. -/
theorem paint_black_of_not_red {tree : Tree α} (notRed : tree.isRed = false) :
    tree.paint .black = tree := by
  cases tree with
  | leaf => rfl
  | node color left item right =>
    cases color with
    | red => cases notRed
    | black => rfl

theorem isRed_paint_black (tree : Tree α) : (tree.paint .black).isRed = false := by
  cases tree <;> rfl

theorem balanced_paint_black {tree : Tree α} {height : Nat} (red : tree.isRed = true)
    (balanced : tree.Balanced height) : (tree.paint .black).Balanced (height + 1) := by
  obtain ⟨near, item, far, rfl⟩ := eq_join_of_isRed .left red
  rw [paint_join, balanced_join_black_succ]
  exact (balanced_join_red.mp balanced).2

theorem ne_leaf_of_balanced {tree : Tree α} {height : Nat} (balanced : tree.Balanced (height + 1)) :
    tree ≠ leaf := by
  rintro rfl
  exact Nat.succ_ne_zero height balanced

/-- A tree with black nodes on every way down and no red root has a black one. -/
theorem eq_join_black (side : Side) {tree : Tree α} {height : Nat}
    (balanced : tree.Balanced (height + 1)) (notRed : tree.isRed = false) :
    ∃ near item far, tree = join side .black near item far ∧ near.Balanced height ∧
      far.Balanced height := by
  rcases eq_leaf_or_join side tree with rfl | ⟨color, near, item, far, rfl⟩
  · exact absurd rfl (ne_leaf_of_balanced balanced)
  · cases color with
    | red => simp at notRed
    | black =>
      obtain ⟨balancedNear, balancedFar⟩ := balanced_join_black_succ.mp balanced
      exact ⟨near, item, far, rfl, balancedNear, balancedFar⟩

end Tree

namespace Path

/-- A red subtree may hang in a place below a black node only. -/
def TakesRed : Path α → Prop
  | [] => False
  | frame :: _ => frame.color = .black

/-- A balanced subtree of the given height makes a balanced whole tree. -/
def Fits : Path α → Nat → Prop
  | [], _ => True
  | frame :: above, height =>
    frame.sibling.Balanced height ∧
      match frame.color with
      | .red => frame.sibling.isRed = false ∧ TakesRed above ∧ Fits above height
      | .black => Fits above (height + 1)

variable {side : Side} {item : α} {sibling : Tree α} {above : Path α} {height : Nat}

theorem fits_red : Fits (⟨.red, side, item, sibling⟩ :: above) height ↔
    sibling.Balanced height ∧ sibling.isRed = false ∧ above.TakesRed ∧ above.Fits height := by
  rfl

theorem fits_black : Fits (⟨.black, side, item, sibling⟩ :: above) height ↔
    sibling.Balanced height ∧ above.Fits (height + 1) := by
  rfl

theorem Fits.withSibling {color : Color} {other : Tree α} {otherItem : α}
    (fits : Fits (⟨color, side, item, sibling⟩ :: above) height) (balanced : other.Balanced height)
    (notRed : other.isRed = false) : Fits (⟨color, side, otherItem, other⟩ :: above) height := by
  cases color with
  | red => exact fits_red.mpr ⟨balanced, notRed, (fits_red.mp fits).2.2⟩
  | black => exact fits_black.mpr ⟨balanced, (fits_black.mp fits).2⟩

theorem takesRed_withItem {lower : Path α} {color : Color} (other : α) :
    TakesRed (lower ++ ⟨color, side, other, sibling⟩ :: above) ↔
      TakesRed (lower ++ ⟨color, side, item, sibling⟩ :: above) := by
  cases lower <;> rfl

/-- What fits in a place does not depend on the items above it. -/
theorem fits_withItem {lower : Path α} {color : Color} (other : α) :
    Fits (lower ++ ⟨color, side, other, sibling⟩ :: above) height ↔
      Fits (lower ++ ⟨color, side, item, sibling⟩ :: above) height := by
  induction lower generalizing height with
  | nil => rfl
  | cons frame between ih =>
    obtain ⟨frameColor, frameSide, frameItem, frameSibling⟩ := frame
    cases frameColor with
    | red => rw [List.cons_append, List.cons_append, fits_red, fits_red, ih, takesRed_withItem]
    | black => rw [List.cons_append, List.cons_append, fits_black, fits_black, ih]

end Path

/-- **A tree seen from a place in it** is proper exactly if the path fits the subtree. -/
theorem proper_plug_iff {path : Path α} {subtree : Tree α} :
    (path.plug subtree).Proper ↔ ∃ height, path.Fits height ∧ subtree.Balanced height ∧
      (subtree.isRed = true → path.TakesRed) := by
  induction path generalizing subtree with
  | nil =>
    constructor
    · rintro ⟨notRed, height, balanced⟩
      exact ⟨height, trivial, balanced, fun red => by rw [Path.plug_nil, red] at notRed; cases notRed⟩
    · rintro ⟨height, -, balanced, notRed⟩
      exact ⟨Bool.eq_false_iff.mpr notRed, height, balanced⟩
  | cons frame above ih =>
    obtain ⟨color, side, item, sibling⟩ := frame
    rw [Path.plug_cons, ih, Frame.fill]
    cases color with
    | red =>
      simp only [Path.fits_red, Tree.balanced_join_red, Tree.isRed_join]
      constructor
      · rintro ⟨height, fits, ⟨⟨notRed, siblingNotRed⟩, balanced, siblingBalanced⟩, takes⟩
        refine ⟨height, ⟨siblingBalanced, siblingNotRed, takes rfl, fits⟩, balanced, fun red => ?_⟩
        rw [notRed] at red
        cases red
      · rintro ⟨height, ⟨siblingBalanced, siblingNotRed, takes, fits⟩, balanced, takesRed⟩
        have notRed : subtree.isRed = false :=
          Bool.eq_false_iff.mpr fun red => Color.noConfusion (takesRed red)
        exact ⟨height, fits, ⟨⟨notRed, siblingNotRed⟩, balanced, siblingBalanced⟩, fun _ => takes⟩
    | black =>
      simp only [Path.fits_black, Tree.balanced_join_black, Tree.isRed_join]
      constructor
      · rintro ⟨-, fits, ⟨height, rfl, balanced, siblingBalanced⟩, -⟩
        exact ⟨height, ⟨siblingBalanced, fits⟩, balanced, fun _ => rfl⟩
      · rintro ⟨height, ⟨siblingBalanced, fits⟩, balanced, -⟩
        exact ⟨height + 1, fits, ⟨height, rfl, balanced, siblingBalanced⟩, by simp⟩

/-- A path that takes a red subtree makes a proper tree with every subtree that it fits. -/
theorem proper_plug_of_takesRed {path : Path α} {subtree : Tree α} {height : Nat}
    (takes : path.TakesRed) (fits : path.Fits height) (balanced : subtree.Balanced height) :
    (path.plug subtree).Proper :=
  proper_plug_iff.mpr ⟨height, fits, balanced, fun _ => takes⟩

end OrderedCollections.RedBlack
