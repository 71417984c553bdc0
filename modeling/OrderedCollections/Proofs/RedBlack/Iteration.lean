/-
**Stepping through a map from both ends.**

The neighbour of a node on a side stands below it or above it. Below, it is the node of the subtree on
that side that stands furthest the other way; above, it is the first node that the climb reaches from
its other side. Either way it is the next item in the order of the tree, seen from that side, so an
iterator whose ends are the outermost nodes of the items to come stays one, whichever end is asked.

* `Tree.listFrom`, `Path.beyond`: the items of a tree, and those beside a place, seen from a side.
* `climb_spec`, `step_spec`, `furthest_spec`: the steps of an iterator.
* `Flanked`: how an iterator stands between the items that were taken.
* `iterator_holds`: an iterator over a sound map holds the entries of the map.
* `run_iteration`: the iterator over every map that a run leads to.
-/

import OrderedCollections.Proofs.Interleaving
import OrderedCollections.Proofs.RedBlack.Run
import OrderedCollections.RedBlack.Iterator

namespace OrderedCollections.RedBlack

/-! ### Items seen from a side -/

section Items

variable {α : Type}

/-- The items, starting from a side. -/
def Tree.listFrom (side : Side) (tree : Tree α) : List α :=
  match side with
  | .left => tree.toList
  | .right => tree.toList.reverse

/-- The items beyond a place on a side, the nearest first. -/
def Path.beyond (side : Side) (path : Path α) : List α :=
  match side with
  | .left => path.before.reverse
  | .right => path.after

variable (side : Side) (color : Color) (item : α) (path : Path α)

@[simp] theorem listFrom_leaf : (Tree.leaf : Tree α).listFrom side = [] := by
  cases side <;> rfl

theorem listFrom_join (near far : Tree α) :
    (Tree.join side color near item far).listFrom side =
      near.listFrom side ++ item :: far.listFrom side := by
  cases side with
  | left => rfl
  | right => simp [Tree.listFrom, Tree.join]

@[simp] theorem beyond_nil : Path.beyond side ([] : Path α) = [] := by
  cases side <;> rfl

/-- Where a subtree hangs on a side, nothing but what is above its node lies beyond it there. -/
theorem beyond_cons_same (sibling : Tree α) :
    Path.beyond side (⟨color, side, item, sibling⟩ :: path) = path.beyond side := by
  cases side with
  | left => simp [Path.beyond, Path.before]
  | right => rfl

theorem beyond_cons_opposite (sibling : Tree α) :
    Path.beyond side (⟨color, side.opposite, item, sibling⟩ :: path) =
      item :: (sibling.listFrom side.opposite ++ path.beyond side) := by
  cases side with
  | left => simp [Path.beyond, Path.before, Side.opposite, Tree.listFrom]
  | right => rfl

theorem listFrom_plug (subtree : Tree α) :
    (path.plug subtree).listFrom side =
      (path.beyond side).reverse ++ (subtree.listFrom side ++ path.beyond side.opposite) := by
  cases side with
  | left => simp [Tree.listFrom, Path.beyond, Side.opposite, Path.toList_plug]
  | right => simp [Tree.listFrom, Path.beyond, Side.opposite, Path.toList_plug]

variable {side path}

/-- Nothing stands beyond a place to which only children on that side lead. -/
theorem beyond_of_side (onSide : ∀ frame ∈ path, frame.side = side) : path.beyond side = [] := by
  induction path with
  | nil => exact beyond_nil side
  | cons frame above ih =>
    obtain ⟨frameColor, frameSide, frameItem, sibling⟩ := frame
    obtain rfl : frameSide = side := onSide _ List.mem_cons_self
    rw [beyond_cons_same]
    exact ih fun other member => onSide other (List.mem_cons_of_mem _ member)

end Items

/-! ### The steps of an iterator -/

variable {κ ν : Type} {σ : Type → Type} [NodeStore σ]

section Steps

variable {tree : LinkedTree κ ν σ} {further : Multiset (NodeId × Node κ ν)}
  {path : Path (Item κ ν)} {subtree near far : Tree (Item κ ν)} {color : Color} {item : Item κ ν}

/-- **The climb ends at the nearest node** beyond the subtree, or above the root. -/
theorem climb_spec (side : Side) {id : NodeId} {rounds : Nat}
    (linked : Linked tree (path.plug subtree) further) (root : subtree.rootId? = some id)
    (enough : path.length < rounds) :
    tree.climb side rounds id = .ok ((path.beyond side).head?.map Item.id) := by
  induction path generalizing subtree id rounds with
  | nil =>
    obtain ⟨others, rfl⟩ : ∃ others, rounds = others + 1 := ⟨rounds - 1, by omega⟩
    obtain ⟨node, nodeEq, nodeParent⟩ := linked.parent_eq root
    simp only [LinkedTree.climb, nodeEq, Checked.ok_bind, nodeParent, Path.parentId?, beyond_nil]
    rfl
  | cons frame above ih =>
    obtain ⟨others, rfl⟩ : ∃ others, rounds = others + 1 := ⟨rounds - 1, by omega⟩
    obtain ⟨frameColor, frameSide, parent, sibling⟩ := frame
    have present : subtree ≠ .leaf := by
      rintro rfl
      cases root
    obtain ⟨node, nodeEq, nodeParent⟩ := linked.parent_eq root
    rw [← Path.plug_join] at linked
    by_cases passed : frameSide = side
    · subst passed
      have elsewhere : ¬sibling.rootId? = some id := root ▸ linked.rootId?_ne (Or.inl present)
      have climbed := ih linked (Tree.rootId?_join ..) (Nat.lt_of_succ_lt_succ enough)
      simp only [LinkedTree.climb, nodeEq, Checked.ok_bind, nodeParent, Path.parentId?,
        linked.child_eq.2, if_neg elsewhere, climbed, beyond_cons_same]
    · obtain rfl := Side.ne_iff_eq_opposite.mp passed
      have here := linked.child_eq.1
      rw [root] at here
      simp only [LinkedTree.climb, nodeEq, Checked.ok_bind, nodeParent, Path.parentId?, here,
        if_true, beyond_cons_opposite]
      rfl

/-- **The node furthest on a side** is the first one seen from there. -/
theorem extreme_eq_head (side : Side) {id : NodeId}
    (linked : Linked tree (path.plug subtree) further) (root : subtree.rootId? = some id) :
    ∃ outermost, (subtree.listFrom side).head? = some outermost ∧
      tree.extreme side tree.rounds id = .ok outermost.id := by
  obtain ⟨lower, lowest, outermost, rest, rfl, onSide, walked⟩ :=
    extreme_spec side tree.rounds linked root (Nat.le_of_lt linked.size_lt_rounds)
  refine ⟨outermost, ?_, walked⟩
  rw [listFrom_plug, beyond_of_side onSide, listFrom_join, listFrom_leaf]
  rfl

/-- **A step leads to the next item** in the direction of a side. -/
theorem step_spec (side : Side)
    (linked : Linked tree (path.plug (.join side color near item far)) further) :
    tree.step side item.id =
      .ok ((near.listFrom side.opposite ++ path.beyond side).head?.map Item.id) := by
  have childEq := linked.child_eq.1
  cases root : near.rootId? with
  | none =>
    obtain rfl := Tree.rootId?_eq_none.mp root
    have climbed := climb_spec side linked (Tree.rootId?_join ..) linked.length_lt_rounds
    simp only [LinkedTree.step, childEq, root, Checked.ok_bind, climbed, listFrom_leaf,
      List.nil_append]
  | some below =>
    rw [Path.plug_join] at linked
    obtain ⟨outermost, first, walked⟩ := extreme_eq_head side.opposite linked root
    rw [List.head?_append, first]
    simp only [LinkedTree.step, childEq, root, Checked.ok_bind, walked, Checked.pure_eq_ok]
    rfl

/-- The outermost node of the whole tree. -/
theorem furthest_spec (side : Side) {whole : Tree (Item κ ν)}
    (linked : Linked tree whole further) :
    tree.furthest side = .ok ((whole.listFrom side).head?.map Item.id) := by
  have rootEq : tree.root = whole.rootId? := linked.root
  cases root : whole.rootId? with
  | none =>
    obtain rfl := Tree.rootId?_eq_none.mp root
    simp only [LinkedTree.furthest, rootEq, root, listFrom_leaf]
    rfl
  | some id =>
    rw [← Path.plug_nil whole] at linked
    obtain ⟨outermost, first, walked⟩ := extreme_eq_head side linked root
    simp only [LinkedTree.furthest, rootEq, root, first, Option.map_some, walked, Checked.ok_bind,
      Checked.pure_eq_ok]

/-- **From an item to its neighbours**, wherever it stands in the row. -/
theorem step_of_split {whole : Tree (Item κ ν)} {front back : List (Item κ ν)}
    (linked : Linked tree whole further) (split : whole.toList = front ++ item :: back) :
    tree.step .left item.id = .ok (front.getLast?.map Item.id) ∧
      tree.step .right item.id = .ok (back.head?.map Item.id) ∧
      ∃ node, tree.node item.id = .ok node ∧ (node.key, node.value) = item.entry := by
  obtain ⟨place, color, left, right, same, before, behind⟩ := exists_place whole [] split
  rw [Path.plug_nil] at same
  subst same
  rw [Path.before, List.nil_append] at before
  rw [Path.after, List.append_nil] at behind
  subst before behind
  refine ⟨?_, ?_, _, linked.node_eq, ?_⟩
  · rw [step_spec .left linked, List.getLast?_eq_head?_reverse, List.reverse_append]
    rfl
  · rw [← Tree.join_opposite] at linked
    exact step_spec .right linked
  · rw [key_nodeAt, value_nodeAt]
    rfl

end Steps

/-! ### The iterator -/

/-- **An iterator between the items that were taken**: its ends are the outermost nodes of the items
to come, and it knows how many these are. Once none is left the ends have passed each other. -/
structure Flanked (whole : Tree (Item κ ν)) (front middle back : List (Item κ ν))
    (iterator : RedBlackMap.Iterator κ ν σ) : Prop where
  linked : Linked iterator.tree whole 0
  split : whole.toList = front ++ (middle ++ back)
  front_eq : iterator.front = (middle ++ back).head?.map Item.id
  back_eq : iterator.back = (front ++ middle).getLast?.map Item.id
  remaining_eq : iterator.remaining = middle.length

namespace Flanked

variable {whole : Tree (Item κ ν)} {front middle back : List (Item κ ν)} {item : Item κ ν}
  {iterator : RedBlackMap.Iterator κ ν σ}

theorem next_nil (flanked : Flanked whole front [] back iterator) :
    iterator.next? = .ok none ∧ iterator.nextBack? = .ok none := by
  have none : iterator.remaining = 0 := flanked.remaining_eq
  simp only [RedBlackMap.Iterator.next?, RedBlackMap.Iterator.nextBack?, none, Checked.pure_eq_ok,
    and_self]

/-- The front takes the first of the items to come. -/
theorem next_cons (flanked : Flanked whole front (item :: middle) back iterator) :
    ∃ after, iterator.next? = .ok (some (item.entry, after)) ∧
      Flanked whole (front ++ [item]) middle back after := by
  have split : whole.toList = front ++ item :: (middle ++ back) := flanked.split
  obtain ⟨-, stepped, node, nodeEq, entry⟩ := step_of_split flanked.linked split
  have count : iterator.remaining = middle.length + 1 := flanked.remaining_eq
  have atFront : iterator.front = some item.id := flanked.front_eq
  refine ⟨{ iterator with front := (middle ++ back).head?.map Item.id, remaining := middle.length },
    ?_, flanked.linked, ?_, rfl, ?_, rfl⟩
  · simp only [RedBlackMap.Iterator.next?, count, atFront, stepped, nodeEq, entry, Checked.ok_bind,
      Checked.pure_eq_ok]
  · rw [split, List.append_assoc]
    rfl
  · rw [List.append_assoc]
    exact flanked.back_eq

/-- The back takes the last of the items to come. -/
theorem nextBack_concat (flanked : Flanked whole front (middle ++ [item]) back iterator) :
    ∃ after, iterator.nextBack? = .ok (some (item.entry, after)) ∧
      Flanked whole front middle (item :: back) after := by
  have split : whole.toList = (front ++ middle) ++ item :: back := by
    rw [flanked.split]
    simp
  obtain ⟨stepped, -, node, nodeEq, entry⟩ := step_of_split flanked.linked split
  have count : iterator.remaining = middle.length + 1 := by
    rw [flanked.remaining_eq, List.length_append, List.length_singleton]
  have atBack : iterator.back = some item.id := by
    rw [flanked.back_eq, ← List.append_assoc, List.getLast?_concat]
    rfl
  refine ⟨{ iterator with back := (front ++ middle).getLast?.map Item.id, remaining := middle.length },
    ?_, flanked.linked, ?_, ?_, rfl, rfl⟩
  · simp only [RedBlackMap.Iterator.nextBack?, count, atBack, stepped, nodeEq, entry,
      Checked.ok_bind, Checked.pure_eq_ok]
  · rw [split, List.append_assoc]
  · show iterator.front = _
    rw [flanked.front_eq, List.append_assoc]
    rfl

end Flanked

/-- Standing between the items that were taken is kept by every step, from either end. -/
theorem serves_flanked : Serves fun (iterator : RedBlackMap.Iterator κ ν σ) entries =>
    ∃ whole front middle back, Flanked whole front middle back iterator ∧
      middle.map Item.entry = entries where
  remaining_eq := by
    rintro iterator - ⟨whole, front, middle, back, flanked, rfl⟩
    rw [List.length_map]
    exact flanked.remaining_eq
  next_nil := by
    rintro iterator ⟨whole, front, middle, back, flanked, none⟩
    obtain rfl := List.map_eq_nil_iff.mp none
    exact flanked.next_nil.1
  next_cons := by
    rintro iterator entry entries ⟨whole, front, middle, back, flanked, split⟩
    obtain ⟨item, others, rfl, rfl, rfl⟩ := List.map_eq_cons_iff.mp split
    obtain ⟨after, taken, flankedAfter⟩ := flanked.next_cons
    exact ⟨after, taken, whole, front ++ [item], others, back, flankedAfter, rfl⟩
  nextBack_nil := by
    rintro iterator ⟨whole, front, middle, back, flanked, none⟩
    obtain rfl := List.map_eq_nil_iff.mp none
    exact flanked.next_nil.2
  nextBack_concat := by
    rintro iterator entries entry ⟨whole, front, middle, back, flanked, split⟩
    obtain ⟨others, last, rfl, rfl, isLast⟩ := List.map_eq_append_iff.mp split
    obtain ⟨item, rfl, rfl⟩ := List.map_eq_singleton_iff.mp isLast
    obtain ⟨after, taken, flankedAfter⟩ := flanked.nextBack_concat
    exact ⟨after, taken, whole, front, others, item :: back, flankedAfter, rfl⟩

/-- **An iterator over a sound map** holds the entries of the map. -/
theorem iterator_holds {map : RedBlackMap κ ν σ} {whole : Tree (Item κ ν)}
    (sound : Sound map whole) :
    ∃ iterator, map.iterator = .ok iterator ∧
      OrderedCollections.Holds iterator (whole.toList.map Item.entry) := by
  have flanked : Flanked whole [] whole.toList [] (⟨map.tree,
      whole.toList.head?.map Item.id, whole.toList.getLast?.map Item.id, map.size⟩ :
        RedBlackMap.Iterator κ ν σ) :=
    ⟨sound.linked, (List.append_nil _).symm, by rw [List.append_nil], rfl, sound.size_eq⟩
  refine ⟨_, ?_, _, serves_flanked, whole, [], whole.toList, [], flanked, rfl⟩
  simp only [RedBlackMap.iterator, furthest_spec _ sound.linked, Checked.ok_bind,
    Checked.pure_eq_ok, Tree.listFrom, List.head?_reverse]

end OrderedCollections.RedBlack

namespace OrderedCollections.RedBlackMap

open RedBlack

/-- **An iterator over a map yields its entries exactly**, in whatever order its ends are asked: this
is so in every map that a run leads to, and under every comparator. -/
theorem run_iteration {κ ν : Type} {σ : Type → Type} [NodeStore σ] [LawfulNodeStore σ]
    (capacity : Nat) (cmp : Comparator κ) (operations : List (Operation κ ν)) :
    ∃ map row iterator,
      (withCapacity capacity cmp : RedBlackMap κ ν σ).run operations = .ok map ∧
      WellFormed map row ∧ map.entries = .ok (row.map fun cell => cell.2.entry) ∧
      map.iterator = .ok iterator ∧ Exact iterator (row.map fun cell => cell.2.entry) := by
  obtain ⟨map, _, ran, keeps, -⟩ :=
    run_spec (keeps_withCapacity (σ := σ) capacity cmp) operations
  obtain ⟨-, whole, sound, -⟩ := keeps_iff.mp keeps
  obtain ⟨iterator, started, holds⟩ := iterator_holds sound
  rw [← entries_row whole none] at holds
  refine ⟨map, whole.row none, iterator, ran, sound.wellFormed, ?_, started, holds.exact⟩
  simp only [entries, started, Checked.ok_bind, holds.yields.rest]

/-- Where every key is below every other, each new entry comes first. The ends are asked more often
than there are entries, the back first. -/
theorem run_iteration_constant :
    ∃ map : RedBlackMap Nat Nat Slots, ∃ iterator answers after,
      (withCapacity 0 (Comparator.constant .lt) : RedBlackMap Nat Nat Slots).run
          [.put 3 0, .put 1 1, .put 2 2, .put 1 3] = .ok map ∧
        map.entries = .ok [(1, 3), (2, 2), (1, 1), (3, 0)] ∧ map.iterator = .ok iterator ∧
        askAll [.back, .front, .back, .back, .front, .back] iterator = .ok (answers, after) ∧
        answers = [some (3, 0), some (1, 3), some (1, 1), some (2, 2), none, none] ∧
        ForwardIterator.remaining after = 0 := by
  obtain ⟨map, row, iterator, ran, -, entries, started, exact⟩ := run_iteration (σ := Slots) 0
    (Comparator.constant .lt : Comparator Nat) [.put 3 0, .put 1 1, .put 2 2, .put 1 (3 : Nat)]
  have listed : ((withCapacity 0 (Comparator.constant .lt) : RedBlackMap Nat Nat Slots).run
      [.put 3 0, .put 1 1, .put 2 2, .put 1 3] >>= RedBlackMap.entries) =
        .ok [(1, 3), (2, 2), (1, 1), (3, 0)] := by
    decide +kernel
  rw [ran, Checked.ok_bind] at listed
  rw [Except.ok.inj (entries.symm.trans listed)] at exact
  obtain ⟨answers, after, asked, answered⟩ := exact [.back, .front, .back, .back, .front, .back]
  exact ⟨map, iterator, answers, after, ran, listed, started, asked, answered.answers_eq,
    answered.remaining_eq⟩

end OrderedCollections.RedBlackMap
