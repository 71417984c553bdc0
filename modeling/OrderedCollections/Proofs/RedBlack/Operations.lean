/-
**The operations of a map.**

A sound map stands for a proper tree of items and counts them. Every operation starts with the search
for its key, and one search decides for all of them: it ends at the node that they act on, or at the
vacant place where a new node would hang.

* `Sound`: a map stands for a proper tree and counts its items.
* `Tree.seek`, `search_spec`: where the search for a key ends.
* `Searched`, `Sound.found_or_vacant`: what it finds there.
* `replaceAt_spec`, `attach_spec`, `delete_item_spec`: the three changes.
* `put_of_found`, `put_of_vacant` and the like: which change an operation makes.
-/

import OrderedCollections.Proofs.RedBlack.Deletion
import OrderedCollections.Proofs.RedBlack.Insertion
import OrderedCollections.RedBlack.Map

namespace OrderedCollections.RedBlack

variable {κ ν : Type} {σ : Type → Type} [NodeStore σ]

/-- **A map stands for a proper tree** and counts its items. -/
structure Sound (map : RedBlackMap κ ν σ) (whole : Tree (Item κ ν)) : Prop where
  linked : Linked map.tree whole 0
  proper : whole.Proper
  size_eq : map.size = whole.toList.length

theorem sound_of_empty {map : RedBlackMap κ ν σ} (root : map.tree.root = none)
    (stores : Stores map.tree.nodes 0) (size : map.size = 0) : Sound map .leaf :=
  ⟨⟨root, by rw [Tree.cells_leaf, add_zero]; exact stores⟩, ⟨rfl, 0, rfl⟩, size⟩

theorem sound_withCapacity [LawfulNodeStore σ] (capacity : Nat) (cmp : Comparator κ) :
    Sound (.withCapacity capacity cmp : RedBlackMap κ ν σ) .leaf :=
  sound_of_empty rfl (Stores.withCapacity capacity) rfl

theorem sound_clear [LawfulNodeStore σ] (map : RedBlackMap κ ν σ) : Sound map.clear .leaf :=
  sound_of_empty rfl (Stores.clear map.tree.nodes) rfl

/-! ### The search -/

/-- The answer of a comparator that sends a search to a side. -/
def Side.answer : Side → Ordering
  | .left => .lt
  | .right => .gt

/-- The search for a key leads along a path. -/
def Path.Leads (cmp : Comparator κ) (key : κ) (path : Path (Item κ ν)) : Prop :=
  ∀ frame ∈ path, cmp key frame.item.key = frame.side.answer

/-- **Where the search for a key may end**: at a node whose key compares equal, or at a vacant place
to which the comparator leads. -/
inductive Searched (cmp : Comparator κ) (key : κ) (whole : Tree (Item κ ν)) :
    RedBlackMap.Search → Prop
  | found {place : Path (Item κ ν)} {color : Color} {left right : Tree (Item κ ν)}
      {item : Item κ ν} (split : whole = place.plug (.join .left color left item right))
      (equal : cmp key item.key = .eq) : Searched cmp key whole (.found item.id)
  | vacant {place : Path (Item κ ν)} {side : Side} (split : whole = place.plug .leaf)
      (leads : place.Leads cmp key) (onSide : ∀ frame ∈ place.head?, frame.side = side) :
      Searched cmp key whole (.vacant place.parentId? side)

/-- The search for a key in a tree that hangs on a side of `parent`. -/
def Tree.seek (cmp : Comparator κ) (key : κ) :
    Tree (Item κ ν) → Option NodeId → Side → RedBlackMap.Search
  | leaf, parent, side => .vacant parent side
  | node _ left item right, _, _ =>
    match cmp key item.key with
    | .lt => left.seek cmp key (some item.id) .left
    | .gt => right.seek cmp key (some item.id) .right
    | .eq => .found item.id

/-- What a search finds in the whole tree depends on a subtree only through what it finds there. -/
theorem seek_plug_congr {cmp : Comparator κ} {key : κ} (path : Path (Item κ ν))
    {subtree other : Tree (Item κ ν)}
    (same : subtree.seek cmp key = other.seek cmp key) :
    (path.plug subtree).seek cmp key = (path.plug other).seek cmp key := by
  induction path generalizing subtree other with
  | nil => exact same
  | cons frame above ih =>
    refine ih ?_
    funext parent side
    obtain ⟨color, frameSide, item, sibling⟩ := frame
    cases frameSide with
    | left => simp only [Frame.fill, Tree.join, Tree.seek, same]
    | right => simp only [Frame.fill, Tree.join, Tree.seek, same]

/-- The search below a place to which it leads. -/
theorem searched_seek {cmp : Comparator κ} {key : κ} (subtree : Tree (Item κ ν))
    (path : Path (Item κ ν)) (side : Side) (leads : path.Leads cmp key)
    (onSide : ∀ frame ∈ path.head?, frame.side = side) :
    Searched cmp key (path.plug subtree) (subtree.seek cmp key path.parentId? side) := by
  induction subtree generalizing path side with
  | leaf => exact .vacant rfl leads onSide
  | node color left item right left_ih right_ih =>
    have leadsBelow : ∀ side sibling, cmp key item.key = side.answer →
        Path.Leads cmp key (⟨color, side, item, sibling⟩ :: path) := by
      intro side sibling answer frame member
      rcases List.mem_cons.mp member with rfl | above
      · exact answer
      · exact leads frame above
    unfold Tree.seek
    cases answer : cmp key item.key with
    | lt =>
      exact left_ih (⟨color, .left, item, right⟩ :: path) .left (leadsBelow .left right answer)
        (by simp)
    | gt =>
      exact right_ih (⟨color, .right, item, left⟩ :: path) .right (leadsBelow .right left answer)
        (by simp)
    | eq => exact .found rfl answer

/-- The links lead a search where it ends in the tree. -/
theorem searchFrom_spec {map : RedBlackMap κ ν σ} {further : Multiset (NodeId × Node κ ν)}
    (key : κ) (subtree : Tree (Item κ ν)) (path : Path (Item κ ν)) (rounds : Nat)
    (parent : Option NodeId) (side : Side) (linked : Linked map.tree (path.plug subtree) further)
    (enough : subtree.toList.length < rounds) :
    map.searchFrom key rounds subtree.rootId? parent side =
      .ok (subtree.seek map.cmp key parent side) := by
  induction subtree generalizing path rounds parent side with
  | leaf =>
    obtain ⟨others, rfl⟩ : ∃ others, rounds = others + 1 := ⟨rounds - 1, by omega⟩
    rfl
  | node color left item right left_ih right_ih =>
    rw [Tree.toList_node, List.length_append, List.length_cons] at enough
    obtain ⟨others, rfl⟩ : ∃ others, rounds = others + 1 := ⟨rounds - 1, by omega⟩
    have seen : Linked map.tree (path.plug (.join .left color left item right)) further := linked
    have nodeEq := seen.node_eq
    unfold Tree.seek
    simp only [Tree.rootId?, RedBlackMap.searchFrom, nodeEq, Checked.ok_bind, key_nodeAt,
      left_nodeAt, right_nodeAt]
    cases map.cmp key item.key with
    | lt => exact left_ih (⟨color, .left, item, right⟩ :: path) others _ _ linked (by omega)
    | gt => exact right_ih (⟨color, .right, item, left⟩ :: path) others _ _ linked (by omega)
    | eq => rfl

/-- **Every search comes to its end**, where the tree says. -/
theorem search_spec {map : RedBlackMap κ ν σ} {whole : Tree (Item κ ν)} (sound : Sound map whole)
    (key : κ) : map.search key = .ok (whole.seek map.cmp key none .left) := by
  have here : Linked map.tree (Path.plug [] whole) 0 := sound.linked
  have found := searchFrom_spec key whole [] map.tree.rounds none .left here here.size_lt_rounds
  rwa [← sound.linked.root] at found

/-- **The two ways in which a search ends**: at a node whose key compares equal, or at a vacant place
to which the comparator leads. -/
theorem Sound.found_or_vacant {map : RedBlackMap κ ν σ} {whole : Tree (Item κ ν)}
    (sound : Sound map whole) (key : κ) :
    (∃ (place : Path (Item κ ν)) (color : Color) (left : Tree (Item κ ν)) (item : Item κ ν)
        (right : Tree (Item κ ν)), whole = place.plug (.join .left color left item right) ∧
      map.cmp key item.key = .eq ∧ map.search key = .ok (.found item.id)) ∨
    ∃ (place : Path (Item κ ν)) (side : Side), whole = place.plug .leaf ∧
      place.Leads map.cmp key ∧ (∀ frame ∈ place.head?, frame.side = side) ∧
      map.search key = .ok (.vacant place.parentId? side) := by
  have found := search_spec sound key
  have searched : Searched map.cmp key whole (whole.seek map.cmp key none .left) :=
    searched_seek whole [] .left (List.forall_mem_nil _) (by simp)
  cases outcome : whole.seek map.cmp key none .left with
  | found id =>
    rw [outcome] at found searched
    cases searched with
    | found split equal => exact Or.inl ⟨_, _, _, _, _, split, equal, found⟩
  | vacant parent side =>
    rw [outcome] at found searched
    cases searched with
    | vacant split leads onSide => exact Or.inr ⟨_, side, split, leads, onSide, found⟩

/-! ### The changes -/

section Changes

variable {map : RedBlackMap κ ν σ} {place : Path (Item κ ν)} {color : Color}
  {left right : Tree (Item κ ν)} {item : Item κ ν}

theorem valueAt_spec (sound : Sound map (place.plug (.join .left color left item right))) :
    map.valueAt item.id = .ok item.value := by
  simp only [RedBlackMap.valueAt, sound.linked.node_eq, Checked.ok_bind, value_nodeAt,
    Checked.pure_eq_ok]

variable [LawfulNodeStore σ]

/-- **An item gets another value.** Its key and its place stay. -/
theorem replaceAt_spec (sound : Sound map (place.plug (.join .left color left item right)))
    (change : ν → ν) :
    ∃ after, map.replaceAt item.id change = .ok (item.value, after) ∧ after.cmp = map.cmp ∧
      (∀ key, after.search key = map.search key) ∧
      Sound after (place.plug (.join .left color left { item with value := change item.value }
        right)) := by
  have holds := linked_plug.mp sound.linked
  rw [Tree.rootId?_join, Tree.cells_join, add_assoc] at holds
  obtain ⟨tree, modified, holdsAfter⟩ :=
    holds.modifyNode_spec fun node => { node with value := change node.value }
  obtain ⟨height, fits, balanced, takes⟩ := proper_plug_iff.mp sound.proper
  have soundAfter : Sound { map with tree := tree } (place.plug
      (.join .left color left { item with value := change item.value } right)) := by
    refine ⟨?_, proper_plug_iff.mpr ⟨height, fits, ?_, ?_⟩, ?_⟩
    · rw [linked_plug, Tree.rootId?_join, Tree.cells_join, add_assoc]
      exact holdsAfter
    · cases color with
      | red => exact balanced
      | black => exact balanced
    · rwa [Tree.isRed_join] at takes ⊢
    · rw [sound.size_eq, Path.toList_plug, Path.toList_plug]
      simp [Tree.join]
  refine ⟨{ map with tree := tree }, ?_, rfl, fun key => ?_, soundAfter⟩
  · simp only [RedBlackMap.replaceAt, valueAt_spec sound, modified, Checked.ok_bind,
      Checked.pure_eq_ok]
  · have same : (Tree.join .left color left { item with value := change item.value } right).seek
        map.cmp key = (Tree.join .left color left item right).seek map.cmp key := rfl
    rw [search_spec soundAfter, search_spec sound, seek_plug_congr place same]

/-- A new node hangs in a vacant place, red and without children. -/
theorem hang_new_spec (sound : Sound map (place.plug .leaf)) {side : Side}
    (onSide : ∀ frame ∈ place.head?, frame.side = side) {key : κ} {value : ν} {id : NodeId}
    {nodes : σ (Node κ ν)} (inserted : NodeStore.insert
      (⟨key, value, .red, place.parentId?, none, none⟩ : Node κ ν) map.tree.nodes = (id, nodes)) :
    ∃ hung, LinkedTree.hang place.parentId? side (some id) { map.tree with nodes := nodes } =
        .ok hung ∧
      Linked hung (place.plug (.join .left .red .leaf ⟨id, key, value⟩ .leaf)) 0 := by
  have before := linked_plug.mp sound.linked
  rw [Tree.rootId?_leaf, Tree.cells_leaf, zero_add] at before
  have holds : Holds { map.tree with nodes := nodes } (place.rootId? none) (place.cells none +
      {(id, nodeAt .left ⟨id, key, value⟩ .red place.parentId? none none)}) :=
    ⟨before.root, by
      have stores := before.stores.insert inserted
      rw [add_zero, add_comm] at stores
      exact stores⟩
  obtain ⟨hung, hangs, holdsHung⟩ := holds.hang_spec onSide (some id)
  refine ⟨hung, hangs, ?_⟩
  rw [linked_plug, Tree.rootId?_join, Tree.cells_join]
  simp only [Tree.cells_leaf, Tree.rootId?_leaf, add_zero]
  exact holdsHung.perm (add_comm _ _)

omit [LawfulNodeStore σ] in
/-- A new node is a balanced subtree, and the path to a vacant place fits its height. -/
theorem fits_of_vacant (sound : Sound map (place.plug .leaf)) (item : Item κ ν) :
    place.Fits 0 ∧ (Tree.join .left .red .leaf item .leaf).Balanced 0 := by
  obtain ⟨height, fits, rfl, -⟩ := proper_plug_iff.mp sound.proper
  exact ⟨fits, Tree.balanced_join_red.mpr ⟨⟨rfl, rfl⟩, rfl, rfl⟩⟩

/-- **A new node in a vacant place.** Its item stands between those on both sides of the place. -/
theorem attach_spec (sound : Sound map (place.plug .leaf)) {side : Side}
    (onSide : ∀ frame ∈ place.head?, frame.side = side) (key : κ) (value : ν) :
    ∃ id after whole, map.attach place.parentId? side key value = .ok (id, after) ∧
      after.cmp = map.cmp ∧ Sound after whole ∧
      whole.toList = place.before ++ ⟨id, key, value⟩ :: place.after := by
  obtain ⟨id, nodes, inserted⟩ : ∃ id nodes, NodeStore.insert
      (⟨key, value, .red, place.parentId?, none, none⟩ : Node κ ν) map.tree.nodes = (id, nodes) :=
    ⟨_, _, rfl⟩
  obtain ⟨hung, hangs, linked⟩ := hang_new_spec sound onSide inserted
  obtain ⟨fits, balanced⟩ := fits_of_vacant sound ⟨id, key, value⟩
  obtain ⟨tree, whole, settled, linkedAfter, proper, same⟩ :=
    settle_spec hung.rounds linked (Tree.rootId?_join ..) (by simp) fits balanced
      linked.length_lt_rounds
  rw [Path.toList_plug] at same
  refine ⟨id, { map with tree := tree, size := map.size + 1 }, whole, ?_, rfl,
    ⟨linkedAfter, proper, ?_⟩, same⟩
  · simp only [RedBlackMap.attach, inserted, hangs, settled, Checked.ok_bind, Checked.pure_eq_ok]
  · rw [same, sound.size_eq, Path.toList_plug]
    simp [Tree.join]
    omega

/-- **A node is taken out of the map.** The other items keep their order. -/
theorem delete_item_spec (sound : Sound map (place.plug (.join .left color left item right))) :
    ∃ node after whole, map.delete item.id = .ok (node, after) ∧ node.value = item.value ∧
      after.cmp = map.cmp ∧ Sound after whole ∧
      whole.toList = place.before ++ (left.toList ++ right.toList ++ place.after) := by
  obtain ⟨tree, whole, node, deleted, valueEq, linked, proper, same⟩ :=
    delete_spec sound.linked sound.proper
  have shorter : map.size = whole.toList.length + 1 := by
    rw [sound.size_eq, same, Path.toList_plug]
    simp [Tree.join]
    omega
  have counted : map.size - 1 = whole.toList.length := by omega
  have enough : 1 ≤ map.size := by omega
  have holds := linked.perm (add_left_comm _ _ _)
  have stores := holds.stores.erase
  have sizeEq : NodeStore.size (NodeStore.erase item.id tree.nodes) = whole.toList.length := by
    rw [stores.size_eq, add_zero, Tree.card_cells]
  refine ⟨node, ⟨map.cmp, ⟨NodeStore.erase item.id tree.nodes, tree.root⟩, map.size - 1⟩, whole, ?_,
    valueEq, rfl, ⟨⟨linked.root, stores⟩, proper, counted⟩, same⟩
  simp only [RedBlackMap.delete, deleted, Checked.minus_of_le enough,
    NodeStore.take_eq_ok holds.stores.get?, sizeEq, counted, if_true, Checked.ok_bind,
    Checked.pure_eq_ok]

end Changes

/-! ### From the search to the outcome -/

section Outcome

variable {map after : RedBlackMap κ ν σ} {key : κ} {value before : ν} {id : NodeId}

theorem put_of_found (found : map.search key = .ok (.found id))
    (replaced : map.replaceAt id (fun _ => value) = .ok (before, after)) :
    map.put key value = .ok (some before, after) := by
  simp only [RedBlackMap.put, found, replaced, Checked.ok_bind, Checked.pure_eq_ok]

theorem update_of_found (found : map.search key = .ok (.found id))
    (replaced : map.replaceAt id (fun _ => value) = .ok (before, after)) :
    map.update key value = .ok (.ok before, after) := by
  simp only [RedBlackMap.update, found, replaced, Checked.ok_bind, Checked.pure_eq_ok]

theorem remove_of_found {node : Node κ ν} (found : map.search key = .ok (.found id))
    (deleted : map.delete id = .ok (node, after)) :
    map.remove key = .ok (some node.value, after) := by
  simp only [RedBlackMap.remove, found, deleted, Checked.ok_bind, Checked.pure_eq_ok]

theorem put_of_vacant {parent : Option NodeId} {side : Side}
    (vacant : map.search key = .ok (.vacant parent side))
    (attached : map.attach parent side key value = .ok (id, after)) :
    map.put key value = .ok (none, after) := by
  simp only [RedBlackMap.put, vacant, attached, Checked.ok_bind, Checked.pure_eq_ok]

theorem tryInsert_of_vacant {parent : Option NodeId} {side : Side}
    (vacant : map.search key = .ok (.vacant parent side))
    (attached : map.attach parent side key value = .ok (id, after)) :
    map.tryInsert key value = .ok (.ok id, after) := by
  simp only [RedBlackMap.tryInsert, vacant, attached, Checked.ok_bind, Checked.pure_eq_ok]

end Outcome

end OrderedCollections.RedBlack
