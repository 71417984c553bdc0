/-
**What an operation leaves alone.**

Rebalancing relinks and repaints many nodes, and a node with two children leaves the tree by way of the
next one in order. No order of the keys holds the other entries in their places meanwhile: the
comparator may answer as it likes. They stay because every step keeps the row of the nodes, so an
operation changes this row at one place or leaves the map as it is.

* `Adds`, `Replaces`, `Removes`: the changes to a row.
* `OneEntry`: what the operations on a key change.
* `run_oneEntry`: the operations change one entry or nothing in every map that a run leads to.
-/

import OrderedCollections.Comparator.Integer
import OrderedCollections.Proofs.RedBlack.Run

namespace OrderedCollections.RedBlack

variable {κ ν : Type} {σ : Type → Type} [NodeStore σ]

/-! ### The changes to a row -/

/-- **A new item stands at one place of the row.** All others keep their nodes and their order. -/
def Adds (id : NodeId) (key : κ) (value : ν) (row row' : List (NodeId × Node κ ν)) : Prop :=
  ∃ front back, row.map cellItem = front ++ back ∧
    row'.map cellItem = front ++ ⟨id, key, value⟩ :: back

/-- **One node of the row holds another value**, and its key compares equal. The key stays, and so does
every link and every colour. -/
def Replaces (cmp : Comparator κ) (key : κ) (old new : ν) (row row' : List (NodeId × Node κ ν)) :
    Prop :=
  ∃ front id node back, cmp key node.key = .eq ∧ node.value = old ∧
    row = front ++ (id, node) :: back ∧ row' = front ++ (id, { node with value := new }) :: back

/-- **One item is missing from the row**, and its key compares equal. All others keep their nodes and
their order. -/
def Removes (cmp : Comparator κ) (key : κ) (old : ν) (row row' : List (NodeId × Node κ ν)) : Prop :=
  ∃ front item back, cmp key item.key = .eq ∧ item.value = old ∧
    row.map cellItem = front ++ item :: back ∧ row'.map cellItem = front ++ back

/-- The nodes of the map afterwards form a red-black tree, and their row differs from the one before
by a change. -/
def Becomes (map : RedBlackMap κ ν σ) (row : List (NodeId × Node κ ν))
    (change : List (NodeId × Node κ ν) → List (NodeId × Node κ ν) → Prop)
    (after : RedBlackMap κ ν σ) : Prop :=
  after.cmp = map.cmp ∧ ∃ row', WellFormed after row' ∧ change row row'

/-! ### The row around a place -/

/-- The rest of a row depends on the subtree in a place only through the root of the subtree. -/
theorem exists_row_plug (path : Path (Item κ ν)) (root : Option NodeId) :
    ∃ front back, ∀ subtree, Tree.rootId? subtree = root →
      (path.plug subtree).row none = front ++ (subtree.row path.parentId? ++ back) := by
  induction path generalizing root with
  | nil => exact ⟨[], [], fun subtree _ => (List.append_nil _).symm⟩
  | cons frame above ih =>
    obtain ⟨front, back, same⟩ := ih (some frame.item.id)
    obtain ⟨color, side, item, sibling⟩ := frame
    cases side with
    | left =>
      refine ⟨front, (item.id, nodeAt .left item color (Path.parentId? above) root sibling.rootId?) ::
        sibling.row (some item.id) ++ back, fun subtree isRoot => ?_⟩
      rw [Path.plug_cons, same _ rfl, Frame.fill, Tree.join, Tree.row, isRoot, List.append_assoc]
      rfl
    | right =>
      refine ⟨front ++ (sibling.row (some item.id) ++
        [(item.id, nodeAt .left item color (Path.parentId? above) sibling.rootId? root)]), back,
        fun subtree isRoot => ?_⟩
      rw [Path.plug_cons, same _ rfl, Frame.fill, Tree.join, Tree.row, isRoot]
      simp [Path.parentId?]

/-! ### The three changes to a map -/

section Changes

variable [LawfulNodeStore σ] {map : RedBlackMap κ ν σ} {key : κ} {place : Path (Item κ ν)}
  {color : Color} {left right : Tree (Item κ ν)} {item : Item κ ν}

/-- A node that is found gets another value. -/
theorem becomes_replaceAt (sound : Sound map (place.plug (.join .left color left item right)))
    (equal : map.cmp key item.key = .eq) (change : ν → ν) :
    ∃ after, map.replaceAt item.id change = .ok (item.value, after) ∧
      Becomes map ((place.plug (.join .left color left item right)).row none)
        (Replaces map.cmp key item.value (change item.value)) after := by
  obtain ⟨after, done, cmp, -, soundAfter⟩ := replaceAt_spec sound change
  obtain ⟨front, back, rows⟩ := exists_row_plug place (some item.id)
  refine ⟨after, done, cmp, _, soundAfter.wellFormed, front ++ left.row (some item.id), item.id,
    nodeAt .left item color place.parentId? left.rootId? right.rootId?,
    right.row (some item.id) ++ back, ?_, value_nodeAt .., ?_, ?_⟩
  · rw [key_nodeAt]
    exact equal
  · rw [rows _ rfl]
    simp [Tree.join, Tree.row]
  · rw [rows _ rfl]
    simp [Tree.join, Tree.row, nodeAt]

/-- A node that is found is taken out. -/
theorem becomes_delete (sound : Sound map (place.plug (.join .left color left item right)))
    (equal : map.cmp key item.key = .eq) :
    ∃ node after, map.delete item.id = .ok (node, after) ∧
      Becomes map ((place.plug (.join .left color left item right)).row none)
        (Removes map.cmp key node.value) after := by
  obtain ⟨node, after, whole, deleted, value, cmp, soundAfter, same⟩ := delete_item_spec sound
  refine ⟨node, after, deleted, cmp, _, soundAfter.wellFormed, place.before ++ left.toList, item,
    right.toList ++ place.after, equal, value.symm, ?_, ?_⟩
  · rw [Tree.items_row, Path.toList_plug]
    simp [Tree.join]
  · rw [Tree.items_row, same]
    simp

/-- A new node hangs in a vacant place. -/
theorem becomes_attach (sound : Sound map (place.plug .leaf)) {side : Side}
    (onSide : ∀ frame ∈ place.head?, frame.side = side) (key : κ) (value : ν) :
    ∃ id after, map.attach place.parentId? side key value = .ok (id, after) ∧
      Becomes map ((place.plug .leaf).row none) (Adds id key value) after := by
  obtain ⟨id, after, whole, attached, cmp, soundAfter, same⟩ := attach_spec sound onSide key value
  refine ⟨id, after, attached, cmp, _, soundAfter.wellFormed, place.before, place.after, ?_, ?_⟩
  · rw [Tree.items_row, Path.toList_plug, Tree.toList_leaf, List.nil_append]
  · rw [Tree.items_row, same]

end Changes

end OrderedCollections.RedBlack

namespace OrderedCollections.RedBlackMap

open RedBlack

variable {κ ν : Type} {σ : Type → Type} [NodeStore σ]

/-! ### The operations on a key -/

/-- **What the operations on a key change** in a map whose nodes form this row. What inserts adds one
item, what overwrites replaces one value, what removes takes out one item; what is refused or finds
nothing leaves the map as it is, down to its store. -/
structure OneEntry (map : RedBlackMap κ ν σ) (row : List (NodeId × Node κ ν)) (key : κ) : Prop where
  put : ∀ value, ∃ before after, map.put key value = .ok (before, after) ∧
    map.contains key = .ok before.isSome ∧
    match before with
    | none => ∃ id, Becomes map row (Adds id key value) after
    | some old => Becomes map row (Replaces map.cmp key old value) after
  tryInsert : ∀ value, ∃ outcome after, map.tryInsert key value = .ok (outcome, after) ∧
    match outcome with
    | .ok id => map.contains key = .ok false ∧ Becomes map row (Adds id key value) after
    | .error error => map.contains key = .ok true ∧ error = .duplicated ∧ after = map
  update : ∀ value, ∃ outcome after, map.update key value = .ok (outcome, after) ∧
    match outcome with
    | .ok old => map.contains key = .ok true ∧
      Becomes map row (Replaces map.cmp key old value) after
    | .error error => map.contains key = .ok false ∧ error = .notFound ∧ after = map
  remove : ∃ removed after, map.remove key = .ok (removed, after) ∧
    match removed with
    | some old => map.contains key = .ok true ∧ Becomes map row (Removes map.cmp key old) after
    | none => map.contains key = .ok false ∧ after = map

section Sound

variable [LawfulNodeStore σ] {map : RedBlackMap κ ν σ} {key : κ} {place : Path (Item κ ν)}

/-- Where the search finds a node, the operations change this node or take it out. -/
theorem oneEntry_of_found {color : Color} {left right : RedBlack.Tree (Item κ ν)} {item : Item κ ν}
    (sound : Sound map (place.plug (.join .left color left item right)))
    (equal : map.cmp key item.key = .eq) (found : map.search key = .ok (.found item.id)) :
    OneEntry map ((place.plug (.join .left color left item right)).row none) key := by
  have hit := hit_of_found sound found
  refine ⟨fun value => ?_, fun value => ?_, fun value => ?_, ?_⟩
  · obtain ⟨after, replaced, becomes⟩ := becomes_replaceAt sound equal fun _ => value
    exact ⟨some item.value, after, put_of_found found replaced, hit.contains, becomes⟩
  · exact ⟨.error .duplicated, map, hit.tryInsert value, hit.contains, rfl, rfl⟩
  · obtain ⟨after, replaced, becomes⟩ := becomes_replaceAt sound equal fun _ => value
    exact ⟨.ok item.value, after, update_of_found found replaced, hit.contains, becomes⟩
  · obtain ⟨node, after, deleted, becomes⟩ := becomes_delete sound equal
    exact ⟨some node.value, after, remove_of_found found deleted, hit.contains, becomes⟩

/-- Where the search ends at a vacant place, the operations hang a new node there or change nothing. -/
theorem oneEntry_of_vacant {side : Side} (sound : Sound map (place.plug .leaf))
    (onSide : ∀ frame ∈ place.head?, frame.side = side)
    (vacant : map.search key = .ok (.vacant place.parentId? side)) :
    OneEntry map ((place.plug .leaf).row none) key := by
  have missed := missed_of_vacant sound onSide vacant
  refine ⟨fun value => ?_, fun value => ?_, fun value => ?_, ?_⟩
  · obtain ⟨id, after, attached, becomes⟩ := becomes_attach sound onSide key value
    exact ⟨none, after, put_of_vacant vacant attached, missed.contains, id, becomes⟩
  · obtain ⟨id, after, attached, becomes⟩ := becomes_attach sound onSide key value
    exact ⟨.ok id, after, tryInsert_of_vacant vacant attached, missed.contains, becomes⟩
  · exact ⟨.error .notFound, map, missed.update value, missed.contains, rfl, rfl⟩
  · exact ⟨none, map, missed.remove, missed.contains, rfl⟩

/-- **The operations on a key change one entry**, whatever the comparator answers. -/
theorem oneEntry_of_sound {whole : RedBlack.Tree (Item κ ν)} (sound : Sound map whole) (key : κ) :
    OneEntry map (whole.row none) key := by
  rcases sound.found_or_vacant key with ⟨place, color, left, item, right, rfl, equal, found⟩ |
    ⟨place, side, rfl, -, onSide, vacant⟩
  · exact oneEntry_of_found sound equal found
  · exact oneEntry_of_vacant sound onSide vacant

end Sound

/-- **Every operation changes one entry or nothing**, in every map that a run ends with and under every
comparator. -/
theorem run_oneEntry [LawfulNodeStore σ] (capacity : Nat) (cmp : Comparator κ)
    (operations : List (Operation κ ν)) :
    ∃ map row, (withCapacity capacity cmp : RedBlackMap κ ν σ).run operations = .ok map ∧
      map.cmp = cmp ∧ WellFormed map row ∧ ∀ key, OneEntry map row key := by
  obtain ⟨map, entries, ran, keeps, -⟩ :=
    run_spec (keeps_withCapacity (σ := σ) capacity cmp) operations
  obtain ⟨same, whole, sound, -⟩ := keeps_iff.mp keeps
  exact ⟨map, whole.row none, ran, same, sound.wellFormed, oneEntry_of_sound sound⟩

/-- Where every key is below every other, one that is stored is added again and cannot be removed. On
a circle of numbers, `5` replaces the value of the root and takes it out from between two others. -/
theorem run_oneEntry_lawless :
    (∃ map after : RedBlackMap Nat Nat Slots, ∃ row id,
      (withCapacity 0 (Comparator.constant .lt) : RedBlackMap Nat Nat Slots).run
          [.put 3 0, .put 1 0] = .ok map ∧ WellFormed map row ∧
      map.put 3 9 = .ok (none, after) ∧ Becomes map row (Adds id 3 9) after ∧
      map.remove 3 = .ok (none, map)) ∧
    ∃ map changed last : RedBlackMap Int64 Nat Slots, ∃ row old gone,
      (withCapacity 0 Comparator.cyclic : RedBlackMap Int64 Nat Slots).run
          [.put 2 0, .put 1 0, .put 0 0] = .ok map ∧ WellFormed map row ∧
      map.put 5 7 = .ok (some old, changed) ∧
      Becomes map row (Replaces Comparator.cyclic 5 old 7) changed ∧
      map.remove 5 = .ok (some gone, last) ∧
      Becomes map row (Removes Comparator.cyclic 5 gone) last := by
  constructor
  · obtain ⟨map, row, ran, -, wellFormed, oneEntry⟩ := run_oneEntry (σ := Slots) 0
      (Comparator.constant .lt : Comparator Nat) [.put 3 0, .put 1 (0 : Nat)]
    have absent : ((withCapacity 0 (Comparator.constant .lt) : RedBlackMap Nat Nat Slots).run
        [.put 3 0, .put 1 0] >>= contains 3) = .ok false := by
      decide +kernel
    rw [ran, Checked.ok_bind] at absent
    obtain ⟨before, after, put, contains, becomes⟩ := (oneEntry 3).put 9
    obtain ⟨taken, last, removed, unchanged⟩ := (oneEntry 3).remove
    cases before with
    | some old => cases absent.symm.trans contains
    | none =>
      cases taken with
      | some old => cases absent.symm.trans unchanged.1
      | none =>
        obtain ⟨id, adds⟩ := becomes
        obtain rfl := unchanged.2
        exact ⟨_, after, row, id, ran, wellFormed, put, adds, removed⟩
  · obtain ⟨map, row, ran, same, wellFormed, oneEntry⟩ := run_oneEntry (σ := Slots) 0
      Comparator.cyclic [.put 2 0, .put 1 0, .put 0 (0 : Nat)]
    have present : ((withCapacity 0 Comparator.cyclic : RedBlackMap Int64 Nat Slots).run
        [.put 2 0, .put 1 0, .put 0 0] >>= contains 5) = .ok true := by
      decide +kernel
    rw [ran, Checked.ok_bind] at present
    obtain ⟨before, changed, put, contains, replaces⟩ := (oneEntry 5).put 7
    obtain ⟨taken, last, removed, removes⟩ := (oneEntry 5).remove
    cases before with
    | none => cases present.symm.trans contains
    | some old =>
      cases taken with
      | none => cases present.symm.trans removes.1
      | some gone =>
        exact ⟨map, changed, last, row, old, gone, ran, wellFormed, put, same ▸ replaces, removed,
          same ▸ removes.2⟩

end OrderedCollections.RedBlackMap
