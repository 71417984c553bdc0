/-
**How far down a map leads.**

A red node has no red child, so on no way down are there more red nodes than black ones; and a tree with
`h` black nodes on every way down has at least `2 ^ h` places, one more than it has nodes. Together they
bound the depth by twice the binary logarithm of the number of places. No search goes further down, and
neither does a removal, which goes on from the node it found to the next one in order.

* `Tree.depth`, `depth_le`, `two_pow_height_le`: the depth and the size of a balanced tree.
* `Descent`: the nodes that a way down the links passes.
* `Takes`: the number of rounds that a loop takes.
* `searchFrom_takes`, `walksDown_of_linked`: the loops that descend take one round for each node.
* `Shallow`: no descent of a map passes more nodes than the logarithm allows.
* `run_shallow`: every map that a run leads to is shallow.
-/

import OrderedCollections.Proofs.RedBlack.Run

namespace OrderedCollections

/-- The node at which a search ends, if it ends at one. -/
def RedBlackMap.Search.id? : RedBlackMap.Search → Option NodeId
  | .found id => some id
  | .vacant _ _ => none

namespace RedBlack

/-! ### Depth and size -/

/-- At most twice the binary logarithm of the number of places beside some entries. -/
structure Logarithmic (size count : Nat) : Prop where
  two_pow_le : 2 ^ count ≤ (size + 1) ^ 2
  le_log2 : count ≤ 2 * Nat.log2 (size + 1)

theorem logarithmic_of_height {size count height : Nat} (few : count ≤ 2 * height)
    (many : 2 ^ height ≤ size + 1) : Logarithmic size count where
  two_pow_le :=
    calc 2 ^ count ≤ 2 ^ (height * 2) := Nat.pow_le_pow_right Nat.two_pos (by omega)
      _ = (2 ^ height) ^ 2 := Nat.pow_mul ..
      _ ≤ (size + 1) ^ 2 := Nat.pow_le_pow_left many 2
  le_log2 :=
    Nat.le_trans few (Nat.mul_le_mul_left 2 ((Nat.le_log2 (Nat.succ_ne_zero size)).mpr many))

namespace Tree

variable {α : Type}

/-- The number of nodes on the longest way down. -/
def depth : Tree α → Nat
  | leaf => 0
  | node _ left _ right => max left.depth right.depth + 1

/-- On a way down every black node is followed by one red node at most. -/
theorem depth_le {tree : Tree α} {height : Nat} (balanced : tree.Balanced height) :
    tree.depth ≤ 2 * height + if tree.isRed then 1 else 0 := by
  induction tree generalizing height with
  | leaf => exact Nat.zero_le _
  | node color left item right left_ih right_ih =>
    unfold depth
    cases color with
    | red =>
      obtain ⟨⟨leftNotRed, rightNotRed⟩, leftBalanced, rightBalanced⟩ := balanced
      have leftFew := left_ih leftBalanced
      have rightFew := right_ih rightBalanced
      rw [leftNotRed] at leftFew
      rw [rightNotRed] at rightFew
      exact Nat.succ_le_succ (Nat.max_le.mpr ⟨leftFew, rightFew⟩)
    | black =>
      obtain ⟨below, rfl, leftBalanced, rightBalanced⟩ := balanced
      have atMostOne : ∀ tree : Tree α, (if tree.isRed then 1 else 0) ≤ 1 := by
        intro tree
        split <;> omega
      have leftFew := Nat.le_trans (left_ih leftBalanced) (Nat.add_le_add_left (atMostOne left) _)
      have rightFew := Nat.le_trans (right_ih rightBalanced) (Nat.add_le_add_left (atMostOne right) _)
      exact Nat.succ_le_succ (Nat.max_le.mpr ⟨leftFew, rightFew⟩)

/-- A black node on every way down doubles the number of places. -/
theorem two_pow_height_le {tree : Tree α} {height : Nat} (balanced : tree.Balanced height) :
    2 ^ height ≤ tree.toList.length + 1 := by
  induction tree generalizing height with
  | leaf =>
    obtain rfl : height = 0 := balanced
    exact Nat.le_refl 1
  | node color left item right left_ih right_ih =>
    rw [toList_node, List.length_append, List.length_cons]
    cases color with
    | red =>
      have many := left_ih balanced.2.1
      omega
    | black =>
      obtain ⟨below, rfl, leftBalanced, rightBalanced⟩ := balanced
      have leftMany := left_ih leftBalanced
      have rightMany := right_ih rightBalanced
      rw [Nat.pow_succ]
      omega

/-- **A proper tree is shallow.** -/
theorem Proper.depth_logarithmic {tree : Tree α} (proper : tree.Proper) :
    Logarithmic tree.toList.length tree.depth := by
  obtain ⟨notRed, height, balanced⟩ := proper
  have few := depth_le balanced
  rw [notRed] at few
  exact logarithmic_of_height few (two_pow_height_le balanced)

end Tree

/-! ### Descents -/

variable {κ ν : Type} {σ : Type → Type} [NodeStore σ]

/-- **The nodes that a way down the links passes**, from one place to another one. -/
inductive Descent (nodes : σ (Node κ ν)) : Option NodeId → List NodeId → Option NodeId → Prop
  | here (place : Option NodeId) : Descent nodes place [] place
  | down {id : NodeId} {node : Node κ ν} {passed : List NodeId} {last : Option NodeId} (side : Side)
      (stored : NodeStore.get? id nodes = some node)
      (below : Descent nodes (node.child side) passed last) :
      Descent nodes (some id) (id :: passed) last

namespace Descent

variable {nodes : σ (Node κ ν)} {start middle last : Option NodeId} {passed more : List NodeId}

theorem trans (descent : Descent nodes start passed middle) (onward : Descent nodes middle more last) :
    Descent nodes start (passed ++ more) last := by
  induction descent with
  | here place => exact onward
  | down side stored _ ih => exact .down side stored (ih onward)

theorem concat {id : NodeId} {node : Node κ ν} (descent : Descent nodes start passed (some id))
    (stored : NodeStore.get? id nodes = some node) (side : Side) :
    Descent nodes start (passed ++ [id]) (node.child side) :=
  descent.trans (.down side stored (.here _))

/-- No descent through stored cells passes more nodes than the tree is deep. -/
theorem length_le {tree : Tree (Item κ ν)} {parent : Option NodeId}
    (stored : ∀ cell ∈ tree.row parent, NodeStore.get? cell.1 nodes = some cell.2)
    (descent : Descent nodes tree.rootId? passed last) : passed.length ≤ tree.depth := by
  induction tree generalizing parent passed with
  | leaf =>
    cases descent
    exact Nat.le_refl 0
  | node color left item right left_ih right_ih =>
    rw [Tree.row, List.forall_mem_append, List.forall_mem_cons] at stored
    obtain ⟨inLeft, root, inRight⟩ := stored
    cases descent with
    | here => exact Nat.zero_le _
    | down side found below =>
      obtain rfl := Option.some.inj (root.symm.trans found)
      refine Nat.succ_le_succ ?_
      cases side with
      | left => exact Nat.le_trans (left_ih inLeft below) (Nat.le_max_left _ _)
      | right => exact Nat.le_trans (right_ih inRight below) (Nat.le_max_right _ _)

end Descent

/-- **No descent from the root of a sound map is long.** -/
theorem Sound.descent_logarithmic {map : RedBlackMap κ ν σ} {whole : Tree (Item κ ν)}
    (sound : Sound map whole) {passed : List NodeId} {last : Option NodeId}
    (descent : Descent map.tree.nodes map.tree.root passed last) :
    Logarithmic map.size passed.length := by
  rw [sound.linked.root] at descent
  have stored : ∀ cell ∈ whole.row none, NodeStore.get? cell.1 map.tree.nodes = some cell.2 :=
    fun cell member => (sound.mem_row_iff cell.1 cell.2).mpr member
  have few := descent.length_le stored
  have bound := sound.proper.depth_logarithmic
  rw [← sound.size_eq] at bound
  exact ⟨Nat.le_trans (Nat.pow_le_pow_right Nat.two_pos few) bound.two_pow_le,
    Nat.le_trans few bound.le_log2⟩

/-! ### Rounds -/

/-- **A loop takes a number of rounds**: where as many are allowed it comes to its outcome, and where
fewer are it does not end. -/
def Takes {β : Type} (loop : Nat → Checked β) (rounds : Nat) (outcome : β) : Prop :=
  ∀ allowed, loop allowed = if rounds ≤ allowed then .ok outcome else .error .endless

section Takes

variable {β : Type} {loop next : Nat → Checked β} {rounds : Nat} {outcome : β}

theorem takes_one (zero : loop 0 = .error .endless)
    (first : ∀ allowed, loop (allowed + 1) = .ok outcome) : Takes loop 1 outcome := by
  intro allowed
  cases allowed with
  | zero => exact zero
  | succ allowed => rw [first, if_pos (Nat.succ_le_succ (Nat.zero_le allowed))]

/-- A loop that goes on after its first round. -/
theorem Takes.succ (takes : Takes next rounds outcome) (zero : loop 0 = .error .endless)
    (first : ∀ allowed, loop (allowed + 1) = next allowed) : Takes loop (rounds + 1) outcome := by
  intro allowed
  cases allowed with
  | zero => exact zero
  | succ allowed =>
    rw [first, takes]
    exact if_congr Nat.succ_le_succ_iff.symm rfl rfl

end Takes

/-! ### Loops that descend -/

/-- **A search takes one round for each node that it passes**, and one for the place where it ends. -/
theorem searchFrom_takes {map : RedBlackMap κ ν σ} {further : Multiset (NodeId × Node κ ν)}
    (key : κ) (subtree : Tree (Item κ ν)) (path : Path (Item κ ν)) (parent : Option NodeId)
    (side : Side) (linked : Linked map.tree (path.plug subtree) further) :
    ∃ passed, Descent map.tree.nodes subtree.rootId? passed (subtree.seek map.cmp key parent side).id? ∧
      (∀ id ∈ (subtree.seek map.cmp key parent side).id?,
        ∃ node, NodeStore.get? id map.tree.nodes = some node) ∧
      Takes (fun rounds => map.searchFrom key rounds subtree.rootId? parent side) (passed.length + 1)
        (subtree.seek map.cmp key parent side) := by
  induction subtree generalizing path parent side with
  | leaf => exact ⟨[], .here _, nofun, takes_one rfl fun _ => rfl⟩
  | node color left item right left_ih right_ih =>
    have seen : Linked map.tree (path.plug (.join .left color left item right)) further := linked
    have stored := seen.get?_eq
    have nodeEq := seen.node_eq
    unfold Tree.seek Tree.rootId?
    cases answer : map.cmp key item.key with
    | lt =>
      obtain ⟨passed, descent, found, takes⟩ :=
        left_ih (⟨color, .left, item, right⟩ :: path) (some item.id) .left linked
      refine ⟨item.id :: passed, .down .left stored descent, found, takes.succ rfl fun rounds => ?_⟩
      simp only [RedBlackMap.searchFrom, nodeEq, Checked.ok_bind, key_nodeAt, left_nodeAt, answer]
    | gt =>
      obtain ⟨passed, descent, found, takes⟩ :=
        right_ih (⟨color, .right, item, left⟩ :: path) (some item.id) .right linked
      refine ⟨item.id :: passed, .down .right stored descent, found, takes.succ rfl fun rounds => ?_⟩
      simp only [RedBlackMap.searchFrom, nodeEq, Checked.ok_bind, key_nodeAt, right_nodeAt, answer]
    | eq =>
      refine ⟨[], .here _, ?_, takes_one rfl fun rounds => ?_⟩
      · rintro id ⟨⟩
        exact ⟨_, stored⟩
      · simp only [RedBlackMap.searchFrom, nodeEq, Checked.ok_bind, key_nodeAt, answer,
          Checked.pure_eq_ok]

section Walk

variable {tree : LinkedTree κ ν σ} {further : Multiset (NodeId × Node κ ν)}
  {path : Path (Item κ ν)} {side : Side}

/-- The walk from a node to the outermost one below it takes one round for each node. -/
def WalksDown (tree : LinkedTree κ ν σ) (side : Side) (id : NodeId) : Prop :=
  ∃ passed outermost node, Descent tree.nodes (some id) passed (some outermost) ∧
    NodeStore.get? outermost tree.nodes = some node ∧
    Takes (fun rounds => tree.extreme side rounds id) (passed.length + 1) outermost

/-- A walk down a side goes on in the subtree on that side, if there is one. -/
theorem walksDown_join {color : Color} {near far : Tree (Item κ ν)} {item : Item κ ν}
    (linked : Linked tree (path.plug (.join side color near item far)) further)
    (onward : ∀ id, near.rootId? = some id → WalksDown tree side id) :
    WalksDown tree side item.id := by
  have stored := linked.get?_eq
  have childEq := linked.child_eq.1
  cases next : near.rootId? with
  | none =>
    refine ⟨[], item.id, _, .here _, stored, takes_one rfl fun rounds => ?_⟩
    simp only [LinkedTree.extreme, childEq, next, Checked.ok_bind, Checked.pure_eq_ok]
  | some nextId =>
    obtain ⟨passed, outermost, node, descent, found, takes⟩ := onward nextId next
    have below : (nodeAt side item color path.parentId? near.rootId? far.rootId?).child side =
        some nextId := by
      rw [child_nodeAt, next]
    refine ⟨item.id :: passed, outermost, node, .down side stored (below ▸ descent), found,
      takes.succ rfl fun rounds => ?_⟩
    simp only [LinkedTree.extreme, childEq, next, Checked.ok_bind]

/-- **The walk from the root of a subtree to its outermost node** takes one round for each node. -/
theorem walksDown_of_linked (side : Side) {subtree : Tree (Item κ ν)} {id : NodeId}
    (linked : Linked tree (path.plug subtree) further) (root : subtree.rootId? = some id) :
    WalksDown tree side id := by
  induction subtree generalizing path id with
  | leaf => cases root
  | node color left item right left_ih right_ih =>
    obtain rfl := Option.some.inj root
    cases side with
    | left =>
      have seen : Linked tree (path.plug (.join .left color left item right)) further := linked
      have below := seen
      rw [Path.plug_join] at below
      exact walksDown_join seen fun _ => left_ih below
    | right =>
      have seen : Linked tree (path.plug (.join .right color right item left)) further := linked
      have below := seen
      rw [Path.plug_join] at below
      exact walksDown_join seen fun _ => right_ih below

end Walk

/-! ### Shallow maps -/

/-- **A map is shallow**: no way down from its root passes more nodes than the logarithm of the number
of entries allows. The loops that lead down keep to such ways, with one round for each node: the search
for a key, with which every operation on it starts, and the walk from the right child of a node that is
to be removed to the next node in order. -/
structure Shallow (map : RedBlackMap κ ν σ) : Prop where
  descent : ∀ passed last, Descent map.tree.nodes map.tree.root passed last →
    Logarithmic map.size passed.length
  search : ∀ key, ∃ passed outcome last, map.search key = .ok outcome ∧
    Takes (fun rounds => map.searchFrom key rounds map.tree.root none .left) (passed.length + 1)
      outcome ∧
    Descent map.tree.nodes map.tree.root passed outcome.id? ∧
    Descent map.tree.nodes map.tree.root (passed ++ outcome.id?.toList) last ∧
    Logarithmic map.size (passed ++ outcome.id?.toList).length
  removal : ∀ key id node right, map.search key = .ok (.found id) →
    NodeStore.get? id map.tree.nodes = some node → node.right = some right →
    ∃ passed lower next last,
      Takes (fun rounds => map.searchFrom key rounds map.tree.root none .left) (passed.length + 1)
        (.found id) ∧
      Takes (fun rounds => map.tree.extreme .left rounds right) (lower.length + 1) next ∧
      Descent map.tree.nodes (some right) lower (some next) ∧
      Descent map.tree.nodes map.tree.root (passed ++ id :: (lower ++ [next])) last ∧
      Logarithmic map.size (passed ++ id :: (lower ++ [next])).length

section Sound

variable {map : RedBlackMap κ ν σ} {whole : Tree (Item κ ν)}

/-- The search in a sound map descends from the root. -/
theorem Sound.search_takes (sound : Sound map whole) {key : κ} {outcome : RedBlackMap.Search}
    (found : map.search key = .ok outcome) :
    ∃ passed, Descent map.tree.nodes map.tree.root passed outcome.id? ∧
      (∀ id ∈ outcome.id?, ∃ node, NodeStore.get? id map.tree.nodes = some node) ∧
      Takes (fun rounds => map.searchFrom key rounds map.tree.root none .left) (passed.length + 1)
        outcome := by
  obtain rfl := Except.ok.inj ((search_spec sound key).symm.trans found)
  have descends := searchFrom_takes key whole [] none .left sound.linked
  rwa [← sound.linked.root] at descends

/-- The right subtree of a stored node has a place in the tree. -/
theorem Sound.right_linked (sound : Sound map whole) {id right : NodeId} {node : Node κ ν}
    (stored : NodeStore.get? id map.tree.nodes = some node) (child : node.right = some right) :
    ∃ path subtree, Linked map.tree (Path.plug path subtree) 0 ∧ subtree.rootId? = some right := by
  obtain ⟨path, color, near, item, far, place, -, rfl⟩ :=
    sound.linked.exists_place_of_mem ((sound.mem_row_iff id node).mp stored) .right
  have linked : Linked map.tree (path.plug (.join .right color near item far)) 0 :=
    place ▸ sound.linked
  rw [Path.plug_join] at linked
  exact ⟨_, near, linked, child⟩

/-- **A sound map is shallow.** -/
theorem Sound.shallow (sound : Sound map whole) : Shallow map where
  descent := fun _ _ => sound.descent_logarithmic
  search := by
    intro key
    obtain ⟨outcome, found⟩ : ∃ outcome, map.search key = .ok outcome := ⟨_, search_spec sound key⟩
    obtain ⟨passed, descent, stored, takes⟩ := sound.search_takes found
    cases outcome with
    | found id =>
      obtain ⟨node, atEnd⟩ := stored id rfl
      have through := descent.concat atEnd .left
      exact ⟨passed, _, _, found, takes, descent, through, sound.descent_logarithmic through⟩
    | vacant parent side =>
      have whole := descent.trans (.here none)
      exact ⟨passed, _, none, found, takes, descent, whole, sound.descent_logarithmic whole⟩
  removal := by
    intro key id node right found stored child
    obtain ⟨passed, descent, -, takes⟩ := sound.search_takes found
    obtain ⟨path, subtree, linked, root⟩ := sound.right_linked stored child
    obtain ⟨lower, next, nextNode, onward, nextStored, walks⟩ :=
      walksDown_of_linked .left linked root
    have toNext : Descent map.tree.nodes (some id) (id :: (lower ++ [next])) (nextNode.child .left) :=
      .down .right stored (by
        show Descent _ node.right _ _
        rw [child]
        exact onward.concat nextStored .left)
    have through := descent.trans toNext
    exact ⟨passed, lower, next, _, takes, walks, onward, through, sound.descent_logarithmic through⟩

end Sound

end RedBlack

namespace RedBlackMap

open RedBlack

/-- **Every map that a run leads to is shallow**, whatever the comparator answers. -/
theorem run_shallow {κ ν : Type} {σ : Type → Type} [NodeStore σ] [LawfulNodeStore σ] (capacity : Nat)
    (cmp : Comparator κ) (operations : List (Operation κ ν)) :
    ∃ map row, (withCapacity capacity cmp : RedBlackMap κ ν σ).run operations = .ok map ∧
      WellFormed map row ∧ Shallow map := by
  obtain ⟨map, _, ran, keeps, -⟩ :=
    run_spec (keeps_withCapacity (σ := σ) capacity cmp) operations
  obtain ⟨-, whole, sound, -⟩ := keeps_iff.mp keeps
  exact ⟨map, whole.row none, ran, sound.wellFormed, sound.shallow⟩

/-- Where every key is below every other, each new entry hangs further to the left than all before. With
seven of them, no search takes more than seven rounds. -/
theorem run_shallow_constant :
    ∃ map row, (withCapacity 0 (Comparator.constant .lt) : RedBlackMap Nat Nat Slots).run
        [.put 1 0, .put 2 0, .put 3 0, .put 4 0, .put 5 0, .put 6 0, .put 7 0] = .ok map ∧
      WellFormed map row ∧ map.size = 7 ∧
      (∀ passed last, Descent map.tree.nodes map.tree.root passed last → passed.length ≤ 6) ∧
      ∀ key, ∃ rounds outcome, rounds ≤ 7 ∧
        Takes (fun rounds => map.searchFrom key rounds map.tree.root none .left) rounds outcome := by
  obtain ⟨map, row, ran, wellFormed, shallow⟩ := run_shallow (σ := Slots) 0
    (Comparator.constant .lt : Comparator Nat)
    [.put 1 0, .put 2 0, .put 3 0, .put 4 0, .put 5 0, .put 6 0, .put 7 (0 : Nat)]
  have counted : ((withCapacity 0 (Comparator.constant .lt) : RedBlackMap Nat Nat Slots).run
      [.put 1 0, .put 2 0, .put 3 0, .put 4 0, .put 5 0, .put 6 0, .put 7 0]).map size = .ok 7 := by
    decide +kernel
  rw [ran] at counted
  have size : map.size = 7 := Except.ok.inj counted
  have few : ∀ passed last, Descent map.tree.nodes map.tree.root passed last → passed.length ≤ 6 := by
    intro passed last descent
    have bound := (shallow.descent passed last descent).le_log2
    rwa [size] at bound
  refine ⟨map, row, ran, wellFormed, size, few, fun key => ?_⟩
  obtain ⟨passed, outcome, last, -, takes, descent, -, -⟩ := shallow.search key
  exact ⟨passed.length + 1, outcome, Nat.succ_le_succ (few passed _ descent), takes⟩

end RedBlackMap

end OrderedCollections
