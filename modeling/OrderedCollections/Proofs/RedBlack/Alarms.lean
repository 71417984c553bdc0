/-
**Alarms at the exits of the repairs.**

In some places the code that turns and repairs a tree goes on with a default where something that it
needs is missing: a rotation without a child to lift changes nothing, a repair without a sibling hands
the shortage on. None of this would stop an operation; it would leave a tree out of balance. Here is the
same code with an alarm at each of these exits. Where all alarms are off it is the code itself, on every
tree whatsoever; where one is on, taking the exit raises a fault. So an operation that comes to its end
with all alarms on has taken no exit.

* `Exit`: the places where something that is needed may be missing.
* `Alarms`: which exits raise a fault.
* `Alarms.perform`: an operation on a map with alarms, down to its rotations.
* `perform_off`: with all alarms off it is the operation itself.
-/

import OrderedCollections.Proofs.RedBlack.Run

namespace OrderedCollections.RedBlack

/-- The places where the code goes on although something that it needs is missing. -/
inductive Exit where
  /-- A rotation finds no child to lift. -/
  | noChildToLift
  /-- The repair after an insertion finds a red parent that has no parent itself. -/
  | noGrandparent
  /-- The repair after a deletion finds no parent above a place that is not the root. -/
  | noParent
  /-- The repair after a deletion finds no sibling of the place. -/
  | noSibling
  /-- The repair after a deletion finds no sibling after the sibling was turned. -/
  | noTurnedSibling
  /-- A child is not the one on the side told, or it is the one on both sides. -/
  | wrongSide
  deriving DecidableEq, Repr

/-- Which exits raise an alarm, and the fault that each alarm is. -/
def Alarms : Type := Exit → Option Fault

namespace Alarms

variable {κ ν : Type} {σ : Type → Type} [NodeStore σ] {β : Type}

/-- All alarms are off. -/
def off : Alarms :=
  fun _ => none

/-- All alarms are on. -/
def on : Alarms :=
  fun _ => some .miscounted

/-- Leaves by an exit: goes on as usual, unless the alarm is on. -/
def leave (alarms : Alarms) (exit : Exit) (usual : Checked β) : Checked β :=
  match alarms exit with
  | none => usual
  | some fault => .error fault

variable (alarms : Alarms)

/-! ### Turning and replacing subtrees -/

/-- The side of a parent on which a child hangs, where it hangs on this side and not on the other. -/
def sideOf (parent : NodeId) (child : Option NodeId) (tree : LinkedTree κ ν σ) : Checked Side := do
  let node ← tree.node parent
  let side ← tree.sideOf parent child
  if node.child side = child ∧ node.child side.opposite ≠ child then return side
  else alarms.leave .wrongSide (return side)

def replaceChild (parent : Option NodeId) (old : NodeId) (new : Option NodeId)
    (tree : LinkedTree κ ν σ) : Checked (LinkedTree κ ν σ) :=
  match parent with
  | none => .ok { tree with root := new }
  | some parent => do
    let side ← alarms.sideOf parent (some old) tree
    tree.setChild parent side new

def rotate (pivot : NodeId) (side : Side) (tree : LinkedTree κ ν σ) :
    Checked (LinkedTree κ ν σ) := do
  match ← tree.child pivot side.opposite with
  | none => alarms.leave .noChildToLift (return tree)
  | some lifted =>
    let inner ← tree.child lifted side
    let tree ← tree.setChild pivot side.opposite inner
    let tree ← tree.setParent inner (some pivot)
    let parent := (← tree.node pivot).parent
    let tree ← tree.setParent (some lifted) parent
    let tree ← alarms.replaceChild parent pivot (some lifted) tree
    let tree ← tree.setChild lifted side (some pivot)
    tree.setParent (some pivot) (some lifted)

def transplant (old : NodeId) (new : Option NodeId) (tree : LinkedTree κ ν σ) :
    Checked (LinkedTree κ ν σ) := do
  let parent := (← tree.node old).parent
  let tree ← alarms.replaceChild parent old new tree
  tree.setParent new parent

/-! ### After an insertion -/

def straighten (id parent : NodeId) (side : Side) (tree : LinkedTree κ ν σ) :
    Checked (LinkedTree κ ν σ × NodeId × NodeId) := do
  if (← tree.child parent side.opposite) = some id then
    return (← alarms.rotate parent side tree, parent, id)
  else return (tree, id, parent)

def settle : Nat → NodeId → LinkedTree κ ν σ → Checked (LinkedTree κ ν σ)
  | 0, _, _ => .error .endless
  | rounds + 1, id, tree => do
    match (← tree.node id).parent with
    | none => tree.paint tree.root .black
    | some parent =>
      let parentNode ← tree.node parent
      if parentNode.color = .black then tree.paint tree.root .black
      else
        match parentNode.parent with
        | none => alarms.leave .noGrandparent (tree.paint tree.root .black)
        | some grandparent =>
          let side ← alarms.sideOf grandparent (some parent) tree
          let uncle ← tree.child grandparent side.opposite
          if ← tree.isRed uncle then
            let tree ← tree.paint (some parent) .black
            let tree ← tree.paint uncle .black
            let tree ← tree.paint (some grandparent) .red
            settle rounds grandparent tree
          else
            let (tree, id, parent) ← alarms.straighten id parent side tree
            let tree ← tree.paint (some parent) .black
            let tree ← tree.paint (some grandparent) .red
            let tree ← alarms.rotate grandparent side.opposite tree
            settle rounds id tree

/-! ### After a deletion -/

def liftSibling (parent : NodeId) (side : Side) (tree : LinkedTree κ ν σ) :
    Checked (LinkedTree κ ν σ × Option NodeId) := do
  let sibling ← tree.child parent side.opposite
  if ← tree.isRed sibling then
    let tree ← tree.paint sibling .black
    let tree ← tree.paint (some parent) .red
    let tree ← alarms.rotate parent side tree
    return (tree, ← tree.child parent side.opposite)
  else return (tree, sibling)

def turnSibling (parent sibling : NodeId) (side : Side) (tree : LinkedTree κ ν σ) :
    Checked (LinkedTree κ ν σ × Option NodeId) := do
  if ← tree.isRed (← tree.child sibling side.opposite) then return (tree, some sibling)
  else
    let tree ← tree.paint (← tree.child sibling side) .black
    let tree ← tree.paint (some sibling) .red
    let tree ← alarms.rotate sibling side.opposite tree
    return (tree, ← tree.child parent side.opposite)

def makeUp (parent sibling : NodeId) (side : Side) (tree : LinkedTree κ ν σ) :
    Checked (LinkedTree κ ν σ) := do
  let color := (← tree.node parent).color
  let tree ← tree.paint (some sibling) color
  let tree ← tree.paint (some parent) .black
  let tree ← tree.paint (← tree.child sibling side.opposite) .black
  let tree ← alarms.rotate parent side tree
  tree.paint tree.root .black

def mend : Nat → Option NodeId → Option NodeId → LinkedTree κ ν σ → Checked (LinkedTree κ ν σ)
  | 0, _, _, _ => .error .endless
  | rounds + 1, id?, parent, tree => do
    if id? = tree.root then tree.paint id? .black
    else if ← tree.isRed id? then tree.paint id? .black
    else
      match parent with
      | none => alarms.leave .noParent (tree.paint id? .black)
      | some parent =>
        let side ← alarms.sideOf parent id? tree
        let (tree, sibling) ← alarms.liftSibling parent side tree
        match sibling with
        | none =>
          alarms.leave .noSibling do
            mend rounds (some parent) (← tree.node parent).parent tree
        | some sibling =>
          let near ← tree.isRed (← tree.child sibling side)
          let far ← tree.isRed (← tree.child sibling side.opposite)
          if !near && !far then
            let tree ← tree.paint (some sibling) .red
            mend rounds (some parent) (← tree.node parent).parent tree
          else
            let (tree, sibling) ← alarms.turnSibling parent sibling side tree
            match sibling with
            | none => alarms.leave .noTurnedSibling (tree.paint id? .black)
            | some sibling => alarms.makeUp parent sibling side tree

def promote (id : NodeId) (color : Color) (left right : NodeId) (tree : LinkedTree κ ν σ) :
    Checked (LinkedTree.Vacancy κ ν σ) := do
  let next ← tree.extreme .left tree.rounds right
  let nextNode ← tree.node next
  let (tree, parent) ←
    if nextNode.parent = some id then pure (tree, some next)
    else do
      let tree ← alarms.transplant next nextNode.right tree
      let tree ← tree.setChild next .right (some right)
      let tree ← tree.setParent (some right) (some next)
      pure (tree, nextNode.parent)
  let tree ← alarms.transplant id (some next) tree
  let tree ← tree.setChild next .left (some left)
  let tree ← tree.setParent (some left) (some next)
  let tree ← tree.paint (some next) color
  return ⟨tree, nextNode.right, parent, nextNode.color⟩

def detach (id : NodeId) (tree : LinkedTree κ ν σ) : Checked (LinkedTree.Vacancy κ ν σ) := do
  let node ← tree.node id
  match node.left, node.right with
  | none, right => return ⟨← alarms.transplant id right tree, right, node.parent, node.color⟩
  | left, none => return ⟨← alarms.transplant id left tree, left, node.parent, node.color⟩
  | some left, some right => alarms.promote id node.color left right tree

def deleteNode (id : NodeId) (tree : LinkedTree κ ν σ) : Checked (LinkedTree κ ν σ) := do
  let vacancy ← alarms.detach id tree
  match vacancy.color with
  | .red => return vacancy.tree
  | .black => alarms.mend vacancy.tree.rounds vacancy.id? vacancy.parent vacancy.tree

/-! ### Operations on a map -/

def attach (parent : Option NodeId) (side : Side) (key : κ) (value : ν)
    (map : RedBlackMap κ ν σ) : Checked (NodeId × RedBlackMap κ ν σ) := do
  let (id, nodes) := NodeStore.insert ⟨key, value, .red, parent, none, none⟩ map.tree.nodes
  let tree : LinkedTree κ ν σ := { map.tree with nodes := nodes }
  let tree ← tree.hang parent side (some id)
  let tree ← alarms.settle tree.rounds id tree
  return (id, { map with tree := tree, size := map.size + 1 })

def put (key : κ) (value : ν) (map : RedBlackMap κ ν σ) :
    Checked (Option ν × RedBlackMap κ ν σ) := do
  match ← map.search key with
  | .found id =>
    let (before, after) ← map.replaceAt id fun _ => value
    return (some before, after)
  | .vacant parent side =>
    let (_, after) ← alarms.attach parent side key value map
    return (none, after)

def tryInsert (key : κ) (value : ν) (map : RedBlackMap κ ν σ) :
    Checked (Except Error NodeId × RedBlackMap κ ν σ) := do
  match ← map.search key with
  | .found _ => return (.error .duplicated, map)
  | .vacant parent side =>
    let (id, after) ← alarms.attach parent side key value map
    return (.ok id, after)

def delete (id : NodeId) (map : RedBlackMap κ ν σ) :
    Checked (Node κ ν × RedBlackMap κ ν σ) := do
  let tree ← alarms.deleteNode id map.tree
  let size ← .minus map.size 1
  let (node, nodes) ← NodeStore.take id tree.nodes
  if NodeStore.size nodes = size then
    return (node, { map with tree := { tree with nodes := nodes }, size := size })
  else .error .miscounted

def remove (key : κ) (map : RedBlackMap κ ν σ) : Checked (Option ν × RedBlackMap κ ν σ) := do
  match ← map.search key with
  | .found id =>
    let (node, after) ← alarms.delete id map
    return (some node.value, after)
  | .vacant _ _ => return (none, map)

/-- An operation with alarms. Those that only read the tree or change a value have no exits. -/
def perform (map : RedBlackMap κ ν σ) :
    RedBlackMap.Operation κ ν → Checked (RedBlackMap κ ν σ)
  | .put key value => return (← alarms.put key value map).2
  | .tryInsert key value change => do
    let (outcome, after) ← alarms.tryInsert key value map
    match outcome with
    | .error _ => return after
    | .ok id => return (← after.replaceAt id change).2
  | .remove key => return (← alarms.remove key map).2
  | operation => map.perform operation

/-! ### With all alarms off -/

section Off

variable (tree : LinkedTree κ ν σ)

@[simp] theorem leave_off (exit : Exit) (usual : Checked β) : off.leave exit usual = usual := rfl

@[simp] theorem sideOf_off (parent : NodeId) (child : Option NodeId) :
    off.sideOf parent child tree = tree.sideOf parent child := by
  unfold sideOf LinkedTree.sideOf
  cases tree.node parent with
  | error fault => rfl
  | ok node => simp only [leave_off, Checked.ok_bind, Checked.pure_eq_ok, ite_self]

@[simp] theorem replaceChild_off (parent : Option NodeId) (old : NodeId) (new : Option NodeId) :
    off.replaceChild parent old new tree = tree.replaceChild parent old new := by
  cases parent with
  | none => rfl
  | some parent => simp only [replaceChild, LinkedTree.replaceChild, sideOf_off]

@[simp] theorem rotate_off (pivot : NodeId) (side : Side) :
    off.rotate pivot side tree = tree.rotate pivot side := by
  refine bind_congr fun child => ?_
  cases child with
  | none => rfl
  | some lifted => simp only [replaceChild_off]

/-- A rotation of a node without children changes nothing, or raises the alarm if that is on. -/
example :
    (match NodeStore.insert (⟨0, 0, .black, none, none, none⟩ : Node Nat Nat)
        (NodeStore.withCapacity 0 : Slots (Node Nat Nat)) with
      | (id, nodes) =>
        ((off.rotate id .left ⟨nodes, some id⟩).isOk, (on.rotate id .left ⟨nodes, some id⟩).isOk)) =
      (true, false) := by
  decide +kernel

@[simp] theorem transplant_off (old : NodeId) (new : Option NodeId) :
    off.transplant old new tree = tree.transplant old new := by
  simp only [transplant, LinkedTree.transplant, replaceChild_off]

@[simp] theorem straighten_off (id parent : NodeId) (side : Side) :
    off.straighten id parent side tree = tree.straighten id parent side := by
  simp only [straighten, LinkedTree.straighten, rotate_off]

@[simp] theorem settle_off (rounds : Nat) (id : NodeId) :
    off.settle rounds id tree = tree.settle rounds id := by
  induction rounds generalizing id tree with
  | zero => rfl
  | succ rounds ih =>
    refine bind_congr fun node => ?_
    cases node.parent with
    | none => rfl
    | some parent =>
      refine bind_congr fun parentNode => ?_
      cases parentNode.parent with
      | none => rfl
      | some grandparent => simp only [sideOf_off, straighten_off, rotate_off, ih]

@[simp] theorem liftSibling_off (parent : NodeId) (side : Side) :
    off.liftSibling parent side tree = tree.liftSibling parent side := by
  simp only [liftSibling, LinkedTree.liftSibling, rotate_off]

@[simp] theorem turnSibling_off (parent sibling : NodeId) (side : Side) :
    off.turnSibling parent sibling side tree = tree.turnSibling parent sibling side := by
  simp only [turnSibling, LinkedTree.turnSibling, rotate_off]

@[simp] theorem makeUp_off (parent sibling : NodeId) (side : Side) :
    off.makeUp parent sibling side tree = tree.makeUp parent sibling side := by
  simp only [makeUp, LinkedTree.makeUp, rotate_off]

@[simp] theorem mend_off (rounds : Nat) (id? parent : Option NodeId) :
    off.mend rounds id? parent tree = tree.mend rounds id? parent := by
  induction rounds generalizing id? parent tree with
  | zero => rfl
  | succ rounds ih =>
    unfold mend LinkedTree.mend
    refine if_congr Iff.rfl rfl (bind_congr fun red => if_congr Iff.rfl rfl ?_)
    cases parent with
    | none => rfl
    | some parent =>
      refine Checked.bind_eq_bind (sideOf_off ..) fun side =>
        Checked.bind_eq_bind (liftSibling_off ..) fun lifting => ?_
      obtain ⟨lifted, sibling⟩ := lifting
      cases sibling with
      | none => simp only [leave_off, ih]
      | some sibling =>
        refine bind_congr fun _ => bind_congr fun near => bind_congr fun _ => bind_congr fun far =>
          if_congr Iff.rfl ?_ ?_
        · simp only [ih]
        · refine Checked.bind_eq_bind (turnSibling_off ..) fun turning => ?_
          obtain ⟨turned, sibling⟩ := turning
          cases sibling with
          | none => rfl
          | some sibling => exact makeUp_off ..

@[simp] theorem promote_off (id : NodeId) (color : Color) (left right : NodeId) :
    off.promote id color left right tree = tree.promote id color left right := by
  simp only [promote, LinkedTree.promote, transplant_off]

@[simp] theorem detach_off (id : NodeId) : off.detach id tree = tree.detach id := by
  refine bind_congr fun node => ?_
  cases node.left with
  | none => simp only [transplant_off]
  | some left =>
    cases node.right with
    | none => simp only [transplant_off]
    | some right => exact promote_off ..

@[simp] theorem deleteNode_off (id : NodeId) : off.deleteNode id tree = tree.delete id := by
  refine Checked.bind_eq_bind (detach_off tree id) fun vacancy => ?_
  cases vacancy.color with
  | red => rfl
  | black => exact mend_off ..

variable (map : RedBlackMap κ ν σ) (key : κ) (value : ν)

@[simp] theorem attach_off (parent : Option NodeId) (side : Side) :
    off.attach parent side key value map = map.attach parent side key value := by
  simp only [attach, RedBlackMap.attach, settle_off]

@[simp] theorem put_off : off.put key value map = map.put key value := by
  refine bind_congr fun found => ?_
  cases found with
  | found id => rfl
  | vacant parent side => simp only [attach_off]

@[simp] theorem tryInsert_off : off.tryInsert key value map = map.tryInsert key value := by
  refine bind_congr fun found => ?_
  cases found with
  | found id => rfl
  | vacant parent side => simp only [attach_off]

@[simp] theorem delete_off (id : NodeId) : off.delete id map = map.delete id := by
  simp only [delete, RedBlackMap.delete, deleteNode_off]

@[simp] theorem remove_off : off.remove key map = map.remove key := by
  refine bind_congr fun found => ?_
  cases found with
  | found id => simp only [delete_off]
  | vacant parent side => rfl

/-- **With all alarms off** an operation is the operation itself, on every map whatsoever. -/
theorem perform_off (operation : RedBlackMap.Operation κ ν) :
    off.perform map operation = map.perform operation := by
  cases operation with
  | put key value => simp only [perform, RedBlackMap.perform, put_off]
  | tryInsert key value change =>
    exact Checked.bind_eq_bind (tryInsert_off map key value) fun _ => rfl
  | remove key => simp only [perform, RedBlackMap.perform, remove_off]
  | update key value => rfl
  | modify key change => rfl
  | clear => rfl

end Off

end Alarms

end OrderedCollections.RedBlack
