/-
**Stores of nodes under keys.**

The nodes of a linked structure stand in a store and refer to each other by key. The store chooses
the key of a new node, and it may hand out the key of a node that went away. All that a structure
relies on is that a new key is not in use and that a change under one key leaves the nodes under all
others alone.

* `NodeStore`: the operations of a store.
* `LawfulNodeStore`: what a structure relies on.
* `NodeStore.fetch`, `NodeStore.modify`, `NodeStore.take`: the same operations, where a key without
  a node is a fault.
-/

import OrderedCollections.Checked

namespace OrderedCollections

/-- The key of a node in a store. -/
structure NodeId where
  key : Nat
  deriving DecidableEq, Repr

/-- A store of nodes under keys. -/
class NodeStore (σ : Type → Type) where
  /-- The store without nodes, with room for some. -/
  withCapacity {ν : Type} : Nat → σ ν
  /-- The node under a key. -/
  get? {ν : Type} : NodeId → σ ν → Option ν
  /-- Takes a node in: the key chosen for it, and the store with the node. -/
  insert {ν : Type} : ν → σ ν → NodeId × σ ν
  /-- The store with another node under a key in use. -/
  set {ν : Type} : NodeId → ν → σ ν → σ ν
  /-- The store without the node under a key in use. -/
  erase {ν : Type} : NodeId → σ ν → σ ν
  /-- The store without its nodes. -/
  clear {ν : Type} : σ ν → σ ν
  /-- The number of nodes. -/
  size {ν : Type} : σ ν → Nat

open NodeStore in
/-- What a linked structure relies on. -/
class LawfulNodeStore (σ : Type → Type) [NodeStore σ] : Prop where
  get?_withCapacity {ν : Type} (capacity : Nat) (id : NodeId) :
    get? id (withCapacity capacity : σ ν) = none
  size_withCapacity {ν : Type} (capacity : Nat) : size (withCapacity capacity : σ ν) = 0
  /-- The key of a new node was not in use. -/
  get?_new {ν : Type} (node : ν) (store : σ ν) : get? (insert node store).1 store = none
  get?_insert {ν : Type} (node : ν) (store : σ ν) (id : NodeId) :
    get? id (insert node store).2 =
      if id = (insert node store).1 then some node else get? id store
  size_insert {ν : Type} (node : ν) (store : σ ν) :
    size (insert node store).2 = size store + 1
  get?_set {ν : Type} {store : σ ν} {id : NodeId} (inUse : (get? id store).isSome) (node : ν)
    (other : NodeId) :
    get? other (set id node store) = if other = id then some node else get? other store
  size_set {ν : Type} {store : σ ν} {id : NodeId} (inUse : (get? id store).isSome) (node : ν) :
    size (set id node store) = size store
  get?_erase {ν : Type} {store : σ ν} {id : NodeId} (inUse : (get? id store).isSome)
    (other : NodeId) : get? other (erase id store) = if other = id then none else get? other store
  size_erase {ν : Type} {store : σ ν} {id : NodeId} (inUse : (get? id store).isSome) :
    size (erase id store) = size store - 1
  get?_clear {ν : Type} (store : σ ν) (id : NodeId) : get? id (clear store) = none
  size_clear {ν : Type} (store : σ ν) : size (clear store) = 0

namespace NodeStore

variable {σ : Type → Type} [NodeStore σ] {ν : Type}

/-- The node under a key that is in use. -/
def fetch (id : NodeId) (store : σ ν) : Checked ν :=
  .ofOption .vacantKey (get? id store)

/-- The store with a change made to the node under a key that is in use. -/
def modify (id : NodeId) (change : ν → ν) (store : σ ν) : Checked (σ ν) := do
  let node ← fetch id store
  return set id (change node) store

/-- Takes the node under a key that is in use out of the store. -/
def take (id : NodeId) (store : σ ν) : Checked (ν × σ ν) := do
  let node ← fetch id store
  return (node, erase id store)

theorem fetch_eq_ok {id : NodeId} {store : σ ν} {node : ν} (stored : get? id store = some node) :
    fetch id store = .ok node := by
  rw [fetch, stored, Checked.ofOption_some]

theorem modify_eq_ok {id : NodeId} {store : σ ν} {node : ν} (stored : get? id store = some node)
    (change : ν → ν) : modify id change store = .ok (set id (change node) store) := by
  rw [modify, fetch_eq_ok stored, Checked.ok_bind, Checked.pure_eq_ok]

theorem take_eq_ok {id : NodeId} {store : σ ν} {node : ν} (stored : get? id store = some node) :
    take id store = .ok (node, erase id store) := by
  rw [take, fetch_eq_ok stored, Checked.ok_bind, Checked.pure_eq_ok]

end NodeStore

end OrderedCollections
