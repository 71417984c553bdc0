/-
**The cells of a store.**

What a store holds is a bag of cells, each a key with its node. A linked structure says which cells
it is made of; a change under one key needs that cell in front and leaves the rest of the bag alone,
so that nothing has to be said about all the nodes that a change does not touch.

* `Stores`: a store holds these cells and no others.
* `Stores.coe_iff`: what a store of the cells in a row holds.
* `Stores.set`, `Stores.insert`, `Stores.erase`: the three changes.
-/

import Mathlib.Data.Multiset.MapFold
import OrderedCollections.NodeStore

namespace OrderedCollections

variable {σ : Type → Type} [NodeStore σ] {ν : Type}

/-- **A store holds these cells and no others**, and no two of them have one key. -/
structure Stores (nodes : σ ν) (cells : Multiset (NodeId × ν)) : Prop where
  nodup : (cells.map Prod.fst).Nodup
  mem_iff : ∀ id node, (id, node) ∈ cells ↔ NodeStore.get? id nodes = some node
  size_eq : NodeStore.size nodes = cells.card

namespace Stores

variable {nodes : σ ν} {cells rest : Multiset (NodeId × ν)} {id : NodeId} {node : ν}

theorem get? (stores : Stores nodes ({(id, node)} + rest)) :
    NodeStore.get? id nodes = some node :=
  (stores.mem_iff id node).mp (by simp)

theorem fetch (stores : Stores nodes ({(id, node)} + rest)) :
    NodeStore.fetch id nodes = .ok node :=
  NodeStore.fetch_eq_ok stores.get?

/-- A store holds the cells of a row if their keys are different, they are what is stored, and the
store counts them. -/
theorem coe_iff {row : List (NodeId × ν)} : Stores nodes (row : Multiset (NodeId × ν)) ↔
    (row.map Prod.fst).Nodup ∧ (∀ id node, NodeStore.get? id nodes = some node ↔ (id, node) ∈ row) ∧
      NodeStore.size nodes = row.length := by
  constructor
  · intro stores
    refine ⟨?_, fun id node => ?_, ?_⟩
    · rw [← Multiset.coe_nodup, ← Multiset.map_coe]
      exact stores.nodup
    · rw [← stores.mem_iff, Multiset.mem_coe]
    · rw [stores.size_eq, Multiset.coe_card]
  · rintro ⟨nodup, live, size⟩
    refine ⟨?_, fun id node => ?_, ?_⟩
    · rw [Multiset.map_coe, Multiset.coe_nodup]
      exact nodup
    · rw [Multiset.mem_coe, live]
    · rw [Multiset.coe_card, size]

theorem fresh (stores : Stores nodes ({(id, node)} + rest)) (other : ν) : (id, other) ∉ rest := by
  have nodup := stores.nodup
  rw [Multiset.singleton_add, Multiset.map_cons, Multiset.nodup_cons] at nodup
  intro member
  exact nodup.1 (Multiset.mem_map.mpr ⟨(id, other), member, rfl⟩)

theorem id_ne {other : NodeId} {otherNode : ν}
    (stores : Stores nodes ({(id, node)} + rest)) (member : (other, otherNode) ∈ rest) :
    other ≠ id := by
  rintro rfl
  exact stores.fresh otherNode member

section Changes

variable [LawfulNodeStore σ]

/-- Another node comes into a cell. -/
theorem set (stores : Stores nodes ({(id, node)} + rest)) (changed : ν) :
    Stores (NodeStore.set id changed nodes) ({(id, changed)} + rest) := by
  have inUse : (NodeStore.get? id nodes).isSome := by rw [stores.get?]; rfl
  refine ⟨?_, fun other otherNode => ?_, ?_⟩
  · have nodup := stores.nodup
    rw [Multiset.singleton_add, Multiset.map_cons] at nodup ⊢
    exact nodup
  · rw [LawfulNodeStore.get?_set inUse, Multiset.mem_add, Multiset.mem_singleton, Prod.mk.injEq]
    by_cases same : other = id
    · subst same
      rw [if_pos rfl, Option.some.injEq]
      constructor
      · rintro (⟨-, rfl⟩ | member)
        · rfl
        · exact absurd member (stores.fresh otherNode)
      · rintro rfl
        exact Or.inl ⟨rfl, rfl⟩
    · rw [if_neg same, ← stores.mem_iff, Multiset.mem_add, Multiset.mem_singleton, Prod.mk.injEq]
      simp [same]
  · rw [LawfulNodeStore.size_set inUse, stores.size_eq]
    simp

/-- A cell comes in, under a key that none had. -/
theorem insert {nodes' : σ ν} (stores : Stores nodes cells)
    (inserted : NodeStore.insert node nodes = (id, nodes')) :
    Stores nodes' ({(id, node)} + cells) := by
  have new := LawfulNodeStore.get?_new node nodes
  have size := LawfulNodeStore.size_insert node nodes
  have others := LawfulNodeStore.get?_insert node nodes
  rw [inserted] at new size others
  have absent : ∀ other, (id, other) ∉ cells := by
    intro other member
    have found := (stores.mem_iff id other).mp member
    rw [new] at found
    cases found
  refine ⟨?_, fun other otherNode => ?_, ?_⟩
  · rw [Multiset.singleton_add, Multiset.map_cons, Multiset.nodup_cons]
    refine ⟨fun member => ?_, stores.nodup⟩
    obtain ⟨⟨key, other⟩, inCells, rfl⟩ := Multiset.mem_map.mp member
    exact absent other inCells
  · rw [others, Multiset.mem_add, Multiset.mem_singleton, Prod.mk.injEq]
    by_cases same : other = id
    · subst same
      rw [if_pos rfl, Option.some.injEq]
      simp [absent, eq_comm]
    · rw [if_neg same, ← stores.mem_iff]
      simp [same]
  · rw [size, stores.size_eq]
    simp

/-- A cell goes away. -/
theorem erase (stores : Stores nodes ({(id, node)} + rest)) :
    Stores (NodeStore.erase id nodes) rest := by
  have inUse : (NodeStore.get? id nodes).isSome := by rw [stores.get?]; rfl
  refine ⟨?_, fun other otherNode => ?_, ?_⟩
  · have nodup := stores.nodup
    rw [Multiset.singleton_add, Multiset.map_cons, Multiset.nodup_cons] at nodup
    exact nodup.2
  · rw [LawfulNodeStore.get?_erase inUse]
    by_cases same : other = id
    · subst same
      simp [stores.fresh]
    · rw [if_neg same, ← stores.mem_iff]
      simp [same]
  · rw [LawfulNodeStore.size_erase inUse, stores.size_eq]
    simp

theorem withCapacity (capacity : Nat) :
    Stores (NodeStore.withCapacity capacity : σ ν) 0 := by
  refine ⟨Multiset.nodup_zero, fun id node => ?_, LawfulNodeStore.size_withCapacity capacity⟩
  rw [LawfulNodeStore.get?_withCapacity]
  simp

theorem clear (nodes : σ ν) : Stores (NodeStore.clear nodes) 0 := by
  refine ⟨Multiset.nodup_zero, fun id node => ?_, LawfulNodeStore.size_clear nodes⟩
  rw [LawfulNodeStore.get?_clear]
  simp

end Changes

end Stores

end OrderedCollections
