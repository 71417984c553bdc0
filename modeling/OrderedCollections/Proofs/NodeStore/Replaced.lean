/-
**Stores in which nodes were replaced.**

Replacing a node under a key in use changes what the store holds under that key and nothing else, not
even which key the store will hand out next. So once every node is again the one that it was, the
store is the one that it was. That is more than the laws of a store say, which speak of what it holds
only; it is true of a row of slots.

* `Replaced`: some nodes were replaced, and none came or went.
* `FaithfulStore`: a store that is the same again once its nodes are.
* `FaithfulStore Slots`: a row of slots is such a store.
-/

import OrderedCollections.NodeStore.Slots

namespace OrderedCollections

/-- A store in which some nodes were replaced, one after the other, and none came or went. -/
inductive Replaced {σ : Type → Type} [NodeStore σ] {ν : Type} (nodes : σ ν) : σ ν → Prop
  | none : Replaced nodes nodes
  | set {other : σ ν} {id : NodeId} (before : Replaced nodes other)
      (inUse : (NodeStore.get? id other).isSome) (node : ν) :
      Replaced nodes (NodeStore.set id node other)

/-- A store that is the same again once all its nodes are, if they were only replaced. -/
class FaithfulStore (σ : Type → Type) [NodeStore σ] : Prop where
  eq_of_replaced {ν : Type} {nodes other : σ ν} (replaced : Replaced nodes other)
    (same : ∀ id, NodeStore.get? id other = NodeStore.get? id nodes) : other = nodes

theorem Replaced.trans {σ : Type → Type} [NodeStore σ] {ν : Type} {nodes middle other : σ ν}
    (first : Replaced nodes middle) (second : Replaced middle other) : Replaced nodes other := by
  induction second with
  | none => exact first
  | set before inUse node ih => exact ih.set inUse node

instance {σ : Type → Type} [NodeStore σ] {ν : Type} :
    Trans (Replaced : σ ν → σ ν → Prop) Replaced Replaced :=
  ⟨Replaced.trans⟩

namespace Slots

variable {ν : Type}

theorem vacant_set (id : NodeId) (node : ν) (row : Slots ν) :
    (row.set id node).vacant = row.vacant := by
  unfold set
  split <;> rfl

/-- Where nodes are replaced, no slot is filled or vacated. -/
theorem vacant_of_replaced {row other : Slots ν} (replaced : Replaced row other) :
    other.slots.size = row.slots.size ∧ other.vacant = row.vacant ∧ other.filled = row.filled := by
  induction replaced with
  | none => exact ⟨rfl, rfl, rfl⟩
  | @set other id before inUse node ih =>
    obtain ⟨size, vacant, filled⟩ := ih
    refine ⟨?_, (vacant_set id node other).trans vacant, (filled_set id node other).trans filled⟩
    show (other.set id node).slots.size = _
    rw [slots_set inUse, Array.size_setIfInBounds, size]

theorem slot_eq_get? {row : Slots ν} {place : Nat} (inside : place < row.slots.size) :
    row.slots[place] = row.get? ⟨place⟩ := by
  rw [get?, Array.getElem?_eq_getElem inside, Option.join_some]

instance : FaithfulStore Slots where
  eq_of_replaced {ν row other} replaced same := by
    obtain ⟨size, vacant, filled⟩ := vacant_of_replaced replaced
    have slots : other.slots = row.slots := by
      refine Array.ext size fun place inside inside' => ?_
      rw [slot_eq_get?, slot_eq_get?]
      exact same ⟨place⟩
    cases other
    cases row
    cases slots
    cases vacant
    cases filled
    rfl

end Slots

end OrderedCollections
