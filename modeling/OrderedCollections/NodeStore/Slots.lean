/-
**A row of slots.**

The store that collections use unless they are told otherwise: nodes stand in a row of slots, and
the key of a node is the number of its slot. A slot that became vacant is filled again before the
row grows, the one that was vacated last comes first.

* `Slots.vacant`: the vacant slots, the last vacated first.
* `LawfulNodeStore Slots`: the row is a store that collections can rely on.
-/

import OrderedCollections.NodeStore

namespace OrderedCollections

/-- A row of slots, filled or vacant. -/
structure Slots (ν : Type) where
  slots : Array (Option ν) := #[]
  /-- The vacant slots, the last vacated first. -/
  vacant : List Nat := []
  /-- The number of filled slots. -/
  filled : Nat := 0
  vacant_empty : ∀ key ∈ vacant, slots[key]? = some none := by simp
  vacant_nodup : vacant.Nodup := by simp

namespace Slots

variable {ν : Type}

/-- The row without slots. -/
def empty : Slots ν :=
  {}

/-- The node in a slot. -/
def get? (id : NodeId) (row : Slots ν) : Option ν :=
  row.slots[id.key]?.join

/-- Fills the slot that was vacated last, or a new one at the end of the row. -/
def insert (node : ν) (row : Slots ν) : NodeId × Slots ν :=
  match listed : row.vacant with
  | [] =>
    (⟨row.slots.size⟩,
      { slots := row.slots.push (some node), filled := row.filled + 1 })
  | key :: others =>
    (⟨key⟩,
      { slots := row.slots.setIfInBounds key (some node)
        vacant := others
        filled := row.filled + 1
        vacant_empty := by
          intro other member
          have nodup := row.vacant_nodup
          rw [listed, List.nodup_cons] at nodup
          have different : key ≠ other := fun same => nodup.1 (same ▸ member)
          rw [Array.getElem?_setIfInBounds_ne different]
          exact row.vacant_empty other (by rw [listed]; exact List.mem_cons_of_mem _ member)
        vacant_nodup := by
          have nodup := row.vacant_nodup
          rw [listed, List.nodup_cons] at nodup
          exact nodup.2 })

/-- The row with another node in a filled slot. -/
def set (id : NodeId) (node : ν) (row : Slots ν) : Slots ν :=
  if inUse : (row.get? id).isSome then
    { row with
      slots := row.slots.setIfInBounds id.key (some node)
      vacant_empty := by
        intro other member
        have empty := row.vacant_empty other member
        have different : id.key ≠ other := by
          rintro rfl
          simp [get?, empty] at inUse
        rw [Array.getElem?_setIfInBounds_ne different]
        exact empty }
  else row

/-- The row with a filled slot vacated. -/
def erase (id : NodeId) (row : Slots ν) : Slots ν :=
  if inUse : (row.get? id).isSome then
    { slots := row.slots.setIfInBounds id.key none
      vacant := id.key :: row.vacant
      filled := row.filled - 1
      vacant_empty := by
        intro other member
        have inside : id.key < row.slots.size := by
          refine Nat.lt_of_not_le fun outside => ?_
          simp [get?, Array.getElem?_eq_none outside] at inUse
        by_cases same : id.key = other
        · subst same
          simp [inside]
        · rw [Array.getElem?_setIfInBounds_ne same]
          rcases List.mem_cons.mp member with rfl | old
          · exact absurd rfl same
          · exact row.vacant_empty other old
      vacant_nodup := by
        refine List.nodup_cons.mpr ⟨fun member => ?_, row.vacant_nodup⟩
        simp [get?, row.vacant_empty _ member] at inUse }
  else row

@[default_instance]
instance : NodeStore Slots where
  withCapacity _ := empty
  get? := get?
  insert := insert
  set := set
  erase := erase
  clear _ := empty
  size := filled

/-! ### The row as a store -/

theorem get?_empty (id : NodeId) : (empty : Slots ν).get? id = none := by
  simp [get?, empty]

theorem get?_eq_none_of_mem_vacant {row : Slots ν} {key : Nat} (member : key ∈ row.vacant) :
    row.get? ⟨key⟩ = none := by
  simp [get?, row.vacant_empty key member]

theorem lt_size_of_inUse {row : Slots ν} {id : NodeId} (inUse : (row.get? id).isSome) :
    id.key < row.slots.size := by
  refine Nat.lt_of_not_le fun outside => ?_
  simp [get?, Array.getElem?_eq_none outside] at inUse

theorem get?_insert_fst (node : ν) (row : Slots ν) : row.get? (row.insert node).1 = none := by
  unfold insert
  split
  · simp [get?]
  · rename_i key others listed
    exact get?_eq_none_of_mem_vacant (by simp [listed])

/-- A new node fills its slot and no other. -/
theorem get?_insert (node : ν) (row : Slots ν) (id : NodeId) :
    (row.insert node).2.get? id =
      if id = (row.insert node).1 then some node else row.get? id := by
  obtain ⟨place⟩ := id
  unfold insert
  split
  · simp only [get?, Array.getElem?_push, NodeId.mk.injEq]
    split <;> rfl
  · rename_i key others listed
    have empty := row.vacant_empty key (by simp [listed])
    simp only [get?, Array.getElem?_setIfInBounds, NodeId.mk.injEq]
    by_cases same : key = place
    · subst same
      have inside : key < row.slots.size := (Array.getElem?_eq_some_iff.mp empty).1
      simp [inside]
    · rw [if_neg same, if_neg (Ne.symm same)]

theorem filled_insert (node : ν) (row : Slots ν) :
    (row.insert node).2.filled = row.filled + 1 := by
  unfold insert
  split <;> rfl

theorem slots_set {row : Slots ν} {id : NodeId} (inUse : (row.get? id).isSome) (node : ν) :
    (row.set id node).slots = row.slots.setIfInBounds id.key (some node) := by
  rw [set, dif_pos inUse]

/-- Another node comes into its slot and no other. -/
theorem get?_set {row : Slots ν} {id : NodeId} (inUse : (row.get? id).isSome) (node : ν)
    (other : NodeId) :
    (row.set id node).get? other = if other = id then some node else row.get? other := by
  obtain ⟨key⟩ := id
  obtain ⟨place⟩ := other
  have inside : key < row.slots.size := lt_size_of_inUse inUse
  simp only [get?, slots_set inUse, Array.getElem?_setIfInBounds, NodeId.mk.injEq]
  by_cases same : key = place
  · subst same
    simp [inside]
  · rw [if_neg same, if_neg (Ne.symm same)]

theorem filled_set (id : NodeId) (node : ν) (row : Slots ν) :
    (row.set id node).filled = row.filled := by
  unfold set
  split <;> rfl

theorem slots_erase {row : Slots ν} {id : NodeId} (inUse : (row.get? id).isSome) :
    (row.erase id).slots = row.slots.setIfInBounds id.key none := by
  rw [erase, dif_pos inUse]

/-- A slot is vacated and no other. -/
theorem get?_erase {row : Slots ν} {id : NodeId} (inUse : (row.get? id).isSome)
    (other : NodeId) :
    (row.erase id).get? other = if other = id then none else row.get? other := by
  obtain ⟨key⟩ := id
  obtain ⟨place⟩ := other
  have inside : key < row.slots.size := lt_size_of_inUse inUse
  simp only [get?, slots_erase inUse, Array.getElem?_setIfInBounds, NodeId.mk.injEq]
  by_cases same : key = place
  · subst same
    simp [inside]
  · rw [if_neg same, if_neg (Ne.symm same)]

theorem filled_erase {row : Slots ν} {id : NodeId} (inUse : (row.get? id).isSome) :
    (row.erase id).filled = row.filled - 1 := by
  rw [erase, dif_pos inUse]

instance : LawfulNodeStore Slots where
  get?_withCapacity _ id := get?_empty id
  size_withCapacity _ := rfl
  get?_new := get?_insert_fst
  get?_insert := get?_insert
  size_insert := filled_insert
  get?_set inUse node other := get?_set inUse node other
  size_set _ node := filled_set _ node _
  get?_erase inUse other := get?_erase inUse other
  size_erase inUse := filled_erase inUse
  get?_clear _ id := get?_empty id
  size_clear _ := rfl

end Slots

end OrderedCollections
