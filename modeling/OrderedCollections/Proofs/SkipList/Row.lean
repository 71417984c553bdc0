/-
**Rows of towers.**

What the links of a skip list stand for is a row: its towers from the first to the last, each with
its key, its element and its height. From the row alone one can tell where the link of an owner on a
level has to lead and how many positions it has to pass.

* `ahead`: the link on a level of an owner that stands before the given towers.
* `ahead_cases`: either nothing ahead is tall enough, or the link leads to the first that is.
* `owner`, `Reaches`: the owner that stands behind the given towers, and the levels it takes part in.
* `peak`: the number of levels that a row needs.
* `usedLevels_eq_peak`: these are the levels that stay in use when towers have gone.
-/

import Mathlib.Data.List.Nodup
import OrderedCollections.SkipList.Links

namespace OrderedCollections.SkipList

/-- A tower as the row knows it. -/
structure Tower (α : Type) where
  id : NodeId
  value : α
  height : Nat
  deriving DecidableEq, Repr

variable {α : Type}

/-! ### The link that leads on -/

/-- The link on a level of an owner that stands before the towers `back`. -/
def ahead (level : Nat) : List (Tower α) → Link
  | [] => ⟨none, 0⟩
  | tower :: back =>
    if level < tower.height then ⟨some tower.id, 1⟩
    else ⟨(ahead level back).next, (ahead level back).span + 1⟩

theorem ahead_cons_of_tall {level : Nat} {tower : Tower α} (tall : level < tower.height)
    (back : List (Tower α)) : ahead level (tower :: back) = ⟨some tower.id, 1⟩ :=
  if_pos tall

theorem ahead_cons_of_short {level : Nat} {tower : Tower α} (short : tower.height ≤ level)
    (back : List (Tower α)) :
    ahead level (tower :: back) = ⟨(ahead level back).next, (ahead level back).span + 1⟩ :=
  if_neg (by omega)

/-- Towers that a level passes above make the link longer and nothing else. -/
theorem ahead_append_of_short {level : Nat} {skipped : List (Tower α)}
    (short : ∀ tower ∈ skipped, tower.height ≤ level) (back : List (Tower α)) :
    ahead level (skipped ++ back) =
      ⟨(ahead level back).next, (ahead level back).span + skipped.length⟩ := by
  induction skipped with
  | nil => rfl
  | cons tower others ih =>
    have shortOthers : ∀ other ∈ others, other.height ≤ level :=
      fun other member => short other (List.mem_cons_of_mem _ member)
    rw [List.cons_append, ahead_cons_of_short (short tower List.mem_cons_self), ih shortOthers,
      List.length_cons]
    rfl

/-- Where nothing ahead is tall enough the link leads nowhere and counts what follows. -/
theorem ahead_of_short {level : Nat} {back : List (Tower α)}
    (short : ∀ tower ∈ back, tower.height ≤ level) : ahead level back = ⟨none, back.length⟩ := by
  have passed := ahead_append_of_short short []
  rw [List.append_nil] at passed
  rw [passed]
  simp [ahead]

theorem ahead_append_cons {level : Nat} {skipped : List (Tower α)} {tower : Tower α}
    (short : ∀ other ∈ skipped, other.height ≤ level) (tall : level < tower.height)
    (back : List (Tower α)) :
    ahead level (skipped ++ tower :: back) = ⟨some tower.id, skipped.length + 1⟩ := by
  rw [ahead_append_of_short short, ahead_cons_of_tall tall, Nat.add_comm]

/-- Either nothing ahead is tall enough, or there is a first tower that is. -/
theorem ahead_cases (level : Nat) (back : List (Tower α)) :
    (∀ tower ∈ back, tower.height ≤ level) ∨
      ∃ skipped tower others, back = skipped ++ tower :: others ∧
        (∀ other ∈ skipped, other.height ≤ level) ∧ level < tower.height := by
  induction back with
  | nil => exact Or.inl (List.forall_mem_nil _)
  | cons tower back ih =>
    by_cases tall : level < tower.height
    · exact Or.inr ⟨[], tower, back, rfl, List.forall_mem_nil _, tall⟩
    · have short : tower.height ≤ level := by omega
      rcases ih with allShort | ⟨skipped, next, others, rfl, shortSkipped, tallNext⟩
      · exact Or.inl (List.forall_mem_cons.mpr ⟨short, allShort⟩)
      · exact Or.inr ⟨tower :: skipped, next, others, rfl,
          List.forall_mem_cons.mpr ⟨short, shortSkipped⟩, tallNext⟩

theorem ahead_append_of_tall {level : Nat} {front : List (Tower α)} {tower : Tower α}
    (member : tower ∈ front) (tall : level < tower.height) (back other : List (Tower α)) :
    ahead level (front ++ back) = ahead level (front ++ other) := by
  rcases ahead_cases level front with allShort | ⟨skipped, next, others, rfl, short, tallNext⟩
  · exact absurd (allShort tower member) (by omega)
  · rw [List.append_assoc, List.append_assoc, List.cons_append, List.cons_append,
      ahead_append_cons short tallNext, ahead_append_cons short tallNext]

/-- The link leads to one of the towers ahead. -/
theorem mem_of_ahead_next {level : Nat} {back : List (Tower α)} {id : NodeId}
    (leads : (ahead level back).next = some id) : id ∈ back.map Tower.id := by
  rcases ahead_cases level back with allShort | ⟨skipped, tower, others, rfl, short, tall⟩
  · rw [ahead_of_short allShort] at leads
    cases leads
  · rw [ahead_append_cons short tall] at leads
    cases leads
    simp

theorem ahead_next_eq_none {level : Nat} {back : List (Tower α)} :
    (ahead level back).next = none ↔ ∀ tower ∈ back, tower.height ≤ level := by
  refine ⟨fun nowhere => ?_, fun short => by rw [ahead_of_short short]⟩
  rcases ahead_cases level back with allShort | ⟨skipped, tower, others, rfl, short, tall⟩
  · exact allShort
  · rw [ahead_append_cons short tall] at nowhere
    cases nowhere

theorem ahead_zero_next {back : List (Tower α)} (positive : ∀ tower ∈ back, 0 < tower.height) :
    (ahead 0 back).next = back.head?.map Tower.id := by
  cases back with
  | nil => rfl
  | cons tower back => rw [ahead_cons_of_tall (positive tower List.mem_cons_self)]; rfl

/-! ### The owner behind some towers -/

/-- The key of the last of some towers. -/
def lastId? (front : List (Tower α)) : Option NodeId :=
  front.getLast?.map Tower.id

/-- The owner that stands behind some towers: the last one, or the header. -/
def owner (front : List (Tower α)) : Cursor :=
  match lastId? front with
  | none => .head
  | some id => .node id

/-- The owner behind some towers takes part in a level. -/
def Reaches (level : Nat) (front : List (Tower α)) : Prop :=
  ∀ tower ∈ front.getLast?, level < tower.height

@[simp] theorem lastId?_concat (front : List (Tower α)) (tower : Tower α) :
    lastId? (front ++ [tower]) = some tower.id := by
  simp [lastId?]

@[simp] theorem owner_nil : owner ([] : List (Tower α)) = .head := rfl

@[simp] theorem owner_concat (front : List (Tower α)) (tower : Tower α) :
    owner (front ++ [tower]) = .node tower.id := by
  simp [owner]

theorem owner_id? (front : List (Tower α)) : (owner front).id? = lastId? front := by
  unfold owner
  cases lastId? front <;> rfl

theorem reaches_nil (level : Nat) : Reaches level ([] : List (Tower α)) :=
  by simp [Reaches]

@[simp] theorem reaches_concat {level : Nat} {front : List (Tower α)} {tower : Tower α} :
    Reaches level (front ++ [tower]) ↔ level < tower.height := by
  simp [Reaches]

theorem lastId?_insert (front : List (Tower α)) (tower first : Tower α) (others : List (Tower α)) :
    lastId? (front ++ tower :: first :: others) = lastId? (front ++ first :: others) := by
  simp [lastId?, List.getLast?_append, List.getLast?_cons]

/-- In a row without repetition no tower stands in two parts. -/
theorem notMem_of_behind {near far : List (Tower α)} {tower : Tower α}
    (nodup : ((near ++ far).map Tower.id).Nodup) (member : tower ∈ far) :
    tower.id ∉ near.map Tower.id := by
  intro before
  rw [List.map_append, List.nodup_append] at nodup
  exact nodup.2.2 tower.id before tower.id (List.mem_map_of_mem member) rfl

theorem owner_ne_node {front : List (Tower α)} {id : NodeId}
    (absent : id ∉ front.map Tower.id) : owner front ≠ .node id := by
  rcases List.eq_nil_or_concat' front with rfl | ⟨others, tower, rfl⟩
  · rintro ⟨⟩
  · rw [owner_concat]
    rintro ⟨⟩
    exact absent (by simp)

theorem owner_ne_of_shorter {front more : List (Tower α)}
    (nodup : ((front ++ more).map Tower.id).Nodup) (longer : more ≠ []) :
    owner front ≠ owner (front ++ more) := by
  obtain rfl | ⟨others, tower, rfl⟩ := List.eq_nil_or_concat' more
  · exact absurd rfl longer
  · rw [← List.append_assoc, owner_concat]
    exact owner_ne_node (notMem_of_behind nodup (by simp))

/-- Different parts of a row without repetition end with different owners. -/
theorem owner_ne_of_ne {front middle near skipped : List (Tower α)}
    (cut : front ++ middle = near ++ skipped) (nodup : ((front ++ middle).map Tower.id).Nodup)
    (different : front ≠ near) : owner front ≠ owner near := by
  rcases List.append_eq_append_iff.mp cut with ⟨more, rfl, rfl⟩ | ⟨more, rfl, rfl⟩
  · refine owner_ne_of_shorter ?_ fun none => different (by rw [none, List.append_nil])
    rw [← List.append_assoc, List.map_append, List.nodup_append] at nodup
    exact nodup.1
  · refine (owner_ne_of_shorter ?_ fun none => different (by rw [none, List.append_nil])).symm
    rw [List.map_append, List.nodup_append] at nodup
    exact nodup.1

/-! ### The levels in use -/

/-- The number of levels that a row needs: the height of the tallest tower, and at least one. -/
def peak (row : List (Tower α)) : Nat :=
  row.foldr (fun tower most => max tower.height most) 1

@[simp] theorem peak_nil : peak ([] : List (Tower α)) = 1 := rfl

@[simp] theorem peak_cons (tower : Tower α) (row : List (Tower α)) :
    peak (tower :: row) = max tower.height (peak row) := rfl

theorem one_le_peak (row : List (Tower α)) : 1 ≤ peak row := by
  induction row with
  | nil => exact Nat.le_refl 1
  | cons tower row ih => rw [peak_cons]; omega

theorem peak_append (front back : List (Tower α)) :
    peak (front ++ back) = max (peak front) (peak back) := by
  induction front with
  | nil =>
    have positive := one_le_peak back
    rw [List.nil_append, peak_nil]
    omega
  | cons tower front ih => rw [List.cons_append, peak_cons, peak_cons, ih, Nat.max_assoc]

theorem peak_map {β : Type} {change : Tower α → Tower β}
    (heights : ∀ tower, (change tower).height = tower.height) (row : List (Tower α)) :
    peak (row.map change) = peak row := by
  induction row with
  | nil => rfl
  | cons tower row ih => rw [List.map_cons, peak_cons, peak_cons, heights, ih]

theorem peak_insert (front back : List (Tower α)) (tower : Tower α) :
    peak (front ++ tower :: back) = max (peak (front ++ back)) tower.height := by
  rw [peak_append, peak_append, peak_cons]
  omega

theorem height_le_peak {row : List (Tower α)} {tower : Tower α} (member : tower ∈ row) :
    tower.height ≤ peak row := by
  induction row with
  | nil => cases member
  | cons first row ih =>
    rw [peak_cons]
    rcases List.mem_cons.mp member with rfl | later
    · exact Nat.le_max_left _ _
    · exact Nat.le_trans (ih later) (Nat.le_max_right _ _)

/-- A row needs no more levels than every one of its towers has, and one. -/
theorem peak_le {row : List (Tower α)} {most : Nat} (positive : 1 ≤ most)
    (bounded : ∀ tower ∈ row, tower.height ≤ most) : peak row ≤ most := by
  induction row with
  | nil => exact positive
  | cons tower row ih =>
    rw [peak_cons]
    exact Nat.max_le.mpr ⟨bounded tower List.mem_cons_self,
      ih fun other member => bounded other (List.mem_cons_of_mem _ member)⟩

/-- Above the lowest level, the highest level in use has a tower. -/
theorem exists_height_eq_peak {row : List (Tower α)} (tall : 1 < peak row) :
    ∃ tower ∈ row, tower.height = peak row := by
  induction row with
  | nil => exact absurd tall (Nat.lt_irrefl 1)
  | cons tower row ih =>
    rw [peak_cons] at tall ⊢
    by_cases first : peak row ≤ tower.height
    · exact ⟨tower, List.mem_cons_self, (Nat.max_eq_left first).symm⟩
    · have later : max tower.height (peak row) = peak row := Nat.max_eq_right (by omega)
      rw [later] at tall ⊢
      obtain ⟨other, member, same⟩ := ih tall
      exact ⟨other, List.mem_cons_of_mem _ member, same⟩

/-- **The levels given up**: those that no tower of the row needs, where the header leads as the row
asks. -/
theorem usedLevels_eq_peak {leads : Nat → Checked (Option NodeId)} {levels : Nat}
    {row : List (Tower α)} (laid : ∀ level < levels, leads level = .ok (ahead level row).next)
    (lower : peak row ≤ levels) : usedLevels leads levels = .ok (peak row) := by
  have positive := one_le_peak row
  induction levels with
  | zero => omega
  | succ top ih =>
    cases top with
    | zero =>
      have lowest : peak row = 1 := Nat.le_antisymm lower positive
      rw [lowest]
      rfl
    | succ level =>
      rw [usedLevels, laid (level + 1) (Nat.lt_succ_self _), Checked.ok_bind]
      by_cases nowhere : (ahead (level + 1) row).next = none
      · have fewer : peak row ≤ level + 1 :=
          peak_le (Nat.le_add_left 1 level) (ahead_next_eq_none.mp nowhere)
        rw [nowhere]
        exact ih (fun below less => laid below (Nat.lt_succ_of_lt less)) fewer
      · have all : ¬peak row ≤ level + 1 := fun fewer => nowhere <|
          ahead_next_eq_none.mpr fun tower member => Nat.le_trans (height_le_peak member) fewer
        have same : peak row = level + 2 := Nat.le_antisymm lower (Nat.lt_of_not_le all)
        rw [if_neg fun none => nowhere (Option.isNone_iff_eq_none.mp none), same]
        rfl

/-- Of the keys of a row, those of towers on a level are told by the heights. -/
theorem ids_on_level {heightOf : NodeId → Nat} {row : List (Tower α)}
    (known : ∀ tower ∈ row, heightOf tower.id = tower.height) (level : Nat) :
    (row.map Tower.id).filter (fun id => level < heightOf id) =
      (row.filter fun tower => level < tower.height).map Tower.id := by
  rw [List.filter_map]
  refine congrArg _ (List.filter_congr fun tower member => ?_)
  rw [Function.comp_apply, known tower member]

theorem ids_on_lowest {heightOf : NodeId → Nat} {row : List (Tower α)}
    (known : ∀ tower ∈ row, heightOf tower.id = tower.height)
    (positive : ∀ tower ∈ row, 0 < tower.height) :
    (row.map Tower.id).filter (fun id => 0 < heightOf id) = row.map Tower.id := by
  rw [ids_on_level known 0]
  exact congrArg _ (List.filter_eq_self.mpr fun tower member => decide_eq_true (positive tower member))

/-- The levels that a row needs are told by the heights of its nodes as well. -/
theorem peak_of_ids {heightOf : NodeId → Nat} {row : List (Tower α)}
    (known : ∀ tower ∈ row, heightOf tower.id = tower.height) :
    peak row = ((row.map Tower.id).map heightOf).foldr max 1 := by
  have same : (row.map Tower.id).map heightOf = row.map Tower.height := by
    rw [List.map_map]
    exact List.map_congr_left known
  rw [same, List.foldr_map]
  rfl

/-! ### Places in a row -/

/-- Where a row with one more tower is cut: before the tower, or behind it. -/
theorem append_eq_insert_iff {front back near far : List (Tower α)} {tower : Tower α} :
    near ++ far = front ++ tower :: back ↔
      (∃ middle, front = near ++ middle ∧ far = middle ++ tower :: back) ∨
        ∃ middle, near = front ++ tower :: middle ∧ back = middle ++ far := by
  refine ⟨fun same => ?_, ?_⟩
  · rcases List.append_eq_append_iff.mp same with ⟨middle, cut, rest⟩ | ⟨middle, cut, rest⟩
    · exact Or.inl ⟨middle, cut, rest⟩
    · cases middle with
      | nil =>
        rw [List.append_nil] at cut
        rw [List.nil_append] at rest
        exact Or.inl ⟨[], by rw [cut, List.append_nil], by rw [rest, List.nil_append]⟩
      | cons first middle =>
        rw [List.cons_append, List.cons.injEq] at rest
        obtain ⟨rfl, rest⟩ := rest
        exact Or.inr ⟨middle, cut, rest⟩
  · rintro (⟨middle, rfl, rfl⟩ | ⟨middle, rfl, rfl⟩)
    · rw [List.append_assoc]
    · rw [List.append_assoc, List.cons_append]

/-- Where a tower stands in a row with a gap: before the gap, right behind it, or further on. -/
theorem gap_cases {front back near far : List (Tower α)} {other : Tower α}
    (split : near ++ other :: far = front ++ back) :
    (∃ middle, front = near ++ other :: middle ∧ far = middle ++ back) ∨
      (near = front ∧ back = other :: far) ∨
      ∃ first middle, near = front ++ first :: middle ∧ back = first :: middle ++ other :: far := by
  rcases List.append_eq_append_iff.mp split with ⟨middle, rfl, rest⟩ | ⟨middle, rfl, rfl⟩
  · cases middle with
    | nil => exact Or.inr (Or.inl ⟨(List.append_nil near).symm, rest.symm⟩)
    | cons first middle =>
      rw [List.cons_append, List.cons.injEq] at rest
      obtain ⟨rfl, rfl⟩ := rest
      exact Or.inl ⟨middle, rfl, rfl⟩
  · cases middle with
    | nil => exact Or.inr (Or.inl ⟨List.append_nil front, rfl⟩)
    | cons first middle => exact Or.inr (Or.inr ⟨first, middle, rfl, rfl⟩)

/-- Where a tower stands in a row with one more: before the new one, in its place, right behind it,
or further on. -/
theorem place_cases {front back near far : List (Tower α)} {tower other : Tower α}
    (split : near ++ other :: far = front ++ tower :: back) :
    (∃ middle, front = near ++ other :: middle ∧ far = middle ++ tower :: back) ∨
      (near = front ∧ other = tower ∧ far = back) ∨
      (near = front ++ [tower] ∧ back = other :: far) ∨
      ∃ first middle, near = front ++ tower :: first :: middle ∧
        back = first :: middle ++ other :: far := by
  rcases gap_cases split with before | ⟨rfl, same⟩ | ⟨first, middle, rfl, same⟩
  · exact Or.inl before
  · obtain ⟨rfl, rfl⟩ := List.cons.inj same
    exact Or.inr (Or.inl ⟨rfl, rfl, rfl⟩)
  · rw [List.cons_append] at same
    obtain ⟨rfl, rfl⟩ := List.cons.inj same
    cases middle with
    | nil => exact Or.inr (Or.inr (Or.inl ⟨rfl, rfl⟩))
    | cons second middle => exact Or.inr (Or.inr (Or.inr ⟨second, middle, rfl, rfl⟩))

theorem nodup_insert {front back : List (Tower α)} {tower : Tower α} :
    ((front ++ tower :: back).map Tower.id).Nodup ↔
      tower.id ∉ (front ++ back).map Tower.id ∧ ((front ++ back).map Tower.id).Nodup := by
  rw [List.map_append, List.map_cons, List.nodup_middle, List.nodup_cons, List.map_append]

theorem mem_ids_insert {front back : List (Tower α)} {tower : Tower α} {id : NodeId} :
    id ∈ (front ++ tower :: back).map Tower.id ↔
      id = tower.id ∨ id ∈ (front ++ back).map Tower.id := by
  rw [List.map_append, List.map_cons, List.mem_append, List.mem_cons, List.map_append,
    List.mem_append]
  exact or_left_comm

theorem sublist_insert (front back : List (Tower α)) (tower : Tower α) :
    (front ++ back).Sublist (front ++ tower :: back) :=
  (List.sublist_cons_self tower back).append_left front

theorem forall_mem_insert {front back : List (Tower α)} {tower : Tower α}
    {property : Tower α → Prop} :
    (∀ other ∈ front ++ tower :: back, property other) ↔
      property tower ∧ ∀ other ∈ front ++ back, property other := by
  rw [List.forall_mem_append, List.forall_mem_cons, List.forall_mem_append]
  exact and_left_comm

theorem ne_first {back : List (Tower α)} {id : NodeId} (absent : id ∉ back.map Tower.id) :
    some id ≠ back.head?.map Tower.id := by
  intro same
  obtain ⟨first, isFirst, rfl⟩ := Option.map_eq_some_iff.mp same.symm
  exact absent (List.mem_map_of_mem (List.mem_of_mem_head? isFirst))

theorem ne_first_of_before {near middle back : List (Tower α)} {tower : Tower α}
    (nodup : ((near ++ tower :: middle ++ back).map Tower.id).Nodup) :
    some tower.id ≠ back.head?.map Tower.id := by
  rw [List.append_assoc, List.cons_append] at nodup
  refine ne_first fun member => (nodup_insert.mp nodup).1 ?_
  rw [List.map_append, List.map_append]
  exact List.mem_append_right _ (List.mem_append_right _ member)

theorem ne_first_of_later {front middle far : List (Tower α)} {first tower : Tower α}
    (nodup : ((front ++ first :: middle ++ tower :: far).map Tower.id).Nodup) :
    some tower.id ≠ ((first :: middle ++ tower :: far).head?).map Tower.id := by
  intro same
  refine (nodup_insert.mp nodup).1 ?_
  rw [Option.some.inj same]
  simp

theorem lastId?_insert_eq (front back : List (Tower α)) (tower : Tower α) :
    lastId? (front ++ tower :: back) =
      if back.head?.map Tower.id = none then some tower.id else lastId? (front ++ back) := by
  cases back with
  | nil => exact lastId?_concat front tower
  | cons first others =>
    rw [List.head?_cons, Option.map_some, if_neg (Option.some_ne_none _), lastId?_insert]

/-- The last tower of a row with one less: the one before it, if it stood last. -/
theorem lastId?_erase_eq (front back : List (Tower α)) (tower : Tower α) :
    lastId? (front ++ back) = if back.head?.map Tower.id = none then lastId? front
      else lastId? (front ++ tower :: back) := by
  cases back with
  | nil =>
    rw [List.append_nil]
    rfl
  | cons first others =>
    rw [List.head?_cons, Option.map_some, if_neg (Option.some_ne_none _), lastId?_insert]

/-- A tower of a row without repetition stands in one place. -/
theorem place_unique {front back near far : List (Tower α)} {tower other : Tower α}
    (same : front ++ tower :: back = near ++ other :: far)
    (nodup : ((near ++ other :: far).map Tower.id).Nodup) (known : tower.id = other.id) :
    front = near ∧ tower = other ∧ back = far := by
  have absent := (nodup_insert.mp nodup).1
  rw [← known] at absent
  rcases place_cases same with
    ⟨middle, rfl, rfl⟩ | place | ⟨rfl, rfl⟩ | ⟨first, middle, rfl, rfl⟩
  · exact absurd (List.mem_map_of_mem (by simp)) absent
  · exact place
  · exact absurd (List.mem_map_of_mem (by simp)) absent
  · exact absurd (List.mem_map_of_mem (by simp)) absent

/-- There is only one first tower that is tall enough. -/
theorem firstTall_unique {level : Nat} {skipped others skipped' others' : List (Tower α)}
    {tower tower' : Tower α} (same : skipped ++ tower :: others = skipped' ++ tower' :: others')
    (short : ∀ other ∈ skipped, other.height ≤ level) (tall : level < tower.height)
    (short' : ∀ other ∈ skipped', other.height ≤ level) (tall' : level < tower'.height) :
    skipped = skipped' ∧ tower = tower' ∧ others = others' := by
  rcases place_cases same with
    ⟨middle, rfl, rfl⟩ | place | ⟨rfl, rfl⟩ | ⟨first, middle, rfl, rfl⟩
  · exact absurd tall (Nat.not_lt_of_le (short' tower (by simp)))
  · exact place
  · exact absurd tall' (Nat.not_lt_of_le (short tower' (by simp)))
  · exact absurd tall' (Nat.not_lt_of_le (short tower' (by simp)))

end OrderedCollections.SkipList
