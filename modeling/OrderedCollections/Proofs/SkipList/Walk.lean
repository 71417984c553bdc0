/-
**Walking along a list in both directions.**

Towards the back a walk follows the lowest links, towards the front the links that every node keeps to
the one before it; where either starts is kept apart from both. They agree nonetheless: an entry at a
position leads to the entries at the positions beside it, and only the outermost entries lead nowhere.

* `stride`, `drain_stride`: a walk that goes on for as long as a step leads somewhere.
* `Walkable`: what the steps from the entries of a list lead to.
* `Sound.walkable`: a sound list can be walked along.
* `run_walks`: every list that a run ends with can be walked along, and its iterator yields its
  elements exactly.
-/

import OrderedCollections.Comparator.Integer
import OrderedCollections.Proofs.Interleaving
import OrderedCollections.Proofs.SkipList.Ranks
import OrderedCollections.Proofs.SkipList.Towers

namespace OrderedCollections.SkipList

/-! ### Walks -/

section Stride

variable {β : Type} {step : β → Checked (Option β)}

/-- One stride of a walk: the place where it is, and the place where it goes on, if there is one. -/
def stride (step : β → Checked (Option β)) : Option β → Checked (Option (β × Option β))
  | none => return none
  | some place => return some (place, ← step place)

/-- A walk passes through some places where a step leads from each of them to the next one, and from
the last one nowhere. -/
theorem drain_stride {places : List β}
    (leads : ∀ before place behind, before ++ place :: behind = places →
      step place = .ok behind.head?)
    {steps : Nat} (enough : places.length ≤ steps) :
    drain (stride step) steps places.head? = .ok places := by
  induction places generalizing steps with
  | nil =>
    cases steps with
    | zero => rfl
    | succ steps => rfl
  | cons place others ih =>
    obtain ⟨fewer, rfl⟩ : ∃ fewer, steps = fewer + 1 := Nat.exists_eq_add_of_le' (by
      rw [List.length_cons] at enough
      omega)
    have onward := ih (fun before next behind split => leads (place :: before) next behind
      (congrArg _ split)) (Nat.le_of_succ_le_succ enough)
    simp only [drain, List.head?_cons, stride, leads [] place others rfl, Checked.ok_bind,
      Checked.pure_eq_ok, onward]

end Stride

/-! ### Entries beside each other -/

variable {α ρ : Type} {σ : Type → Type} [NodeStore σ]

/-- **The entries of a list lead to each other as they stand in the row**, in both directions. -/
structure Walkable (list : SkipList α ρ σ) (row : List NodeId) : Prop where
  /-- Every live node has a position in the row. -/
  placed : ∀ id, (NodeStore.get? id list.nodes).isSome → ∃ position : Nat, row[position]? = some id
  /-- The rank of an entry tells its position in the row. -/
  rank : ∀ position id, row[position]? = some id →
    (⟨list, id⟩ : Entry α ρ σ).rank = .ok (position + 1)
  next? : ∀ position id, row[position]? = some id →
    (⟨list, id⟩ : Entry α ρ σ).next? = .ok (row[position + 1]?.map (Entry.mk list))
  prev? : ∀ position id, row[position + 1]? = some id →
    (⟨list, id⟩ : Entry α ρ σ).prev? = .ok (row[position]?.map (Entry.mk list))
  /-- The last entry, and no other one, has none behind it. -/
  next?_none : ∀ position id, row[position]? = some id →
    ((⟨list, id⟩ : Entry α ρ σ).next? = .ok none ↔ position + 1 = list.size)
  /-- The first entry, and no other one, has none before it. -/
  prev?_none : ∀ position id, row[position]? = some id →
    ((⟨list, id⟩ : Entry α ρ σ).prev? = .ok none ↔ position = 0)
  /-- A step back undoes a step forward. -/
  prev?_next? : ∀ id, id ∈ row → ∀ other, (⟨list, id⟩ : Entry α ρ σ).next? = .ok (some other) →
    other.prev? = .ok (some ⟨list, id⟩)
  /-- A step forward undoes a step back. -/
  next?_prev? : ∀ id, id ∈ row → ∀ other, (⟨list, id⟩ : Entry α ρ σ).prev? = .ok (some other) →
    other.next? = .ok (some ⟨list, id⟩)
  /-- The walk from the front passes every entry once, and then it ends. -/
  forward : ∀ steps, list.size ≤ steps →
    drain (stride Entry.next?) steps list.front? = .ok (row.map (Entry.mk list))
  /-- The walk from the back passes the same entries the other way round. -/
  backward : ∀ steps, list.size ≤ steps →
    drain (stride Entry.prev?) steps list.back? = .ok (row.map (Entry.mk list)).reverse

section Positions

variable {row front back : List (Tower α)} {tower : Tower α}

/-- A position in the row is that of a tower with others in front of it and behind it. -/
theorem exists_split {position : Nat} {id : NodeId}
    (here : (row.map Tower.id)[position]? = some id) :
    ∃ front tower back, front ++ tower :: back = row ∧ front.length = position ∧ tower.id = id := by
  rw [List.getElem?_map, Option.map_eq_some_iff] at here
  obtain ⟨tower, found, same⟩ := here
  obtain ⟨inside, rfl⟩ := List.getElem?_eq_some_iff.mp found
  refine ⟨row.take position, row[position], row.drop (position + 1), ?_, ?_, same⟩
  · rw [← List.drop_eq_getElem_cons inside, List.take_append_drop]
  · rw [List.length_take, Nat.min_eq_left (Nat.le_of_lt inside)]

/-- The keys beside that of a tower. -/
theorem ids_beside (split : front ++ tower :: back = row) :
    (row.map Tower.id)[front.length + 1]? = back.head?.map Tower.id ∧
      ∀ position, front.length = position + 1 →
        (row.map Tower.id)[position]? = front.getLast?.map Tower.id := by
  subst split
  constructor
  · rw [List.getElem?_map, List.getElem?_append_right (Nat.le_add_right _ 1), Nat.add_sub_cancel_left,
      List.getElem?_cons_succ, List.head?_eq_getElem?]
  · intro position length
    rw [List.getElem?_map, List.getElem?_append_left (by omega), List.getLast?_eq_getElem?, length,
      Nat.add_sub_cancel]

end Positions

namespace Sound

variable {list : SkipList α ρ σ} {row : List (Tower α)}

theorem next?_at (sound : Sound list row) {position : Nat} {id : NodeId}
    (here : (row.map Tower.id)[position]? = some id) :
    (⟨list, id⟩ : Entry α ρ σ).next? =
      .ok ((row.map Tower.id)[position + 1]?.map (Entry.mk list)) := by
  obtain ⟨front, tower, back, split, rfl, rfl⟩ := exists_split here
  rw [Entry.next?_spec sound split, (ids_beside split).1, Option.map_map]
  rfl

theorem prev?_at (sound : Sound list row) {position : Nat} {id : NodeId}
    (here : (row.map Tower.id)[position + 1]? = some id) :
    (⟨list, id⟩ : Entry α ρ σ).prev? = .ok ((row.map Tower.id)[position]?.map (Entry.mk list)) := by
  obtain ⟨front, tower, back, split, length, rfl⟩ := exists_split here
  rw [Entry.prev?_spec sound split, (ids_beside split).2 position length, Option.map_map]
  rfl

theorem next?_none_iff (sound : Sound list row) {position : Nat} {id : NodeId}
    (here : (row.map Tower.id)[position]? = some id) :
    (⟨list, id⟩ : Entry α ρ σ).next? = .ok none ↔ position + 1 = list.size := by
  have inside := (List.getElem?_eq_some_iff.mp here).1
  rw [List.length_map, ← sound.size_eq] at inside
  rw [sound.next?_at here, Except.ok.injEq, Option.map_eq_none_iff, List.getElem?_eq_none_iff,
    List.length_map, ← sound.size_eq]
  omega

theorem prev?_none_iff (sound : Sound list row) {position : Nat} {id : NodeId}
    (here : (row.map Tower.id)[position]? = some id) :
    (⟨list, id⟩ : Entry α ρ σ).prev? = .ok none ↔ position = 0 := by
  cases position with
  | zero =>
    obtain ⟨front, tower, back, split, length, rfl⟩ := exists_split here
    obtain rfl := List.length_eq_zero_iff.mp length
    exact iff_of_true (Entry.prev?_spec sound split) rfl
  | succ position =>
    have inside := (List.getElem?_eq_some_iff.mp here).1
    rw [sound.prev?_at here, Except.ok.injEq, Option.map_eq_none_iff, List.getElem?_eq_none_iff]
    omega

theorem prev?_of_next? (sound : Sound list row) {id : NodeId} (member : id ∈ row.map Tower.id)
    {other : Entry α ρ σ} (leads : (⟨list, id⟩ : Entry α ρ σ).next? = .ok (some other)) :
    other.prev? = .ok (some ⟨list, id⟩) := by
  obtain ⟨position, here⟩ := List.mem_iff_getElem?.mp member
  rw [sound.next?_at here, Except.ok.injEq, Option.map_eq_some_iff] at leads
  obtain ⟨next, there, rfl⟩ := leads
  rw [sound.prev?_at there, here, Option.map_some]

/-- A step forward undoes a step back. -/
theorem next?_of_prev? (sound : Sound list row) {id : NodeId} (member : id ∈ row.map Tower.id)
    {other : Entry α ρ σ} (leads : (⟨list, id⟩ : Entry α ρ σ).prev? = .ok (some other)) :
    other.next? = .ok (some ⟨list, id⟩) := by
  obtain ⟨position, here⟩ := List.mem_iff_getElem?.mp member
  cases position with
  | zero =>
    rw [(sound.prev?_none_iff here).mpr rfl] at leads
    cases leads
  | succ position =>
    rw [sound.prev?_at here, Except.ok.injEq, Option.map_eq_some_iff] at leads
    obtain ⟨before, there, rfl⟩ := leads
    rw [sound.next?_at there, here, Option.map_some]

/-- The walk from the front. -/
theorem forward (sound : Sound list row) {steps : Nat} (enough : list.size ≤ steps) :
    drain (stride Entry.next?) steps list.front? =
      .ok ((row.map Tower.id).map (Entry.mk list)) := by
  have start : list.front? = ((row.map Tower.id).map (Entry.mk list)).head? := by
    rw [front?_spec sound, List.head?_map, List.head?_map, Option.map_map]
    rfl
  rw [start]
  refine drain_stride (fun before entry behind split => ?_) ?_
  · rw [List.map_map] at split
    obtain ⟨front, rest, whole, rfl, split'⟩ := List.map_eq_append_iff.mp split.symm
    obtain ⟨tower, back, rfl, rfl, rfl⟩ := List.map_eq_cons_iff.mp split'
    rw [List.head?_map]
    exact Entry.next?_spec sound whole.symm
  · rw [List.length_map, List.length_map, ← sound.size_eq]
    exact enough

/-- The walk from the back. -/
theorem backward (sound : Sound list row) {steps : Nat} (enough : list.size ≤ steps) :
    drain (stride Entry.prev?) steps list.back? =
      .ok ((row.map Tower.id).map (Entry.mk list)).reverse := by
  have start : list.back? = ((row.map Tower.id).map (Entry.mk list)).reverse.head? := by
    rw [back?_spec sound, List.head?_reverse, List.getLast?_map, List.getLast?_map, Option.map_map]
    rfl
  rw [start]
  refine drain_stride (fun before entry behind split => ?_) ?_
  · have turned := congrArg List.reverse split
    rw [List.reverse_append, List.reverse_cons, List.append_assoc, List.singleton_append,
      List.reverse_reverse, List.map_map] at turned
    obtain ⟨front, rest, whole, isFront, split'⟩ := List.map_eq_append_iff.mp turned.symm
    obtain ⟨tower, back, rfl, rfl, -⟩ := List.map_eq_cons_iff.mp split'
    rw [← List.getLast?_reverse, ← isFront, List.getLast?_map]
    exact Entry.prev?_spec sound whole.symm
  · rw [List.length_reverse, List.length_map, List.length_map, ← sound.size_eq]
    exact enough

/-- **A sound list can be walked along** in both directions. -/
theorem walkable (sound : Sound list row) : Walkable list (row.map Tower.id) where
  placed := fun id live => List.mem_iff_getElem?.mp ((sound.wellLinked.live id).mp live)
  rank := by
    intro position id here
    obtain ⟨front, tower, back, split, rfl, rfl⟩ := exists_split here
    exact Entry.rank_spec sound split
  next? := fun _ _ => sound.next?_at
  prev? := fun _ _ => sound.prev?_at
  next?_none := fun _ _ => sound.next?_none_iff
  prev?_none := fun _ _ => sound.prev?_none_iff
  prev?_next? := fun _ member _ => sound.prev?_of_next? member
  next?_prev? := fun _ member _ => sound.next?_of_prev? member
  forward := fun _ => sound.forward
  backward := fun _ => sound.backward

end Sound

/-! ### Every list that a run ends with -/

/-- **Every list that a run ends with can be gone through exactly**, whatever the comparator, the
options and the random source answer: its iterator yields the elements of the row in whatever order its
ends are asked, and its entries lead to each other as they stand in the row. -/
theorem run_walks [LawfulNodeStore σ] [RandomSource ρ] (options : Options) (cmp : Comparator α)
    (source : ρ) (operations : List (Operation α)) :
    ∃ answers, ∃ list : SkipList α ρ σ, ∃ row,
      (withSource options cmp source : SkipList α ρ σ).run operations = .ok (answers, list) ∧
        StandsAs list row ∧ Exact list.iterator (row.map Tower.value) ∧
        Walkable list (row.map Tower.id) := by
  obtain ⟨answers, list, row, ran, sound, -, -⟩ := run_sound (σ := σ) options cmp source operations
  exact ⟨answers, list, row, ran, sound.standsAs, (iterator_holds sound).exact, sound.walkable⟩

/-- Where every number is below every other, each new one comes last. The ends are asked more often than
there are elements, and each walk is given more steps than there are entries. -/
theorem run_walks_constant :
    ∃ answers, ∃ list : SkipList Nat Script Slots, ∃ given after places,
      (withSource {} (Comparator.constant .lt) ⟨#[0, 18446744073709551615], by decide, 0⟩ :
          SkipList Nat Script Slots).run
            [.insert 3, .insert 1, .insert 2, .removeRank 2, .insert 3] = .ok (answers, list) ∧
        list.elements = .ok [3, 2, 3] ∧
        askAll [.back, .back, .front, .back, .front] list.iterator = .ok (given, after) ∧
        given = [some 3, some 2, some 3, none, none] ∧ ForwardIterator.remaining after = 0 ∧
        drain (stride Entry.next?) 10 list.front? = .ok places ∧
        drain (stride Entry.prev?) 10 list.back? = .ok places.reverse ∧ places.length = 3 := by
  obtain ⟨answers, list, row, ran, stands, exact, walkable⟩ :=
    run_walks (σ := Slots) {} (Comparator.constant .lt)
      (⟨#[0, 18446744073709551615], by decide, 0⟩ : Script)
      [.insert 3, .insert 1, .insert 2, .removeRank 2, .insert 3]
  have listed : ((withSource {} (Comparator.constant .lt)
      ⟨#[0, 18446744073709551615], by decide, 0⟩ : SkipList Nat Script Slots).run
        [.insert 3, .insert 1, .insert 2, .removeRank 2, .insert 3] >>= fun ran => ran.2.elements) =
          .ok [3, 2, 3] := by
    decide +kernel
  rw [ran, Checked.ok_bind] at listed
  have values : row.map Tower.value = [3, 2, 3] :=
    Except.ok.inj (stands.elements_eq.symm.trans listed)
  have length : (row.map Tower.id).length = 3 := by
    have counted := congrArg List.length values
    rwa [List.length_map] at counted ⊢
  have size : list.size ≤ 10 := by
    rw [← stands.linked.length_eq, length]
    decide
  rw [values] at exact
  obtain ⟨given, after, asked, answered⟩ := exact [.back, .back, .front, .back, .front]
  exact ⟨answers, list, given, after, _, ran, listed, asked, answered.answers_eq,
    answered.remaining_eq, walkable.forward 10 size, walkable.backward 10 size,
    by rw [List.length_map, length]⟩

end OrderedCollections.SkipList
