/-
**One gap for all.**

Inserting, looking up and removing an element each make their own descent. Where the comparator is no
order, an equal element may stand anywhere in the list, and a descent may miss it; but all three leave
the row in the same gap and ask about the same tower behind it. So a list never takes an element in
that it finds, and never fails to remove one that it finds; and whatever is not that one tower stays
where it is, with the height it has. An operation that comes to nothing leaves the list as it was, the
generator of heights included.

* `Taken`: the tower behind the gap is equal, and every operation is about it.
* `Vacant`: the tower behind the gap is not equal, and a new tower comes into the gap.
* `SharedGap`: a gap is taken or vacant, and the outcomes are those of the same tower.
* `run_sharedGap`: the gaps of every list that a run ends with.
-/

import OrderedCollections.Proofs.SkipList.Ranks
import OrderedCollections.Proofs.SkipList.Towers

namespace OrderedCollections.SkipList

variable {α ρ : Type} {σ : Type → Type} [NodeStore σ] [RandomSource ρ]

/-- **The tower behind the gap is equal to the wanted element.** Inserting is refused because of it,
looking up finds it and removing takes it away. -/
structure Taken (list : SkipList α ρ σ) (wanted : α) (front : List (Tower α)) (tower : Tower α)
    (back : List (Tower α)) : Prop where
  equal : list.cmp tower.value wanted = .eq
  gap : ∃ turns, list.gap (list.isBelow wanted) = .ok ⟨turns, some tower.id⟩
  /-- Nothing changes where an element is refused, and no height is drawn. -/
  refused : list.insert wanted = .ok (.error .duplicated, list)
  found : list.find wanted = .ok (.ok ⟨list, tower.id⟩)
  removed : ∃ after, list.remove wanted = .ok (some tower.value, after) ∧
    StandsAs after (front ++ back) ∧ after.cmp = list.cmp ∧ after.heights = list.heights

/-- **The tower behind the gap, if there is one, is not equal to the wanted element.** Looking up and
removing come to nothing, and inserting puts a new tower into the gap, as high as the height drawn. -/
structure Vacant (list : SkipList α ρ σ) (wanted : α) (front back : List (Tower α)) : Prop where
  misses : ∀ tower ∈ back.head?, list.cmp tower.value wanted ≠ .eq
  gap : ∃ turns, list.gap (list.isBelow wanted) = .ok ⟨turns, back.head?.map Tower.id⟩
  notFound : list.find wanted = .ok (.error .notFound)
  /-- Nothing changes where no element is removed. -/
  notRemoved : list.remove wanted = .ok (none, list)
  inserted : ∃ id after, list.insert wanted = .ok (.ok id, after) ∧
    StandsAs after (front ++ ⟨id, wanted, list.heights.next.1⟩ :: back) ∧ after.cmp = list.cmp ∧
    after.heights = list.heights.next.2 ∧
    (⟨after, id⟩ : Entry α ρ σ).told = .ok (wanted, front.length + 1) ∧
    (⟨after, id⟩ : Entry α ρ σ).prev? = .ok (front.getLast?.map fun prev => ⟨after, prev.id⟩) ∧
    (⟨after, id⟩ : Entry α ρ σ).next? = .ok (back.head?.map fun next => ⟨after, next.id⟩)

/-- **All operations on a wanted element meet in one gap**, and so they agree on whether an equal
element is there. -/
structure SharedGap (list : SkipList α ρ σ) (row : List (Tower α)) (wanted : α) : Prop where
  duplicated_iff : (∃ after, list.insert wanted = .ok (.error .duplicated, after)) ↔
    ∃ entry, list.find wanted = .ok (.ok entry)
  found_iff : (∃ entry, list.find wanted = .ok (.ok entry)) ↔
    ∃ value after, list.remove wanted = .ok (some value, after)
  either : (∃ front tower back, front ++ tower :: back = row ∧ Taken list wanted front tower back) ∨
    ∃ front back, front ++ back = row ∧ Vacant list wanted front back

section Sound

variable {list : SkipList α ρ σ} {row front back : List (Tower α)} {tower : Tower α}

omit [RandomSource ρ] in
/-- The new entry of a sound list stands in its gap. -/
theorem Sound.entry_of_insert {wanted : α} {id : NodeId} {height : Nat}
    (sound : Sound list (front ++ ⟨id, wanted, height⟩ :: back)) :
    (⟨list, id⟩ : Entry α ρ σ).told = .ok (wanted, front.length + 1) ∧
      (⟨list, id⟩ : Entry α ρ σ).prev? = .ok (front.getLast?.map fun prev => ⟨list, prev.id⟩) ∧
      (⟨list, id⟩ : Entry α ρ σ).next? = .ok (back.head?.map fun next => ⟨list, next.id⟩) := by
  refine ⟨?_, Entry.prev?_spec sound rfl, Entry.next?_spec sound rfl⟩
  have told := told_spec sound rfl
  rwa [List.length_map] at told

variable [LawfulNodeStore σ]

/-- The gap of a wanted element in a sound list is taken or vacant. -/
theorem Sound.taken_or_vacant (sound : Sound list row) (wanted : α) :
    (∃ front tower back, front ++ tower :: back = row ∧ Taken list wanted front tower back) ∨
      ∃ front back, front ++ back = row ∧ Vacant list wanted front back := by
  obtain ⟨front, back, turns, split, inRow, gap, -, -⟩ := gap_isBelow_spec sound wanted
  obtain ⟨front₁, back₁, -, inRow₁, -, inserting⟩ := insert_spec sound wanted
  obtain ⟨front₂, back₂, -, inRow₂, -, finding⟩ := find_spec sound wanted
  obtain ⟨front₃, back₃, -, inRow₃, -, removing⟩ := remove_spec sound wanted
  obtain ⟨rfl, rfl⟩ := Prod.mk.inj (inRow.symm.trans inRow₁)
  obtain ⟨rfl, rfl⟩ := Prod.mk.inj (inRow.symm.trans inRow₂)
  obtain ⟨rfl, rfl⟩ := Prod.mk.inj (inRow.symm.trans inRow₃)
  rcases inserting with ⟨tower, others, rfl, equal, refused⟩ |
    ⟨misses, id, after, inserted, cmp, heights, soundAfter⟩
  · left
    rcases finding with ⟨tower', others', same, -, found⟩ | ⟨misses, -⟩
    · obtain ⟨rfl, rfl⟩ := List.cons.inj same
      rcases removing with ⟨tower', others', same, -, after, removed, cmp, heights, soundAfter⟩ |
        ⟨misses, -⟩
      · obtain ⟨rfl, rfl⟩ := List.cons.inj same
        exact ⟨front, tower, others, split, equal, ⟨turns, gap⟩, refused, found, after, removed,
          soundAfter.standsAs, cmp, heights⟩
      · exact absurd equal (misses tower rfl)
    · exact absurd equal (misses tower rfl)
  · right
    rcases finding with ⟨tower, others, rfl, equal, -⟩ | ⟨-, notFound⟩
    · exact absurd equal (misses tower rfl)
    · rcases removing with ⟨tower, others, rfl, equal, -⟩ | ⟨-, removed⟩
      · exact absurd equal (misses tower rfl)
      · exact ⟨front, back, split, misses, ⟨turns, gap⟩, notFound, removed, id, after, inserted,
          soundAfter.standsAs, cmp, heights, soundAfter.entry_of_insert⟩

/-- **The operations on a sound list meet in one gap.** -/
theorem Sound.sharedGap (sound : Sound list row) (wanted : α) : SharedGap list row wanted := by
  rcases sound.taken_or_vacant wanted with ⟨front, tower, back, -, taken⟩ | ⟨front, back, -, vacant⟩
  · obtain ⟨after, removed, -⟩ := taken.removed
    exact ⟨iff_of_true ⟨list, taken.refused⟩ ⟨_, taken.found⟩,
      iff_of_true ⟨_, taken.found⟩ ⟨_, _, removed⟩, sound.taken_or_vacant wanted⟩
  · obtain ⟨id, after, inserted, -⟩ := vacant.inserted
    have notFound : ¬∃ entry, list.find wanted = .ok (.ok entry) := by
      rintro ⟨entry, found⟩
      cases vacant.notFound.symm.trans found
    have notRemoved : ¬∃ value after, list.remove wanted = .ok (some value, after) := by
      rintro ⟨value, last, removed⟩
      cases vacant.notRemoved.symm.trans removed
    have notRefused : ¬∃ last, list.insert wanted = .ok (.error .duplicated, last) := by
      rintro ⟨last, refused⟩
      cases inserted.symm.trans refused
    exact ⟨iff_of_false notRefused notFound, iff_of_false notFound notRemoved,
      sound.taken_or_vacant wanted⟩

end Sound

/-- **In every list that a run ends with all operations on an element meet in one gap**, whatever the
comparator, the options and the random source answer: they are about the same tower, and nothing but
that tower comes or goes. -/
theorem run_sharedGap [LawfulNodeStore σ] (options : Options) (cmp : Comparator α) (source : ρ)
    (operations : List (Operation α)) :
    ∃ answers, ∃ list : SkipList α ρ σ, ∃ row,
      (withSource options cmp source : SkipList α ρ σ).run operations = .ok (answers, list) ∧
        StandsAs list row ∧ list.cmp = cmp ∧ ∀ wanted, SharedGap list row wanted := by
  obtain ⟨answers, list, row, ran, sound, same, -⟩ := run_sound (σ := σ) options cmp source operations
  exact ⟨answers, list, row, ran, sound.standsAs, same, sound.sharedGap⟩

/-- Numbers on a circle: the list refuses `3`, which equals its first number, and takes `5` in, which
equals its last one. -/
theorem run_sharedGap_cyclic :
    ∃ answers, ∃ list : SkipList Int64 Script Slots, ∃ front tower back near far,
      (withSource {} Comparator.cyclic ⟨#[18446744073709551615], by decide, 0⟩ :
          SkipList Int64 Script Slots).run [.insert 2, .insert 1, .insert 0] = .ok (answers, list) ∧
        StandsAs list (front ++ tower :: back) ∧ Taken list 3 front tower back ∧
        StandsAs list (near ++ far) ∧ Vacant list 5 near far := by
  obtain ⟨answers, list, row, ran, stands, -, shared⟩ := run_sharedGap (σ := Slots) {}
    Comparator.cyclic (⟨#[18446744073709551615], by decide, 0⟩ : Script)
    [.insert 2, .insert 1, .insert 0]
  have looked : ((withSource {} Comparator.cyclic ⟨#[18446744073709551615], by decide, 0⟩ :
      SkipList Int64 Script Slots).run [.insert 2, .insert 1, .insert 0] >>= fun ran => do
        return (← ran.2.contains 3, ← ran.2.contains 5)) = .ok (true, false) := by
    decide +kernel
  rw [ran] at looked
  simp only [Checked.ok_bind, contains] at looked
  rcases (shared 3).either with ⟨front, tower, back, rfl, taken⟩ | ⟨front, back, -, vacant⟩
  · rcases (shared 5).either with ⟨_, _, _, -, taken'⟩ | ⟨near, far, split, vacant⟩
    · rw [taken.found, taken'.found] at looked
      cases looked
    · exact ⟨answers, list, front, tower, back, near, far, ran, stands, taken, split ▸ stands, vacant⟩
  · rw [vacant.notFound] at looked
    rcases (shared 5).either with ⟨_, _, _, -, taken'⟩ | ⟨_, _, -, vacant'⟩
    · rw [taken'.found] at looked
      cases looked
    · rw [vacant'.notFound] at looked
      cases looked

end OrderedCollections.SkipList
