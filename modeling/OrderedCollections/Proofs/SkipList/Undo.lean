/-
**An insertion that is undone.**

Inserting may take new levels into use, cuts a link on every level of the new tower and lengthens one
on every level above. Removing takes all of this back, whatever the height that was drawn: a descent
to an element that has just come in passes the same towers as the one that brought it in, so that it
finds the new tower behind its gap, and every link is joined as it was cut. For this the element has to
compare equal to itself and nothing more; where it is removed by its rank, not even that.

* `Undone`: the list is as it was before an insertion, but for the height that was drawn.
* `Undoable`: an insertion that can be taken back, by the element and by the rank.
* `Sound.undoable`: on a sound list every insertion is.
-/

import OrderedCollections.Proofs.SkipList.Retrace
import OrderedCollections.Proofs.SkipList.Towers
import OrderedCollections.Proofs.SkipList.Twins

namespace OrderedCollections.SkipList

variable {α ρ : Type} {σ : Type → Type} [NodeStore σ] [RandomSource ρ]

/-- **A list is as it was** before an insertion: the same elements with the same heights, nodes, links
and counts. The height that was drawn stays drawn. -/
structure Undone (list last : SkipList α ρ σ) : Prop extends SameLinks list last where
  profile_eq : last.profile = list.profile
  drawn : last.heights = list.heights.next.2

/-- **An insertion that can be taken back**: the element is looked up where it came in, and removing it
leaves the list as it was. -/
structure Undoable (list : SkipList α ρ σ) (value : α) (entry : Entry α ρ σ) : Prop where
  found : list.cmp value value = .eq → entry.list.find value = .ok (.ok entry)
  byElement : list.cmp value value = .eq →
    ∃ last, entry.list.remove value = .ok (some value, last) ∧ Undone list last
  byRank : ∃ rank last, entry.rank = .ok rank ∧
    entry.list.removeRank rank = .ok (some value, last) ∧ Undone list last

section Sound

variable {list last : SkipList α ρ σ} {row front back : List (Tower α)} {value : α}
  {entry : Entry α ρ σ}

/-- A list that is sound for the row there was before an insertion is as it was. -/
theorem Sound.undone (sound : Sound list row) (soundLast : Sound last row)
    (cmp : last.cmp = list.cmp) (drawn : last.heights = list.heights.next.2) :
    Undone list last where
  toSameLinks := sound.sameLinks soundLast cmp
  profile_eq := by rw [profile_spec sound, profile_spec soundLast]
  drawn := drawn

omit [RandomSource ρ] in
/-- The gap of an element that stands in it: the element itself is the first behind it. -/
theorem Sound.gap_retraced {after : SkipList α ρ σ} {tower : Tower α} {near far : List (Tower α)}
    (soundAfter : Sound after (front ++ tower :: back))
    (gap : rowGap (after.cmp · tower.value) (peak (front ++ back)) (front ++ back) = (front, back))
    (self : after.cmp tower.value tower.value = .eq)
    (again : rowGap (after.cmp · tower.value) after.height (front ++ tower :: back) = (near, far)) :
    front = near ∧ tower :: back = far := by
  have stops : after.cmp tower.value tower.value ≠ .lt := by
    rw [self]
    decide
  rw [soundAfter.height_eq, rowGap_insert_peak gap stops] at again
  exact Prod.mk.inj again

variable [LawfulNodeStore σ]

/-- An element that was inserted stands in its gap. -/
theorem Sound.gap_of_inserted (sound : Sound list row)
    (inserted : list.insert value = .ok (.ok entry.id, entry.list)) :
    ∃ front back, front ++ back = row ∧
      rowGap (list.cmp · value) (peak (front ++ back)) (front ++ back) = (front, back) ∧
      entry.list.cmp = list.cmp ∧ entry.list.heights = list.heights.next.2 ∧
      Sound entry.list (front ++ ⟨entry.id, value, list.heights.next.1⟩ :: back) := by
  obtain ⟨front, back, rfl, gap, -, ⟨_, _, -, -, refused⟩ |
    ⟨-, id, after, inserted', cmp, heights, soundAfter⟩⟩ := insert_spec sound value
  · cases refused.symm.trans inserted
  · cases inserted'.symm.trans inserted
    rw [sound.height_eq] at gap
    exact ⟨front, back, rfl, gap, cmp, heights, soundAfter⟩

/-- **An element that has come in is found** where it came in. -/
theorem Sound.find_inserted (sound : Sound list row)
    (inserted : list.insert value = .ok (.ok entry.id, entry.list))
    (self : list.cmp value value = .eq) :
    entry.list.find value = .ok (.ok entry) := by
  obtain ⟨front, back, rfl, gap, cmp, -, soundAfter⟩ := sound.gap_of_inserted inserted
  rw [← cmp] at gap self
  obtain ⟨near, far, -, again, -, outcome⟩ := find_spec soundAfter value
  obtain ⟨rfl, rfl⟩ := soundAfter.gap_retraced gap self again
  rcases outcome with ⟨tower, others, same, -, found⟩ | ⟨misses, -⟩
  · obtain ⟨rfl, rfl⟩ := List.cons.inj same
    exact found
  · exact absurd self (misses _ rfl)

/-- **An element that has come in is removed**, and nothing else is left of it. -/
theorem Sound.remove_inserted (sound : Sound list row)
    (inserted : list.insert value = .ok (.ok entry.id, entry.list))
    (self : list.cmp value value = .eq) :
    ∃ last, entry.list.remove value = .ok (some value, last) ∧ Undone list last := by
  obtain ⟨front, back, rfl, gap, cmp, drawn, soundAfter⟩ := sound.gap_of_inserted inserted
  have gap' := gap
  have self' := self
  rw [← cmp] at gap' self'
  obtain ⟨near, far, -, again, -, outcome⟩ := remove_spec soundAfter value
  obtain ⟨rfl, rfl⟩ := soundAfter.gap_retraced gap' self' again
  rcases outcome with ⟨tower, others, same, -, last, removed, cmpLast, heights, soundLast⟩ |
    ⟨misses, -⟩
  · obtain ⟨rfl, rfl⟩ := List.cons.inj same
    exact ⟨last, removed, sound.undone soundLast (cmpLast.trans cmp) (heights.trans drawn)⟩
  · exact absurd self' (misses _ rfl)

/-- **An element that has come in is removed by the rank of its entry**, without any comparison. -/
theorem Sound.removeRank_inserted (sound : Sound list row)
    (inserted : list.insert value = .ok (.ok entry.id, entry.list)) :
    ∃ rank last, entry.rank = .ok rank ∧ entry.list.removeRank rank = .ok (some value, last) ∧
      Undone list last := by
  obtain ⟨front, back, rfl, -, cmp, drawn, soundAfter⟩ := sound.gap_of_inserted inserted
  refine ⟨front.length + 1, ?_⟩
  rcases removeRank_spec soundAfter (front.length + 1) with
    ⟨near, tower, far, split, same, last, removed, cmpLast, heights, soundLast⟩ | ⟨outside, -⟩
  · obtain ⟨rfl, rest⟩ := List.append_inj split (Nat.succ.inj same).symm
    obtain ⟨rfl, rfl⟩ := List.cons.inj rest
    exact ⟨last, Entry.rank_spec soundAfter rfl, removed,
      sound.undone soundLast (cmpLast.trans cmp) (heights.trans drawn)⟩
  · rw [List.length_append, List.length_cons] at outside
    omega

/-- **Every insertion into a sound list can be taken back.** -/
theorem Sound.undoable (sound : Sound list row)
    (inserted : list.insert value = .ok (.ok entry.id, entry.list)) :
    Undoable list value entry :=
  ⟨sound.find_inserted inserted, sound.remove_inserted inserted, sound.removeRank_inserted inserted⟩

end Sound

end OrderedCollections.SkipList
