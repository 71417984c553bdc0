/-
**Lists that cannot be told apart.**

What a list answers is told by the elements and heights of its towers, by the comparator and by the
generator of heights. Two lists that agree in these are twins: their towers may stand under different
keys, in stores with different vacancies, and what was left in the header above the levels in use may
differ. Every operation on twins answers the same and leaves twins behind.

* `Twin`, `Twins`: lists with the same towers, up to the keys.
* `TwinEntries`: entries in the same place of twins.
* `TwinResults`, `TwinInsertions`: what the changes give, and the twins that they leave behind.
* `Twins.find`, `Twins.rank`, `Twins.atRank?`, `Twins.front?`, `Twins.back?`: the questions.
* `Twins.insert`, `Twins.remove`, `Twins.removeRank`, `Twins.clear`: the changes.
* `TwinEntries.value`, `TwinEntries.rank`, `TwinEntries.next?`, `TwinEntries.prev?`: the entries.
* `profile`: the elements of a list with the heights of their towers.
* `twins_of_profile`: sound lists of the same profile are twins.
-/

import OrderedCollections.Proofs.SideBySide
import OrderedCollections.Proofs.SkipList.Alike
import OrderedCollections.Proofs.SkipList.Operations

namespace OrderedCollections.SkipList

variable {α ρ : Type} {σ τ : Type → Type} [NodeStore σ] [NodeStore τ]

/-! ### Twins -/

/-- A tower without its key. -/
def Tower.bare (tower : Tower α) : Tower α :=
  { tower with id := ⟨0⟩ }

theorem Tower.height_bare (tower : Tower α) : tower.bare.height = tower.height := rfl

/-- Rows of the same elements in towers of the same heights. -/
abbrev Same (row row' : List (Tower α)) : Prop :=
  Alike Tower.bare Tower.bare row row'

theorem Alike.values_eq {row row' : List (Tower α)} (same : Same row row') :
    row.map Tower.value = row'.map Tower.value := by
  have values := congrArg (List.map Tower.value) same
  rw [List.map_map, List.map_map] at values
  exact values

/-- **Twins**: lists that are sound for rows of the same elements in towers of the same heights, with
the given comparator and the same generator of heights. -/
structure Twin (order : Comparator α) (list : SkipList α ρ σ) (list' : SkipList α ρ τ)
    (row row' : List (Tower α)) : Prop where
  sound : Sound list row
  sound' : Sound list' row'
  cmp : list.cmp = order
  cmp' : list'.cmp = order
  heights : list.heights = list'.heights
  same : Same row row'

/-- Lists that are twins for some rows. -/
def Twins (order : Comparator α) (list : SkipList α ρ σ) (list' : SkipList α ρ τ) : Prop :=
  ∃ row row', Twin order list list' row row'

/-- Entries in the same place of twins. -/
def TwinEntries (order : Comparator α) (entry : Entry α ρ σ) (entry' : Entry α ρ τ) : Prop :=
  ∃ front tower back front' tower' back',
    Twin order entry.list entry'.list (front ++ tower :: back) (front' ++ tower' :: back') ∧
      front.length = front'.length ∧ entry.id = tower.id ∧ entry'.id = tower'.id

/-- Two outcomes with the same answer, which leave twins behind. -/
def TwinResults {ω : Type} (order : Comparator α) (result : ω × SkipList α ρ σ)
    (result' : ω × SkipList α ρ τ) : Prop :=
  result.1 = result'.1 ∧ Twins order result.2 result'.2

/-- Insertions that left twins behind: both were refused, or the new towers are in the same place. -/
def TwinInsertions (order : Comparator α) (result : Except Error NodeId × SkipList α ρ σ)
    (result' : Except Error NodeId × SkipList α ρ τ) : Prop :=
  SameOutcome (fun id id' => TwinEntries order ⟨result.2, id⟩ ⟨result'.2, id'⟩) result.1 result'.1 ∧
    Twins order result.2 result'.2

section

variable {order : Comparator α} {list : SkipList α ρ σ} {list' : SkipList α ρ τ}
  {row row' front back front' back' : List (Tower α)} {tower tower' : Tower α}

namespace Twin

theorem height_eq (twin : Twin order list list' row row') : list.height = list'.height := by
  rw [twin.sound.height_eq, twin.sound'.height_eq,
    twin.same.peak_eq Tower.height_bare Tower.height_bare]

theorem size_eq (twin : Twin order list list' row row') : list.size = list'.size := by
  rw [twin.sound.size_eq, twin.sound'.size_eq, twin.same.length_eq]

theorem entries (twin : Twin order list list' (front ++ tower :: back) (front' ++ tower' :: back'))
    (same : front.length = front'.length) :
    TwinEntries order (⟨list, tower.id⟩ : Entry α ρ σ) (⟨list', tower'.id⟩ : Entry α ρ τ) :=
  ⟨front, tower, back, front', tower', back', twin, same, rfl, rfl⟩

/-- What is left of twins from which the towers of one place were taken out. -/
theorem takings (twin : Twin order list list' (front ++ tower :: back) (front' ++ tower' :: back'))
    (length : front.length = front'.length) {after : SkipList α ρ σ} {after' : SkipList α ρ τ}
    (cmp : after.cmp = list.cmp) (heights : after.heights = list.heights)
    (sound : Sound after (front ++ back)) (cmp' : after'.cmp = list'.cmp)
    (heights' : after'.heights = list'.heights) (sound' : Sound after' (front' ++ back')) :
    TwinResults order (some tower.value, after) (some tower'.value, after') := by
  obtain ⟨sameFront, sameBack⟩ := twin.same.split length
  obtain ⟨read, sameOthers⟩ := List.cons.inj sameBack
  have value : tower.bare.value = tower'.bare.value := congrArg Tower.value read
  refine ⟨congrArg some value, _, _, sound, sound', cmp.trans twin.cmp, cmp'.trans twin.cmp', ?_,
    sameFront.append sameOthers⟩
  rw [heights, heights', twin.heights]

/-- The gap of a wanted element is in the same place of twins. -/
theorem gap (twin : Twin order list list' row row') {wanted : α}
    (gap : rowGap (list.cmp · wanted) list.height row = (front, back))
    (gap' : rowGap (list'.cmp · wanted) list'.height row' = (front', back')) :
    Same front front' ∧ Same back back' := by
  rw [twin.cmp] at gap
  rw [twin.cmp', ← twin.height_eq] at gap'
  exact twin.same.gap Tower.height_bare Tower.height_bare (order · wanted) (fun _ => rfl)
    (fun _ => rfl) gap gap'

theorem equal_iff (twin : Twin order list list' row row') (wanted : α) (tower tower' : Tower α)
    (same : tower.bare = tower'.bare) :
    list.cmp tower.value wanted = .eq ↔ list'.cmp tower'.value wanted = .eq := by
  have value : tower.bare.value = tower'.bare.value := congrArg Tower.value same
  have element : tower.value = tower'.value := value
  rw [twin.cmp, twin.cmp', element]

end Twin

/-! ### Questions -/

namespace Twins

theorem size_eq (twins : Twins order list list') : list.size = list'.size := by
  obtain ⟨row, row', twin⟩ := twins
  exact twin.size_eq

theorem height_eq (twins : Twins order list list') : list.height = list'.height := by
  obtain ⟨row, row', twin⟩ := twins
  exact twin.height_eq

theorem cmp_eq (twins : Twins order list list') : list.cmp = order ∧ list'.cmp = order := by
  obtain ⟨row, row', twin⟩ := twins
  exact ⟨twin.cmp, twin.cmp'⟩

theorem isEmpty_eq (twins : Twins order list list') : list.isEmpty = list'.isEmpty := by
  unfold isEmpty
  rw [twins.size_eq]

theorem find (twins : Twins order list list') (wanted : α) :
    Checked.Both (SameOutcome (TwinEntries order)) (list.find wanted) (list'.find wanted) := by
  obtain ⟨row, row', twin⟩ := twins
  obtain ⟨front, back, rfl, gap, -, outcome⟩ := find_spec twin.sound wanted
  obtain ⟨front', back', rfl, gap', -, outcome'⟩ := find_spec twin.sound' wanted
  obtain ⟨sameFront, sameBack⟩ := twin.gap gap gap'
  rcases sameBack.both_or_neither (twin.equal_iff wanted) outcome outcome' with
    ⟨tower, others, tower', others', rfl, rfl, -, -, found, found'⟩ | ⟨found, found'⟩
  · exact .of_eq found found' (.ok (twin.entries sameFront.length_eq))
  · exact .of_eq found found' (.error _)

theorem contains (twins : Twins order list list') (wanted : α) :
    Checked.Both Eq (list.contains wanted) (list'.contains wanted) := by
  refine (twins.find wanted).bind fun found found' same => .pure ?_
  cases same with
  | error error => rfl
  | ok entries => rfl

theorem rank (twins : Twins order list list') (wanted : α) :
    Checked.Both Eq (list.rank wanted) (list'.rank wanted) := by
  obtain ⟨row, row', twin⟩ := twins
  refine .of_eq (rank_spec twin.sound wanted) (rank_spec twin.sound' wanted) ?_
  have places : (rowFind (order · wanted) list.height row).map (fun found => found.1.length) =
      (rowFind (order · wanted) list.height row').map fun found => found.1.length :=
    twin.same.find Tower.height_bare Tower.height_bare (order · wanted) (fun _ => rfl)
      (fun _ => rfl) list.height
  rw [twin.cmp, twin.cmp', ← twin.height_eq]
  cases found : rowFind (order · wanted) list.height row with
  | none =>
    rw [found] at places
    rw [Option.map_eq_none_iff.mp places.symm]
  | some place =>
    obtain ⟨near, tower, far⟩ := place
    rw [found] at places
    obtain ⟨⟨near', tower', far'⟩, found', same⟩ := Option.map_eq_some_iff.mp places.symm
    have length : near'.length = near.length := same
    rw [found']
    show Except.ok (near.length + 1) = Except.ok (near'.length + 1)
    rw [length]

theorem atRank? (twins : Twins order list list') (rank : Nat) :
    Checked.Both (Option.Rel (TwinEntries order)) (list.atRank? rank) (list'.atRank? rank) := by
  obtain ⟨row, row', twin⟩ := twins
  rcases twin.same.inside_or_outside (atRank?_spec twin.sound rank) (atRank?_spec twin.sound' rank)
    with ⟨front, tower, back, front', tower', back', rfl, rfl, same, found, found'⟩ | ⟨found, found'⟩
  · exact .of_eq found found' (.some (twin.entries same))
  · exact .of_eq found found' .none

theorem front? (twins : Twins order list list') :
    Option.Rel (TwinEntries order) list.front? list'.front? := by
  obtain ⟨row, row', twin⟩ := twins
  rw [front?_spec twin.sound, front?_spec twin.sound']
  cases row with
  | nil =>
    obtain rfl := twin.same.nil_iff.mp rfl
    exact .none
  | cons tower others =>
    obtain ⟨tower', others', rfl, -, -⟩ := twin.same.of_cons
    exact .some ⟨[], tower, others, [], tower', others', twin, rfl, rfl, rfl⟩

theorem back? (twins : Twins order list list') : Option.Rel (TwinEntries order) list.back? list'.back? := by
  obtain ⟨row, row', twin⟩ := twins
  rw [back?_spec twin.sound, back?_spec twin.sound']
  have length := twin.same.length_eq
  rcases List.eq_nil_or_concat' row with rfl | ⟨others, tower, rfl⟩
  · obtain rfl := twin.same.nil_iff.mp rfl
    exact .none
  · rcases List.eq_nil_or_concat' row' with rfl | ⟨others', tower', rfl⟩
    · simp at length
    · rw [List.length_append, List.length_append] at length
      rw [List.getLast?_concat, List.getLast?_concat]
      exact .some ⟨others, tower, [], others', tower', [], twin, Nat.succ.inj length, rfl, rfl⟩

theorem iterator (twins : Twins order list list') :
    ∃ items, Holds list.iterator items ∧ Holds list'.iterator items := by
  obtain ⟨row, row', twin⟩ := twins
  refine ⟨row.map Tower.value, iterator_holds twin.sound, ?_⟩
  rw [twin.same.values_eq]
  exact iterator_holds twin.sound'

theorem elements (twins : Twins order list list') : Checked.Both Eq list.elements list'.elements := by
  obtain ⟨items, holds, holds'⟩ := twins.iterator
  exact .of_eq holds.yields.rest holds'.yields.rest rfl

end Twins

/-! ### Entries -/

namespace TwinEntries

variable {entry : Entry α ρ σ} {entry' : Entry α ρ τ}

theorem twins (entries : TwinEntries order entry entry') : Twins order entry.list entry'.list := by
  obtain ⟨front, tower, back, front', tower', back', twin, -⟩ := entries
  exact ⟨_, _, twin⟩

theorem value (entries : TwinEntries order entry entry') :
    Checked.Both Eq entry.value entry'.value := by
  obtain ⟨list, id⟩ := entry
  obtain ⟨list', id'⟩ := entry'
  obtain ⟨front, tower, back, front', tower', back', twin, same, rfl, rfl⟩ := entries
  obtain ⟨-, sameBack⟩ := twin.same.split same
  have read : tower.bare = tower'.bare := (List.cons.inj sameBack).1
  have value : tower.bare.value = tower'.bare.value := congrArg Tower.value read
  exact .of_eq (Entry.value_spec twin.sound rfl) (Entry.value_spec twin.sound' rfl) value

theorem rank (entries : TwinEntries order entry entry') : Checked.Both Eq entry.rank entry'.rank := by
  obtain ⟨list, id⟩ := entry
  obtain ⟨list', id'⟩ := entry'
  obtain ⟨front, tower, back, front', tower', back', twin, same, rfl, rfl⟩ := entries
  exact .of_eq (Entry.rank_spec twin.sound rfl) (Entry.rank_spec twin.sound' rfl) (by rw [same])

theorem next? (entries : TwinEntries order entry entry') :
    Checked.Both (Option.Rel (TwinEntries order)) entry.next? entry'.next? := by
  obtain ⟨list, id⟩ := entry
  obtain ⟨list', id'⟩ := entry'
  obtain ⟨front, tower, back, front', tower', back', twin, same, rfl, rfl⟩ := entries
  refine .of_eq (Entry.next?_spec twin.sound rfl) (Entry.next?_spec twin.sound' rfl) ?_
  have length := twin.same.length_eq
  rw [List.length_append, List.length_append, List.length_cons, List.length_cons] at length
  cases back with
  | nil =>
    cases back' with
    | nil => exact .none
    | cons after' others' =>
      rw [List.length_nil, List.length_cons] at length
      omega
  | cons after others =>
    cases back' with
    | nil =>
      rw [List.length_nil, List.length_cons] at length
      omega
    | cons after' others' =>
      refine .some ⟨front ++ [tower], after, others, front' ++ [tower'], after', others', ?_, ?_, rfl,
        rfl⟩
      · rw [List.append_assoc, List.append_assoc]
        exact twin
      · rw [List.length_append, List.length_append, same]
        rfl

theorem prev? (entries : TwinEntries order entry entry') :
    Checked.Both (Option.Rel (TwinEntries order)) entry.prev? entry'.prev? := by
  obtain ⟨list, id⟩ := entry
  obtain ⟨list', id'⟩ := entry'
  obtain ⟨front, tower, back, front', tower', back', twin, same, rfl, rfl⟩ := entries
  refine .of_eq (Entry.prev?_spec twin.sound rfl) (Entry.prev?_spec twin.sound' rfl) ?_
  rcases List.eq_nil_or_concat' front with rfl | ⟨others, before, rfl⟩
  · obtain rfl := List.length_eq_zero_iff.mp same.symm
    exact .none
  · rcases List.eq_nil_or_concat' front' with rfl | ⟨others', before', rfl⟩
    · simp at same
    · rw [List.length_append, List.length_append] at same
      rw [List.getLast?_concat, List.getLast?_concat]
      refine .some ⟨others, before, tower :: back, others', before', tower' :: back', ?_,
        Nat.succ.inj same, rfl, rfl⟩
      rw [List.append_assoc, List.append_assoc] at twin
      exact twin

end TwinEntries

/-! ### Changes -/

namespace Twins

variable [LawfulNodeStore σ] [LawfulNodeStore τ]

theorem clear (twins : Twins order list list') : Twins order list.clear list'.clear := by
  obtain ⟨row, row', twin⟩ := twins
  exact ⟨[], [], twin.sound.clear, twin.sound'.clear, twin.cmp, twin.cmp', twin.heights, rfl⟩

/-- **An insertion** draws the same height for both, in the same place. -/
theorem insert [RandomSource ρ] (twins : Twins order list list') (value : α) :
    Checked.Both (TwinInsertions order) (list.insert value) (list'.insert value) := by
  obtain ⟨row, row', twin⟩ := twins
  obtain ⟨front, back, rfl, gap, -, outcome⟩ := insert_spec twin.sound value
  obtain ⟨front', back', rfl, gap', -, outcome'⟩ := insert_spec twin.sound' value
  obtain ⟨sameFront, sameBack⟩ := twin.gap gap gap'
  rcases sameBack.both_or_neither (twin.equal_iff value) outcome outcome' with
    ⟨tower, others, tower', others', rfl, rfl, -, -, rejected, rejected'⟩ |
    ⟨⟨id, after, inserted, cmp, heights, sound⟩, id', after', inserted', cmp', heights', sound'⟩
  · exact .of_eq rejected rejected' ⟨.error _, _, _, twin⟩
  · have twinAfter : Twin order after after' (front ++ ⟨id, value, list.heights.next.1⟩ :: back)
        (front' ++ ⟨id', value, list'.heights.next.1⟩ :: back') := by
      refine ⟨sound, sound', cmp.trans twin.cmp, cmp'.trans twin.cmp',
        by rw [heights, heights', twin.heights], ?_⟩
      refine sameFront.append (.cons ?_ sameBack)
      rw [twin.heights]
      rfl
    exact .of_eq inserted inserted' ⟨.ok (twinAfter.entries sameFront.length_eq), _, _, twinAfter⟩

/-- **A removal** takes the same element out of both. -/
theorem remove (twins : Twins order list list') (wanted : α) :
    Checked.Both (TwinResults order) (list.remove wanted) (list'.remove wanted) := by
  obtain ⟨row, row', twin⟩ := twins
  obtain ⟨front, back, rfl, gap, -, outcome⟩ := remove_spec twin.sound wanted
  obtain ⟨front', back', rfl, gap', -, outcome'⟩ := remove_spec twin.sound' wanted
  obtain ⟨sameFront, sameBack⟩ := twin.gap gap gap'
  rcases sameBack.both_or_neither (twin.equal_iff wanted) outcome outcome' with
    ⟨tower, others, tower', others', rfl, rfl, -, -, ⟨after, removed, cmp, heights, sound⟩,
      after', removed', cmp', heights', sound'⟩ | ⟨removed, removed'⟩
  · exact .of_eq removed removed'
      (twin.takings sameFront.length_eq cmp heights sound cmp' heights' sound')
  · exact .of_eq removed removed' ⟨rfl, _, _, twin⟩

/-- **A removal by rank** takes the same element out of both. -/
theorem removeRank (twins : Twins order list list') (rank : Nat) :
    Checked.Both (TwinResults order) (list.removeRank rank) (list'.removeRank rank) := by
  obtain ⟨row, row', twin⟩ := twins
  rcases twin.same.inside_or_outside (removeRank_spec twin.sound rank)
      (removeRank_spec twin.sound' rank) with
    ⟨front, tower, back, front', tower', back', rfl, rfl, same, ⟨after, removed, cmp, heights, sound⟩,
      after', removed', cmp', heights', sound'⟩ | ⟨removed, removed'⟩
  · exact .of_eq removed removed' (twin.takings same cmp heights sound cmp' heights' sound')
  · exact .of_eq removed removed' ⟨rfl, _, _, twin⟩

end Twins

end

/-! ### The profile of a list -/

/-- The elements of the towers from one on, and the heights of these towers, for at most the given
number of rounds. -/
def profileFrom (list : SkipList α ρ σ) : Nat → Option NodeId → Checked (List (α × Nat))
  | _, none => return []
  | 0, some _ => .error .endless
  | rounds + 1, some id => do
    let node ← list.node id
    let link ← .ofOption .missingLevel node.links[0]?
    return (node.value, node.links.length) :: (← list.profileFrom rounds link.next)

/-- The elements of a list and the heights of their towers, in the order of the lowest links. -/
def profile (list : SkipList α ρ σ) : Checked (List (α × Nat)) :=
  list.profileFrom list.size list.first

section Profile

variable {order : Comparator α} {list : SkipList α ρ σ} {list' : SkipList α ρ τ}
  {row row' : List (Tower α)}

theorem profileFrom_spec (sound : Sound list row) {front back : List (Tower α)}
    (split : front ++ back = row) :
    list.profileFrom back.length (back.head?.map Tower.id) =
      .ok (back.map fun tower => (tower.value, tower.height)) := by
  induction back generalizing front with
  | nil => rfl
  | cons tower back ih =>
    obtain ⟨node, stored, fetched, body⟩ := node_of_body? (sound.body front tower back split)
    obtain ⟨value, -, height⟩ := Body.mk.inj body
    have linked := sound.linkAt_zero_node split
    rw [linkAt_node stored, Checked.ofOption_eq_ok] at linked
    have place : front ++ [tower] ++ back = row := (List.append_assoc front [tower] back).trans split
    simp only [List.length_cons, List.head?_cons, Option.map_some, profileFrom, fetched,
      Checked.ok_bind, linked, Checked.ofOption_some, sound.next_zero place, ih place, value, height,
      Checked.pure_eq_ok, List.map_cons]

/-- **The profile of a sound list** is that of its row. -/
theorem profile_spec (sound : Sound list row) :
    list.profile = .ok (row.map fun tower => (tower.value, tower.height)) := by
  unfold profile
  rw [sound.size_eq, sound.first_eq]
  exact profileFrom_spec sound (List.nil_append row)

/-- **Sound lists of the same profile are twins**, if they have the same comparator and the same
generator of heights. -/
theorem twins_of_profile (sound : Sound list row) (sound' : Sound list' row')
    (cmp : list.cmp = order) (cmp' : list'.cmp = order) (heights : list.heights = list'.heights)
    (profile : list.profile = list'.profile) : Twins order list list' := by
  rw [profile_spec sound, profile_spec sound'] at profile
  refine ⟨row, row', sound, sound', cmp, cmp', heights, ?_⟩
  have read := congrArg (List.map fun pair : α × Nat => (⟨⟨0⟩, pair.1, pair.2⟩ : Tower α))
    (Except.ok.inj profile)
  rw [List.map_map, List.map_map] at read
  exact read

end Profile

end OrderedCollections.SkipList
