/-
**A map as an ascending dictionary.**

Under a comparator that keeps its contract the entries of a map stand in strictly ascending order of
their keys, and a search misses only where no stored key compares equal. Since elements that compare
equal need not form classes, several stored keys may be equal to the wanted one; which of them is hit
depends on the shape of the tree, but all operations hit the same.

* `Dictionary`: what a map promises under the contract.
* `run_dictionary`: every map that a run leads to keeps the promise.
-/

import OrderedCollections.Comparator.Window
import OrderedCollections.Proofs.RedBlack.Run

namespace OrderedCollections.RedBlackMap

open RedBlack

variable {κ ν : Type} {σ : Type → Type} [NodeStore σ]

/-! ### The place of a key -/

section Place

variable {cmp : Comparator κ} {key : κ} {front back : List (κ × ν)}

/-- No key beside the gap is equal to the one that belongs there. -/
theorem ne_eq_of_between (between : Between cmp key front back) :
    ∀ entry ∈ front ++ back, cmp key entry.1 ≠ .eq := by
  intro entry member
  rcases List.mem_append.mp member with before | behind
  · rw [between.above_front entry before]
    decide
  · rw [between.below_back entry behind]
    decide

theorem between_of_ascending (contract : cmp.Contract) {value : ν}
    (ascending : Ascending cmp (front ++ (key, value) :: back)) : Between cmp key front back := by
  unfold Ascending at ascending
  rw [List.pairwise_append, List.pairwise_cons] at ascending
  obtain ⟨-, ⟨below, -⟩, across⟩ := ascending
  refine ⟨fun entry before => ?_, below⟩
  exact contract.gt_iff_lt.mpr (across entry before (key, value) List.mem_cons_self)

/-- **A key has one place only.** -/
theorem between_unique {front' back' : List (κ × ν)} (between : Between cmp key front back)
    (between' : Between cmp key front' back') (same : front' ++ back' = front ++ back) :
    front' = front ∧ back' = back := by
  have disjoint : ∀ overlap : List (κ × ν), (∀ entry ∈ overlap, cmp key entry.1 = .gt) →
      (∀ entry ∈ overlap, cmp key entry.1 = .lt) → overlap = [] := by
    intro overlap above below
    cases overlap with
    | nil => rfl
    | cons first others =>
      have isAbove := above first List.mem_cons_self
      rw [below first List.mem_cons_self] at isAbove
      cases isAbove
  rcases List.append_eq_append_iff.mp same with ⟨overlap, rfl, rfl⟩ | ⟨overlap, rfl, rfl⟩
  · obtain rfl := disjoint overlap
      (fun entry member => between.above_front entry (List.mem_append_right _ member))
      fun entry member => between'.below_back entry (List.mem_append_left _ member)
    exact ⟨(List.append_nil _).symm, rfl⟩
  · obtain rfl := disjoint overlap
      (fun entry member => between'.above_front entry (List.mem_append_right _ member))
      fun entry member => between.below_back entry (List.mem_append_left _ member)
    exact ⟨List.append_nil _, rfl⟩

end Place

/-! ### The promise -/

/-- **What a map promises under the contract.** It keeps entries with strictly ascending keys. If
some stored key compares equal to the wanted one, every operation hits the same entry with such a
key; if none does, every operation misses in the only gap where the key keeps the order. What is
refused or finds nothing leaves the map as it is. -/
structure Dictionary (cmp : Comparator κ) (map : RedBlackMap κ ν σ) (entries : List (κ × ν)) :
    Prop where
  keeps : Keeps cmp map entries
  keeps_only : ∀ others, Keeps cmp map others → others = entries
  ascending : Ascending cmp entries
  hit : ∀ key, (∃ entry ∈ entries, cmp key entry.1 = .eq) →
    ∃ front stored value back, entries = front ++ (stored, value) :: back ∧
      cmp key stored = .eq ∧ Hit map key front stored value back
  missed : ∀ key, (∀ entry ∈ entries, cmp key entry.1 ≠ .eq) →
    ∃ front back, entries = front ++ back ∧
      (∀ value front' back', front' ++ back' = entries →
        (Ascending cmp (front' ++ (key, value) :: back') ↔ front' = front ∧ back' = back)) ∧
      Missed map key front back
  /-- What was just put under a key is its value. -/
  get?_put : ∀ key value before after, map.put key value = .ok (before, after) →
    after.get? key = .ok (some value)
  get?_tryInsert : ∀ key value id after, map.tryInsert key value = .ok (.ok id, after) →
    after.get? key = .ok (some value)

section Promise

variable [LawfulNodeStore σ] {cmp : Comparator κ} {map : RedBlackMap κ ν σ}
  {entries front back : List (κ × ν)} {key : κ}

/-- A new entry is the only one whose key compares equal, so it is hit. -/
theorem get?_of_between (contract : cmp.Contract) {value : ν}
    (keeps : Keeps cmp map (front ++ (key, value) :: back))
    (between : Between cmp key front back)
    (ascending : Ascending cmp (front ++ (key, value) :: back)) :
    map.get? key = .ok (some value) := by
  rcases keeps.hit_or_missed key with
    ⟨front', stored, other, back', split, equal, hit⟩ | ⟨front', back', split, -, misses⟩
  · have member : (stored, other) ∈ front ++ (key, value) :: back := by
      rw [split]
      simp
    have notBeside : (stored, other) ∉ front ++ back :=
      fun beside => ne_eq_of_between between _ beside equal
    have same : (stored, other) = (key, value) := by
      rw [List.mem_append, List.mem_cons] at member
      rw [List.mem_append, not_or] at notBeside
      rcases member with before | same | behind
      · exact absurd before notBeside.1
      · exact same
      · exact absurd behind notBeside.2
    rw [← (Prod.mk.inj same).2]
    exact hit.get?
  · have member : (key, value) ∈ front' ++ back' := by
      rw [← split]
      simp
    exact absurd (contract.refl key)
      (ne_eq_of_between (misses contract ascending) (key, value) member)

/-- **A map that keeps ascending entries keeps its promise.** -/
theorem dictionary_of_keeps (contract : cmp.Contract) (keeps : Keeps cmp map entries)
    (ascending : Ascending cmp entries) : Dictionary cmp map entries := by
  have same := keeps.cmp_eq
  refine ⟨keeps, fun others keeps' => keeps'.unique keeps, ascending, fun key equal => ?_,
    fun key none => ?_, fun key value before after put => ?_, fun key value id after insert => ?_⟩
  · rcases keeps.hit_or_missed key with
      ⟨front, stored, value, back, split, isEqual, hit⟩ | ⟨front, back, rfl, -, between⟩
    · exact ⟨front, stored, value, back, split, isEqual, hit⟩
    · obtain ⟨entry, member, isEqual⟩ := equal
      exact absurd isEqual (ne_eq_of_between (between contract ascending) entry member)
  · rcases keeps.hit_or_missed key with
      ⟨front, stored, value, back, rfl, equal, -⟩ | ⟨front, back, rfl, missed, between⟩
    · exact absurd equal (none (stored, value) (by simp))
    · have here := between contract ascending
      refine ⟨front, back, rfl, fun value front' back' split => ⟨fun ascending' => ?_, ?_⟩, missed⟩
      · exact between_unique here (between_of_ascending contract ascending') split
      · rintro ⟨rfl, rfl⟩
        exact ascending_insert contract ascending here value
  · rcases keeps.hit_or_missed key with
      ⟨front, stored, old, back, rfl, -, hit⟩ | ⟨front, back, rfl, missed, between⟩
    · obtain ⟨after', done, -, get⟩ := hit.put value
      rw [put] at done
      obtain ⟨-, rfl⟩ := Prod.mk.inj (Except.ok.inj done)
      exact get
    · obtain ⟨after', done, keepsAfter⟩ := missed.put value
      rw [put] at done
      obtain ⟨-, rfl⟩ := Prod.mk.inj (Except.ok.inj done)
      have here := between contract ascending
      exact get?_of_between contract (same ▸ keepsAfter) here
        (ascending_insert contract ascending here value)
  · rcases keeps.hit_or_missed key with
      ⟨front, stored, old, back, rfl, -, hit⟩ | ⟨front, back, rfl, missed, between⟩
    · rw [hit.tryInsert value] at insert
      cases insert
    · obtain ⟨id', after', done, keepsAfter, -⟩ := missed.tryInsert value
      rw [insert] at done
      obtain ⟨-, rfl⟩ := Prod.mk.inj (Except.ok.inj done)
      have here := between contract ascending
      exact get?_of_between contract (same ▸ keepsAfter) here
        (ascending_insert contract ascending here value)

/-- **Every run of a map is that of an ascending dictionary**, under any comparator that keeps the
contract. -/
theorem run_dictionary (contract : cmp.Contract) (capacity : Nat)
    (operations : List (Operation κ ν)) :
    ∃ map entries, (withCapacity capacity cmp : RedBlackMap κ ν σ).run operations = .ok map ∧
      Dictionary cmp map entries := by
  obtain ⟨map, entries, ran, keeps, ascends⟩ :=
    run_spec (keeps_withCapacity (σ := σ) capacity cmp) operations
  exact ⟨map, entries, ran,
    dictionary_of_keeps contract keeps (ascends contract List.Pairwise.nil)⟩

end Promise

/-- Marks within a tolerance: the wide mark is equal to both narrow ones, which differ. -/
theorem run_dictionary_window :
    ∃ map : RedBlackMap Mark Nat Slots, ∃ entries,
      (withCapacity 0 Comparator.window : RedBlackMap Mark Nat Slots).run
          [.put ⟨2, 0⟩ 0, .put ⟨0, 0⟩ 1, .put ⟨1, 1⟩ 2, .remove ⟨1, 1⟩] = .ok map ∧
        Dictionary Comparator.window map entries := by
  obtain ⟨map, entries, ran, dictionary⟩ := run_dictionary Comparator.window_contract 0
    [.put ⟨2, 0⟩ 0, .put ⟨0, 0⟩ 1, .put ⟨1, 1⟩ 2, .remove ⟨1, 1⟩]
  exact ⟨map, entries, ran, dictionary⟩

end OrderedCollections.RedBlackMap
