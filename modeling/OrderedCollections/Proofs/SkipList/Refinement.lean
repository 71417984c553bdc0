/-
**A skip list as an ascending sequence.**

Under the contract of a comparator, which lets several stored elements compare equal to a wanted one
that no two of them compare equal to each other, a skip list is an ascending sequence of elements.
What it answers is told by the sequence alone and not by the heights that were drawn.

* `Ascending`: every element is below all that follow.
* `Sequence.perform`, `Sequence.run`: what operations do to a sequence and what they answer.
* `acts_perform`: an operation of a list does just that to an ascending sequence.
* `insert_unique`: there is one place where an element can be inserted.
* `run_refines`: every run of a list is that of the sequence.
-/

import OrderedCollections.Comparator.Window
import OrderedCollections.Proofs.SkipList.Run

namespace OrderedCollections.SkipList

variable {α : Type}

/-- Every element of a sequence is below all that follow it. -/
def Ascending (cmp : Comparator α) (elements : List α) : Prop :=
  elements.Pairwise fun first second => cmp first second = .lt

namespace Sequence

/-- A sequence with an element more, behind those below it. -/
def insert (cmp : Comparator α) (value : α) (elements : List α) : List α :=
  elements.filter (cmp · value == .lt) ++ value :: elements.filter (cmp · value != .lt)

/-- The first element that compares equal to a wanted one, and its rank. -/
def find? (cmp : Comparator α) (wanted : α) (elements : List α) : Option (α × Nat) :=
  (elements.find? (cmp · wanted == .eq)).map fun stored =>
    (stored, elements.findIdx (cmp · wanted == .eq) + 1)

/-- The element of a rank, counted from one. -/
def atRank? (elements : List α) : Nat → Option α
  | 0 => none
  | index + 1 => elements[index]?

/-- The sequence without the element of a rank. -/
def eraseRank (elements : List α) : Nat → List α
  | 0 => elements
  | index + 1 => elements.eraseIdx index

/-- Makes one operation on a sequence: what is answered, and the sequence after it. -/
def perform (cmp : Comparator α) (elements : List α) : Operation α → Answer α × List α
  | .insert value =>
    if elements.any (cmp · value == .eq) then (.entry (.error .duplicated), elements)
    else (.entry (.ok (value, elements.countP (cmp · value == .lt) + 1)), insert cmp value elements)
  | .find wanted =>
    match find? cmp wanted elements with
    | none => (.entry (.error .notFound), elements)
    | some found => (.entry (.ok found), elements)
  | .contains wanted => (.truth (elements.any (cmp · wanted == .eq)), elements)
  | .remove wanted =>
    (.taken (elements.find? (cmp · wanted == .eq)), elements.eraseP (cmp · wanted == .eq))
  | .atRank rank => (.place ((atRank? elements rank).map fun stored => (stored, rank)), elements)
  | .removeRank rank => (.taken (atRank? elements rank), eraseRank elements rank)
  | .front => (.place (elements.head?.map fun first => (first, 1)), elements)
  | .back => (.place (elements.getLast?.map fun last => (last, elements.length)), elements)
  | .size => (.count elements.length, elements)
  | .isEmpty => (.truth elements.isEmpty, elements)
  | .elements => (.sequence elements, elements)
  | .clear => (.done, [])

/-- Makes one operation after the other: the answers, and the sequence at the end. -/
def run (cmp : Comparator α) (elements : List α) : List (Operation α) → List (Answer α) × List α
  | [] => ([], elements)
  | operation :: others =>
    let performed := perform cmp elements operation
    let later := run cmp performed.2 others
    (performed.1 :: later.1, later.2)

end Sequence

/-- An element goes behind those below it, where all others are above it. -/
theorem Sequence.insert_eq {cmp : Comparator α} {value : α} {front back : List α}
    (below : ∀ element ∈ front, cmp element value = .lt)
    (above : ∀ element ∈ back, cmp element value = .gt) :
    Sequence.insert cmp value (front ++ back) = front ++ value :: back ∧
      (front ++ back).countP (cmp · value == .lt) = front.length := by
  have isBelow : ∀ element ∈ front, (cmp element value == .lt) = true :=
    fun element member => beq_iff_eq.mpr (below element member)
  have notBelow : ∀ element ∈ back, ¬(cmp element value == .lt) = true := by
    intro element member
    rw [above element member]
    decide
  have notBefore : ∀ element ∈ front, ¬(cmp element value != .lt) = true := by
    intro element member
    rw [below element member]
    decide
  have isBehind : ∀ element ∈ back, (cmp element value != .lt) = true := by
    intro element member
    rw [above element member]
    decide
  constructor
  · rw [Sequence.insert, List.filter_append, List.filter_append, List.filter_eq_self.mpr isBelow,
      List.filter_eq_nil_iff.mpr notBelow, List.filter_eq_nil_iff.mpr notBefore,
      List.filter_eq_self.mpr isBehind, List.append_nil, List.nil_append]
  · rw [List.countP_append, List.countP_eq_length.mpr isBelow, List.countP_eq_zero.mpr notBelow,
      Nat.add_zero]

/-! ### Gaps of an ascending sequence -/

section Gaps

variable {cmp : Comparator α} {wanted : α} {front back : List α}

/-- Before a gap of an ascending sequence every element is below the wanted one. -/
theorem AtGap.below_all (gap : AtGap cmp wanted front back) (contract : cmp.Contract)
    (ascending : Ascending cmp (front ++ back)) : ∀ stored ∈ front, cmp stored wanted = .lt := by
  intro stored member
  rcases List.eq_nil_or_concat' front with rfl | ⟨others, last, rfl⟩
  · cases member
  · have lower := gap.below others last rfl
    rcases List.mem_append.mp member with before | same
    · have above : cmp stored last = .lt := by
        unfold Ascending at ascending
        rw [List.pairwise_append, List.pairwise_append] at ascending
        exact ascending.1.2.2 stored before last (by simp)
      exact contract.lt_trans above lower
    · rw [List.mem_singleton.mp same]
      exact lower

/-- Where the first element behind a gap does not compare equal, none does: one further on would be
above the wanted element, as the first one is. -/
theorem AtGap.misses_all (gap : AtGap cmp wanted front back) (contract : cmp.Contract)
    (ascending : Ascending cmp (front ++ back)) (misses : Misses cmp wanted back) :
    ∀ stored ∈ back, cmp stored wanted = .gt := by
  intro stored member
  cases back with
  | nil => cases member
  | cons first others =>
    have above : cmp first wanted = .gt := by
      cases outcome : cmp first wanted with
      | lt => exact absurd outcome (gap.notBelow first others rfl)
      | eq => exact absurd outcome (misses first others rfl)
      | gt => rfl
    rcases List.mem_cons.mp member with rfl | later
    · exact above
    · unfold Ascending at ascending
      rw [List.pairwise_append, List.pairwise_cons] at ascending
      exact contract.gt_trans (contract.gt_iff_lt.mpr (ascending.2.1.1 stored later)) above

/-- The first element behind a gap, where it compares equal, is the first that does. -/
theorem AtGap.first_equal {stored : α} {others : List α}
    (gap : AtGap cmp wanted front (stored :: others)) (contract : cmp.Contract)
    (ascending : Ascending cmp (front ++ stored :: others)) (equal : cmp stored wanted = .eq) :
    (front ++ stored :: others).find? (cmp · wanted == .eq) = some stored ∧
      (front ++ stored :: others).findIdx (cmp · wanted == .eq) = front.length ∧
      (front ++ stored :: others).any (cmp · wanted == .eq) = true ∧
      (front ++ stored :: others).eraseP (cmp · wanted == .eq) = front ++ others := by
  have below := gap.below_all contract ascending
  have notBefore : ∀ element ∈ front, ¬(cmp element wanted == .eq) = true := by
    intro element member
    rw [below element member]
    decide
  have here : (cmp stored wanted == .eq) = true := beq_iff_eq.mpr equal
  have none : front.find? (cmp · wanted == .eq) = none := List.find?_eq_none.mpr notBefore
  refine ⟨?_, ?_, ?_, ?_⟩
  · rw [List.find?_append, none, List.find?_cons_of_pos (p := (cmp · wanted == .eq)) here]
    rfl
  · have long : front.findIdx (cmp · wanted == .eq) = front.length :=
      List.findIdx_eq_length.mpr fun element member => Bool.eq_false_iff.mpr (notBefore element member)
    rw [List.findIdx_append, long, if_neg (Nat.lt_irrefl _), List.findIdx_cons, here]
    simp
  · exact List.any_eq_true.mpr ⟨stored, by simp, here⟩
  · rw [List.eraseP_append_right _ notBefore, List.eraseP_cons_of_pos (p := (cmp · wanted == .eq)) here]

/-- Where no element behind a gap compares equal, none of the sequence does. -/
theorem AtGap.none_equal (gap : AtGap cmp wanted front back) (contract : cmp.Contract)
    (ascending : Ascending cmp (front ++ back)) (misses : Misses cmp wanted back) :
    ∀ element ∈ front ++ back, ¬(cmp element wanted == .eq) = true := by
  intro element member
  rcases List.mem_append.mp member with before | behind
  · rw [gap.below_all contract ascending element before]
    decide
  · rw [gap.misses_all contract ascending misses element behind]
    decide

/-- **An element inserted in its gap** keeps the sequence ascending. -/
theorem AtGap.ascending_insert (gap : AtGap cmp wanted front back) (contract : cmp.Contract)
    (ascending : Ascending cmp (front ++ back)) (misses : Misses cmp wanted back) :
    Ascending cmp (front ++ wanted :: back) := by
  have below := gap.below_all contract ascending
  have above := gap.misses_all contract ascending misses
  unfold Ascending at ascending ⊢
  rw [List.pairwise_append] at ascending ⊢
  obtain ⟨ascendingFront, ascendingBack, across⟩ := ascending
  refine ⟨ascendingFront, List.pairwise_cons.mpr ⟨fun element member => ?_, ascendingBack⟩, ?_⟩
  · exact contract.gt_iff_lt.mp (above element member)
  · intro first before second behind
    rcases List.mem_cons.mp behind with rfl | later
    · exact below first before
    · exact across first before second later

end Gaps

/-! ### Operations -/

/-- A rank that no element has leads nowhere. -/
theorem Sequence.atRank?_of_outside {elements : List α} {rank : Nat}
    (outside : rank = 0 ∨ elements.length < rank) :
    Sequence.atRank? elements rank = none ∧ Sequence.eraseRank elements rank = elements := by
  cases rank with
  | zero => exact ⟨rfl, rfl⟩
  | succ index =>
    have beyond : elements.length ≤ index := by omega
    exact ⟨List.getElem?_eq_none beyond, List.eraseIdx_of_length_le beyond⟩

/-- The rank of an element is one more than the number of elements before it. -/
theorem Sequence.atRank?_append (front : List α) (stored : α) (back : List α) :
    Sequence.atRank? (front ++ stored :: back) (front.length + 1) = some stored ∧
      Sequence.eraseRank (front ++ stored :: back) (front.length + 1) = front ++ back := by
  constructor
  · rw [Sequence.atRank?, List.getElem?_append_right (Nat.le_refl _), Nat.sub_self]
    rfl
  · rw [Sequence.eraseRank, List.eraseIdx_append_of_length_le (Nat.le_refl _), Nat.sub_self]
    rfl

/-- **An operation acts on an ascending sequence in one way only**, and leaves it ascending. -/
theorem acts_perform {cmp : Comparator α} (contract : cmp.Contract) {operation : Operation α}
    {before after : List α} {answer : Answer α} (acts : Acts cmp operation before answer after)
    (ascending : Ascending cmp before) :
    Sequence.perform cmp before operation = (answer, after) ∧ Ascending cmp after := by
  cases acts with
  | inserted gap misses =>
    obtain ⟨inserted, rank⟩ := Sequence.insert_eq (gap.below_all contract ascending)
      (gap.misses_all contract ascending misses)
    have notTaken := List.any_eq_false.mpr (gap.none_equal contract ascending misses)
    refine ⟨?_, gap.ascending_insert contract ascending misses⟩
    simp only [Sequence.perform, notTaken, Bool.false_eq_true, if_false, rank, inserted]
  | duplicated gap equal =>
    obtain ⟨-, -, taken, -⟩ := gap.first_equal contract ascending equal
    exact ⟨by simp only [Sequence.perform, taken, if_true], ascending⟩
  | found gap equal =>
    obtain ⟨first, index, -, -⟩ := gap.first_equal contract ascending equal
    refine ⟨?_, ascending⟩
    simp only [Sequence.perform, Sequence.find?, first, index, Option.map_some]
  | notFound gap misses =>
    have none := List.find?_eq_none.mpr (gap.none_equal contract ascending misses)
    refine ⟨?_, ascending⟩
    simp only [Sequence.perform, Sequence.find?, none, Option.map_none]
  | contained gap equal =>
    obtain ⟨-, -, taken, -⟩ := gap.first_equal contract ascending equal
    exact ⟨by simp only [Sequence.perform, taken], ascending⟩
  | absent gap misses =>
    have notTaken := List.any_eq_false.mpr (gap.none_equal contract ascending misses)
    exact ⟨by simp only [Sequence.perform, notTaken], ascending⟩
  | @removed wanted stored front others gap equal =>
    obtain ⟨first, -, -, erased⟩ := gap.first_equal contract ascending equal
    refine ⟨by simp only [Sequence.perform, first, erased], ?_⟩
    exact ascending.sublist (List.Sublist.append_left (List.sublist_cons_self stored others) front)
  | notRemoved gap misses =>
    have noneEqual := gap.none_equal contract ascending misses
    refine ⟨?_, ascending⟩
    simp only [Sequence.perform, List.find?_eq_none.mpr noneEqual, List.eraseP_of_forall_not noneEqual]
  | @atRank stored front back =>
    refine ⟨?_, ascending⟩
    simp only [Sequence.perform, (Sequence.atRank?_append front stored back).1, Option.map_some]
  | noRank outside =>
    refine ⟨?_, ascending⟩
    simp only [Sequence.perform, (Sequence.atRank?_of_outside outside).1, Option.map_none]
  | @rankRemoved stored front back =>
    obtain ⟨found, erased⟩ := Sequence.atRank?_append front stored back
    refine ⟨by simp only [Sequence.perform, found, erased], ?_⟩
    exact ascending.sublist (List.Sublist.append_left (List.sublist_cons_self stored back) front)
  | noRankRemoved outside =>
    obtain ⟨nowhere, same⟩ := Sequence.atRank?_of_outside outside
    exact ⟨by simp only [Sequence.perform, nowhere, same], ascending⟩
  | front => exact ⟨rfl, ascending⟩
  | back => exact ⟨rfl, ascending⟩
  | size => exact ⟨rfl, ascending⟩
  | isEmpty => exact ⟨rfl, ascending⟩
  | elements => exact ⟨rfl, ascending⟩
  | clear => exact ⟨rfl, List.Pairwise.nil⟩

/-- A run acts on an ascending sequence in one way only, and leaves it ascending. -/
theorem actsAll_run {cmp : Comparator α} (contract : cmp.Contract)
    {operations : List (Operation α)} {before after : List α} {answers : List (Answer α)}
    (acts : ActsAll cmp operations before answers after) (ascending : Ascending cmp before) :
    Sequence.run cmp before operations = (answers, after) ∧ Ascending cmp after := by
  induction acts with
  | nil => exact ⟨rfl, ascending⟩
  | cons first others ih =>
    obtain ⟨performed, ascendingMiddle⟩ := acts_perform contract first ascending
    obtain ⟨ran, ascendingAfter⟩ := ih ascendingMiddle
    exact ⟨by simp only [Sequence.run, performed, ran], ascendingAfter⟩

/-- **There is one place for a new element**: behind the elements below it. -/
theorem insert_unique {cmp : Comparator α} (contract : cmp.Contract) {value : α}
    {front back : List α} (ascending : Ascending cmp (front ++ value :: back)) :
    front ++ value :: back = Sequence.insert cmp value (front ++ back) := by
  unfold Ascending at ascending
  rw [List.pairwise_append, List.pairwise_cons] at ascending
  obtain ⟨-, ⟨above, -⟩, across⟩ := ascending
  refine (Sequence.insert_eq (fun element member => ?_) fun element member => ?_).1.symm
  · exact across element member value List.mem_cons_self
  · exact contract.gt_iff_lt.mpr (above element member)

/-! ### Runs -/

section Runs

variable {ρ : Type} {σ : Type → Type} [NodeStore σ] [LawfulNodeStore σ] [RandomSource ρ]

/-- **Every run of a list is that of an ascending sequence.** The answers and the elements at the
end are told by the comparator and the operations alone: neither the options nor the random source,
and so none of the heights drawn, has a part in them. A new element comes to the only place that
keeps the sequence ascending. -/
theorem run_refines {cmp : Comparator α} (contract : cmp.Contract) (options : Options) (source : ρ)
    (operations : List (Operation α)) :
    ∃ list : SkipList α ρ σ,
      (withSource options cmp source : SkipList α ρ σ).run operations =
          .ok ((Sequence.run cmp [] operations).1, list) ∧
        list.elements = .ok (Sequence.run cmp [] operations).2 ∧
        Ascending cmp (Sequence.run cmp [] operations).2 ∧
        ∀ value front back, front ++ back = (Sequence.run cmp [] operations).2 →
          Ascending cmp (front ++ value :: back) →
          front ++ value :: back = Sequence.insert cmp value (front ++ back) := by
  have start : Sound (withSource options cmp source : SkipList α ρ σ) [] :=
    sound_withSource options cmp source
  obtain ⟨answers, last, row, ran, sound, -, -, acts⟩ := run_spec start operations
  obtain ⟨same, ascending⟩ := actsAll_run contract acts List.Pairwise.nil
  have same' : Sequence.run cmp [] operations = (answers, row.map Tower.value) := same
  rw [same']
  exact ⟨last, ran, elements_spec sound, ascending,
    fun value front back _ ascending' => insert_unique contract ascending'⟩

end Runs

/-- Marks within a tolerance: the wide mark is equal to both narrow ones, and the first of them is
found and removed. -/
theorem run_refines_window :
    ∃ list : SkipList Mark KeyStream Slots,
      (withSource {} Comparator.window (.ofSeed 0) : SkipList Mark KeyStream Slots).run
          [.insert ⟨2, 0⟩, .insert ⟨0, 0⟩, .insert ⟨1, 1⟩, .remove ⟨1, 1⟩, .elements] =
        .ok ([.entry (.ok (⟨2, 0⟩, 1)), .entry (.ok (⟨0, 0⟩, 1)), .entry (.error .duplicated),
          .taken (some ⟨0, 0⟩), .sequence [⟨2, 0⟩]], list) := by
  obtain ⟨list, ran, -⟩ := run_refines Comparator.window_contract {} (KeyStream.ofSeed 0)
    [.insert ⟨2, 0⟩, .insert ⟨0, 0⟩, .insert ⟨1, 1⟩, .remove ⟨1, 1⟩, .elements]
  exact ⟨list, ran⟩

end OrderedCollections.SkipList
