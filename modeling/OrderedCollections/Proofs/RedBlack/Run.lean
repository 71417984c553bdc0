/-
**Runs of operations on a map.**

A run makes one change after the other on a map. Every run from a map without entries comes to its
end, with a map whose nodes form a red-black tree; nothing is asked of the comparator.

* `Operation`: the changes that can be made to a map.
* `perform`, `run`: one operation, and one after the other.
* `perform_spec`: one operation on a map that keeps some entries.
* `run_wellFormed`: a whole run from a map without entries.
-/

import OrderedCollections.Proofs.RedBlack.Dictionary

namespace OrderedCollections.RedBlackMap

open RedBlack

/-- The changes that can be made to a map. -/
inductive Operation (κ ν : Type) where
  | put (key : κ) (value : ν)
  /-- A strict insertion, followed by a change made in the place that it hands out. -/
  | tryInsert (key : κ) (value : ν) (change : ν → ν)
  | update (key : κ) (value : ν)
  | modify (key : κ) (change : ν → ν)
  | remove (key : κ)
  | clear

variable {κ ν : Type} {σ : Type → Type} [NodeStore σ]

/-- Makes one operation. -/
def perform (map : RedBlackMap κ ν σ) : Operation κ ν → Checked (RedBlackMap κ ν σ)
  | .put key value => return (← map.put key value).2
  | .tryInsert key value change => do
    let (outcome, after) ← map.tryInsert key value
    match outcome with
    | .error _ => return after
    | .ok id => return (← after.replaceAt id change).2
  | .update key value => return (← map.update key value).2
  | .modify key change => return (← map.modify key change).2
  | .remove key => return (← map.remove key).2
  | .clear => return map.clear

/-- Makes one operation after the other. -/
def run (map : RedBlackMap κ ν σ) : List (Operation κ ν) → Checked (RedBlackMap κ ν σ)
  | [] => return map
  | operation :: others => do
    let after ← map.perform operation
    after.run others

/-! ### Ascending entries -/

section Ascending

variable {cmp : Comparator κ} {front back : List (κ × ν)} {key : κ} {value : ν}

/-- Another value leaves the keys ascending. -/
theorem ascending_withValue (ascending : Ascending cmp (front ++ (key, value) :: back)) (new : ν) :
    Ascending cmp (front ++ (key, new) :: back) := by
  unfold Ascending at ascending ⊢
  rw [List.pairwise_append, List.pairwise_cons] at ascending ⊢
  obtain ⟨ascendingFront, ⟨below, ascendingBack⟩, across⟩ := ascending
  refine ⟨ascendingFront, ⟨below, ascendingBack⟩, fun first before second behind => ?_⟩
  rcases List.mem_cons.mp behind with rfl | later
  · exact across first before (key, value) List.mem_cons_self
  · exact across first before second (List.mem_cons_of_mem _ later)

/-- A new entry in the gap where its key belongs leaves the keys ascending. -/
theorem ascending_insert (contract : cmp.Contract) (ascending : Ascending cmp (front ++ back))
    (between : Between cmp key front back) (value : ν) :
    Ascending cmp (front ++ (key, value) :: back) := by
  unfold Ascending at ascending
  rw [List.pairwise_append] at ascending
  obtain ⟨ascendingFront, ascendingBack, across⟩ := ascending
  unfold Ascending
  rw [List.pairwise_append, List.pairwise_cons]
  refine ⟨ascendingFront, ⟨between.below_back, ascendingBack⟩, fun first before second behind => ?_⟩
  rcases List.mem_cons.mp behind with rfl | later
  · exact contract.gt_iff_lt.mp (between.above_front first before)
  · exact across first before second later

theorem ascending_erase (ascending : Ascending cmp (front ++ (key, value) :: back)) :
    Ascending cmp (front ++ back) :=
  ascending.sublist (List.Sublist.append_left (List.sublist_cons_self _ back) front)

end Ascending

/-! ### One operation -/

/-- An operation on a map that keeps some entries comes to its end with a map that keeps some, and
that keeps ascending ones if the entries did ascend. -/
def Performs (cmp : Comparator κ) (entries : List (κ × ν))
    (outcome : Checked (RedBlackMap κ ν σ)) : Prop :=
  ∃ after entries', outcome = .ok after ∧ Keeps cmp after entries' ∧
    (cmp.Contract → Ascending cmp entries → Ascending cmp entries')

section Outcome

variable {cmp : Comparator κ} {map after : RedBlackMap κ ν σ} {entries front back : List (κ × ν)}
  {stored key : κ} {before new value : ν} {outcome : Checked (RedBlackMap κ ν σ)}

theorem performs_unchanged (keeps : Keeps cmp map entries) (done : outcome = .ok map) :
    Performs cmp entries outcome :=
  ⟨map, entries, done, keeps, fun _ ascending => ascending⟩

theorem performs_withValue (keeps : Keeps cmp after (front ++ (stored, new) :: back))
    (done : outcome = .ok after) : Performs cmp (front ++ (stored, before) :: back) outcome :=
  ⟨after, _, done, keeps, fun _ ascending => ascending_withValue ascending new⟩

theorem performs_insert (keeps : Keeps cmp after (front ++ (key, value) :: back))
    (between : cmp.Contract → Ascending cmp (front ++ back) → Between cmp key front back)
    (done : outcome = .ok after) : Performs cmp (front ++ back) outcome :=
  ⟨after, _, done, keeps, fun contract ascending =>
    ascending_insert contract ascending (between contract ascending) value⟩

theorem performs_erase (keeps : Keeps cmp after (front ++ back)) (done : outcome = .ok after) :
    Performs cmp (front ++ (key, value) :: back) outcome :=
  ⟨after, _, done, keeps, fun _ ascending => ascending_erase ascending⟩

end Outcome

section Perform

variable [LawfulNodeStore σ] {cmp : Comparator κ} {map : RedBlackMap κ ν σ}
  {entries : List (κ × ν)}

/-- **One operation.** No operation runs into a fault. -/
theorem perform_spec (keeps : Keeps cmp map entries) (operation : Operation κ ν) :
    Performs cmp entries (map.perform operation) := by
  have same := keeps.cmp_eq
  cases operation with
  | put key value =>
    rcases keeps.hit_or_missed key with
      ⟨front, stored, before, back, rfl, -, hit⟩ | ⟨front, back, rfl, missed, between⟩
    · obtain ⟨after, done, keepsAfter, -⟩ := hit.put value
      refine performs_withValue (same ▸ keepsAfter) ?_
      simp only [perform, done, Checked.ok_bind, Checked.pure_eq_ok]
    · obtain ⟨after, done, keepsAfter⟩ := missed.put value
      refine performs_insert (same ▸ keepsAfter) between ?_
      simp only [perform, done, Checked.ok_bind, Checked.pure_eq_ok]
  | tryInsert key value change =>
    rcases keeps.hit_or_missed key with
      ⟨front, stored, before, back, rfl, -, hit⟩ | ⟨front, back, rfl, missed, between⟩
    · refine performs_unchanged keeps ?_
      simp only [perform, hit.tryInsert value, Checked.ok_bind, Checked.pure_eq_ok]
    · obtain ⟨id, after, done, -, -, edit⟩ := missed.tryInsert value
      obtain ⟨edited, modified, keepsAfter⟩ := edit change
      refine performs_insert (same ▸ keepsAfter) between ?_
      simp only [perform, done, modified, Checked.ok_bind, Checked.pure_eq_ok]
  | update key value =>
    rcases keeps.hit_or_missed key with
      ⟨front, stored, before, back, rfl, -, hit⟩ | ⟨front, back, rfl, missed, -⟩
    · obtain ⟨after, done, keepsAfter⟩ := hit.update value
      refine performs_withValue (same ▸ keepsAfter) ?_
      simp only [perform, done, Checked.ok_bind, Checked.pure_eq_ok]
    · refine performs_unchanged keeps ?_
      simp only [perform, missed.update value, Checked.ok_bind, Checked.pure_eq_ok]
  | modify key change =>
    rcases keeps.hit_or_missed key with
      ⟨front, stored, before, back, rfl, -, hit⟩ | ⟨front, back, rfl, missed, -⟩
    · obtain ⟨after, done, keepsAfter⟩ := hit.modify change
      refine performs_withValue (same ▸ keepsAfter) ?_
      simp only [perform, done, Checked.ok_bind, Checked.pure_eq_ok]
    · refine performs_unchanged keeps ?_
      simp only [perform, missed.modify change, Checked.ok_bind, Checked.pure_eq_ok]
  | remove key =>
    rcases keeps.hit_or_missed key with
      ⟨front, stored, before, back, rfl, -, hit⟩ | ⟨front, back, rfl, missed, -⟩
    · obtain ⟨after, done, keepsAfter⟩ := hit.remove
      refine performs_erase (same ▸ keepsAfter) ?_
      simp only [perform, done, Checked.ok_bind, Checked.pure_eq_ok]
    · refine performs_unchanged keeps ?_
      simp only [perform, missed.remove, Checked.ok_bind, Checked.pure_eq_ok]
  | clear =>
    exact ⟨map.clear, [], rfl, keeps_iff.mpr ⟨same, .leaf, sound_clear map, rfl⟩,
      fun _ _ => List.Pairwise.nil⟩

/-! ### A whole run -/

/-- **A whole run** on a map that keeps some entries runs into no fault. -/
theorem run_spec (keeps : Keeps cmp map entries) (operations : List (Operation κ ν)) :
    Performs cmp entries (map.run operations) := by
  induction operations generalizing map entries with
  | nil => exact ⟨map, entries, rfl, keeps, fun _ ascending => ascending⟩
  | cons operation others ih =>
    obtain ⟨after, entries', performed, keepsAfter, ascends⟩ := perform_spec keeps operation
    obtain ⟨last, entries'', ran, keepsLast, ascendsLast⟩ := ih keepsAfter
    refine ⟨last, entries'', ?_, keepsLast, fun contract ascending =>
      ascendsLast contract (ascends contract ascending)⟩
    simp only [run, performed, Checked.ok_bind, ran]

theorem keeps_withCapacity (capacity : Nat) (cmp : Comparator κ) :
    Keeps cmp (withCapacity capacity cmp : RedBlackMap κ ν σ) [] :=
  keeps_iff.mpr ⟨rfl, .leaf, sound_withCapacity capacity cmp, rfl⟩

/-- **Every run from a map without entries** comes to its end, whatever the comparator answers: no
key without a node is followed, no loop goes on for longer than there are nodes and no count falls
below zero on the way. The nodes of the map at the end form a red-black tree. -/
theorem run_wellFormed (capacity : Nat) (cmp : Comparator κ) (operations : List (Operation κ ν)) :
    ∃ map row, (withCapacity capacity cmp : RedBlackMap κ ν σ).run operations = .ok map ∧
      WellFormed map row := by
  obtain ⟨map, entries, ran, ⟨-, row, wellFormed, -⟩, -⟩ :=
    run_spec (keeps_withCapacity (σ := σ) capacity cmp) operations
  exact ⟨map, row, ran, wellFormed⟩

end Perform

/-- A run under a comparator that is no order at all: every key is below every other. -/
theorem run_wellFormed_constant :
    ∃ map : RedBlackMap Nat Nat Slots, ∃ row,
      (withCapacity 0 (Comparator.constant .lt) : RedBlackMap Nat Nat Slots).run
          [.put 3 0, .put 1 0, .tryInsert 3 1 (· + 1), .remove 1, .clear, .put 2 0] = .ok map ∧
        WellFormed map row := by
  obtain ⟨map, row, ran, wellFormed⟩ := run_wellFormed 0 (Comparator.constant .lt : Comparator Nat)
    [.put 3 0, .put 1 0, .tryInsert 3 1 (· + 1), .remove 1, .clear, .put 2 0]
  exact ⟨map, row, ran, wellFormed⟩

end OrderedCollections.RedBlackMap
