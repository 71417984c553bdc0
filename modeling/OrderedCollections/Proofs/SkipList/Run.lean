/-
**Runs of operations.**

A run makes one operation after the other on a list and notes down the answers. Every run from a
list without elements comes to its end, with a list whose links lead through its row as they should;
nothing is asked of the comparator.

* `Operation`, `Answer`: what is asked of a list, and what it answers.
* `perform`, `run`: one operation, and one after the other.
* `Acts`: what an operation does to the sequence of elements, whatever the comparator answers.
* `perform_spec`: one operation on a sound list.
* `run_wellLinked`: a whole run from a list without elements.
-/

import OrderedCollections.Proofs.SkipList.Operations
import OrderedCollections.Proofs.SkipList.WellLinked

namespace OrderedCollections.SkipList

/-- What is asked of a list. -/
inductive Operation (α : Type) where
  | insert (value : α)
  | find (wanted : α)
  | contains (wanted : α)
  | remove (wanted : α)
  | atRank (rank : Nat)
  | removeRank (rank : Nat)
  | front
  | back
  | size
  | isEmpty
  | elements
  | clear
  deriving DecidableEq, Repr

/-- What a list answers. An entry is told by its element and its rank. -/
inductive Answer (α : Type) where
  | entry (outcome : Except Error (α × Nat))
  | place (found? : Option (α × Nat))
  | taken (element? : Option α)
  | truth (holds : Bool)
  | count (number : Nat)
  | sequence (elements : List α)
  | done

variable {α ρ : Type} {σ : Type → Type} [NodeStore σ]

/-- The element of an entry and its rank. -/
def Entry.told (entry : Entry α ρ σ) : Checked (α × Nat) :=
  return (← entry.value, ← entry.rank)

/-- The element and the rank of an entry, if there is one. -/
def told? : Option (Entry α ρ σ) → Checked (Option (α × Nat))
  | none => return none
  | some entry => return some (← entry.told)

/-- Makes one operation: what is answered, and the list after it. -/
def perform [RandomSource ρ] (list : SkipList α ρ σ) :
    Operation α → Checked (Answer α × SkipList α ρ σ)
  | .insert value => do
    let (outcome, after) ← list.insert value
    match outcome with
    | .error error => return (.entry (.error error), after)
    | .ok id => return (.entry (.ok (← Entry.told ⟨after, id⟩)), after)
  | .find wanted => do
    match ← list.find wanted with
    | .error error => return (.entry (.error error), list)
    | .ok entry => return (.entry (.ok (← entry.told)), list)
  | .contains wanted => return (.truth (← list.contains wanted), list)
  | .remove wanted => do
    let (taken, after) ← list.remove wanted
    return (.taken taken, after)
  | .atRank rank => return (.place (← told? (← list.atRank? rank)), list)
  | .removeRank rank => do
    let (taken, after) ← list.removeRank rank
    return (.taken taken, after)
  | .front => return (.place (← told? list.front?), list)
  | .back => return (.place (← told? list.back?), list)
  | .size => return (.count list.size, list)
  | .isEmpty => return (.truth list.isEmpty, list)
  | .elements => return (.sequence (← list.elements), list)
  | .clear => return (.done, list.clear)

/-- Makes one operation after the other: the answers, and the list at the end. -/
def run [RandomSource ρ] (list : SkipList α ρ σ) :
    List (Operation α) → Checked (List (Answer α) × SkipList α ρ σ)
  | [] => return ([], list)
  | operation :: others => do
    let (answer, after) ← list.perform operation
    let (answers, last) ← after.run others
    return (answer :: answers, last)

/-! ### One operation -/

/-- Where the first element behind a gap, if there is one, does not compare equal. -/
def Misses (cmp : Comparator α) (wanted : α) (back : List α) : Prop :=
  ∀ first others, back = first :: others → cmp first wanted ≠ .eq

/-- **What an operation does to the sequence of elements.** Inserting, looking up and removing act
in a gap of the sequence; where the comparator is no order, there may be several. -/
inductive Acts (cmp : Comparator α) : Operation α → List α → Answer α → List α → Prop
  | inserted {value : α} {front back : List α} (gap : AtGap cmp value front back)
      (misses : Misses cmp value back) :
      Acts cmp (.insert value) (front ++ back) (.entry (.ok (value, front.length + 1)))
        (front ++ value :: back)
  | duplicated {value stored : α} {front others : List α}
      (gap : AtGap cmp value front (stored :: others)) (equal : cmp stored value = .eq) :
      Acts cmp (.insert value) (front ++ stored :: others) (.entry (.error .duplicated))
        (front ++ stored :: others)
  | found {wanted stored : α} {front others : List α}
      (gap : AtGap cmp wanted front (stored :: others)) (equal : cmp stored wanted = .eq) :
      Acts cmp (.find wanted) (front ++ stored :: others)
        (.entry (.ok (stored, front.length + 1))) (front ++ stored :: others)
  | notFound {wanted : α} {front back : List α} (gap : AtGap cmp wanted front back)
      (misses : Misses cmp wanted back) :
      Acts cmp (.find wanted) (front ++ back) (.entry (.error .notFound)) (front ++ back)
  | contained {wanted stored : α} {front others : List α}
      (gap : AtGap cmp wanted front (stored :: others)) (equal : cmp stored wanted = .eq) :
      Acts cmp (.contains wanted) (front ++ stored :: others) (.truth true)
        (front ++ stored :: others)
  | absent {wanted : α} {front back : List α} (gap : AtGap cmp wanted front back)
      (misses : Misses cmp wanted back) :
      Acts cmp (.contains wanted) (front ++ back) (.truth false) (front ++ back)
  | removed {wanted stored : α} {front others : List α}
      (gap : AtGap cmp wanted front (stored :: others)) (equal : cmp stored wanted = .eq) :
      Acts cmp (.remove wanted) (front ++ stored :: others) (.taken (some stored)) (front ++ others)
  | notRemoved {wanted : α} {front back : List α} (gap : AtGap cmp wanted front back)
      (misses : Misses cmp wanted back) :
      Acts cmp (.remove wanted) (front ++ back) (.taken none) (front ++ back)
  | atRank {stored : α} {front back : List α} :
      Acts cmp (.atRank (front.length + 1)) (front ++ stored :: back)
        (.place (some (stored, front.length + 1))) (front ++ stored :: back)
  | noRank {rank : Nat} {elements : List α} (outside : rank = 0 ∨ elements.length < rank) :
      Acts cmp (.atRank rank) elements (.place none) elements
  | rankRemoved {stored : α} {front back : List α} :
      Acts cmp (.removeRank (front.length + 1)) (front ++ stored :: back) (.taken (some stored))
        (front ++ back)
  | noRankRemoved {rank : Nat} {elements : List α} (outside : rank = 0 ∨ elements.length < rank) :
      Acts cmp (.removeRank rank) elements (.taken none) elements
  | front {elements : List α} :
      Acts cmp .front elements (.place (elements.head?.map fun first => (first, 1))) elements
  | back {elements : List α} :
      Acts cmp .back elements (.place (elements.getLast?.map fun last => (last, elements.length)))
        elements
  | size {elements : List α} : Acts cmp .size elements (.count elements.length) elements
  | isEmpty {elements : List α} : Acts cmp .isEmpty elements (.truth elements.isEmpty) elements
  | elements {elements : List α} : Acts cmp .elements elements (.sequence elements) elements
  | clear {elements : List α} : Acts cmp .clear elements .done []

/-- An operation on a list that is sound for a row comes to an answer, and to a list that is sound
for the row it leaves behind. -/
def Performs [RandomSource ρ] (list : SkipList α ρ σ) (row : List (Tower α))
    (operation : Operation α) : Prop :=
  ∃ answer, ∃ after : SkipList α ρ σ, ∃ row', list.perform operation = .ok (answer, after) ∧
    Sound after row' ∧ after.cmp = list.cmp ∧ after.heights.maxHeight = list.heights.maxHeight ∧
    Acts list.cmp operation (row.map Tower.value) answer (row'.map Tower.value)

/-- The entry of a tower is told by the element and the position of the tower. -/
theorem told_spec {list : SkipList α ρ σ} {row : List (Tower α)} (sound : Sound list row)
    {front back : List (Tower α)} {tower : Tower α} (split : front ++ tower :: back = row) :
    (⟨list, tower.id⟩ : Entry α ρ σ).told =
      .ok (tower.value, (front.map Tower.value).length + 1) := by
  unfold Entry.told
  rw [Entry.value_spec sound split, Checked.ok_bind, Entry.rank_spec sound split,
    List.length_map]
  rfl

/-- The first tower, if there is one, is told by its element and the rank one. -/
theorem told?_front_spec {list : SkipList α ρ σ} {row : List (Tower α)} (sound : Sound list row) :
    told? list.front? = .ok ((row.map Tower.value).head?.map fun first => (first, 1)) := by
  rw [front?_spec sound]
  cases row with
  | nil => rfl
  | cons tower others =>
    simp only [List.head?_cons, Option.map_some, told?, told_spec sound (List.nil_append _),
      Checked.ok_bind, Checked.pure_eq_ok, List.map_cons, List.map_nil, List.length_nil]

/-- The last tower, if there is one, is told by its element and the number of towers. -/
theorem told?_back_spec {list : SkipList α ρ σ} {row : List (Tower α)} (sound : Sound list row) :
    told? list.back? =
      .ok ((row.map Tower.value).getLast?.map fun last => (last, row.length)) := by
  rw [back?_spec sound]
  rcases List.eq_nil_or_concat' row with rfl | ⟨others, tower, rfl⟩
  · rfl
  · simp only [List.getLast?_concat, Option.map_some, told?, told_spec sound rfl, Checked.ok_bind,
      Checked.pure_eq_ok, List.map_append, List.map_cons, List.map_nil, List.length_append,
      List.length_map, List.length_cons, List.length_nil]

theorem misses_of_towers {cmp : Comparator α} {wanted : α} {back : List (Tower α)}
    (misses : ∀ tower ∈ back.head?, cmp tower.value wanted ≠ .eq) :
    Misses cmp wanted (back.map Tower.value) := by
  intro first others same
  obtain ⟨tower, rest, rfl, rfl, -⟩ := List.map_eq_cons_iff.mp same
  exact misses tower rfl

section Perform

variable [RandomSource ρ] {list : SkipList α ρ σ} {row : List (Tower α)}

theorem performs_of_read (sound : Sound list row) {operation : Operation α} (answer : Answer α)
    (read : list.perform operation = .ok (answer, list))
    (acts : Acts list.cmp operation (row.map Tower.value) answer (row.map Tower.value)) :
    Performs list row operation :=
  ⟨answer, list, row, read, sound, rfl, rfl, acts⟩

theorem performs_find (sound : Sound list row) (wanted : α) : Performs list row (.find wanted) := by
  obtain ⟨front, back, rfl, -, gap, ⟨tower, others, rfl, equal, found⟩ | ⟨misses, found⟩⟩ :=
    find_spec sound wanted
  · refine performs_of_read sound _ ?_ (by rw [List.map_append]; exact .found gap equal)
    simp only [perform, found, Checked.ok_bind, told_spec sound rfl, Checked.pure_eq_ok]
  · refine performs_of_read sound _ ?_
      (by rw [List.map_append]; exact .notFound gap (misses_of_towers misses))
    simp only [perform, found, Checked.ok_bind, Checked.pure_eq_ok]

theorem performs_contains (sound : Sound list row) (wanted : α) :
    Performs list row (.contains wanted) := by
  obtain ⟨front, back, rfl, -, gap, ⟨tower, others, rfl, equal, found⟩ | ⟨misses, found⟩⟩ :=
    find_spec sound wanted
  · refine performs_of_read sound _ ?_ (by rw [List.map_append]; exact .contained gap equal)
    simp only [perform, contains, found, Checked.ok_bind, Checked.pure_eq_ok]
    rfl
  · refine performs_of_read sound _ ?_
      (by rw [List.map_append]; exact .absent gap (misses_of_towers misses))
    simp only [perform, contains, found, Checked.ok_bind, Checked.pure_eq_ok]
    rfl

theorem performs_atRank (sound : Sound list row) (rank : Nat) :
    Performs list row (.atRank rank) := by
  rcases atRank?_spec sound rank with ⟨front, tower, back, rfl, rfl, found⟩ | ⟨outside, found⟩
  · have position : front.length = (front.map Tower.value).length := (List.length_map _).symm
    refine performs_of_read sound _ ?_ (by rw [List.map_append, position]; exact .atRank)
    simp only [perform, found, Checked.ok_bind, told?, told_spec sound rfl, Checked.pure_eq_ok]
  · refine performs_of_read sound _ ?_ (.noRank (by rw [List.length_map]; exact outside))
    simp only [perform, found, Checked.ok_bind, told?, Checked.pure_eq_ok]

theorem performs_front (sound : Sound list row) : Performs list row .front := by
  refine performs_of_read sound _ ?_ .front
  simp only [perform, told?_front_spec sound, Checked.ok_bind, Checked.pure_eq_ok]

theorem performs_back (sound : Sound list row) : Performs list row .back := by
  refine performs_of_read sound _ ?_ .back
  simp only [perform, told?_back_spec sound, Checked.ok_bind, Checked.pure_eq_ok, List.length_map]

variable [LawfulNodeStore σ]

theorem performs_insert (sound : Sound list row) (value : α) :
    Performs list row (.insert value) := by
  obtain ⟨front, back, rfl, -, gap, ⟨tower, others, rfl, equal, inserted⟩ |
    ⟨misses, id, after, inserted, cmp, heights, soundAfter⟩⟩ := insert_spec sound value
  · refine performs_of_read sound _ ?_ (by rw [List.map_append]; exact .duplicated gap equal)
    simp only [perform, inserted, Checked.ok_bind, Checked.pure_eq_ok]
  · refine ⟨.entry (.ok (value, (front.map Tower.value).length + 1)), after, _, ?_, soundAfter, cmp,
      by rw [heights]; rfl, ?_⟩
    · simp only [perform, inserted, Checked.ok_bind, told_spec soundAfter rfl, Checked.pure_eq_ok]
    · rw [List.map_append, List.map_append]
      exact .inserted gap (misses_of_towers misses)

theorem performs_remove (sound : Sound list row) (wanted : α) :
    Performs list row (.remove wanted) := by
  obtain ⟨front, back, rfl, -, gap, ⟨tower, others, rfl, equal, after, removed, cmp, heights,
    soundAfter⟩ | ⟨misses, removed⟩⟩ := remove_spec sound wanted
  · refine ⟨.taken (some tower.value), after, _, ?_, soundAfter, cmp, by rw [heights], ?_⟩
    · simp only [perform, removed, Checked.ok_bind, Checked.pure_eq_ok]
    · rw [List.map_append, List.map_append]
      exact .removed gap equal
  · refine performs_of_read sound _ ?_
      (by rw [List.map_append]; exact .notRemoved gap (misses_of_towers misses))
    simp only [perform, removed, Checked.ok_bind, Checked.pure_eq_ok]

theorem performs_removeRank (sound : Sound list row) (rank : Nat) :
    Performs list row (.removeRank rank) := by
  rcases removeRank_spec sound rank with
    ⟨front, tower, back, rfl, rfl, after, removed, cmp, heights, soundAfter⟩ | ⟨outside, removed⟩
  · refine ⟨.taken (some tower.value), after, _, ?_, soundAfter, cmp, by rw [heights], ?_⟩
    · simp only [perform, removed, Checked.ok_bind, Checked.pure_eq_ok]
    · have position : front.length = (front.map Tower.value).length := (List.length_map _).symm
      rw [List.map_append, List.map_append, position]
      exact .rankRemoved
  · refine performs_of_read sound _ ?_ (.noRankRemoved (by rw [List.length_map]; exact outside))
    simp only [perform, removed, Checked.ok_bind, Checked.pure_eq_ok]

/-- **One operation.** No operation on a sound list runs into a fault, and the list it leaves behind
is sound. -/
theorem perform_spec (sound : Sound list row) (operation : Operation α) :
    Performs list row operation := by
  cases operation with
  | insert value => exact performs_insert sound value
  | find wanted => exact performs_find sound wanted
  | contains wanted => exact performs_contains sound wanted
  | remove wanted => exact performs_remove sound wanted
  | atRank rank => exact performs_atRank sound rank
  | removeRank rank => exact performs_removeRank sound rank
  | front => exact performs_front sound
  | back => exact performs_back sound
  | size =>
    refine performs_of_read sound _ ?_ .size
    rw [List.length_map, ← sound.size_eq]
    rfl
  | isEmpty =>
    refine performs_of_read sound _ ?_ .isEmpty
    have same : list.isEmpty = (row.map Tower.value).isEmpty := by
      unfold isEmpty
      rw [sound.size_eq, List.isEmpty_map]
      cases row <;> rfl
    rw [← same]
    rfl
  | elements =>
    refine performs_of_read sound _ ?_ .elements
    simp only [perform, elements_spec sound, Checked.ok_bind, Checked.pure_eq_ok]
  | clear => exact ⟨_, list.clear, [], rfl, sound.clear, rfl, rfl, .clear⟩

end Perform

/-! ### A whole run -/

/-- A run on a sequence of elements: each operation acts on what the one before it left behind. -/
inductive ActsAll (cmp : Comparator α) : List (Operation α) → List α → List (Answer α) → List α → Prop
  | nil {elements : List α} : ActsAll cmp [] elements [] elements
  | cons {operation : Operation α} {operations : List (Operation α)} {answer : Answer α}
      {answers : List (Answer α)} {before middle after : List α}
      (first : Acts cmp operation before answer middle)
      (others : ActsAll cmp operations middle answers after) :
      ActsAll cmp (operation :: operations) before (answer :: answers) after

section Run

variable [RandomSource ρ] [LawfulNodeStore σ]

/-- **A whole run on a sound list** runs into no fault and ends with a sound list. -/
theorem run_spec {list : SkipList α ρ σ} {row : List (Tower α)} (sound : Sound list row)
    (operations : List (Operation α)) :
    ∃ answers, ∃ last : SkipList α ρ σ, ∃ row', list.run operations = .ok (answers, last) ∧
      Sound last row' ∧
      last.cmp = list.cmp ∧ last.heights.maxHeight = list.heights.maxHeight ∧
      ActsAll list.cmp operations (row.map Tower.value) answers (row'.map Tower.value) := by
  induction operations generalizing list row with
  | nil => exact ⟨[], list, row, rfl, sound, rfl, rfl, .nil⟩
  | cons operation others ih =>
    obtain ⟨answer, after, row', performed, soundAfter, cmp, heights, acts⟩ :=
      perform_spec sound operation
    obtain ⟨answers, last, row'', ran, soundLast, cmpLast, heightsLast, actsAll⟩ := ih soundAfter
    rw [cmp] at actsAll
    refine ⟨answer :: answers, last, row'', ?_, soundLast, cmpLast.trans cmp,
      heightsLast.trans heights, .cons acts actsAll⟩
    simp only [run, performed, ran, Checked.ok_bind, Checked.pure_eq_ok]

/-- **Every run from a list without elements** comes to its end, whatever the comparator, the
options and the random source answer: no key without a node is followed and no count falls below
zero on the way. The links of the list at the end lead through its nodes as they should, and no
more levels are in use than the options allow. -/
theorem run_wellLinked (options : Options) (cmp : Comparator α) (source : ρ)
    (operations : List (Operation α)) :
    ∃ answers, ∃ list : SkipList α ρ σ, ∃ row,
      (withSource options cmp source : SkipList α ρ σ).run operations = .ok (answers, list) ∧
        WellLinked list row ∧ list.height ≤ options.maxHeight := by
  have start : Sound (withSource options cmp source : SkipList α ρ σ) [] :=
    sound_withSource options cmp source
  obtain ⟨answers, last, row, ran, sound, -, heights, -⟩ := run_spec start operations
  refine ⟨answers, last, row.map Tower.id, ran, sound.wellLinked, ?_⟩
  have bounded := sound.height_le
  rw [heights] at bounded
  exact bounded

end Run

/-- A run under a comparator that is no order at all: every element is below every other. -/
theorem run_wellLinked_constant :
    ∃ answers, ∃ list : SkipList Nat KeyStream Slots, ∃ row,
      (withSource {} (Comparator.constant .lt) (.ofSeed 0) : SkipList Nat KeyStream Slots).run
          [.insert 3, .insert 1, .removeRank 1, .find 3, .clear, .insert 2] = .ok (answers, list) ∧
        WellLinked list row ∧ list.height ≤ Options.maxHeight {} := by
  obtain ⟨answers, list, row, ran, linked, height⟩ := run_wellLinked {}
    (Comparator.constant .lt : Comparator Nat) (KeyStream.ofSeed 0)
    [.insert 3, .insert 1, .removeRank 1, .find 3, .clear, .insert 2]
  exact ⟨answers, list, row, ran, linked, height⟩

end OrderedCollections.SkipList
