/-
**Runs of operations on a map.**

A run makes one operation after the other on a map and notes down the answers. What an operation
does is told by the row of towers alone, whatever the comparator answers: the heights of the towers
decide where a search goes, and a new tower is as high as the generator says.

* `Operation`, `Answer`: what is asked of a map, and what it answers.
* `perform`, `run`: one operation, and one after the other.
* `Acts`: all that an operation can do to the row.
* `perform_spec`, `run_spec`: on a sound map it does just that, and runs into no fault.
-/

import OrderedCollections.Proofs.SkipMap.Operations

namespace OrderedCollections.SkipMap

open SkipList

/-- What is asked of a map. -/
inductive Operation (κ ν : Type) where
  | put (key : κ) (value : ν)
  | get (key : κ)
  /-- A change made to the value of a key. -/
  | modify (key : κ) (change : ν → ν)
  | contains (key : κ)
  | remove (key : κ)
  | clear
  | first
  | last
  | size
  | isEmpty
  | entries

/-- What a map answers. -/
inductive Answer (κ ν : Type) where
  | value (value? : Option ν)
  | truth (holds : Bool)
  | entry (found? : Option (κ × ν))
  | count (number : Nat)
  | sequence (entries : List (κ × ν))
  | done
  deriving DecidableEq, Repr

variable {κ ν ρ : Type} {σ : Type → Type} [NodeStore σ]

/-- Makes one operation: what is answered, and the map after it. -/
def perform [RandomSource ρ] (map : SkipMap κ ν ρ σ) :
    Operation κ ν → Checked (Answer κ ν × SkipMap κ ν ρ σ)
  | .put key value => do
    let (before, after) ← map.put key value
    return (.value before, after)
  | .get key => return (.value (← map.get? key), map)
  | .modify key change => do
    let (value, after) ← map.modify key change
    return (.value value, after)
  | .contains key => return (.truth (← map.contains key), map)
  | .remove key => do
    let (value, after) ← map.remove key
    return (.value value, after)
  | .clear => return (.done, map.clear)
  | .first => return (.entry (← map.first?), map)
  | .last => return (.entry (← map.last?), map)
  | .size => return (.count map.size, map)
  | .isEmpty => return (.truth map.isEmpty, map)
  | .entries => return (.sequence (← map.entries), map)

/-- Makes one operation after the other: the answers, and the map at the end. -/
def run [RandomSource ρ] (map : SkipMap κ ν ρ σ) :
    List (Operation κ ν) → Checked (List (Answer κ ν) × SkipMap κ ν ρ σ)
  | [] => return ([], map)
  | operation :: others => do
    let (answer, after) ← map.perform operation
    let (answers, last) ← after.run others
    return (answer :: answers, last)

/-! ### One operation -/

/-- **All that an operation can do** to a row of towers and to the generator of their heights. -/
inductive Acts [RandomSource ρ] (cmp : Comparator κ) : Operation κ ν →
    List (Tower (κ × ν)) × HeightGenerator ρ → Answer κ ν →
    List (Tower (κ × ν)) × HeightGenerator ρ → Prop
  | added {key : κ} {value : ν} {front back : List (Tower (κ × ν))} {heights : HeightGenerator ρ}
      {id : NodeId} (gap : gapOf cmp key (front ++ back) = (front, back))
      (misses : ∀ tower ∈ back.head?, asks cmp key tower.value ≠ .eq) :
      Acts cmp (.put key value) (front ++ back, heights) (.value none)
        (front ++ ⟨id, (key, value), heights.next.1⟩ :: back, heights.next.2)
  | replaced {key : κ} {value : ν} {front others : List (Tower (κ × ν))} {tower : Tower (κ × ν)}
      {heights : HeightGenerator ρ}
      (gap : gapOf cmp key (front ++ tower :: others) = (front, tower :: others))
      (equal : asks cmp key tower.value = .eq) :
      Acts cmp (.put key value) (front ++ tower :: others, heights) (.value (some tower.value.2))
        (front ++ withValue value tower :: others, heights)
  | got {key : κ} {row : List (Tower (κ × ν))} {heights : HeightGenerator ρ} :
      Acts cmp (.get key) (row, heights)
        (.value ((foundIn cmp key row).map fun found => found.2.1.value.2)) (row, heights)
  | modified {key : κ} {change : ν → ν} {near far : List (Tower (κ × ν))} {tower : Tower (κ × ν)}
      {heights : HeightGenerator ρ}
      (found : foundIn cmp key (near ++ tower :: far) = some (near, tower, far)) :
      Acts cmp (.modify key change) (near ++ tower :: far, heights)
        (.value (some (change tower.value.2)))
        (near ++ withValue (change tower.value.2) tower :: far, heights)
  | notModified {key : κ} {change : ν → ν} {row : List (Tower (κ × ν))}
      {heights : HeightGenerator ρ} (nowhere : foundIn cmp key row = none) :
      Acts cmp (.modify key change) (row, heights) (.value none) (row, heights)
  | contained {key : κ} {row : List (Tower (κ × ν))} {heights : HeightGenerator ρ} :
      Acts cmp (.contains key) (row, heights) (.truth (foundIn cmp key row).isSome) (row, heights)
  | removed {key : κ} {front others : List (Tower (κ × ν))} {tower : Tower (κ × ν)}
      {heights : HeightGenerator ρ}
      (gap : gapOf cmp key (front ++ tower :: others) = (front, tower :: others))
      (equal : asks cmp key tower.value = .eq) :
      Acts cmp (.remove key) (front ++ tower :: others, heights) (.value (some tower.value.2))
        (front ++ others, heights)
  | notRemoved {key : κ} {front back : List (Tower (κ × ν))} {heights : HeightGenerator ρ}
      (gap : gapOf cmp key (front ++ back) = (front, back))
      (misses : ∀ tower ∈ back.head?, asks cmp key tower.value ≠ .eq) :
      Acts cmp (.remove key) (front ++ back, heights) (.value none) (front ++ back, heights)
  | cleared {row : List (Tower (κ × ν))} {heights : HeightGenerator ρ} :
      Acts cmp .clear (row, heights) .done ([], heights)
  | first {row : List (Tower (κ × ν))} {heights : HeightGenerator ρ} :
      Acts cmp .first (row, heights) (.entry (row.head?.map Tower.value)) (row, heights)
  | last {row : List (Tower (κ × ν))} {heights : HeightGenerator ρ} :
      Acts cmp .last (row, heights) (.entry (row.getLast?.map Tower.value)) (row, heights)
  | size {row : List (Tower (κ × ν))} {heights : HeightGenerator ρ} :
      Acts cmp .size (row, heights) (.count row.length) (row, heights)
  | isEmpty {row : List (Tower (κ × ν))} {heights : HeightGenerator ρ} :
      Acts cmp .isEmpty (row, heights) (.truth row.isEmpty) (row, heights)
  | entries {row : List (Tower (κ × ν))} {heights : HeightGenerator ρ} :
      Acts cmp .entries (row, heights) (.sequence (row.map Tower.value)) (row, heights)

/-- An operation on a map that is sound for a row comes to an answer, and to a map that is sound for
the row it leaves behind. -/
def Performs [RandomSource ρ] (map : SkipMap κ ν ρ σ) (row : List (Tower (κ × ν)))
    (operation : Operation κ ν) : Prop :=
  ∃ answer, ∃ after : SkipMap κ ν ρ σ, ∃ row', map.perform operation = .ok (answer, after) ∧
    Sound after row' ∧ after.cmp = map.cmp ∧
    Acts map.cmp operation (row, map.heights) answer (row', after.heights)

section Perform

variable [RandomSource ρ] {map : SkipMap κ ν ρ σ} {row : List (Tower (κ × ν))}

theorem performs_of_read (sound : Sound map row) {operation : Operation κ ν} (answer : Answer κ ν)
    (read : map.perform operation = .ok (answer, map))
    (acts : Acts map.cmp operation (row, map.heights) answer (row, map.heights)) :
    Performs map row operation :=
  ⟨answer, map, row, read, sound, rfl, acts⟩

variable [LawfulNodeStore σ]

theorem performs_put (sound : Sound map row) (key : κ) (value : ν) :
    Performs map row (.put key value) := by
  obtain ⟨front, back, rfl, gap, ⟨tower, others, rfl, equal, after, done, cmp, heights, soundAfter⟩ |
    ⟨misses, id, after, done, cmp, heights, soundAfter⟩⟩ := put_spec sound key value
  · refine ⟨_, after, _, ?_, soundAfter, cmp, by rw [heights]; exact .replaced gap equal⟩
    simp only [perform, done, Checked.ok_bind, Checked.pure_eq_ok]
  · refine ⟨_, after, _, ?_, soundAfter, cmp, by rw [heights]; exact .added gap misses⟩
    simp only [perform, done, Checked.ok_bind, Checked.pure_eq_ok]

theorem performs_modify (sound : Sound map row) (key : κ) (change : ν → ν) :
    Performs map row (.modify key change) := by
  rcases modify_spec sound key change with
    ⟨near, tower, far, after, rfl, found, done, cmp, heights, soundAfter⟩ | ⟨nowhere, done⟩
  · refine ⟨_, after, _, ?_, soundAfter, cmp, by rw [heights]; exact .modified found⟩
    simp only [perform, done, Checked.ok_bind, Checked.pure_eq_ok]
  · refine performs_of_read sound _ ?_ (.notModified nowhere)
    simp only [perform, done, Checked.ok_bind, Checked.pure_eq_ok]

theorem performs_remove (sound : Sound map row) (key : κ) : Performs map row (.remove key) := by
  obtain ⟨front, back, rfl, gap, ⟨tower, others, rfl, equal, after, done, cmp, heights, soundAfter⟩ |
    ⟨misses, done⟩⟩ := remove_spec sound key
  · refine ⟨_, after, _, ?_, soundAfter, cmp, by rw [heights]; exact .removed gap equal⟩
    simp only [perform, done, Checked.ok_bind, Checked.pure_eq_ok]
  · refine performs_of_read sound _ ?_ (.notRemoved gap misses)
    simp only [perform, done, Checked.ok_bind, Checked.pure_eq_ok]

/-- **One operation.** No operation on a sound map runs into a fault, and the map it leaves behind is
sound. -/
theorem perform_spec (sound : Sound map row) (operation : Operation κ ν) :
    Performs map row operation := by
  cases operation with
  | put key value => exact performs_put sound key value
  | modify key change => exact performs_modify sound key change
  | remove key => exact performs_remove sound key
  | clear => exact ⟨_, map.clear, [], rfl, sound.clear, rfl, .cleared⟩
  | get key =>
    refine performs_of_read sound _ ?_ .got
    simp only [perform, get?_spec sound, Checked.ok_bind, Checked.pure_eq_ok]
  | contains key =>
    refine performs_of_read sound _ ?_ .contained
    simp only [perform, contains_spec sound, Checked.ok_bind, Checked.pure_eq_ok]
  | first =>
    refine performs_of_read sound _ ?_ .first
    simp only [perform, first?_spec sound, Checked.ok_bind, Checked.pure_eq_ok]
  | last =>
    refine performs_of_read sound _ ?_ .last
    simp only [perform, last?_spec sound, Checked.ok_bind, Checked.pure_eq_ok]
  | size =>
    refine performs_of_read sound _ ?_ .size
    rw [← sound.size_eq]
    rfl
  | isEmpty =>
    refine performs_of_read sound _ ?_ .isEmpty
    have same : map.isEmpty = row.isEmpty := by
      unfold isEmpty
      rw [sound.size_eq]
      cases row <;> rfl
    rw [← same]
    rfl
  | entries =>
    refine performs_of_read sound _ ?_ .entries
    simp only [perform, entries_spec sound, Checked.ok_bind, Checked.pure_eq_ok]

end Perform

/-! ### A whole run -/

section Run

variable [RandomSource ρ] [LawfulNodeStore σ]

/-- **A whole run on a sound map** runs into no fault and ends with a sound map. What every operation
keeps of the row holds of the row at the end. -/
theorem run_spec {map : SkipMap κ ν ρ σ} {row : List (Tower (κ × ν))} (sound : Sound map row)
    {keeps : List (Tower (κ × ν)) → Prop}
    (step : ∀ {operation row answer row'} {heights heights' : HeightGenerator ρ},
      (∀ tower ∈ row, 0 < tower.height) →
      Acts map.cmp operation (row, heights) answer (row', heights') → keeps row → keeps row')
    (kept : keeps row) (operations : List (Operation κ ν)) :
    ∃ answers, ∃ last : SkipMap κ ν ρ σ, ∃ row', map.run operations = .ok (answers, last) ∧
      Sound last row' ∧ last.cmp = map.cmp ∧ keeps row' := by
  induction operations generalizing map row with
  | nil => exact ⟨[], map, row, rfl, sound, rfl, kept⟩
  | cons operation others ih =>
    obtain ⟨answer, after, row', performed, soundAfter, cmp, acts⟩ := perform_spec sound operation
    obtain ⟨answers, last, row'', ran, soundLast, cmpLast, keptLast⟩ :=
      ih soundAfter (cmp ▸ step) (step sound.positive acts kept)
    refine ⟨answer :: answers, last, row'', ?_, soundLast, cmpLast.trans cmp, keptLast⟩
    simp only [run, performed, ran, Checked.ok_bind, Checked.pure_eq_ok]

end Run

end OrderedCollections.SkipMap
