/-
**Heights are drawn for new nodes alone.**

A skip map draws heights as a skip list does: an entry that is added draws the next one for its node,
and nothing else draws any, neither a value that is put over another one nor a removal. So the height
of a live node is told by the number of the insertion that brought it, over whole runs, and the number
of levels in use is told by these heights.

* `census`, `adds`, `chronicled`: what a chronicle is told of a map.
* `steps_spec`: one operation on a sound map.
* `run_chronicled`: whole runs of a list and of a map, each with its chronicle.
-/

import OrderedCollections.Comparator.Integer
import OrderedCollections.Proofs.SkipList.Chronicle
import OrderedCollections.Proofs.SkipMap.Run

namespace OrderedCollections

namespace SkipMap

open SkipList (Tower Counts)

variable {κ ν ρ : Type} {σ : Type → Type} [NodeStore σ]

/-- The heights of the nodes of a map. -/
def census (map : SkipMap κ ν ρ σ) : Census :=
  fun id => (NodeStore.get? id map.nodes).map fun node => node.forward.length

/-- A value that is put under a new key adds a node. -/
def adds : Operation κ ν → Answer κ ν → Bool
  | .put _ _, .value none => true
  | _, _ => false

/-- What a chronicle is told of a map. -/
def chronicled [RandomSource ρ] : Chronicled (SkipMap κ ν ρ σ) (Operation κ ν) (Answer κ ν) ρ where
  perform := perform
  adds := adds
  heights := heights
  census := census
  height := height

theorem census_eq (map : SkipMap κ ν ρ σ) (id : NodeId) :
    map.census id = (map.body? id).map Body.height := by
  rw [census, body?, Option.map_map]
  rfl

variable {map : SkipMap κ ν ρ σ} {row front back : List (Tower (κ × ν))} {tower : Tower (κ × ν)}

/-- The census of a sound map is that of its row. -/
theorem Sound.counts (sound : Sound map row) : Counts map.census row := by
  intro id height
  rw [census_eq]
  constructor
  · intro held
    obtain ⟨body, stored, rfl⟩ := Option.map_eq_some_iff.mp held
    obtain ⟨tower, member, rfl⟩ := List.mem_map.mp (sound.live id (by rw [stored]; rfl))
    rw [sound.body tower member, Option.some.injEq] at stored
    exact ⟨tower, member, rfl, by rw [← stored]⟩
  · rintro ⟨tower, member, rfl, rfl⟩
    rw [sound.body tower member]
    rfl

variable [RandomSource ρ] {heights heights' : HeightGenerator ρ} {before after : Census}

theorem draws_of_withValue {value : ν} (counts : Counts before (front ++ tower :: back))
    (counts' : Counts after (front ++ withValue value tower :: back)) :
    Draws false (heights, before) (heights, after) := by
  refine counts.kept counts' (SkipList.forall_mem_insert.mpr
    ⟨⟨tower, by simp, rfl, rfl⟩, fun other member => ⟨other, ?_, rfl, rfl⟩⟩)
  exact (SkipList.sublist_insert front back tower).mem member

/-- **What an operation does to a row** draws a height for the tower that comes in, if one does. -/
theorem Acts.draws {cmp : Comparator κ} {operation : Operation κ ν} {answer : Answer κ ν}
    {row' : List (Tower (κ × ν))} (acts : Acts cmp operation (row, heights) answer (row', heights'))
    (counts : Counts before row) (counts' : Counts after row') (nodup : (row'.map Tower.id).Nodup) :
    Draws (adds operation answer) (heights, before) (heights', after) := by
  have unchanged : row' = row → Draws false (heights, before) (heights, after) := by
    rintro rfl
    exact counts.kept counts' fun tower member => ⟨tower, member, rfl, rfl⟩
  cases acts with
  | added => exact counts.added counts' nodup rfl
  | replaced | modified => exact draws_of_withValue counts counts'
  | removed => exact counts.removed counts'
  | cleared => exact counts.kept counts' (List.forall_mem_nil _)
  | got | notModified | contained | notRemoved | first | last | size | isEmpty | entries =>
    exact unchanged rfl

variable [LawfulNodeStore σ]

/-- **One operation on a sound map** draws a height for the node that it adds, if it adds one. -/
theorem steps_spec (sound : Sound map row) (operation : Operation κ ν) :
    chronicled.Steps (fun after : SkipMap κ ν ρ σ => ∃ row, Sound after row) map operation := by
  obtain ⟨answer, after, row', performed, soundAfter, -, acts⟩ := perform_spec sound operation
  exact ⟨answer, after, performed, ⟨row', soundAfter⟩,
    acts.draws sound.counts soundAfter.counts soundAfter.nodup⟩

end SkipMap

/-! ### Whole runs -/

section Run

variable {α κ ν ρ : Type} {σ : Type → Type} [NodeStore σ] [LawfulNodeStore σ] [RandomSource ρ]

/-- **Heights are drawn once for every node that is added, in order, and for nothing else**, in every
run of a list and in every run of a map, whatever the comparator, the options and the random source
answer. The chronicle tells the number of every live node among those that were added since the
structure was built, the ones before a clear included. The node has the height that the generator
answers at that number from its start, the tallest of these heights is the number of levels in use,
and one operation more draws a height if it adds a node, and leaves the generator alone otherwise. -/
theorem run_chronicled (options : Options) (source : ρ) (cmp : Comparator α) (cmp' : Comparator κ)
    (operations : List (SkipList.Operation α)) (operations' : List (SkipMap.Operation κ ν)) :
    (∃ chronicle, ∃ list : SkipList α ρ σ,
      SkipList.chronicled.recount {} (SkipList.withSource options cmp source) operations =
        .ok (chronicle, list) ∧
      SkipList.chronicled.Told (HeightGenerator.withSource options source) chronicle list) ∧
    ∃ chronicle, ∃ map : SkipMap κ ν ρ σ,
      SkipMap.chronicled.recount {} (SkipMap.withSource options cmp' source) operations' =
        .ok (chronicle, map) ∧
      SkipMap.chronicled.Told (HeightGenerator.withSource options source) chronicle map := by
  constructor
  · have start : SkipList.Sound (SkipList.withSource options cmp source : SkipList α ρ σ) [] :=
      SkipList.sound_withSource options cmp source
    refine Chronicled.recount_told (fun list => ∃ row, SkipList.Sound list row) ?_ ?_ ⟨[], start⟩
      (.of_empty _ start.counts.eq_none) operations
    · rintro list ⟨row, sound⟩ operation
      exact SkipList.steps_spec sound operation
    · rintro list ⟨row, sound⟩
      have tallest := sound.counts.isGreatest
      rw [← sound.height_eq] at tallest
      exact tallest
  · have start : SkipMap.Sound (SkipMap.withSource options cmp' source : SkipMap κ ν ρ σ) [] :=
      SkipMap.sound_withSource options cmp' source
    refine Chronicled.recount_told (fun map => ∃ row, SkipMap.Sound map row) ?_ ?_ ⟨[], start⟩
      (.of_empty _ start.counts.eq_none) operations'
    · rintro map ⟨row, sound⟩ operation
      exact SkipMap.steps_spec sound operation
    · rintro map ⟨row, sound⟩
      have tallest := sound.counts.isGreatest
      rw [← sound.height_eq] at tallest
      exact tallest

end Run

/-- A run under a comparator that is no order, with a rejected insertion, a value put over another one
and a clear. -/
theorem run_chronicled_cyclic :
    (∃ chronicle, ∃ list : SkipList Int64 KeyStream Slots,
      SkipList.chronicled.recount {} (SkipList.withSource {} Comparator.cyclic (.ofSeed 0))
          [.insert 2, .insert 2, .removeRank 1, .clear, .insert 5] = .ok (chronicle, list) ∧
      SkipList.chronicled.Told (HeightGenerator.withSource {} (KeyStream.ofSeed 0)) chronicle list) ∧
    ∃ chronicle, ∃ map : SkipMap Int64 Nat KeyStream Slots,
      SkipMap.chronicled.recount {} (SkipMap.withSource {} Comparator.cyclic (.ofSeed 0))
          [.put 2 0, .put 2 1, .remove 2, .clear, .put 5 3] = .ok (chronicle, map) ∧
      SkipMap.chronicled.Told (HeightGenerator.withSource {} (KeyStream.ofSeed 0)) chronicle map :=
  run_chronicled {} (KeyStream.ofSeed 0) Comparator.cyclic Comparator.cyclic
    [.insert 2, .insert 2, .removeRank 1, .clear, .insert 5]
    [.put 2 0, .put 2 1, .remove 2, .clear, .put 5 3]

end OrderedCollections
