/-
**What the links of a skip map lead through.**

Soundness speaks of the links that a row asks for. Here the same is said by following the links that
are there, on every level that the header has and not only on those in use: no link is left dangling
when a level is given up, so that it can be taken into use again as it stands. Nothing is asked of the
comparator.

* `Chain`: the nodes that the links of a level lead through.
* `WellLinked`: the links lead through the row as they should.
* `Sound.wellLinked`: the links of a sound map lead through its row.
* `run_levels`: every run ends with a map whose links lead through a row, and what is iterated over
  are the entries of that row, from the first to the last.
-/

import OrderedCollections.Proofs.SkipMap.Run

namespace OrderedCollections.SkipMap

open SkipList (Cursor Tower along_level ids_on_level ids_on_lowest peak_of_ids)

variable {κ ν ρ : Type} {σ : Type → Type} [NodeStore σ]

/-- The nodes that an owner leads to on a level, one after the other. -/
inductive Chain (map : SkipMap κ ν ρ σ) (level : Nat) : Cursor → List NodeId → Prop
  | last {owner : Cursor} (nowhere : map.forwardAt level owner = .ok none) : Chain map level owner []
  | next {owner : Cursor} {id : NodeId} {others : List NodeId}
      (leads : map.forwardAt level owner = .ok (some id)) (rest : Chain map level (.node id) others) :
      Chain map level owner (id :: others)

/-- The height of a node. -/
def heightOf (map : SkipMap κ ν ρ σ) (id : NodeId) : Nat :=
  ((NodeStore.get? id map.nodes).map fun node => node.forward.length).getD 0

/-- **The links of a map lead through a row of nodes as they should.** -/
structure WellLinked (map : SkipMap κ ν ρ σ) (row : List NodeId) : Prop where
  /-- The lowest level visits every node of the store exactly once. -/
  chain_zero : Chain map 0 .head row
  nodup : row.Nodup
  live : ∀ id, (NodeStore.get? id map.nodes).isSome ↔ id ∈ row
  length_eq : row.length = map.size
  stored : NodeStore.size map.nodes = map.size
  /-- Every level that the header has visits the nodes that are tall enough, in the same order. -/
  chain : ∀ level < heightLimit,
    Chain map level .head (row.filter fun id => level < map.heightOf id)
  /-- The tallest node, and at least one level. -/
  height_eq : map.height = (row.map map.heightOf).foldr max 1
  height_le : map.height ≤ heightLimit

namespace Sound

variable {map : SkipMap κ ν ρ σ} {row : List (Tower (κ × ν))}

theorem heightOf_eq (sound : Sound map row) {tower : Tower (κ × ν)} (member : tower ∈ row) :
    map.heightOf tower.id = tower.height := by
  obtain ⟨node, stored, -, -, height⟩ := sound.node_eq member
  unfold heightOf
  rw [stored]
  exact height

/-- Every level of the header visits the nodes that are tall enough. -/
theorem chain_of_inside (sound : Sound map row) {level : Nat} (inside : level < heightLimit) :
    Chain map level .head ((row.map Tower.id).filter fun id => level < map.heightOf id) := by
  rw [ids_on_level fun tower => sound.heightOf_eq]
  refine along_level (fun front back split reaches nowhere => ?_)
    fun front back id others split reaches leads rest => ?_
  · refine .last ?_
    rw [sound.laid level inside front back split reaches, nowhere]
  · refine .next ?_ rest
    rw [sound.laid level inside front back split reaches, leads]

theorem chain_zero (sound : Sound map row) : Chain map 0 .head (row.map Tower.id) := by
  have lowest := sound.chain_of_inside heightLimit_pos
  rw [ids_on_lowest (fun tower => sound.heightOf_eq) sound.positive] at lowest
  exact lowest

/-- **The links of a sound map lead through its row as they should.** -/
theorem wellLinked (sound : Sound map row) : WellLinked map (row.map Tower.id) where
  chain_zero := sound.chain_zero
  nodup := sound.nodup
  live id := by
    refine ⟨fun stored => sound.live id ?_, fun member => ?_⟩
    · rwa [body?, Option.isSome_map]
    · obtain ⟨tower, inRow, rfl⟩ := List.mem_map.mp member
      obtain ⟨node, stored, -⟩ := sound.node_eq inRow
      rw [stored]
      rfl
  length_eq := by rw [List.length_map, sound.size_eq]
  stored := sound.stored.trans sound.size_eq.symm
  chain level inside := sound.chain_of_inside inside
  height_eq := by rw [sound.height_eq, peak_of_ids fun tower => sound.heightOf_eq]
  height_le := sound.height_le

end Sound

/-! ### Every map that a run ends with -/

/-- **Every run from a map without entries** comes to its end, whatever the comparator, the options
and the random source answer, with a map whose links lead through its nodes as they should on every
level. The iterator yields as many entries as the map counts, those of the nodes in the row, and
comes to its end without the count falling below zero; the first and the last of them are those that
the map names. -/
theorem run_levels [RandomSource ρ] [LawfulNodeStore σ] (options : Options) (cmp : Comparator κ)
    (source : ρ) (operations : List (Operation κ ν)) :
    ∃ answers, ∃ map : SkipMap κ ν ρ σ, ∃ row entries,
      (withSource options cmp source : SkipMap κ ν ρ σ).run operations = .ok (answers, map) ∧
        WellLinked map row ∧
        List.Forall₂ (fun id entry => map.entryAt id = .ok entry) row entries ∧
        Yields map.iterator entries ∧ entries.length = map.size ∧
        map.first? = .ok entries.head? ∧ map.last? = .ok entries.getLast? := by
  have start : Sound (withSource options cmp source : SkipMap κ ν ρ σ) [] :=
    sound_withSource options cmp source
  obtain ⟨answers, map, row, ran, sound, -⟩ :=
    run_spec start (fun _ _ _ => trivial) trivial operations
  refine ⟨answers, map, row.map Tower.id, row.map Tower.value, ran, sound.wellLinked, ?_,
    iterator_yields sound, ?_, ?_, ?_⟩
  · rw [List.forall₂_map_left_iff, List.forall₂_map_right_iff, List.forall₂_same]
    exact fun tower => entryAt_spec sound
  · rw [List.length_map, sound.size_eq]
  · rw [first?_spec sound, List.head?_map]
  · rw [last?_spec sound, List.getLast?_map]

/-- A run under a comparator that is no order at all: every key is below every other. -/
theorem run_levels_constant :
    ∃ answers, ∃ map : SkipMap Nat Nat KeyStream Slots, ∃ row entries,
      (withSource {} (Comparator.constant .lt) (.ofSeed 0) : SkipMap Nat Nat KeyStream Slots).run
          [.put 3 0, .put 1 5, .modify 3 (· + 1), .remove 1, .clear, .put 2 4, .put 2 6] =
        .ok (answers, map) ∧
        WellLinked map row ∧
        List.Forall₂ (fun id entry => map.entryAt id = .ok entry) row entries ∧
        Yields map.iterator entries ∧ entries.length = map.size ∧
        map.first? = .ok entries.head? ∧ map.last? = .ok entries.getLast? :=
  run_levels {} (Comparator.constant .lt) (KeyStream.ofSeed 0)
    [.put 3 0, .put 1 5, .modify 3 (· + 1), .remove 1, .clear, .put 2 4, .put 2 6]

end OrderedCollections.SkipMap
