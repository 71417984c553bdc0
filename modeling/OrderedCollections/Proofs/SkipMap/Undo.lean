/-
**An entry that is put and removed.**

A skip map keeps neither spans nor links back, and a level that is given up leads nowhere, so what
comes back when a new entry is removed is the whole map: its nodes, all links of the header and the
number of levels in use. As in a skip list, the descent that looks for the new entry passes the same
towers as the one that brought it in, if only the key compares equal to itself.

* `Undone`: the map is as it was before an entry was put, but for the height that was drawn.
* `Sound.remove_added`: a new entry of a sound map is removed, and nothing is left of it.
* `run_undone`: a removal undoes an insertion in every list and in every map that a run ends with.
-/

import OrderedCollections.Comparator.Integer
import OrderedCollections.Proofs.SkipList.Ranks
import OrderedCollections.Proofs.SkipList.Undo
import OrderedCollections.Proofs.SkipMap.Run

namespace OrderedCollections

namespace SkipMap

open SkipList

variable {κ ν ρ : Type} {σ : Type → Type} [NodeStore σ]

/-- **A map is as it was** before an entry was put: the same entries, nodes, links and counts. The
height that was drawn stays drawn. -/
structure Undone [RandomSource ρ] (map last : SkipMap κ ν ρ σ) : Prop where
  cmp : last.cmp = map.cmp
  entries_eq : last.entries = map.entries
  get? : ∀ id, NodeStore.get? id last.nodes = NodeStore.get? id map.nodes
  stored : NodeStore.size last.nodes = NodeStore.size map.nodes
  head : last.head = map.head
  size : last.size = map.size
  height : last.height = map.height
  drawn : last.heights = map.heights.next.2

namespace Sound

variable {map last : SkipMap κ ν ρ σ} {row front back : List (Tower (κ × ν))}
  {tower : Tower (κ × ν)}

/-- The node of a tower is told by the row: its entry, and where it leads on all of its levels. -/
theorem get?_eq (sound : Sound map row) (split : front ++ tower :: back = row) :
    NodeStore.get? tower.id map.nodes = some ⟨tower.value.1, tower.value.2,
      (List.range tower.height).map fun level => (ahead level back).next⟩ := by
  have member : tower ∈ row := by
    rw [← split]
    simp
  obtain ⟨⟨key, value, forward⟩, stored, -, entry, height⟩ := sound.node_eq member
  have laid : forward = (List.range tower.height).map fun level => (ahead level back).next := by
    refine eq_map_range height fun level tall => ?_
    have inside : level < heightLimit :=
      Nat.lt_of_lt_of_le tall (Nat.le_trans (sound.bounded tower member) sound.maxHeight_le)
    have linked := sound.laid level inside (front ++ [tower]) back (by rw [← split]; simp)
      (reaches_concat.mpr tall)
    rwa [owner_concat, forwardAt_node stored, Checked.ofOption_eq_ok] at linked
  rw [stored, laid, ← entry]

theorem get?_eq_none (sound : Sound map row) {id : NodeId} (absent : id ∉ row.map Tower.id) :
    NodeStore.get? id map.nodes = none := by
  have notLive := mt (sound.live id) absent
  rwa [body?, Option.isSome_map, Option.not_isSome_iff_eq_none] at notLive

theorem head_eq (sound : Sound map row) {level : Nat} (inside : level < heightLimit) :
    map.head[level]? = some (ahead level row).next := by
  have linked := sound.laid level inside [] row rfl (reaches_nil level)
  rwa [owner_nil, forwardAt, Checked.ofOption_eq_ok] at linked

/-- A map that is sound for the row there was before an entry was put is as it was. -/
theorem undone [RandomSource ρ] (sound : Sound map row) (soundLast : Sound last row)
    (cmp : last.cmp = map.cmp) (drawn : last.heights = map.heights.next.2) : Undone map last := by
  refine
    { cmp := cmp
      entries_eq := by rw [entries_spec sound, entries_spec soundLast]
      get? := fun id => ?_
      stored := soundLast.stored.trans sound.stored.symm
      head := Vector.ext fun level inside => ?_
      size := soundLast.size_eq.trans sound.size_eq.symm
      height := soundLast.height_eq.trans sound.height_eq.symm
      drawn := drawn }
  · by_cases member : id ∈ row.map Tower.id
    · obtain ⟨tower, inRow, rfl⟩ := List.mem_map.mp member
      obtain ⟨front, back, split⟩ := List.append_of_mem inRow
      rw [sound.get?_eq split.symm, soundLast.get?_eq split.symm]
    · rw [sound.get?_eq_none member, soundLast.get?_eq_none member]
  · have same := (soundLast.head_eq inside).trans (sound.head_eq inside).symm
    rwa [Vector.getElem?_eq_getElem inside, Vector.getElem?_eq_getElem inside,
      Option.some.injEq] at same

/-- **A new entry is removed**, and nothing else is left of it. -/
theorem remove_added [RandomSource ρ] [LawfulNodeStore σ] (sound : Sound map row) {key : κ}
    {value : ν} {after : SkipMap κ ν ρ σ} (added : map.put key value = .ok (none, after))
    (self : map.cmp key key = .eq) :
    ∃ last, after.remove key = .ok (some value, last) ∧ Undone map last := by
  obtain ⟨front, back, rfl, gap, ⟨_, _, -, -, _, replaced, -⟩ |
    ⟨-, id, after', added', cmp, drawn, soundAfter⟩⟩ := put_spec sound key value
  · cases replaced.symm.trans added
  · cases added'.symm.trans added
    have gap' : gapOf after.cmp key (front ++ ⟨id, (key, value), map.heights.next.1⟩ :: back) =
        (front, ⟨id, (key, value), map.heights.next.1⟩ :: back) := by
      rw [cmp]
      refine rowGap_insert_peak gap ?_
      rw [asks, self]
      decide
    obtain ⟨near, far, -, again, outcome⟩ := remove_spec soundAfter key
    obtain ⟨rfl, rfl⟩ := Prod.mk.inj (gap'.symm.trans again)
    rcases outcome with ⟨tower, others, same, -, last, removed, cmpLast, heights, soundLast⟩ |
      ⟨misses, -⟩
    · obtain ⟨rfl, rfl⟩ := List.cons.inj same
      exact ⟨last, removed, sound.undone soundLast (cmpLast.trans cmp) (heights.trans drawn)⟩
    · refine absurd ?_ (misses _ rfl)
      rw [asks, cmp, self]

end Sound

end SkipMap

/-! ### Whole runs -/

section Run

variable {α κ ν ρ : Type} {σ : Type → Type} [NodeStore σ] [LawfulNodeStore σ] [RandomSource ρ]

/-- **A removal undoes an insertion**, in every list and in every map that a run ends with, whatever
the options and the random source answer. Of the comparator it is only asked that what was inserted
compares equal to itself, and not even that where an element is removed by its rank. -/
theorem run_undone (options : Options) (source : ρ) (cmp : Comparator α) (cmp' : Comparator κ)
    (operations : List (SkipList.Operation α)) (operations' : List (SkipMap.Operation κ ν)) :
    (∃ answers, ∃ list : SkipList α ρ σ,
      (SkipList.withSource options cmp source : SkipList α ρ σ).run operations =
        .ok (answers, list) ∧ list.cmp = cmp ∧
      ∀ value, ∀ entry : SkipList.Entry α ρ σ,
        list.insert value = .ok (.ok entry.id, entry.list) → list.Undoable value entry) ∧
    ∃ answers, ∃ map : SkipMap κ ν ρ σ,
      (SkipMap.withSource options cmp' source : SkipMap κ ν ρ σ).run operations' =
        .ok (answers, map) ∧ map.cmp = cmp' ∧
      ∀ key value after, map.put key value = .ok (none, after) → cmp' key key = .eq →
        ∃ last, after.remove key = .ok (some value, last) ∧ map.Undone last := by
  constructor
  · obtain ⟨answers, list, row, ran, sound, same, -⟩ :=
      SkipList.run_sound (σ := σ) options cmp source operations
    exact ⟨answers, list, ran, same, fun value entry => sound.undoable⟩
  · have start : SkipMap.Sound (SkipMap.withSource options cmp' source : SkipMap κ ν ρ σ) [] :=
      SkipMap.sound_withSource options cmp' source
    obtain ⟨answers, map, row, ran, sound, same, -⟩ :=
      SkipMap.run_spec start (fun _ _ _ => trivial) trivial operations'
    refine ⟨answers, map, ran, same, fun key value after added self => sound.remove_added added ?_⟩
    rw [same]
    exact self

end Run

/-- Numbers on a circle, of which `5` comes in beside one that it equals: with the tallest tower into a
list of the lowest ones, and as a key into a map. -/
theorem run_undone_cyclic :
    (∃ answers, ∃ list last : SkipList Int64 Script Slots,
        ∃ entry : SkipList.Entry Int64 Script Slots,
      (SkipList.withSource {} Comparator.cyclic
        ⟨#[18446744073709551615, 18446744073709551615, 18446744073709551615, 0], by decide, 0⟩ :
          SkipList Int64 Script Slots).run [.insert 2, .insert 1, .insert 0] = .ok (answers, list) ∧
      list.insert 5 = .ok (.ok entry.id, entry.list) ∧ entry.list.find 5 = .ok (.ok entry) ∧
      entry.list.remove 5 = .ok (some 5, last) ∧ list.Undone last) ∧
    ∃ answers, ∃ map after last : SkipMap Int64 Nat Script Slots,
      (SkipMap.withSource {} Comparator.cyclic
        ⟨#[18446744073709551615, 18446744073709551615, 18446744073709551615, 0], by decide, 0⟩ :
          SkipMap Int64 Nat Script Slots).run [.put 2 0, .put 1 0, .put 0 0] = .ok (answers, map) ∧
      map.put 5 7 = .ok (none, after) ∧ after.remove 5 = .ok (some 7, last) ∧ map.Undone last := by
  obtain ⟨⟨answers, list, ran, same, undoable⟩, answers', map, ran', same', undone⟩ :=
    run_undone (σ := Slots) {}
      (⟨#[18446744073709551615, 18446744073709551615, 18446744073709551615, 0], by decide, 0⟩ : Script)
      Comparator.cyclic Comparator.cyclic [.insert 2, .insert 1, .insert 0]
      [.put 2 0, .put 1 0, .put (0 : Int64) (0 : Nat)]
  have self : Comparator.cyclic 5 5 = .eq := by decide
  constructor
  · have inserts : ((SkipList.withSource {} Comparator.cyclic
        ⟨#[18446744073709551615, 18446744073709551615, 18446744073709551615, 0], by decide, 0⟩ :
          SkipList Int64 Script Slots).run [.insert 2, .insert 1, .insert 0] >>= fun ran => do
        return (← ran.2.insert 5).1.isOk) = .ok true := by
      decide +kernel
    rw [ran, Checked.ok_bind] at inserts
    obtain ⟨⟨outcome, after⟩, inserted, isOk⟩ := Checked.bind_eq_ok.mp inserts
    cases outcome with
    | error error => cases isOk
    | ok id =>
      have undoes := undoable 5 ⟨after, id⟩ inserted
      obtain ⟨last, removed, restored⟩ := undoes.byElement (same ▸ self)
      exact ⟨answers, list, last, ⟨after, id⟩, ran, inserted, undoes.found (same ▸ self), removed,
        restored⟩
  · have puts : ((SkipMap.withSource {} Comparator.cyclic
        ⟨#[18446744073709551615, 18446744073709551615, 18446744073709551615, 0], by decide, 0⟩ :
          SkipMap Int64 Nat Script Slots).run [.put 2 0, .put 1 0, .put 0 0] >>= fun ran => do
        return (← ran.2.put 5 7).1) = .ok none := by
      decide +kernel
    rw [ran', Checked.ok_bind] at puts
    obtain ⟨⟨before, after⟩, added, none⟩ := Checked.bind_eq_ok.mp puts
    cases none
    obtain ⟨last, removed, restored⟩ := undone 5 7 after added self
    exact ⟨answers', map, after, last, ran', added, removed, restored⟩

end OrderedCollections
