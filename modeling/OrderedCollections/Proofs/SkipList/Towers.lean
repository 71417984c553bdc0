/-
**What a list shows of its towers.**

A sound list can be read off without knowing how soundness is kept: iterating yields the elements of
its row, the links lead through the keys of its row with exact spans, and under each key there is a
node of the right height. Two lists that are sound for the same row can hardly be told apart: they
hold the same nodes with the same links, and what may differ is where their heights come from, how
the store keeps its vacant keys, and the spans of the header above the levels in use.

* `StandsAs`: a list that shows the towers of a row.
* `Sound.standsAs`: a sound list shows those of its row.
* `SameLinks`: two lists with the same nodes, links and counts.
* `Sound.sameLinks`: lists that are sound for the same row.
-/

import OrderedCollections.Proofs.SkipList.Operations
import OrderedCollections.Proofs.SkipList.WellLinked

namespace OrderedCollections.SkipList

variable {α ρ : Type} {σ : Type → Type} [NodeStore σ]

/-- **A list shows the towers of a row**: their elements in this order, a node of their height under
each of their keys, and links that lead through them with exact spans. -/
structure StandsAs (list : SkipList α ρ σ) (row : List (Tower α)) : Prop where
  elements_eq : list.elements = .ok (row.map Tower.value)
  node : ∀ tower ∈ row, ∃ node, NodeStore.get? tower.id list.nodes = some node ∧
    node.value = tower.value ∧ node.links.length = tower.height
  linked : WellLinked list (row.map Tower.id)

/-- **Two lists have the same nodes, links and counts.** Above the levels in use the links of the
header need not have the same spans. -/
structure SameLinks (list after : SkipList α ρ σ) : Prop where
  cmp : after.cmp = list.cmp
  get? : ∀ id, NodeStore.get? id after.nodes = NodeStore.get? id list.nodes
  stored : NodeStore.size after.nodes = NodeStore.size list.nodes
  head : ∀ level < list.height, after.head[level]? = list.head[level]?
  /-- Above the levels in use the header leads nowhere, as it did. -/
  unused : ∀ level, list.height ≤ level →
    after.head[level]?.map Link.next = list.head[level]?.map Link.next
  tail : after.tail = list.tail
  size : after.size = list.size
  height : after.height = list.height

/-- Some links, one for each level below a height, are told by what is on each level. -/
theorem eq_map_range {β : Type} {links : List β} {height : Nat} {link : Nat → β}
    (length : links.length = height) (linked : ∀ level < height, links[level]? = some (link level)) :
    links = (List.range height).map link := by
  refine List.ext_getElem? fun level => ?_
  by_cases inside : level < height
  · rw [linked level inside, List.getElem?_map, List.getElem?_range inside]
    rfl
  · have high := Nat.le_of_not_lt inside
    rw [List.getElem?_eq_none (length ▸ high), List.getElem?_eq_none]
    rwa [List.length_map, List.length_range]

namespace Sound

variable {list after : SkipList α ρ σ} {row front back : List (Tower α)} {tower : Tower α}

theorem standsAs (sound : Sound list row) : StandsAs list row := by
  refine ⟨elements_spec sound, fun tower member => ?_, sound.wellLinked⟩
  obtain ⟨front, back, rfl⟩ := List.append_of_mem member
  obtain ⟨node, stored, -, body⟩ := node_of_body? (sound.body front tower back rfl)
  obtain ⟨value, -, height⟩ := Body.mk.inj body
  exact ⟨node, stored, value, height⟩

/-- The link of a tower on one of its levels is the one past the tower. -/
theorem linkAt_tower (sound : Sound list row) (split : front ++ tower :: back = row) {level : Nat}
    (tall : level < tower.height) : list.linkAt level (.node tower.id) = .ok (ahead level back) := by
  have used : level < list.height := by
    rw [sound.height_eq]
    exact Nat.lt_of_lt_of_le tall (height_le_peak (by rw [← split]; simp))
  have linked := sound.laid level used (front ++ [tower]) back (by rw [← split]; simp)
    (reaches_concat.mpr tall)
  rwa [owner_concat] at linked

/-- The node of a tower is told by the row: what it holds, and all of its links. -/
theorem get?_eq (sound : Sound list row) (split : front ++ tower :: back = row) :
    NodeStore.get? tower.id list.nodes = some ⟨tower.value, lastId? front,
      (List.range tower.height).map fun level => ahead level back⟩ := by
  obtain ⟨⟨value, prev, links⟩, stored, -, body⟩ := node_of_body? (sound.body front tower back split)
  obtain ⟨rfl, rfl, height⟩ := Body.mk.inj body
  have laid : links = (List.range tower.height).map fun level => ahead level back := by
    refine eq_map_range height fun level tall => ?_
    have linked := sound.linkAt_tower split tall
    rwa [linkAt_node stored, Checked.ofOption_eq_ok] at linked
  rw [stored, laid]

theorem get?_eq_none (sound : Sound list row) {id : NodeId} (absent : id ∉ row.map Tower.id) :
    NodeStore.get? id list.nodes = none := by
  have notLive := mt (sound.live id) absent
  rwa [body?, Option.isSome_map, Option.not_isSome_iff_eq_none] at notLive

theorem head_eq (sound : Sound list row) {level : Nat} (used : level < list.height) :
    list.head[level]? = some (ahead level row) := by
  have linked := sound.laid level used [] row rfl (reaches_nil level)
  rwa [owner_nil, linkAt, Checked.ofOption_eq_ok] at linked

/-- Above the levels in use the header leads nowhere. -/
theorem head_next_eq (sound : Sound list row) {level : Nat} (high : list.height ≤ level) :
    list.head[level]?.map Link.next = if level < heightLimit then some none else none := by
  by_cases inside : level < heightLimit
  · obtain ⟨span, linked⟩ := sound.unused level high inside
    rw [linkAt, Checked.ofOption_eq_ok] at linked
    rw [linked, if_pos inside]
    rfl
  · rw [if_neg inside, Vector.getElem?_eq_none (Nat.le_of_not_lt inside)]
    rfl

/-- **Lists that are sound for the same row** have the same nodes, links and counts. -/
theorem sameLinks (sound : Sound list row) (soundAfter : Sound after row)
    (cmp : after.cmp = list.cmp) : SameLinks list after := by
  have height : after.height = list.height := soundAfter.height_eq.trans sound.height_eq.symm
  refine
    { cmp := cmp
      get? := fun id => ?_
      stored := soundAfter.stored.trans sound.stored.symm
      head := fun level used => by rw [sound.head_eq used, soundAfter.head_eq (height ▸ used)]
      unused := fun level high => by
        rw [sound.head_next_eq high, soundAfter.head_next_eq (height ▸ high)]
      tail := soundAfter.tail_eq.trans sound.tail_eq.symm
      size := soundAfter.size_eq.trans sound.size_eq.symm
      height := height }
  by_cases member : id ∈ row.map Tower.id
  · obtain ⟨tower, inRow, rfl⟩ := List.mem_map.mp member
    obtain ⟨front, back, split⟩ := List.append_of_mem inRow
    rw [sound.get?_eq split.symm, soundAfter.get?_eq split.symm]
  · rw [sound.get?_eq_none member, soundAfter.get?_eq_none member]

end Sound

end OrderedCollections.SkipList
