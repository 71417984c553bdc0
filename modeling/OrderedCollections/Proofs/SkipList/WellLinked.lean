/-
**What the links of a skip list lead through.**

Soundness speaks of the links that a row asks for. Here the same is said by following the links that
are there: the chain of the lowest level visits every node of the store once, the chain of a higher
level visits those tall enough, spans are differences of positions, and every node knows the one
before it.

* `Chain`: the nodes that the links of a level lead through.
* `position`: the position of an owner, the header at zero.
* `WellLinked`: the links lead through the row as they should.
* `Sound.wellLinked`: the links of a sound list lead through its row.
-/

import OrderedCollections.Proofs.SkipList.Sound

namespace OrderedCollections.SkipList

variable {α ρ : Type} {σ : Type → Type} [NodeStore σ]

/-- The nodes that the links of a level lead through behind an owner, one after the other. -/
inductive Chain (list : SkipList α ρ σ) (level : Nat) : Cursor → List NodeId → Prop
  | last {owner : Cursor} {link : Link} (linked : list.linkAt level owner = .ok link)
      (nowhere : link.next = none) : Chain list level owner []
  | next {owner : Cursor} {link : Link} {id : NodeId} {others : List NodeId}
      (linked : list.linkAt level owner = .ok link) (leads : link.next = some id)
      (rest : Chain list level (.node id) others) : Chain list level owner (id :: others)

/-- The height of a node. -/
def heightOf (list : SkipList α ρ σ) (id : NodeId) : Nat :=
  ((NodeStore.get? id list.nodes).map fun node => node.links.length).getD 0

/-- The position of an owner in a row: the header stands at zero, the first node at one. -/
def position (row : List NodeId) : Cursor → Nat
  | .head => 0
  | .node id => row.idxOf id + 1

/-- **The links of a list lead through a row of nodes as they should.** -/
structure WellLinked (list : SkipList α ρ σ) (row : List NodeId) : Prop where
  /-- The lowest level visits every node of the store exactly once. -/
  chain_zero : Chain list 0 .head row
  nodup : row.Nodup
  live : ∀ id, (NodeStore.get? id list.nodes).isSome ↔ id ∈ row
  length_eq : row.length = list.size
  stored : NodeStore.size list.nodes = list.size
  /-- A level in use visits the nodes that are tall enough, in the same order. -/
  chain : ∀ level < list.height,
    Chain list level .head (row.filter fun id => level < list.heightOf id)
  /-- Above the levels in use the header leads nowhere. -/
  unused : ∀ level, list.height ≤ level → level < heightLimit →
    ∃ link, list.linkAt level .head = .ok link ∧ link.next = none
  /-- A link that leads to a node passes as many positions as there are up to it. -/
  span_next : ∀ level < list.height, ∀ owner link target,
    (∀ id ∈ owner.id?, id ∈ row) → list.linkAt level owner = .ok link → link.next = some target →
    position row owner + link.span = position row (.node target)
  /-- A link that leads past the last node counts the nodes behind its owner. -/
  span_last : ∀ level < list.height, ∀ owner link,
    (∀ id ∈ owner.id?, id ∈ row) → list.linkAt level owner = .ok link → link.next = none →
    position row owner + link.span = list.size
  /-- Every node knows the one before it. -/
  prev : ∀ front id back, front ++ id :: back = row →
    ∃ node, NodeStore.get? id list.nodes = some node ∧ node.prev = front.getLast?
  tail : list.tail = row.getLast?
  /-- The tallest node, and at least one level. -/
  height_eq : list.height = (row.map list.heightOf).foldr max 1
  height_le : list.height ≤ list.heights.maxHeight

namespace Sound

variable {list : SkipList α ρ σ} {row : List (Tower α)}

theorem heightOf_eq (sound : Sound list row) {tower : Tower α} (member : tower ∈ row) :
    list.heightOf tower.id = tower.height := by
  obtain ⟨front, back, rfl⟩ := List.append_of_mem member
  obtain ⟨node, stored, -, body⟩ := node_of_body? (sound.body front tower back rfl)
  unfold heightOf
  rw [stored]
  exact (Body.mk.inj body).2.2

theorem chain_of_laid {level : Nat} (laid : Laid (list.linkAt level) level row) :
    Chain list level .head ((row.filter fun tower => level < tower.height).map Tower.id) := by
  refine along_level (fun front back split reaches nowhere => ?_)
    fun front back id others split reaches leads rest => ?_
  · exact .last (laid front back split reaches) nowhere
  · exact .next (laid front back split reaches) leads rest

/-- The position of the owner behind some towers is their number. -/
theorem position_owner {front back : List (Tower α)}
    (nodup : ((front ++ back).map Tower.id).Nodup) :
    position ((front ++ back).map Tower.id) (owner front) = front.length := by
  rcases List.eq_nil_or_concat' front with rfl | ⟨others, tower, rfl⟩
  · rfl
  · have absent : tower.id ∉ others.map Tower.id := by
      rw [List.append_assoc] at nodup
      exact notMem_of_behind nodup (by simp)
    rw [owner_concat, position, List.append_assoc, List.singleton_append, List.map_append,
      List.map_cons, List.idxOf_append_of_notMem absent, List.idxOf_cons_self]
    simp

/-- An owner of a link on a level is the one behind some towers of the row. -/
theorem owner_cases (sound : Sound list row) {level : Nat} {place : Cursor} {link : Link}
    (inRow : ∀ id ∈ place.id?, id ∈ row.map Tower.id)
    (linked : list.linkAt level place = .ok link) :
    ∃ front back, front ++ back = row ∧ Reaches level front ∧ place = owner front := by
  cases place with
  | head => exact ⟨[], row, rfl, reaches_nil level, rfl⟩
  | node id =>
    obtain ⟨tower, member, rfl⟩ := List.mem_map.mp (inRow id rfl)
    obtain ⟨node, stored, found⟩ := owner_of_linkAt linked
    have tall : level < tower.height := by
      have height := sound.heightOf_eq member
      unfold heightOf at height
      rw [stored] at height
      rw [← height]
      exact (List.getElem?_eq_some_iff.mp found).1
    obtain ⟨front, back, rfl⟩ := List.append_of_mem member
    exact ⟨front ++ [tower], back, by simp, reaches_concat.mpr tall, (owner_concat front tower).symm⟩

/-- The link of an owner in the row is the one past the towers up to there. -/
theorem ahead_of_linkAt (sound : Sound list row) {level : Nat} (used : level < list.height)
    {place : Cursor} {link : Link} (inRow : ∀ id ∈ place.id?, id ∈ row.map Tower.id)
    (linked : list.linkAt level place = .ok link) :
    ∃ front back, front ++ back = row ∧ position (row.map Tower.id) place = front.length ∧
      link = ahead level back := by
  obtain ⟨front, back, split, reaches, rfl⟩ := sound.owner_cases inRow linked
  have nodup := sound.nodup
  rw [sound.laid level used front back split reaches] at linked
  subst split
  exact ⟨front, back, rfl, position_owner nodup, (Except.ok.inj linked).symm⟩

theorem span_next (sound : Sound list row) {level : Nat} (used : level < list.height)
    {place : Cursor} {link : Link} {target : NodeId}
    (inRow : ∀ id ∈ place.id?, id ∈ row.map Tower.id) (linked : list.linkAt level place = .ok link)
    (leads : link.next = some target) :
    position (row.map Tower.id) place + link.span = position (row.map Tower.id) (.node target) := by
  obtain ⟨front, back, rfl, start, rfl⟩ := sound.ahead_of_linkAt used inRow linked
  rcases ahead_cases level back with short | ⟨skipped, tower, others, rfl, short, tall⟩
  · rw [ahead_of_short short] at leads
    cases leads
  · rw [ahead_append_cons short tall] at leads ⊢
    cases leads
    have split : front ++ (skipped ++ tower :: others) = front ++ skipped ++ [tower] ++ others := by
      simp
    have stop : position ((front ++ (skipped ++ tower :: others)).map Tower.id)
        (owner (front ++ skipped ++ [tower])) = (front ++ skipped ++ [tower]).length := by
      rw [split]
      exact position_owner (split ▸ sound.nodup)
    rw [owner_concat] at stop
    rw [start, stop]
    simp only [List.length_append, List.length_singleton]
    omega

theorem span_last (sound : Sound list row) {level : Nat} (used : level < list.height)
    {place : Cursor} {link : Link} (inRow : ∀ id ∈ place.id?, id ∈ row.map Tower.id)
    (linked : list.linkAt level place = .ok link) (nowhere : link.next = none) :
    position (row.map Tower.id) place + link.span = list.size := by
  obtain ⟨front, back, rfl, start, rfl⟩ := sound.ahead_of_linkAt used inRow linked
  rw [ahead_of_short (ahead_next_eq_none.mp nowhere), start, sound.size_eq, List.length_append]

theorem chain_of_used (sound : Sound list row) {level : Nat} (used : level < list.height) :
    Chain list level .head
      ((row.map Tower.id).filter fun id => level < list.heightOf id) := by
  rw [ids_on_level fun tower => sound.heightOf_eq]
  exact chain_of_laid (sound.laid level used)

theorem chain_zero (sound : Sound list row) : Chain list 0 .head (row.map Tower.id) := by
  have lowest := sound.chain_of_used sound.height_pos
  rw [ids_on_lowest (fun tower => sound.heightOf_eq) sound.positive] at lowest
  exact lowest

/-- **The links of a sound list lead through its row as they should.** -/
theorem wellLinked (sound : Sound list row) : WellLinked list (row.map Tower.id) := by
  have whole : (row.map Tower.id).length = list.size := by
    rw [List.length_map, sound.size_eq]
  refine
    { chain_zero := sound.chain_zero
      nodup := sound.nodup
      live := fun id => ⟨fun stored => sound.live id ?_, fun member => ?_⟩
      length_eq := whole
      stored := sound.stored.trans sound.size_eq.symm
      chain := fun level used => sound.chain_of_used used
      unused := fun level high inside => ?_
      span_next := fun level used place link target => sound.span_next used
      span_last := fun level used place link => sound.span_last used
      prev := ?_
      tail := ?_
      height_eq := ?_
      height_le := sound.height_le }
  · rwa [body?, Option.isSome_map]
  · have held := sound.held member
    rwa [body?, Option.isSome_map] at held
  · obtain ⟨span, linked⟩ := sound.unused level high inside
    exact ⟨_, linked, rfl⟩
  · intro front id back split
    obtain ⟨near, rest, rfl, rfl, split'⟩ := List.map_eq_append_iff.mp split.symm
    obtain ⟨tower, far, rfl, rfl, rfl⟩ := List.map_eq_cons_iff.mp split'
    obtain ⟨node, stored, -, body⟩ := node_of_body? (sound.body near tower far rfl)
    refine ⟨node, stored, ?_⟩
    rw [List.getLast?_map]
    exact (Body.mk.inj body).2.1
  · rw [sound.tail_eq, List.getLast?_map]
    rfl
  · rw [sound.height_eq, peak_of_ids fun tower => sound.heightOf_eq]

end Sound

end OrderedCollections.SkipList
