/-
**The row that links lead through.**

That the links of a list lead through a row of nodes as they should was read off the towers. It also
goes the other way: a well-linked list is sound for the towers that its nodes are, so nothing was lost
in following the links. Where the link of an owner leads is told by the chain of its level, and what
it passes by the positions.

* `Chain.behind`, `Chain.unique`: a chain cut at a node, and the only one there is.
* `exists_towers`: the towers that some nodes are.
* `WellLinked.laid`: the links of a level are those that the towers ask for.
* `WellLinked.exists_sound`: a well-linked list is sound for its towers.
-/

import OrderedCollections.Proofs.SkipList.WellLinked

namespace OrderedCollections.SkipList

variable {α ρ : Type} {σ : Type → Type} [NodeStore σ] {list : SkipList α ρ σ}

/-! ### Chains -/

section Chains

variable {level : Nat} {place : Cursor}

theorem Chain.linked {ids : List NodeId} (chain : Chain list level place ids) :
    ∃ link, list.linkAt level place = .ok link := by
  cases chain with
  | last linked nowhere => exact ⟨_, linked⟩
  | next linked leads rest => exact ⟨_, linked⟩

/-- Behind one of its nodes a chain goes on from that node. -/
theorem Chain.behind {near : List NodeId} {id : NodeId} {far : List NodeId}
    (chain : Chain list level place (near ++ id :: far)) : Chain list level (.node id) far := by
  induction near generalizing place with
  | nil =>
    cases chain with
    | next linked leads rest => exact rest
  | cons first others ih =>
    cases chain with
    | next linked leads rest => exact ih rest

/-- A level leads through the nodes of one chain only. -/
theorem Chain.unique {ids ids' : List NodeId} (chain : Chain list level place ids)
    (other : Chain list level place ids') : ids = ids' := by
  induction chain generalizing ids' with
  | last linked nowhere =>
    cases other with
    | last => rfl
    | next linked' leads =>
      rw [linked, Except.ok.injEq] at linked'
      rw [← linked', nowhere] at leads
      cases leads
  | next linked leads rest ih =>
    cases other with
    | last linked' nowhere =>
      rw [linked, Except.ok.injEq] at linked'
      rw [← linked', leads] at nowhere
      cases nowhere
    | next linked' leads' rest' =>
      rw [linked, Except.ok.injEq] at linked'
      rw [← linked', leads, Option.some.injEq] at leads'
      subst leads'
      rw [ih rest']

end Chains

/-! ### Towers -/

/-- A tower is the node under its key. -/
def Stands (list : SkipList α ρ σ) (tower : Tower α) : Prop :=
  ∃ node, NodeStore.get? tower.id list.nodes = some node ∧ node.value = tower.value ∧
    node.links.length = tower.height

/-- The towers that some nodes are. -/
theorem exists_towers {row : List NodeId}
    (live : ∀ id ∈ row, (NodeStore.get? id list.nodes).isSome) :
    ∃ towers : List (Tower α), towers.map Tower.id = row ∧ ∀ tower ∈ towers, Stands list tower := by
  induction row with
  | nil => exact ⟨[], rfl, List.forall_mem_nil _⟩
  | cons id row ih =>
    obtain ⟨towers, rfl, stand⟩ := ih fun other member => live other (List.mem_cons_of_mem _ member)
    obtain ⟨node, stored⟩ := Option.isSome_iff_exists.mp (live id List.mem_cons_self)
    refine ⟨⟨id, node.value, node.links.length⟩ :: towers, rfl, ?_⟩
    exact List.forall_mem_cons.mpr ⟨⟨node, stored, rfl, rfl⟩, stand⟩

theorem Stands.heightOf_eq {tower : Tower α} (stands : Stands list tower) :
    list.heightOf tower.id = tower.height := by
  obtain ⟨node, stored, -, height⟩ := stands
  unfold heightOf
  rw [stored]
  exact height

theorem one_le_foldr_max (numbers : List Nat) : 1 ≤ numbers.foldr max 1 := by
  induction numbers with
  | nil => exact Nat.le_refl 1
  | cons number numbers ih => exact Nat.le_trans ih (Nat.le_max_right _ _)

namespace WellLinked

theorem height_pos {row : List NodeId} (linked : WellLinked list row) : 0 < list.height := by
  rw [linked.height_eq]
  exact one_le_foldr_max _

section Towers

variable {row : List (Tower α)} (linked : WellLinked list (row.map Tower.id))
  (stand : ∀ tower ∈ row, Stands list tower)
include linked stand

/-- **The links of a level are those that the towers ask for.** -/
theorem laid {level : Nat} (used : level < list.height) : Laid (list.linkAt level) level row := by
  rintro front back rfl reaches
  have chain := linked.chain level used
  rw [ids_on_level fun tower member => (stand tower member).heightOf_eq, List.filter_append,
    List.map_append] at chain
  have onward : Chain list level (owner front)
      ((back.filter fun tower => level < tower.height).map Tower.id) := by
    rcases List.eq_nil_or_concat' front with rfl | ⟨others, tower, rfl⟩
    · exact chain
    · have tall : level < tower.height := reaches_concat.mp reaches
      rw [List.filter_append, List.filter_cons_of_pos (by simpa using tall), List.filter_nil,
        List.map_append, List.map_singleton, List.append_assoc, List.singleton_append] at chain
      rw [owner_concat]
      exact chain.behind
  have inRow : ∀ id ∈ (owner front).id?, id ∈ (front ++ back).map Tower.id := by
    intro id isOwner
    rw [owner_id?] at isOwner
    obtain ⟨tower, last, rfl⟩ := Option.map_eq_some_iff.mp isOwner
    exact List.mem_map_of_mem (List.mem_append_left _ (List.mem_of_getLast? last))
  have start : position ((front ++ back).map Tower.id) (owner front) = front.length :=
    Sound.position_owner linked.nodup
  have whole := linked.length_eq
  rw [List.length_map, List.length_append] at whole
  rcases ahead_cases level back with short | ⟨skipped, tower, others, rfl, short, tall⟩
  · have none : back.filter (fun tower => level < tower.height) = [] :=
      List.filter_eq_nil_iff.mpr fun tower member => by simpa using short tower member
    rw [none] at onward
    cases onward with
    | @last _ link held nowhere =>
      have span := linked.span_last level used _ link inRow held nowhere
      have passes : link.span = back.length := by omega
      rw [held, ahead_of_short short, ← nowhere, ← passes]
  · have none : skipped.filter (fun tower => level < tower.height) = [] :=
      List.filter_eq_nil_iff.mpr fun tower member => by simpa using short tower member
    rw [List.filter_append, none, List.nil_append, List.filter_cons_of_pos (by simpa using tall),
      List.map_cons] at onward
    cases onward with
    | @next _ link _ _ held leads rest =>
      have span := linked.span_next level used _ link tower.id inRow held leads
      have split : front ++ (skipped ++ tower :: others) = front ++ skipped ++ [tower] ++ others := by
        simp
      have stop : position ((front ++ (skipped ++ tower :: others)).map Tower.id) (.node tower.id) =
          (front ++ skipped ++ [tower]).length := by
        rw [← owner_concat (front ++ skipped), split]
        exact Sound.position_owner (split ▸ linked.nodup)
      rw [List.length_append, List.length_append, List.length_singleton] at stop
      have passes : link.span = skipped.length + 1 := by omega
      rw [held, ahead_append_cons short tall, ← leads, ← passes]

/-- The store holds the towers, each knowing the one before it. -/
theorem housed : Housed list row := by
  refine ⟨linked.nodup, fun front tower back split => ?_, fun id held => ?_⟩
  · obtain ⟨node, stored, value, height⟩ := stand tower (by rw [← split]; simp)
    obtain ⟨node', stored', before⟩ := linked.prev (front.map Tower.id) tower.id
      (back.map Tower.id) (by rw [← split, List.map_append, List.map_cons])
    rw [stored, Option.some.injEq] at stored'
    rw [← stored', List.getLast?_map] at before
    rw [body?, stored, Option.map_some, Node.body, value, before, height]
    rfl
  · rw [body?, Option.isSome_map] at held
    exact (linked.live id).mp held

theorem positive : ∀ tower ∈ row, 0 < tower.height := by
  intro tower member
  have lowest := linked.chain_zero.unique (linked.chain 0 linked.height_pos)
  have inRow : tower.id ∈ row.map Tower.id := List.mem_map_of_mem member
  rw [lowest, List.mem_filter, decide_eq_true_iff, (stand tower member).heightOf_eq] at inRow
  exact inRow.2

end Towers

/-- **A well-linked list is sound for its towers**, and so it is with any other source of heights
that are tall enough and no taller than towers may be. -/
theorem exists_sound {row : List NodeId} (linked : WellLinked list row)
    (heights : HeightGenerator ρ) (enough : list.height ≤ heights.maxHeight)
    (most : heights.maxHeight ≤ heightLimit) :
    ∃ towers : List (Tower α), towers.map Tower.id = row ∧
      Sound { list with heights := heights } towers := by
  obtain ⟨towers, rfl, stand⟩ := exists_towers fun id member => (linked.live id).mpr member
  have whole : list.size = towers.length := by rw [← linked.length_eq, List.length_map]
  have height : list.height = peak towers := by
    rw [linked.height_eq, peak_of_ids fun tower member => (stand tower member).heightOf_eq]
  refine ⟨towers, rfl,
    { toHoused := ?_
      stored := linked.stored.trans whole
      size_eq := whole
      tail_eq := ?_
      height_eq := height
      laid := fun level below => linked.laid stand below
      unused := fun level high inside => ?_
      positive := linked.positive stand
      bounded := fun tower member => ?_
      maxHeight_pos := Nat.lt_of_lt_of_le linked.height_pos enough
      maxHeight_le := most }⟩
  · exact ⟨linked.nodup, (linked.housed stand).body, (linked.housed stand).live⟩
  · rw [lastId?, ← List.getLast?_map]
    exact linked.tail
  · obtain ⟨link, held, nowhere⟩ := linked.unused level high inside
    exact ⟨link.span, held.trans (by rw [← nowhere])⟩
  · exact Nat.le_trans (height_le_peak member) (height ▸ enough)

theorem height_le_heightLimit {row : List NodeId} (linked : WellLinked list row) :
    list.height ≤ heightLimit := by
  by_contra higher
  obtain ⟨link, held⟩ := (linked.chain heightLimit (Nat.lt_of_not_le higher)).linked
  rw [linkAt, Checked.ofOption_eq_ok] at held
  exact absurd (Vector.getElem?_eq_some_iff.mp held).1 (Nat.lt_irrefl _)

end WellLinked

end OrderedCollections.SkipList
