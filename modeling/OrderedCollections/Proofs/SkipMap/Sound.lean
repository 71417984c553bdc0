/-
**When the links of a skip map are in order.**

A map is sound for a row of towers if its store holds exactly these towers, every link leads where
the row asks for, and everything that is kept count of is what the row says. The row is one of towers
that hold an entry each. A level that no tower reaches is in order too: the header leads nowhere.

* `Sound`: a map whose links and counts are those of the row.
* `Sound.insert`, `Sound.erase`, `Sound.replace`: a map that has got a tower more, a tower less, or
  another entry in a tower.
* `sound_withSource`, `Sound.clear`: a map without entries is sound for the empty row.
-/

import OrderedCollections.Proofs.SkipList.Levels
import OrderedCollections.Proofs.SkipMap.Frame

namespace OrderedCollections.SkipMap

open SkipList

variable {κ ν ρ : Type} {σ : Type → Type} [NodeStore σ]

/-- **The links and counts of a map are those of a row.** -/
structure Sound (map : SkipMap κ ν ρ σ) (row : List (Tower (κ × ν))) : Prop where
  nodup : (row.map Tower.id).Nodup
  body : ∀ tower ∈ row, map.body? tower.id = some ⟨tower.value, tower.height⟩
  live : ∀ id, (map.body? id).isSome → id ∈ row.map Tower.id
  stored : NodeStore.size map.nodes = row.length
  size_eq : map.size = row.length
  height_eq : map.height = peak row
  laid : ∀ level < heightLimit, LaidIn Link.next (map.forwardAt level) level row
  positive : ∀ tower ∈ row, 0 < tower.height
  bounded : ∀ tower ∈ row, tower.height ≤ map.heights.maxHeight
  maxHeight_pos : 0 < map.heights.maxHeight
  maxHeight_le : map.heights.maxHeight ≤ heightLimit

namespace Sound

variable {map after : SkipMap κ ν ρ σ} {row front back : List (Tower (κ × ν))}
  {tower : Tower (κ × ν)}

theorem height_pos (sound : Sound map row) : 0 < map.height := by
  rw [sound.height_eq]
  exact one_le_peak row

theorem height_le (sound : Sound map row) : map.height ≤ heightLimit := by
  rw [sound.height_eq]
  exact peak_le (by decide) fun tower member =>
    Nat.le_trans (sound.bounded tower member) sound.maxHeight_le

theorem node_eq (sound : Sound map row) (member : tower ∈ row) :
    ∃ node, NodeStore.get? tower.id map.nodes = some node ∧ map.node tower.id = .ok node ∧
      (node.key, node.value) = tower.value ∧ node.forward.length = tower.height := by
  obtain ⟨node, stored, fetched, body⟩ := node_of_body? (sound.body tower member)
  obtain ⟨entry, height⟩ := Body.mk.inj body
  exact ⟨node, stored, fetched, entry, height⟩

theorem notMem_of_vacant (sound : Sound map row) {id : NodeId} (vacant : map.body? id = none) :
    id ∉ row.map Tower.id := by
  intro member
  obtain ⟨tower, inRow, rfl⟩ := List.mem_map.mp member
  rw [sound.body tower inRow] at vacant
  cases vacant

theorem forwardAt_zero (sound : Sound map row) (split : front ++ back = row) :
    map.forwardAt 0 (owner front) = .ok (back.head?.map Tower.id) := by
  subst split
  obtain ⟨positiveFront, positiveBack⟩ := List.forall_mem_append.mp sound.positive
  have reaches : Reaches 0 front := fun tower last => positiveFront tower (List.mem_of_getLast? last)
  rw [sound.laid 0 (by decide) front back rfl reaches, ahead_zero_next positiveBack]

theorem first_eq (sound : Sound map row) :
    map.head.get ⟨0, heightLimit_pos⟩ = row.head?.map Tower.id := by
  have linked := sound.forwardAt_zero (List.nil_append row)
  rw [owner_nil, forwardAt, Checked.ofOption_eq_ok] at linked
  exact (Vector.getElem?_eq_some_iff.mp linked).2

/-! ### A tower more, a tower less -/

/-- **A tower joins a sound map**: the map is sound for the longer row once the tower is in its
store, all levels are laid out along that row, and it is counted. -/
theorem insert (sound : Sound map (front ++ back)) (new : map.body? tower.id = none)
    (bodies : ∀ other, after.body? other =
      if other = tower.id then some ⟨tower.value, tower.height⟩ else map.body? other)
    (stored : NodeStore.size after.nodes = NodeStore.size map.nodes + 1)
    (size : after.size = map.size + 1) (height : after.height = max map.height tower.height)
    (heights : after.heights = map.heights)
    (laid : ∀ level < heightLimit,
      LaidIn Link.next (after.forwardAt level) level (front ++ tower :: back))
    (positive : 0 < tower.height) (bounded : tower.height ≤ map.heights.maxHeight) :
    Sound after (front ++ tower :: back) := by
  have length : (front ++ tower :: back).length = (front ++ back).length + 1 := by simp; omega
  have fresh := sound.notMem_of_vacant new
  have notNew : ∀ other ∈ front ++ back, other.id ≠ tower.id :=
    fun other member same => fresh (same ▸ List.mem_map_of_mem member)
  refine
    { nodup := nodup_insert.mpr ⟨fresh, sound.nodup⟩
      body := forall_mem_insert.mpr ⟨by rw [bodies, if_pos rfl], fun other member => ?_⟩
      live := fun id held => mem_ids_insert.mpr ?_
      stored := by rw [stored, sound.stored, length]
      size_eq := by rw [size, sound.size_eq, length]
      height_eq := by rw [height, sound.height_eq, peak_insert]
      laid := laid
      positive := forall_mem_insert.mpr ⟨positive, sound.positive⟩
      bounded := heights ▸ forall_mem_insert.mpr ⟨bounded, sound.bounded⟩
      maxHeight_pos := heights ▸ sound.maxHeight_pos
      maxHeight_le := heights ▸ sound.maxHeight_le }
  · rw [bodies, if_neg (notNew other member)]
    exact sound.body other member
  · by_cases isNew : id = tower.id
    · exact Or.inl isNew
    · rw [bodies, if_neg isNew] at held
      exact Or.inr (sound.live id held)

/-- **A tower leaves a sound map**: the map is sound for the shorter row once the tower is gone from
its store, all levels are laid out along that row, and it is not counted any more. -/
theorem erase (sound : Sound map (front ++ tower :: back))
    (bodies : ∀ other, after.body? other = if other = tower.id then none else map.body? other)
    (stored : NodeStore.size after.nodes = (front ++ back).length)
    (size : after.size = (front ++ back).length) (height : after.height = peak (front ++ back))
    (heights : after.heights = map.heights)
    (laid : ∀ level < heightLimit, LaidIn Link.next (after.forwardAt level) level (front ++ back)) :
    Sound after (front ++ back) := by
  obtain ⟨absent, nodup⟩ := nodup_insert.mp sound.nodup
  refine
    { nodup := nodup
      body := fun other member => ?_
      live := fun id held => ?_
      stored := stored
      size_eq := size
      height_eq := height
      laid := laid
      positive := (forall_mem_insert.mp sound.positive).2
      bounded := heights ▸ (forall_mem_insert.mp sound.bounded).2
      maxHeight_pos := heights ▸ sound.maxHeight_pos
      maxHeight_le := heights ▸ sound.maxHeight_le }
  · have stays : other.id ≠ tower.id := fun same => absent (same ▸ List.mem_map_of_mem member)
    rw [bodies, if_neg stays]
    exact (forall_mem_insert.mp sound.body).2 other member
  · rw [bodies] at held
    by_cases isTower : id = tower.id
    · rw [if_pos isTower] at held
      cases held
    · rw [if_neg isTower] at held
      exact (mem_ids_insert.mp (sound.live id held)).resolve_left isTower

/-- **A tower of a sound map holds something else**: the links stay as they are. -/
theorem replace {other : Tower (κ × ν)} (sound : Sound map (front ++ tower :: back))
    (sameId : other.id = tower.id) (sameHeight : other.height = tower.height)
    (bodies : ∀ id, after.body? id =
      if id = tower.id then some ⟨other.value, other.height⟩ else map.body? id)
    (stored : NodeStore.size after.nodes = NodeStore.size map.nodes) (size : after.size = map.size)
    (height : after.height = map.height) (heights : after.heights = map.heights)
    (links : ∀ level, after.forwardAt level = map.forwardAt level) :
    Sound after (front ++ other :: back) := by
  have length : (front ++ other :: back).length = (front ++ tower :: back).length := by simp
  obtain ⟨absent, nodup⟩ := nodup_insert.mp sound.nodup
  obtain ⟨positiveTower, positiveOthers⟩ := forall_mem_insert.mp sound.positive
  obtain ⟨boundedTower, boundedOthers⟩ := forall_mem_insert.mp sound.bounded
  refine
    { nodup := nodup_insert.mpr ⟨sameId.symm ▸ absent, nodup⟩
      body := forall_mem_insert.mpr ⟨by rw [bodies, if_pos sameId], fun stays member => ?_⟩
      live := fun id held => mem_ids_insert.mpr ?_
      stored := by rw [stored, sound.stored, length]
      size_eq := by rw [size, sound.size_eq, length]
      height_eq := by rw [height, sound.height_eq, peak_insert, peak_insert, sameHeight]
      laid := fun level inside => links level ▸ (sound.laid level inside).replace sameId sameHeight
      positive := forall_mem_insert.mpr ⟨sameHeight ▸ positiveTower, positiveOthers⟩
      bounded := heights ▸ forall_mem_insert.mpr ⟨sameHeight ▸ boundedTower, boundedOthers⟩
      maxHeight_pos := heights ▸ sound.maxHeight_pos
      maxHeight_le := heights ▸ sound.maxHeight_le }
  · have notTower : stays.id ≠ tower.id := fun same => absent (same ▸ List.mem_map_of_mem member)
    rw [bodies, if_neg notTower]
    exact (forall_mem_insert.mp sound.body).2 stays member
  · by_cases isTower : id = tower.id
    · exact Or.inl (isTower.trans sameId.symm)
    · rw [bodies, if_neg isTower] at held
      exact Or.inr ((mem_ids_insert.mp (sound.live id held)).resolve_left isTower)

/-- Drawing a height leaves the links alone. -/
theorem draw (sound : Sound map row) (heights : HeightGenerator ρ)
    (same : heights.maxHeight = map.heights.maxHeight) :
    Sound { map with heights := heights } row where
  nodup := sound.nodup
  body := sound.body
  live := sound.live
  stored := sound.stored
  size_eq := sound.size_eq
  height_eq := sound.height_eq
  laid := sound.laid
  positive := sound.positive
  bounded := same ▸ sound.bounded
  maxHeight_pos := same ▸ sound.maxHeight_pos
  maxHeight_le := same ▸ sound.maxHeight_le

end Sound

/-! ### Maps without entries -/

/-- A map whose header leads nowhere and whose store is empty is sound for the empty row. -/
theorem sound_of_empty {map : SkipMap κ ν ρ σ} (vacant : ∀ id, map.body? id = none)
    (stored : NodeStore.size map.nodes = 0) (head : map.head = .replicate heightLimit none)
    (size : map.size = 0) (height : map.height = 1) (maxHeight_pos : 0 < map.heights.maxHeight)
    (maxHeight_le : map.heights.maxHeight ≤ heightLimit) : Sound map [] := by
  refine
    { nodup := List.nodup_nil
      body := List.forall_mem_nil _
      live := fun id held => ?_
      stored := stored
      size_eq := size
      height_eq := height
      laid := fun level inside front back split _ => ?_
      positive := List.forall_mem_nil _
      bounded := List.forall_mem_nil _
      maxHeight_pos := maxHeight_pos
      maxHeight_le := maxHeight_le }
  · rw [vacant] at held
    cases held
  · obtain ⟨rfl, rfl⟩ := List.append_eq_nil_iff.mp split
    rw [owner_nil, forwardAt, head, Checked.ofOption_eq_ok]
    exact Vector.getElem?_replicate_of_lt inside

section Empty

variable [LawfulNodeStore σ]

theorem sound_withSource (options : Options) (cmp : Comparator κ) (source : ρ) :
    Sound (withSource options cmp source : SkipMap κ ν ρ σ) [] := by
  refine sound_of_empty (fun id => ?_) (LawfulNodeStore.size_withCapacity _) rfl rfl rfl
    options.maxHeight_pos options.maxHeight_le
  unfold body?
  exact congrArg (Option.map Node.body) (LawfulNodeStore.get?_withCapacity _ id)

theorem Sound.clear {map : SkipMap κ ν ρ σ} {row : List (Tower (κ × ν))} (sound : Sound map row) :
    Sound map.clear [] := by
  refine sound_of_empty (fun id => ?_) (LawfulNodeStore.size_clear _) rfl rfl rfl
    sound.maxHeight_pos sound.maxHeight_le
  unfold body?
  exact congrArg (Option.map Node.body) (LawfulNodeStore.get?_clear _ id)

end Empty

end OrderedCollections.SkipMap
