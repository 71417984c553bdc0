/-
**When the links of a skip list are in order.**

A list is sound for a row of towers if its store holds exactly these towers, every tower knows the
one before it, every link is the one that the row asks for, and everything that is kept count of is
what the row says.

* `Housed`: a store whose towers are those of the row.
* `Sound`: a list whose links and counts are those of the row.
* `Sound.insert`, `Sound.erase`: a list that has got a tower more, or a tower less.
* `sound_withSource`, `Sound.clear`: a list without elements is sound for the empty row.
-/

import OrderedCollections.Proofs.SkipList.Frame
import OrderedCollections.Proofs.SkipList.Levels

namespace OrderedCollections.SkipList

variable {α ρ : Type} {σ : Type → Type} [NodeStore σ]

/-- The towers in the store are those of the row, each one knowing the one before it. -/
structure Housed (list : SkipList α ρ σ) (row : List (Tower α)) : Prop where
  nodup : (row.map Tower.id).Nodup
  body : ∀ front tower back, front ++ tower :: back = row →
    list.body? tower.id = some ⟨tower.value, lastId? front, tower.height⟩
  live : ∀ id, (list.body? id).isSome → id ∈ row.map Tower.id

namespace Housed

variable {list after : SkipList α ρ σ} {front back : List (Tower α)} {tower : Tower α}

theorem held {row : List (Tower α)} (housed : Housed list row) {id : NodeId}
    (member : id ∈ row.map Tower.id) : (list.body? id).isSome := by
  obtain ⟨tower, inRow, rfl⟩ := List.mem_map.mp member
  obtain ⟨front, back, rfl⟩ := List.append_of_mem inRow
  rw [housed.body front tower back rfl]
  rfl

theorem notMem_of_vacant {row : List (Tower α)} (housed : Housed list row) {id : NodeId}
    (vacant : list.body? id = none) : id ∉ row.map Tower.id := by
  intro member
  have held := housed.held member
  rw [vacant] at held
  cases held

theorem congr {row : List (Tower α)} (housed : Housed list row)
    (bodies : ∀ id, after.body? id = list.body? id) : Housed after row := by
  refine ⟨housed.nodup, fun front tower back split => ?_, fun id held => housed.live id ?_⟩
  · rw [bodies]
    exact housed.body front tower back split
  · rwa [bodies] at held

/-- The node of a tower in its place. -/
theorem node_eq {row : List (Tower α)} (housed : Housed list row)
    (split : front ++ tower :: back = row) :
    ∃ node, list.node tower.id = .ok node ∧ node.value = tower.value ∧
      node.prev = lastId? front := by
  obtain ⟨node, -, fetched, body⟩ := node_of_body? (housed.body front tower back split)
  unfold Node.body at body
  rw [Body.mk.injEq] at body
  exact ⟨node, fetched, body.1, body.2.1⟩

theorem held_first {row : List (Tower α)} (housed : Housed list row) (split : front ++ back = row) :
    ∀ id ∈ back.head?.map Tower.id, (list.body? id).isSome := by
  intro id isFirst
  obtain ⟨first, member, rfl⟩ := Option.map_eq_some_iff.mp isFirst
  apply housed.held
  rw [← split]
  exact List.mem_map_of_mem (List.mem_append_right _ (List.mem_of_mem_head? member))

/-- **A tower joins the row**: the one behind it, if there is one, knows it as the one before. -/
theorem insert (housed : Housed list (front ++ back)) (new : list.body? tower.id = none)
    (bodies : ∀ other, after.body? other =
      if some other = back.head?.map Tower.id then
        (if other = tower.id then some ⟨tower.value, lastId? front, tower.height⟩
          else list.body? other).map fun body => { body with prev := some tower.id }
      else if other = tower.id then some ⟨tower.value, lastId? front, tower.height⟩
      else list.body? other) :
    Housed after (front ++ tower :: back) := by
  have fresh := housed.notMem_of_vacant new
  have notNew : ∀ other ∈ front ++ back, other.id ≠ tower.id :=
    fun other member same => fresh (same ▸ List.mem_map_of_mem member)
  have unchanged : ∀ other ∈ front ++ back, some other.id ≠ back.head?.map Tower.id →
      after.body? other.id = list.body? other.id := by
    intro other member notFirst
    rw [bodies, if_neg notFirst, if_neg (notNew other member)]
  refine ⟨nodup_insert.mpr ⟨fresh, housed.nodup⟩, fun near other far split => ?_,
    fun id held => mem_ids_insert.mpr ?_⟩
  · rcases place_cases split with
      ⟨middle, rfl, rfl⟩ | ⟨rfl, rfl, rfl⟩ | ⟨rfl, rfl⟩ | ⟨first, middle, rfl, rfl⟩
    · have place : near ++ other :: (middle ++ back) = near ++ other :: middle ++ back := by simp
      rw [unchanged other (by simp) (ne_first_of_before housed.nodup)]
      exact housed.body near other (middle ++ back) place
    · have notBehind : other.id ∉ far.map Tower.id := by
        rw [List.map_append, List.mem_append, not_or] at fresh
        exact fresh.2
      rw [bodies, if_neg (ne_first notBehind), if_pos rfl]
    · have isFirst : some other.id = (other :: far).head?.map Tower.id := rfl
      rw [bodies, if_pos isFirst, if_neg (notNew other (by simp)), lastId?_concat,
        housed.body front other far rfl]
      rfl
    · have place : (front ++ first :: middle) ++ other :: far =
          front ++ (first :: middle ++ other :: far) := List.append_assoc _ _ _
      have notFirst := ne_first_of_later (place ▸ housed.nodup)
      rw [unchanged other (by simp) notFirst, housed.body _ other far place, lastId?_insert]
  · by_cases isNew : id = tower.id
    · exact Or.inl isNew
    · right
      apply housed.live
      rw [bodies, if_neg isNew] at held
      by_cases isFirst : some id = back.head?.map Tower.id
      · rwa [if_pos isFirst, Option.isSome_map] at held
      · rwa [if_neg isFirst] at held

/-- **A tower leaves the row**: the one behind it, if there is one, knows the one before it. -/
theorem erase (housed : Housed list (front ++ tower :: back))
    (bodies : ∀ other, after.body? other =
      if other = tower.id then none
      else if some other = back.head?.map Tower.id then
        (list.body? other).map fun body => { body with prev := lastId? front }
      else list.body? other) :
    Housed after (front ++ back) := by
  obtain ⟨absent, nodup⟩ := nodup_insert.mp housed.nodup
  have notTower : ∀ other ∈ front ++ back, other.id ≠ tower.id :=
    fun other member same => absent (same ▸ List.mem_map_of_mem member)
  have unchanged : ∀ other ∈ front ++ back, some other.id ≠ back.head?.map Tower.id →
      after.body? other.id = list.body? other.id := by
    intro other member notFirst
    rw [bodies, if_neg (notTower other member), if_neg notFirst]
  refine ⟨nodup, fun near other far split => ?_, fun id held => ?_⟩
  · rcases gap_cases split with ⟨middle, rfl, rfl⟩ | ⟨rfl, rfl⟩ | ⟨first, middle, rfl, rfl⟩
    · have place : near ++ other :: (middle ++ tower :: back) =
          near ++ other :: middle ++ tower :: back := by simp
      rw [unchanged other (by simp) (ne_first_of_before nodup)]
      exact housed.body near other _ place
    · have isFirst : some other.id = (other :: far).head?.map Tower.id := rfl
      rw [bodies, if_neg (notTower other (by simp)), if_pos isFirst,
        housed.body (near ++ [tower]) other far (by simp)]
      rfl
    · have place : (front ++ tower :: first :: middle) ++ other :: far =
          front ++ tower :: (first :: middle ++ other :: far) := by simp
      have notFirst := ne_first_of_later ((List.append_assoc front _ _).symm ▸ nodup)
      rw [unchanged other (by simp) notFirst, housed.body _ other far place, lastId?_insert]
  · rw [bodies] at held
    by_cases isTower : id = tower.id
    · rw [if_pos isTower] at held
      cases held
    · refine (mem_ids_insert.mp (housed.live id ?_)).resolve_left isTower
      rw [if_neg isTower] at held
      by_cases isFirst : some id = back.head?.map Tower.id
      · rwa [if_pos isFirst, Option.isSome_map] at held
      · rwa [if_neg isFirst] at held

end Housed

/-- **The links and counts of a list are those of a row.** -/
structure Sound (list : SkipList α ρ σ) (row : List (Tower α)) : Prop extends
    Housed list row where
  stored : NodeStore.size list.nodes = row.length
  size_eq : list.size = row.length
  tail_eq : list.tail = lastId? row
  height_eq : list.height = peak row
  laid : ∀ level < list.height, Laid (list.linkAt level) level row
  /-- Above the levels in use the header leads nowhere. -/
  unused : ∀ level, list.height ≤ level → level < heightLimit →
    ∃ span, list.linkAt level .head = .ok ⟨none, span⟩
  positive : ∀ tower ∈ row, 0 < tower.height
  bounded : ∀ tower ∈ row, tower.height ≤ list.heights.maxHeight
  maxHeight_pos : 0 < list.heights.maxHeight
  maxHeight_le : list.heights.maxHeight ≤ heightLimit

namespace Sound

variable {list : SkipList α ρ σ} {row : List (Tower α)}

theorem height_pos (sound : Sound list row) : 0 < list.height := by
  rw [sound.height_eq]
  exact one_le_peak row

theorem height_le (sound : Sound list row) : list.height ≤ list.heights.maxHeight := by
  rw [sound.height_eq]
  exact peak_le sound.maxHeight_pos sound.bounded

theorem next_zero (sound : Sound list row) {front back : List (Tower α)}
    (split : front ++ back = row) : (ahead 0 back).next = back.head?.map Tower.id := by
  refine ahead_zero_next fun tower member => sound.positive tower ?_
  rw [← split]
  exact List.mem_append_right _ member

/-- On the lowest level every owner leads to the very next tower. -/
theorem linkAt_zero (sound : Sound list row) {front back : List (Tower α)}
    (split : front ++ back = row) :
    ∃ link, list.linkAt 0 (owner front) = .ok link ∧ link.next = back.head?.map Tower.id := by
  have reaches : Reaches 0 front := by
    intro tower member
    refine sound.positive tower ?_
    rw [← split]
    exact List.mem_append_left _ (List.mem_of_getLast? member)
  exact ⟨_, sound.laid 0 sound.height_pos front back split reaches, sound.next_zero split⟩

theorem first_eq (sound : Sound list row) : list.first = row.head?.map Tower.id := by
  obtain ⟨link, linked, next⟩ := sound.linkAt_zero (List.nil_append row)
  rw [owner_nil, linkAt, Checked.ofOption_eq_ok] at linked
  have same : list.head.get ⟨0, heightLimit_pos⟩ = link := (Vector.getElem?_eq_some_iff.mp linked).2
  rw [first, same, next]

/-- On the lowest level the link of a tower is the one past the tower. -/
theorem linkAt_zero_node (sound : Sound list row) {front back : List (Tower α)} {tower : Tower α}
    (split : front ++ tower :: back = row) :
    list.linkAt 0 (.node tower.id) = .ok (ahead 0 back) := by
  have positive : 0 < tower.height := by
    apply sound.positive
    rw [← split]
    simp
  have linked := sound.laid 0 sound.height_pos (front ++ [tower]) back (by rw [← split]; simp)
    (reaches_concat.mpr positive)
  rw [owner_concat] at linked
  exact linked

/-! ### A tower more, a tower less -/

variable {after : SkipList α ρ σ} {front back : List (Tower α)} {tower : Tower α}

/-- **A tower joins a sound list**: the list is sound for the longer row once its towers are those
of that row, all levels that are now in use are laid out along it, and it is counted. -/
theorem insert (sound : Sound list (front ++ back))
    (housed : Housed after (front ++ tower :: back))
    (stored : NodeStore.size after.nodes = NodeStore.size list.nodes + 1)
    (size : after.size = list.size + 1)
    (tail : after.tail = if back.head?.map Tower.id = none then some tower.id else list.tail)
    (height : after.height = max list.height tower.height)
    (heights : after.heights = list.heights)
    (laid : ∀ level < after.height, Laid (after.linkAt level) level (front ++ tower :: back))
    (head : ∀ level, after.height ≤ level → after.linkAt level .head = list.linkAt level .head)
    (positive : 0 < tower.height) (bounded : tower.height ≤ list.heights.maxHeight) :
    Sound after (front ++ tower :: back) := by
  have length : (front ++ tower :: back).length = (front ++ back).length + 1 := by simp; omega
  refine
    { toHoused := housed
      stored := by rw [stored, sound.stored, length]
      size_eq := by rw [size, sound.size_eq, length]
      tail_eq := by rw [tail, sound.tail_eq, lastId?_insert_eq]
      height_eq := by rw [height, sound.height_eq, peak_insert]
      laid := laid
      unused := fun level high inside => ?_
      positive := forall_mem_insert.mpr ⟨positive, sound.positive⟩
      bounded := ?_
      maxHeight_pos := by rw [heights]; exact sound.maxHeight_pos
      maxHeight_le := by rw [heights]; exact sound.maxHeight_le }
  · have notUsed : list.height ≤ level := by omega
    rw [head level high]
    exact sound.unused level notUsed inside
  · rw [heights]
    exact forall_mem_insert.mpr ⟨bounded, sound.bounded⟩

/-- **A tower leaves a sound list**: the list is sound for the shorter row once its towers are those
of that row, all levels that were in use are laid out along it, and those that lead nowhere now are
given up. -/
theorem erase (sound : Sound list (front ++ tower :: back)) (housed : Housed after (front ++ back))
    (stored : NodeStore.size after.nodes = (front ++ back).length)
    (size : after.size = (front ++ back).length)
    (tail : after.tail = if back.head?.map Tower.id = none then lastId? front else list.tail)
    (height : after.height = peak (front ++ back)) (heights : after.heights = list.heights)
    (laid : ∀ level < list.height, Laid (after.linkAt level) level (front ++ back))
    (head : ∀ level, list.height ≤ level → after.linkAt level .head = list.linkAt level .head) :
    Sound after (front ++ back) := by
  have lower : after.height ≤ list.height := by
    rw [height, sound.height_eq, peak_insert]
    exact Nat.le_max_left _ _
  refine
    { toHoused := housed
      stored := stored
      size_eq := size
      tail_eq := by rw [tail, sound.tail_eq, ← lastId?_erase_eq]
      height_eq := height
      laid := fun level below => laid level (Nat.lt_of_lt_of_le below lower)
      unused := fun level high inside => ?_
      positive := (forall_mem_insert.mp sound.positive).2
      bounded := ?_
      maxHeight_pos := by rw [heights]; exact sound.maxHeight_pos
      maxHeight_le := by rw [heights]; exact sound.maxHeight_le }
  · by_cases used : level < list.height
    · have flat : ∀ other ∈ front ++ back, other.height ≤ level := by
        intro other member
        exact Nat.le_trans (height_le_peak member) (height ▸ high)
      have linked := laid level used [] (front ++ back) rfl (reaches_nil level)
      rw [owner_nil, ahead_of_short flat] at linked
      exact ⟨_, linked⟩
    · rw [head level (Nat.le_of_not_lt used)]
      exact sound.unused level (Nat.le_of_not_lt used) inside
  · rw [heights]
    exact (forall_mem_insert.mp sound.bounded).2

end Sound

/-! ### Lists without elements -/

/-- A list whose header leads nowhere and whose store is empty is sound for the empty row. -/
theorem sound_of_empty {list : SkipList α ρ σ} (vacant : ∀ id, list.body? id = none)
    (stored : NodeStore.size list.nodes = 0) (head : list.head = .replicate heightLimit {})
    (size : list.size = 0) (tail : list.tail = none) (height : list.height = 1)
    (maxHeight_pos : 0 < list.heights.maxHeight)
    (maxHeight_le : list.heights.maxHeight ≤ heightLimit) : Sound list [] := by
  have linked : ∀ level < heightLimit, list.linkAt level .head = .ok ⟨none, 0⟩ := by
    intro level inside
    unfold linkAt
    rw [head, Checked.ofOption_eq_ok]
    exact Vector.getElem?_replicate_of_lt inside
  refine
    { nodup := List.nodup_nil
      body := ?_
      live := ?_
      stored := stored
      size_eq := size
      tail_eq := tail
      height_eq := height
      laid := ?_
      unused := fun level _ inside => ⟨0, linked level inside⟩
      positive := List.forall_mem_nil _
      bounded := List.forall_mem_nil _
      maxHeight_pos := maxHeight_pos
      maxHeight_le := maxHeight_le }
  · intro front tower back split
    simp at split
  · intro id held
    rw [vacant] at held
    cases held
  · intro level below front back split _
    obtain ⟨rfl, rfl⟩ := List.append_eq_nil_iff.mp split
    rw [height] at below
    have inside : level < heightLimit := Nat.lt_of_lt_of_le below (by decide)
    exact linked level inside

section Empty

variable [LawfulNodeStore σ]

theorem sound_withSource (options : Options) (cmp : Comparator α) (source : ρ) :
    Sound (withSource options cmp source : SkipList α ρ σ) [] := by
  refine sound_of_empty (fun id => ?_) (LawfulNodeStore.size_withCapacity _) rfl rfl rfl rfl
    options.maxHeight_pos options.maxHeight_le
  unfold body?
  exact congrArg (Option.map Node.body) (LawfulNodeStore.get?_withCapacity _ id)

theorem Sound.clear {list : SkipList α ρ σ} {row : List (Tower α)} (sound : Sound list row) :
    Sound list.clear [] := by
  refine sound_of_empty (fun id => ?_) (LawfulNodeStore.size_clear _) rfl rfl rfl rfl
    sound.maxHeight_pos sound.maxHeight_le
  unfold body?
  exact congrArg (Option.map Node.body) (LawfulNodeStore.get?_clear _ id)

end Empty

end OrderedCollections.SkipList
