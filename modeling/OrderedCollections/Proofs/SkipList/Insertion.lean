/-
**Towers that come in.**

With the turns of a descent that left a sound list in a gap, a new tower can be put into the gap: no
subtraction of spans falls below zero, no key without a node is followed, and the list is sound for
the row with a tower more.

* `grow_spec`: more levels come into use.
* `joinLevels_spec`: the new tower joins every level below its height.
* `Joined`, `Joined.close_spec`: the new tower is made known to the one behind it.
* `insertAt_spec`: a tower more.
-/

import OrderedCollections.Proofs.SkipList.Descent

namespace OrderedCollections.SkipList

variable {α ρ : Type} {σ : Type → Type} [NodeStore σ]

/-- **More levels come into use**: on a new level the header passes the whole row. -/
theorem grow_spec {list : SkipList α ρ σ} {row : List (Tower α)} (sound : Sound list row)
    {height : Nat} (bounded : height ≤ list.heights.maxHeight) :
    ∃ grown, list.grow height = .ok grown ∧ grown.cmp = list.cmp ∧ grown.heights = list.heights ∧
      grown.nodes = list.nodes ∧ grown.tail = list.tail ∧ grown.size = list.size ∧
      grown.height = max list.height height ∧
      (∀ level < max list.height height, Laid (grown.linkAt level) level row) ∧
      ∀ level, max list.height height ≤ level →
        grown.linkAt level .head = list.linkAt level .head := by
  have limited : height ≤ heightLimit := Nat.le_trans bounded sound.maxHeight_le
  unfold grow
  by_cases grows : list.height < height
  · rw [if_pos grows, if_pos limited]
    refine ⟨_, rfl, rfl, rfl, rfl, rfl, rfl, (Nat.max_eq_right (Nat.le_of_lt grows)).symm, ?_, ?_⟩
    · rw [Nat.max_eq_right (Nat.le_of_lt grows)]
      intro level below front back split reaches
      by_cases used : level < list.height
      · rw [← sound.laid level used front back split reaches]
        refine linkAt_congr (fun _ => ?_) fun id _ => rfl
        have kept : ¬(list.height ≤ level ∧ level < height) := fun new => by omega
        simp only [Vector.getElem?_mapIdx, if_neg kept, Option.map_id']
      · have flat : ∀ tower ∈ row, tower.height ≤ level := by
          intro tower member
          have low := height_le_peak member
          rw [← sound.height_eq] at low
          omega
        have none : front = [] := by
          refine eq_of_reaches (fun tower member => flat tower ?_)
            (show Reaches level ([] ++ front) from reaches)
          rw [← split]
          exact List.mem_append_left _ member
        subst none
        rw [List.nil_append] at split
        subst split
        rw [ahead_of_short flat, owner_nil, linkAt, Checked.ofOption_eq_ok, ← sound.size_eq]
        have inside : level < heightLimit := by omega
        have new : list.height ≤ level ∧ level < height := by omega
        rw [Vector.getElem?_eq_getElem inside, Vector.getElem_mapIdx, if_pos new]
    · intro level above
      refine linkAt_congr (fun _ => ?_) fun id _ => rfl
      have kept : ¬(list.height ≤ level ∧ level < height) := fun new => by omega
      simp only [Vector.getElem?_mapIdx, if_neg kept, Option.map_id']
  · have same : max list.height height = list.height := Nat.max_eq_left (by omega)
    rw [if_neg grows, same]
    exact ⟨list, rfl, rfl, rfl, rfl, rfl, rfl, rfl, sound.laid, fun _ _ => rfl⟩

/-- On a level that no tower takes part in, a descent turns at the header. -/
theorem Turns.extend {levels height : Nat} {front : List (Tower α)} {turns : List Stand}
    (marks : Turns levels front turns) (flat : ∀ tower ∈ front, tower.height ≤ levels) :
    Turns (max levels height) front (turns ++ List.replicate (height - turns.length) ({} : Stand)) := by
  refine ⟨?_, fun level below => ?_⟩
  · rw [List.length_append, List.length_replicate, marks.length_eq]
    omega
  · by_cases old : level < levels
    · obtain ⟨near, skipped, cut, reaches, short, turn⟩ := marks.at_level level old
      refine ⟨near, skipped, cut, reaches, short, ?_⟩
      rw [List.getElem?_append_left (by rw [marks.length_eq]; exact old), turn]
    · refine ⟨[], front, rfl, reaches_nil level, fun tower member => ?_, ?_⟩
      · exact Nat.le_trans (flat tower member) (by omega)
      · rw [List.getElem?_append_right (by rw [marks.length_eq]; omega),
          List.getElem?_replicate_of_lt (by rw [marks.length_eq]; omega)]
        rfl

section Insert

variable [LawfulNodeStore σ] {list : SkipList α ρ σ} {level : Nat}
  {near skipped back : List (Tower α)} {tower : Tower α}

/-- **A level is cut behind a gap**, and the new tower joins it. -/
theorem cut_spec (laid : Laid (list.linkAt level) level (near ++ skipped ++ back))
    (nodup : ((near ++ skipped ++ tower :: back).map Tower.id).Nodup)
    (reaches : Reaches level near) (short : ∀ other ∈ skipped, other.height ≤ level)
    (tall : level < tower.height) {link : Link}
    (vacant : list.linkAt level (.node tower.id) = .ok link) :
    ∃ after, list.cut tower.id ⟨owner (near ++ skipped), (near ++ skipped).length⟩ level
        ⟨owner near, near.length⟩ = .ok after ∧ SameBodies list after ∧
      Laid (after.linkAt level) level (near ++ skipped ++ tower :: back) ∧
      ∀ other, other ≠ level → after.linkAt other = list.linkAt other := by
  have fresh : owner near ≠ .node tower.id := by
    refine owner_ne_node fun member => ?_
    rw [List.append_assoc, List.map_append, List.nodup_append] at nodup
    exact nodup.2.2 tower.id member tower.id (by simp) rfl
  have covered : (near ++ skipped).length - near.length = skipped.length := by
    rw [List.length_append]
    omega
  have before := laid.last reaches short
  obtain ⟨middle, setNew, sameMiddle, linksMiddle⟩ := setLink_spec vacant (ahead level back)
  have beforeMiddle : middle.linkAt level (owner near) = _ :=
    (linksMiddle level (owner near)).trans (if_neg fun both => fresh both.2)
  rw [before] at beforeMiddle
  obtain ⟨after, setNear, sameAfter, linksAfter⟩ :=
    setLink_spec beforeMiddle ⟨some tower.id, skipped.length + 1⟩
  refine ⟨after, ?_, sameMiddle.trans sameAfter, ?_, fun other different => ?_⟩
  · have far : (ahead level back).span + skipped.length - skipped.length = (ahead level back).span :=
      Nat.add_sub_cancel _ _
    unfold cut
    rw [Checked.minus_of_le (by rw [List.length_append]; exact Nat.le_add_right _ _),
      Checked.ok_bind, before, Checked.ok_bind, covered,
      Checked.minus_of_le (Nat.le_add_left _ _), Checked.ok_bind, far, setNew, Checked.ok_bind,
      setNear]
  · refine laid.insert nodup reaches short ?_ (fun _ => ?_) fun place notNear notNew => ?_
    · rw [linksAfter, if_pos ⟨rfl, rfl⟩, ahead_append_cons short tall]
    · rw [linksAfter, if_neg fun both => fresh both.2.symm, linksMiddle, if_pos ⟨rfl, rfl⟩]
    · rw [linksAfter, if_neg fun both => notNear both.2, linksMiddle,
        if_neg fun both => notNew both.2]
  · funext place
    rw [linksAfter, if_neg fun both => different both.1, linksMiddle,
      if_neg fun both => different both.1]

/-- **A link grows longer** where the new tower stays below the level. -/
theorem lengthen_spec (laid : Laid (list.linkAt level) level (near ++ skipped ++ back))
    (nodup : ((near ++ skipped ++ tower :: back).map Tower.id).Nodup)
    (reaches : Reaches level near) (short : ∀ other ∈ skipped, other.height ≤ level)
    (flat : tower.height ≤ level) :
    ∃ after, list.lengthen level ⟨owner near, near.length⟩ = .ok after ∧ SameBodies list after ∧
      Laid (after.linkAt level) level (near ++ skipped ++ tower :: back) ∧
      ∀ other, other ≠ level → after.linkAt other = list.linkAt other := by
  have before := laid.last reaches short
  obtain ⟨after, setNear, sameAfter, linksAfter⟩ := setLink_spec before
    ⟨(ahead level back).next, (ahead level back).span + skipped.length + 1⟩
  refine ⟨after, ?_, sameAfter, ?_, fun other different => ?_⟩
  · unfold lengthen
    rw [before, Checked.ok_bind, setNear]
  · refine laid.insert nodup reaches short ?_ (fun tall => by omega) fun place notNear _ => ?_
    · rw [linksAfter, if_pos ⟨rfl, rfl⟩, ahead_append_of_short short, ahead_cons_of_short flat,
        Nat.add_right_comm]
    · rw [linksAfter, if_neg fun both => notNear both.2]
  · funext place
    rw [linksAfter, if_neg fun both => different both.1]

/-- **A new tower joins every level** below its height, and stays below the others. -/
theorem joinLevels_spec {front : List (Tower α)} {levels height : Nat} {turns : List Stand}
    {id : NodeId} {value : α} (marks : Turns levels front turns)
    (laid : ∀ level < levels, Laid (list.linkAt level) level (front ++ back))
    (nodup : ((front ++ ⟨id, value, height⟩ :: back).map Tower.id).Nodup)
    (vacant : ∀ level < height, ∃ link, list.linkAt level (.node id) = .ok link) :
    ∃ after, changeLevels
        (fun level turn list =>
          if level < height then list.cut id ⟨owner front, front.length⟩ level turn
          else list.lengthen level turn) turns list = .ok after ∧
      SameBodies list after ∧
      (∀ level < levels, Laid (after.linkAt level) level (front ++ ⟨id, value, height⟩ :: back)) ∧
      ∀ level, levels ≤ level → after.linkAt level = list.linkAt level := by
  have step : LevelWise
      (fun level turn list =>
        if level < height then list.cut id ⟨owner front, front.length⟩ level turn
        else list.lengthen level turn)
      (fun level links => Laid links level (front ++ ⟨id, value, height⟩ :: back)) turns list := by
    intro level turn found before sameBefore linksBefore
    have below : level < levels := by
      rw [← marks.length_eq]
      exact (List.getElem?_eq_some_iff.mp found).1
    obtain ⟨near, skipped, rfl, reaches, short, here⟩ := marks.at_level level below
    rw [found, Option.some.injEq] at here
    subst here
    have laidBefore : Laid (before.linkAt level) level (near ++ skipped ++ back) := by
      rw [linksBefore]
      exact laid level below
    by_cases tall : level < height
    · obtain ⟨link, linked⟩ := vacant level tall
      simp only [if_pos tall]
      exact cut_spec laidBefore nodup reaches short tall (by rw [linksBefore, linked])
    · simp only [if_neg tall]
      exact lengthen_spec laidBefore nodup reaches short (Nat.le_of_not_lt tall)
  obtain ⟨after, changed, same, good, above⟩ := changeLevels_spec step
  rw [marks.length_eq] at good above
  exact ⟨after, changed, same, good, above⟩

/-- **The node of a new tower** comes into the store under a key that was not in use. Its links lead
nowhere yet, and those of the row are as they were. -/
theorem newNode_spec {front : List (Tower α)} (housed : Housed list (front ++ back)) {value : α}
    {height : Nat} {id : NodeId} {nodes : σ (Node α)}
    (inserted : NodeStore.insert (⟨value, lastId? front, List.replicate height {}⟩ : Node α)
      list.nodes = (id, nodes)) :
    list.body? id = none ∧ ((front ++ ⟨id, value, height⟩ :: back).map Tower.id).Nodup ∧
      NodeStore.size nodes = NodeStore.size list.nodes + 1 ∧
      (∀ other, body? { list with nodes := nodes } other =
        if other = id then some ⟨value, lastId? front, height⟩ else list.body? other) ∧
      (∀ level < height, ∃ link,
        linkAt { list with nodes := nodes } level (.node id) = .ok link) ∧
      (∀ level, Laid (list.linkAt level) level (front ++ back) →
        Laid (linkAt { list with nodes := nodes } level) level (front ++ back)) ∧
      ∀ level, linkAt { list with nodes := nodes } level .head = list.linkAt level .head := by
  obtain ⟨new, more, bodies, linksNew, linksOld⟩ := insertNode_spec inserted
  have absent := housed.notMem_of_vacant new
  refine ⟨new, nodup_insert.mpr ⟨absent, housed.nodup⟩, more, fun other => ?_,
    fun level below => ⟨{}, ?_⟩, fun level laid => laid.congr absent (linksOld level),
    fun level => linksOld level .head (by simp)⟩
  · rw [bodies]
    simp [Node.body]
  · rw [linksNew, Checked.ofOption_eq_ok]
    exact List.getElem?_replicate_of_lt below

/-- **A list whose levels lead through a new tower.** Its node is in the store and knows the tower
before it, but the tower behind it does not know it yet, and it is not counted. -/
structure Joined (list spliced : SkipList α ρ σ) (front : List (Tower α)) (tower : Tower α)
    (back : List (Tower α)) : Prop where
  cmp : spliced.cmp = list.cmp
  heights : spliced.heights = list.heights
  tail : spliced.tail = list.tail
  size : spliced.size = list.size
  height : spliced.height = max list.height tower.height
  stored : NodeStore.size spliced.nodes = NodeStore.size list.nodes + 1
  new : list.body? tower.id = none
  bodies : ∀ other, spliced.body? other =
    if other = tower.id then some ⟨tower.value, lastId? front, tower.height⟩ else list.body? other
  laid : ∀ level < spliced.height, Laid (spliced.linkAt level) level (front ++ tower :: back)
  head : ∀ level, spliced.height ≤ level → spliced.linkAt level .head = list.linkAt level .head

omit [LawfulNodeStore σ] in
/-- The new tower leads to the one behind it. -/
theorem Joined.linkAt_zero {spliced : SkipList α ρ σ} {front : List (Tower α)}
    (joined : Joined list spliced front tower back) (positive : 0 < tower.height) :
    spliced.linkAt 0 (.node tower.id) = .ok (ahead 0 back) := by
  have used : 0 < spliced.height := by
    rw [joined.height]
    omega
  have linked := joined.laid 0 used (front ++ [tower]) back (by simp) (reaches_concat.mpr positive)
  rw [owner_concat] at linked
  exact linked

/-- **A new tower is made known** to the one behind it, or to the list itself, and counted. -/
theorem Joined.close_spec {spliced : SkipList α ρ σ} {front : List (Tower α)}
    (joined : Joined list spliced front tower back) (sound : Sound list (front ++ back))
    (positive : 0 < tower.height) (bounded : tower.height ≤ list.heights.maxHeight) :
    ∃ after, spliced.setBefore (some tower.id) (back.head?.map Tower.id) = .ok after ∧
      after.cmp = list.cmp ∧ after.heights = list.heights ∧
      Sound { after with size := after.size + 1 } (front ++ tower :: back) := by
  have heldBehind : ∀ other ∈ back.head?.map Tower.id, (spliced.body? other).isSome := by
    intro other isFirst
    rw [joined.bodies]
    by_cases isNew : other = tower.id
    · rw [if_pos isNew]
      rfl
    · rw [if_neg isNew]
      exact sound.held_first rfl other isFirst
  obtain ⟨after, set, cmp, heights, headAfter, size, height, stored, tail, bodies, links⟩ :=
    setBefore_spec heldBehind (some tower.id)
  have linksEnd : ∀ level,
      linkAt { after with size := after.size + 1 } level = spliced.linkAt level := by
    intro level
    funext place
    exact (linkAt_congr (fun _ => rfl) fun _ _ => rfl).trans (links level place)
  refine ⟨after, set, cmp.trans joined.cmp, heights.trans joined.heights, ?_⟩
  apply sound.insert
  · apply sound.toHoused.insert joined.new
    intro other
    show after.body? other = _
    rw [bodies, joined.bodies]
  · show NodeStore.size after.nodes = _
    rw [stored, joined.stored]
  · show after.size + 1 = _
    rw [size, joined.size]
  · show after.tail = _
    rw [tail, joined.tail]
  · exact height.trans joined.height
  · exact heights.trans joined.heights
  · intro level below
    rw [linksEnd]
    exact joined.laid level (height ▸ below)
  · intro level high
    rw [linksEnd]
    exact joined.head level (height ▸ high)
  · exact positive
  · exact bounded

/-- **A new tower joins the row** in the gap where the descent left it. -/
theorem insertAt_spec {front : List (Tower α)} (sound : Sound list (front ++ back))
    {turns : List Stand} (marks : Turns list.height front turns) (value : α) {height : Nat}
    (positive : 0 < height) (bounded : height ≤ list.heights.maxHeight) :
    ∃ id after, list.insertAt value height turns = .ok (id, after) ∧ after.cmp = list.cmp ∧
      after.heights = list.heights ∧ Sound after (front ++ ⟨id, value, height⟩ :: back) := by
  obtain ⟨grown, grew, cmpGrown, heightsGrown, nodesGrown, tailGrown, sizeGrown, heightGrown,
    laidGrown, headGrown⟩ := grow_spec sound bounded
  obtain ⟨positiveFront, positiveBack⟩ := List.forall_mem_append.mp sound.positive
  have flat : ∀ tower ∈ front, tower.height ≤ list.height := by
    intro tower member
    rw [sound.height_eq]
    exact height_le_peak (List.mem_append_left _ member)
  have marks' : Turns (max list.height height) front _ := marks.extend flat
  have lowest := marks'.place_eq (by omega) positiveFront
  rcases inserted : NodeStore.insert
    (⟨value, lastId? front, List.replicate height {}⟩ : Node α) grown.nodes with ⟨id, nodes⟩
  have bodyGrown : ∀ other, grown.body? other = list.body? other := by
    intro other
    unfold body?
    rw [nodesGrown]
  obtain ⟨new, nodup, more, bodyJoined, vacant, laidJoined, headJoined⟩ :=
    newNode_spec (sound.toHoused.congr bodyGrown) inserted
  obtain ⟨spliced, changed, same, laid, above⟩ := joinLevels_spec marks'
    (fun level below => laidJoined level (laidGrown level below)) nodup vacant
  have heightSpliced : spliced.height = max list.height height := same.height.trans heightGrown
  have joined : Joined list spliced front ⟨id, value, height⟩ back :=
    { cmp := same.cmp.trans cmpGrown
      heights := same.heights.trans heightsGrown
      tail := same.tail.trans tailGrown
      size := same.size.trans sizeGrown
      height := heightSpliced
      stored := by rw [same.stored, more, nodesGrown]
      new := (bodyGrown id).symm.trans new
      bodies := fun other => by rw [same.body?, bodyJoined, bodyGrown]
      laid := fun level below => laid level (heightSpliced ▸ below)
      head := fun level high => by
        have unused : max list.height height ≤ level := heightSpliced ▸ high
        rw [above level unused, headJoined, headGrown level unused] }
  obtain ⟨after, set, cmp, heights, soundAfter⟩ := joined.close_spec sound positive bounded
  refine ⟨id, { after with size := after.size + 1 }, ?_, cmp, heights, soundAfter⟩
  unfold insertAt
  simp only [grew, Checked.ok_bind, lowest, owner_id?, inserted]
  rw [changed, Checked.ok_bind, joined.linkAt_zero positive, Checked.ok_bind,
    ahead_zero_next positiveBack, set]
  rfl

end Insert

end OrderedCollections.SkipList
