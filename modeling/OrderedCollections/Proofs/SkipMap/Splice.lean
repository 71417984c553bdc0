/-
**Entries that come and go.**

With the turns of a descent that left a sound map in a gap, a new tower can be put into the gap, and
the tower behind it can be taken out: no key without a node is followed, and the map is sound for the
row with a tower more or a tower less. Only the levels below the height of the tower are touched; on
the others a row with the tower and one without it ask for the same links.

* `enterLevel_spec`, `enterFrom_spec`: a tower joins the levels below its height.
* `newNode_spec`, `insertAt_spec`: a tower more.
* `leaveLevel_spec`, `leaveFrom_spec`: a tower leaves the levels below its height, and the work ends
  at the first turn that does not lead to it.
* `unlink_spec`: a tower less.
-/

import OrderedCollections.Proofs.SkipMap.Descent

namespace OrderedCollections.SkipMap

open SkipList

variable {κ ν ρ : Type} {σ : Type → Type} [NodeStore σ]

/-! ### A tower comes in -/

/-- Above the levels in use the turn is at the header, for no tower is on them. -/
theorem turnsAt_allTurns {front : List (Tower (κ × ν))} {turns : List Cursor}
    (marks : ∀ level turn, turns[level]? = some turn → TurnsAt front level turn)
    (flat : ∀ tower ∈ front, tower.height ≤ turns.length) {level : Nat} {turn : Cursor}
    (here : (allTurns turns)[level]? = some turn) : TurnsAt front level turn := by
  unfold allTurns at here
  by_cases used : level < turns.length
  · rw [List.getElem?_append_left used] at here
    exact marks level turn here
  · have above : turns.length ≤ level := Nat.le_of_not_lt used
    rw [List.getElem?_append_right above] at here
    refine ⟨[], front, rfl, reaches_nil level,
      fun tower member => Nat.le_trans (flat tower member) above, ?_⟩
    exact List.eq_of_mem_replicate (List.mem_of_getElem? here)

section Enter

variable [LawfulNodeStore σ] {map : SkipMap κ ν ρ σ} {level : Nat}
  {near skipped front back : List (Tower (κ × ν))} {tower : Tower (κ × ν)}

/-- **A tower joins a level** behind the last owner that takes part in it. -/
theorem enterLevel_spec
    (laid : LaidIn Link.next (map.forwardAt level) level (near ++ skipped ++ back))
    (nodup : ((near ++ skipped ++ tower :: back).map Tower.id).Nodup) (reaches : Reaches level near)
    (short : ∀ other ∈ skipped, other.height ≤ level) (tall : level < tower.height)
    {old : Option NodeId} (vacant : map.forwardAt level (.node tower.id) = .ok old) :
    ∃ next middle after, map.forwardAt level (owner near) = .ok next ∧
      map.setForward level next (.node tower.id) = .ok middle ∧
      middle.setForward level (some tower.id) (owner near) = .ok after ∧ SameBodies map after ∧
      LaidIn Link.next (after.forwardAt level) level (near ++ skipped ++ tower :: back) ∧
      ∀ other, other ≠ level → after.forwardAt other = map.forwardAt other := by
  have fresh : owner near ≠ .node tower.id := by
    rw [List.append_assoc] at nodup
    exact owner_ne_node (notMem_of_behind nodup (by simp))
  have before := laid near (skipped ++ back) (List.append_assoc _ _ _).symm reaches
  rw [ahead_append_of_short short] at before
  obtain ⟨middle, setNew, sameMiddle, linksMiddle⟩ := setForward_spec vacant (ahead level back).next
  have beforeMiddle : middle.forwardAt level (owner near) = _ :=
    (linksMiddle level (owner near)).trans (if_neg fun both => fresh both.2)
  rw [before] at beforeMiddle
  obtain ⟨after, setNear, sameAfter, linksAfter⟩ := setForward_spec beforeMiddle (some tower.id)
  refine ⟨_, middle, after, before, setNew, setNear, sameMiddle.trans sameAfter, ?_,
    fun other different => ?_⟩
  · refine laid.insert nodup reaches short ?_ (fun _ => ?_) fun place notNear notNew => ?_
    · rw [linksAfter, if_pos ⟨rfl, rfl⟩, ahead_append_cons short tall]
    · rw [linksAfter, if_neg fun both => fresh both.2.symm, linksMiddle, if_pos ⟨rfl, rfl⟩]
    · rw [linksAfter, if_neg fun both => notNear both.2, linksMiddle,
        if_neg fun both => notNew both.2]
  · funext place
    rw [linksAfter, if_neg fun both => different both.1, linksMiddle,
      if_neg fun both => different both.1]

/-- **A tower joins the levels** from one on, one for each turn. -/
theorem enterFrom_spec (nodup : ((front ++ tower :: back).map Tower.id).Nodup) (turns : List Cursor)
    (level : Nat) (fits : level + turns.length ≤ tower.height)
    (marks : ∀ offset turn, turns[offset]? = some turn → TurnsAt front (level + offset) turn)
    (laid : ∀ other, level ≤ other → other < level + turns.length →
      LaidIn Link.next (map.forwardAt other) other (front ++ back))
    (vacant : ∀ other, level ≤ other → other < level + turns.length →
      ∃ old, map.forwardAt other (.node tower.id) = .ok old) :
    ∃ after, enterFrom tower.id level turns map = .ok after ∧ SameBodies map after ∧
      (∀ other, level ≤ other → other < level + turns.length →
        LaidIn Link.next (after.forwardAt other) other (front ++ tower :: back)) ∧
      ∀ other, other < level ∨ level + turns.length ≤ other →
        after.forwardAt other = map.forwardAt other := by
  induction turns generalizing level map with
  | nil =>
    exact ⟨map, rfl, .refl map, fun other above below => by simp at below; omega, fun _ _ => rfl⟩
  | cons turn upper ih =>
    rw [List.length_cons] at fits laid vacant ⊢
    obtain ⟨near, skipped, rfl, reaches, short, rfl⟩ := marks 0 turn rfl
    rw [Nat.add_zero] at reaches short
    obtain ⟨old, linked⟩ := vacant level (Nat.le_refl _) (by omega)
    obtain ⟨next, middle, joined, found, setNew, setNear, same, good, others⟩ :=
      enterLevel_spec (laid level (Nat.le_refl _) (by omega)) nodup reaches short (by omega) linked
    obtain ⟨after, entered, sameAfter, goodAfter, othersAfter⟩ := ih (level + 1) (by omega)
      (fun offset turn here => by
        rw [Nat.add_assoc, Nat.add_comm 1]
        exact marks (offset + 1) turn here)
      (fun other above below => by
        rw [others other (by omega)]
        exact laid other (by omega) (by omega))
      fun other above below => by
        rw [others other (by omega)]
        exact vacant other (by omega) (by omega)
    refine ⟨after, ?_, same.trans sameAfter, fun other above below => ?_, fun other outside => ?_⟩
    · simp only [enterFrom, found, Checked.ok_bind, setNew, setNear, entered]
    · rcases Nat.eq_or_lt_of_le above with rfl | higher
      · rw [othersAfter level (Or.inl (Nat.lt_succ_self level))]
        exact good
      · exact goodAfter other higher (by omega)
    · rw [othersAfter other (by omega), others other (by omega)]

omit [LawfulNodeStore σ] in
/-- The turns that a new tower is entered at: one for each of its levels. -/
theorem turnsAt_take {turns : List Cursor} {height : Nat} (limited : height ≤ heightLimit)
    (marks : ∀ level turn, turns[level]? = some turn → TurnsAt front level turn)
    (flat : ∀ tower ∈ front, tower.height ≤ turns.length) :
    ((allTurns turns).take height).length = height ∧
      ∀ level turn, ((allTurns turns).take height)[level]? = some turn →
        TurnsAt front level turn := by
  refine ⟨?_, fun level turn here => turnsAt_allTurns marks flat ?_⟩
  · simp only [allTurns, List.length_take, List.length_append, List.length_replicate]
    omega
  · rw [List.getElem?_take] at here
    split at here
    · exact here
    · cases here

/-- **The node of a new tower** comes into the store under a key that was not in use. Its links lead
nowhere yet, and those of the row are as they were. -/
theorem newNode_spec (sound : Sound map (front ++ back)) {key : κ} {value : ν} {height : Nat}
    {id : NodeId} {nodes : σ (Node κ ν)}
    (inserted : NodeStore.insert (⟨key, value, List.replicate height none⟩ : Node κ ν) map.nodes =
      (id, nodes)) :
    map.body? id = none ∧ NodeStore.size nodes = NodeStore.size map.nodes + 1 ∧
      (∀ other, body? { map with nodes := nodes } other =
        if other = id then some ⟨(key, value), height⟩ else map.body? other) ∧
      (∀ level < height, forwardAt { map with nodes := nodes } level (.node id) = .ok none) ∧
      ∀ level < heightLimit,
        LaidIn Link.next (forwardAt { map with nodes := nodes } level) level (front ++ back) := by
  obtain ⟨new, more, bodies, linksNew, linksOld⟩ := insertNode_spec inserted
  refine ⟨new, more, fun other => ?_, fun level below => ?_, fun level inside =>
    (sound.laid level inside).congr (sound.notMem_of_vacant new) (linksOld level)⟩
  · rw [bodies]
    simp [Node.body]
  · rw [linksNew, Checked.ofOption_eq_ok]
    exact List.getElem?_replicate_of_lt below

/-- **A new tower joins the row** in the gap where the descent left it. -/
theorem insertAt_spec (sound : Sound map (front ++ back)) {turns : List Cursor}
    (levels : turns.length = map.height)
    (marks : ∀ level turn, turns[level]? = some turn → TurnsAt front level turn) (key : κ) (value : ν)
    {height : Nat} (positive : 0 < height) (bounded : height ≤ map.heights.maxHeight) :
    ∃ id after, map.insertAt key value height turns = .ok after ∧ after.cmp = map.cmp ∧
      after.heights = map.heights ∧ Sound after (front ++ ⟨id, (key, value), height⟩ :: back) := by
  have limited : height ≤ heightLimit := Nat.le_trans bounded sound.maxHeight_le
  have flat : ∀ tower ∈ front, tower.height ≤ turns.length := by
    intro tower member
    rw [levels, sound.height_eq]
    exact height_le_peak (List.mem_append_left _ member)
  obtain ⟨length, marks'⟩ := turnsAt_take limited marks flat
  rcases inserted : NodeStore.insert (⟨key, value, List.replicate height none⟩ : Node κ ν)
    map.nodes with ⟨id, nodes⟩
  obtain ⟨new, more, bodies, vacant, laidStarted⟩ := newNode_spec sound inserted
  let tower : Tower (κ × ν) := ⟨id, (key, value), height⟩
  have nodup : ((front ++ tower :: back).map Tower.id).Nodup :=
    nodup_insert.mpr ⟨sound.notMem_of_vacant new, sound.nodup⟩
  let started : SkipMap κ ν ρ σ := { map with nodes := nodes, height := max map.height height }
  have laidBelow : ∀ level, 0 ≤ level → level < 0 + ((allTurns turns).take height).length →
      LaidIn Link.next (started.forwardAt level) level (front ++ back) :=
    fun level _ below => laidStarted level (by omega)
  obtain ⟨entered, done, same, laid, others⟩ := enterFrom_spec nodup ((allTurns turns).take height) 0
    (Nat.le_of_eq (by rw [length, Nat.zero_add]))
    (fun offset turn here => by
      rw [Nat.zero_add]
      exact marks' offset turn here)
    laidBelow fun other _ below => ⟨none, vacant other (by omega)⟩
  rw [length, Nat.zero_add] at laid others
  let after : SkipMap κ ν ρ σ := { entered with size := entered.size + 1 }
  refine ⟨id, after, ?_, same.cmp, same.heights, ?_⟩
  · have enter : enterFrom id 0 ((allTurns turns).take height)
        { map with nodes := nodes, height := max map.height height } = .ok entered := done
    simp only [insertAt, inserted, enter, Checked.ok_bind, Checked.pure_eq_ok, after]
  · refine sound.insert new (fun other => (same.body? other).trans (bodies other))
      (same.stored.trans more) (congrArg (· + 1) same.size) same.height same.heights
      (fun level inside => ?_) positive bounded
    by_cases below : level < height
    · exact laid level (Nat.zero_le _) below
    · have above : height ≤ level := Nat.le_of_not_lt below
      have flat : tower.height ≤ level := above
      refine (laidIn_next_insert_iff flat).mpr ?_
      show LaidIn Link.next (entered.forwardAt level) level (front ++ back)
      rw [others level (Or.inr above)]
      exact laidStarted level inside

end Enter

/-! ### A tower goes away -/

section Leave

variable [LawfulNodeStore σ] {map : SkipMap κ ν ρ σ} {level : Nat}
  {near skipped front back : List (Tower (κ × ν))} {tower : Tower (κ × ν)}

/-- **A tower leaves a level** that it takes part in: the turn leads to it, and then past it. -/
theorem leaveLevel_spec
    (laid : LaidIn Link.next (map.forwardAt level) level (near ++ skipped ++ tower :: back))
    (nodup : ((near ++ skipped ++ tower :: back).map Tower.id).Nodup) (reaches : Reaches level near)
    (short : ∀ other ∈ skipped, other.height ≤ level) (tall : level < tower.height) :
    ∃ next after, map.forwardAt level (owner near) = .ok (some tower.id) ∧
      map.forwardAt level (.node tower.id) = .ok next ∧
      map.setForward level next (owner near) = .ok after ∧ SameBodies map after ∧
      LaidIn Link.next (after.forwardAt level) level (near ++ skipped ++ back) ∧
      ∀ other, other ≠ level → after.forwardAt other = map.forwardAt other := by
  have before := laid near (skipped ++ tower :: back) (List.append_assoc _ _ _).symm reaches
  rw [ahead_append_cons short tall] at before
  have beyond := laid (near ++ skipped ++ [tower]) back (by simp) (reaches_concat.mpr tall)
  rw [owner_concat] at beyond
  obtain ⟨after, set, same, links⟩ := setForward_spec before (ahead level back).next
  refine ⟨_, after, before, beyond, set, same, ?_, fun other different => ?_⟩
  · refine laid.erase nodup reaches short ?_ fun place notNear => ?_
    · rw [links, if_pos ⟨rfl, rfl⟩, ahead_append_of_short short]
    · rw [links, if_neg fun both => notNear both.2]
  · funext place
    rw [links, if_neg fun both => different both.1]

omit [LawfulNodeStore σ] in
/-- A turn on a level that the tower does not reach leads past it. -/
theorem forwardAt_ne_of_flat
    (laid : LaidIn Link.next (map.forwardAt level) level (near ++ skipped ++ tower :: back))
    (nodup : ((near ++ skipped ++ tower :: back).map Tower.id).Nodup) (reaches : Reaches level near)
    (short : ∀ other ∈ skipped, other.height ≤ level) (flat : tower.height ≤ level) :
    ∃ next, map.forwardAt level (owner near) = .ok next ∧ next ≠ some tower.id := by
  have before := laid near (skipped ++ tower :: back) (List.append_assoc _ _ _).symm reaches
  rw [ahead_append_of_short short, ahead_cons_of_short flat] at before
  refine ⟨_, before, fun toTower => ?_⟩
  have absent := (nodup_insert.mp nodup).1
  rw [List.map_append, List.mem_append, not_or] at absent
  exact absent.2 (mem_of_ahead_next toTower)

/-- **A tower leaves the levels** from one on. The work ends at the height of the tower: on that
level the turn leads past it, if there is a turn at all. -/
theorem leaveFrom_spec (nodup : ((front ++ tower :: back).map Tower.id).Nodup) (turns : List Cursor)
    (level : Nat) (enough : tower.height ≤ level + turns.length)
    (limited : level + turns.length ≤ heightLimit)
    (marks : ∀ offset turn, turns[offset]? = some turn → TurnsAt front (level + offset) turn)
    (laid : ∀ other, level ≤ other → other < heightLimit →
      LaidIn Link.next (map.forwardAt other) other (front ++ tower :: back)) :
    ∃ after, leaveFrom tower.id level turns map = .ok after ∧ SameBodies map after ∧
      (∀ other, level ≤ other → other < tower.height →
        LaidIn Link.next (after.forwardAt other) other (front ++ back)) ∧
      ∀ other, other < level ∨ tower.height ≤ other →
        after.forwardAt other = map.forwardAt other := by
  induction turns generalizing level map with
  | nil =>
    rw [List.length_nil] at enough
    exact ⟨map, rfl, .refl map, fun other above below => by omega, fun _ _ => rfl⟩
  | cons turn upper ih =>
    rw [List.length_cons] at enough limited
    obtain ⟨near, skipped, rfl, reaches, short, rfl⟩ := marks 0 turn rfl
    rw [Nat.add_zero] at reaches short
    have laidHere := laid level (Nat.le_refl _) (by omega)
    by_cases tall : level < tower.height
    · obtain ⟨next, left, leads, beyond, set, same, good, others⟩ :=
        leaveLevel_spec laidHere nodup reaches short tall
      obtain ⟨after, done, sameAfter, goodAfter, othersAfter⟩ := ih (level + 1) (by omega) (by omega)
        (fun offset turn here => by
          rw [Nat.add_assoc, Nat.add_comm 1]
          exact marks (offset + 1) turn here)
        fun other above inside => by
          rw [others other (by omega)]
          exact laid other (by omega) inside
      refine ⟨after, ?_, same.trans sameAfter, fun other above below => ?_, fun other outside => ?_⟩
      · simp only [leaveFrom, leads, Checked.ok_bind, if_true, beyond, set, done]
      · rcases Nat.eq_or_lt_of_le above with rfl | higher
        · rw [othersAfter level (Or.inl (Nat.lt_succ_self level))]
          exact good
        · exact goodAfter other higher below
      · rw [othersAfter other (by omega), others other (by omega)]
    · obtain ⟨next, leads, past⟩ :=
        forwardAt_ne_of_flat laidHere nodup reaches short (Nat.le_of_not_lt tall)
      refine ⟨map, ?_, .refl map, fun other above below => by omega, fun _ _ => rfl⟩
      simp only [leaveFrom, leads, Checked.ok_bind, if_neg past, Checked.pure_eq_ok]

/-- **The tower behind the gap leaves the row.** -/
theorem unlink_spec (sound : Sound map (front ++ tower :: back)) {turns : List Cursor}
    (levels : turns.length = map.height)
    (marks : ∀ level turn, turns[level]? = some turn → TurnsAt front level turn) :
    ∃ after, map.unlink tower.id turns = .ok (tower.value.2, after) ∧ after.cmp = map.cmp ∧
      after.heights = map.heights ∧ Sound after (front ++ back) := by
  have member : tower ∈ front ++ tower :: back := by simp
  have absent := (nodup_insert.mp sound.nodup).1
  have tallest : tower.height ≤ map.height := by
    rw [sound.height_eq]
    exact height_le_peak member
  have limited := sound.height_le
  obtain ⟨left, done, same, laid, others⟩ := leaveFrom_spec sound.nodup turns 0 (by omega) (by omega)
    (fun offset turn here => by
      rw [Nat.zero_add]
      exact marks offset turn here)
    fun other _ inside => sound.laid other inside
  have laidLeft : ∀ level < heightLimit,
      LaidIn Link.next (left.forwardAt level) level (front ++ back) := by
    intro level inside
    by_cases below : level < tower.height
    · exact laid level (Nat.zero_le _) below
    · have above : tower.height ≤ level := Nat.le_of_not_lt below
      rw [others level (Or.inr above)]
      exact (laidIn_next_insert_iff above).mp (sound.laid level inside)
  have heightLeft : left.height ≤ heightLimit := by rw [same.height]; exact limited
  have used : usedLevels (fun level => left.forwardAt level .head) left.height =
      .ok (peak (front ++ back)) := by
    refine usedLevels_eq_peak (fun level below => ?_) ?_
    · have inside : level < heightLimit := Nat.lt_of_lt_of_le below heightLeft
      have linked := laidLeft level inside [] (front ++ back) rfl (reaches_nil level)
      rwa [owner_nil] at linked
    · rw [same.height, sound.height_eq, peak_insert]
      exact Nat.le_max_left _ _
  have bodyLeft : left.body? tower.id = some ⟨tower.value, tower.height⟩ := by
    rw [same.body?]
    exact sound.body tower member
  obtain ⟨node, stored, -, body⟩ := node_of_body? bodyLeft
  have held : (left.body? tower.id).isSome := by
    rw [bodyLeft]
    rfl
  obtain ⟨fewer, bodies, links⟩ := eraseNode_spec held
  have shorter : (front ++ tower :: back).length = (front ++ back).length + 1 := by simp; omega
  have sizeLeft : left.size = (front ++ back).length + 1 := by
    rw [same.size, sound.size_eq, shorter]
  have storedLeft : NodeStore.size (NodeStore.erase tower.id left.nodes) = (front ++ back).length := by
    rw [fewer, same.stored, sound.stored, shorter, Nat.add_sub_cancel]
  refine ⟨{ left with
    nodes := NodeStore.erase tower.id left.nodes
    size := (front ++ back).length
    height := peak (front ++ back) }, ?_, same.cmp, same.heights, ?_⟩
  · have enough : 1 ≤ (front ++ back).length + 1 := Nat.le_add_left _ _
    have value : node.value = tower.value.2 := congrArg (fun body => body.entry.2) body
    unfold unlink
    rw [done, Checked.ok_bind, used, Checked.ok_bind, sizeLeft, Checked.minus_of_le enough,
      Checked.ok_bind, NodeStore.take_eq_ok stored, Checked.ok_bind]
    simp only [storedLeft, Nat.add_sub_cancel, if_true, value]
    rfl
  · refine sound.erase (fun other => ?_) storedLeft rfl rfl same.heights fun level inside => ?_
    · refine (bodies other).trans ?_
      rw [same.body?]
    · exact (laidLeft level inside).congr absent (links level)

end Leave

end OrderedCollections.SkipMap
