/-
**Where a descent ends.**

On a sound list a descent never runs into a fault, whatever it answers about the towers it meets: the
links lead it as the row would. Where it is not stopped, it leaves the row in a gap.

* `Turns`: the turns of a descent that left the row in a gap.
* `walk_eq`: a walk along one level goes as it would along the row.
* `descend_eq`: a descent through all levels goes as it would along the row.
* `passOrTurn`: a descent that stops nowhere, and passes the towers it is told to.
* `descend_spec`, `gap_spec`: where a descent from the header ends.
-/

import OrderedCollections.SkipList.Descent
import OrderedCollections.Proofs.SkipList.RowDescent
import OrderedCollections.Proofs.SkipList.Sound

namespace OrderedCollections.SkipList

variable {α ρ : Type} {σ : Type → Type} [NodeStore σ]

/-! ### Turns before a gap -/

/-- Where a descent stands that is behind some towers. -/
def stand (front : List (Tower α)) : Stand :=
  ⟨owner front, front.length⟩

/-- The turns of a descent that left the row behind `front`: on every level the last owner that
takes part in it. -/
structure Turns (levels : Nat) (front : List (Tower α)) (turns : List Stand) : Prop where
  length_eq : turns.length = levels
  at_level : ∀ level < levels, ∃ near skipped, front = near ++ skipped ∧ Reaches level near ∧
    (∀ tower ∈ skipped, tower.height ≤ level) ∧ turns[level]? = some ⟨owner near, near.length⟩

theorem Marks.turns {levels : Nat} {front : List (Tower α)} {turns : List (List (Tower α))}
    (marks : Marks levels front turns) : Turns levels front (turns.map stand) := by
  refine ⟨by rw [List.length_map, marks.length_eq], fun level below => ?_⟩
  obtain ⟨near, skipped, cut, reaches, short, turn⟩ := marks.at_level level below
  refine ⟨near, skipped, cut, reaches, short, ?_⟩
  rw [List.getElem?_map, turn]
  rfl

/-- Where every tower is on the lowest level, the lowest turn is at the gap. -/
theorem Turns.place_eq {levels : Nat} {front : List (Tower α)} {turns : List Stand}
    (marks : Turns levels front turns) (used : 0 < levels)
    (positive : ∀ tower ∈ front, 0 < tower.height) :
    place turns = ⟨owner front, front.length⟩ := by
  obtain ⟨near, skipped, rfl, -, short, turn⟩ := marks.at_level 0 used
  have none : skipped = [] := by
    refine List.eq_nil_iff_forall_not_mem.mpr fun tower member => ?_
    have tall := positive tower (List.mem_append_right _ member)
    have flat := short tower member
    omega
  rw [none, List.append_nil, place, List.headD_eq_head?_getD, List.head?_eq_getElem?, turn]
  rfl

/-! ### Passing or turning -/

/-- What is answered about a tower on the way to the gap behind those to be passed. -/
def passOrTurn (passes : Nat → α → Bool) (rank : Nat) (_id : NodeId) (stored : α) : Ordering :=
  if passes rank stored then .lt else .gt

section PassOrTurn

variable {passes : Nat → α → Bool} {rank : Nat} {id : NodeId} {stored : α}

theorem passOrTurn_eq_lt : passOrTurn passes rank id stored = .lt ↔ passes rank stored = true := by
  unfold passOrTurn
  cases passes rank stored <;> decide

theorem passOrTurn_eq_gt : passOrTurn passes rank id stored = .gt ↔ passes rank stored = false := by
  unfold passOrTurn
  cases passes rank stored <;> decide

theorem passOrTurn_ne_eq : passOrTurn passes rank id stored ≠ .eq := by
  unfold passOrTurn
  cases passes rank stored <;> decide

end PassOrTurn

/-! ### Along one level -/

/-- The end of a walk along a row, as a list tells it. -/
def RowStop.stop : RowStop α → Stop
  | met near tower _ => .met tower.id (near.length + 1)
  | turned near _ => .turned (stand near)

/-- The end of a descent along a row, as a list tells it. -/
def RowLanding.landing : RowLanding α → Landing
  | met near tower _ => .met tower.id (near.length + 1)
  | landed _ _ turns => .landed (turns.map stand)

section Walk

variable {list : SkipList α ρ σ} {row : List (Tower α)} (answer : Nat → NodeId → α → Ordering)

theorem walk_end {level : Nat} (laid : Laid (list.linkAt level) level row)
    {front back : List (Tower α)} (split : front ++ back = row) (reaches : Reaches level front)
    (short : ∀ tower ∈ back, tower.height ≤ level) (rounds : Nat) :
    list.walk answer level (rounds + 1) (stand front) = .ok (.turned (stand front)) := by
  unfold walk stand
  rw [laid front back split reaches, ahead_of_short short]
  rfl

/-- One round of a walk asks about the first tower ahead that takes part in the level. -/
theorem walk_round (housed : Housed list row) {level : Nat}
    (laid : Laid (list.linkAt level) level row) {front skipped others : List (Tower α)}
    {tower : Tower α} (split : front ++ (skipped ++ tower :: others) = row)
    (reaches : Reaches level front) (short : ∀ other ∈ skipped, other.height ≤ level)
    (tall : level < tower.height) (rounds : Nat) :
    list.walk answer level (rounds + 1) (stand front) =
      match answer ((front ++ skipped).length + 1) tower.id tower.value with
      | .lt => list.walk answer level rounds (stand (front ++ (skipped ++ [tower])))
      | .eq => .ok (.met tower.id ((front ++ skipped).length + 1))
      | .gt => .ok (.turned (stand front)) := by
  have linked := laid front (skipped ++ tower :: others) split reaches
  rw [ahead_append_cons short tall] at linked
  have rank : front.length + (skipped.length + 1) = (front ++ skipped).length + 1 := by
    rw [List.length_append, Nat.add_assoc]
  have next : stand (front ++ (skipped ++ [tower])) =
      ⟨.node tower.id, (front ++ skipped).length + 1⟩ := by
    unfold stand
    rw [← List.append_assoc, owner_concat, List.length_append, List.length_singleton]
  obtain ⟨node, fetched, body, -⟩ :=
    housed.node_eq ((List.append_assoc front skipped (tower :: others)).trans split)
  rw [next, walk]
  cases answered : answer ((front ++ skipped).length + 1) tower.id tower.value <;>
    simp only [stand, linked, fetched, Checked.ok_bind, body, rank, answered, Checked.pure_eq_ok]

/-- **A walk along a level goes as it would along the row.** -/
theorem walk_eq (housed : Housed list row) {level : Nat} (laid : Laid (list.linkAt level) level row)
    (rounds : Nat) (front back : List (Tower α)) (split : front ++ back = row)
    (reaches : Reaches level front) (enough : back.length < rounds) :
    list.walk answer level rounds (stand front) = .ok (rowWalk answer level front [] back).stop := by
  induction rounds generalizing front back with
  | zero => omega
  | succ rounds ih =>
    rcases ahead_cases level back with short | ⟨skipped, tower, others, rfl, short, tall⟩
    · have passed := rowWalk_of_short answer short front [] []
      rw [List.append_nil, List.nil_append] at passed
      rw [walk_end answer laid split reaches short, passed]
      rfl
    · have whole : front ++ (skipped ++ [tower]) = front ++ skipped ++ [tower] :=
        (List.append_assoc front skipped [tower]).symm
      have next : list.walk answer level rounds (stand (front ++ (skipped ++ [tower]))) =
          .ok (rowWalk answer level (front ++ (skipped ++ [tower])) [] others).stop := by
        refine ih _ others (by rw [← split]; simp) (whole ▸ reaches_concat.mpr tall) ?_
        simp only [List.length_append, List.length_cons] at enough
        omega
      rw [walk_round answer housed laid split reaches short tall, next,
        rowWalk_of_short answer short front [] (tower :: others), List.nil_append, rowWalk,
        if_pos tall]
      cases answer ((front ++ skipped).length + 1) tower.id tower.value <;> rfl

/-! ### Through the levels -/

/-- **A descent through some levels goes as it would along the row.** -/
theorem descendFrom_eq (sound : Sound list row) (levels : Nat) (used : levels ≤ list.height)
    (front back : List (Tower α)) (split : front ++ back = row)
    (reaches : ∀ level < levels, Reaches level front) :
    list.descendFrom answer levels (stand front) =
      .ok (rowDescend answer levels front back).landing := by
  induction levels generalizing front back with
  | zero => rfl
  | succ level ih =>
    have enough : back.length < list.size + 1 := by
      rw [sound.size_eq, ← split, List.length_append]
      omega
    have reachesHere := reaches level (Nat.lt_succ_self level)
    unfold descendFrom
    rw [walk_eq answer sound.toHoused (sound.laid level used) _ front back split reachesHere enough,
      Checked.ok_bind, rowDescend]
    rcases rowWalk_spec answer level front [] back (List.forall_mem_nil _) with
      ⟨near, tower, far, -, -, met⟩ | ⟨along, others, rfl, walked, walks⟩
    · rw [met]
      rfl
    · have reachesTurn := walks.reaches reachesHere
      have lower : ∀ below < level, Reaches below (front ++ along) :=
        fun below less tower member => Nat.lt_trans less (reachesTurn tower member)
      have below := ih (Nat.le_of_succ_le used) (front ++ along) others
        (by rw [List.append_assoc, split]) lower
      simp only [walked, RowStop.stop, below, Checked.ok_bind]
      cases rowDescend answer level (front ++ along) others with
      | met near tower far => rfl
      | landed near far turns =>
        simp only [RowLanding.landing, Checked.pure_eq_ok, List.map_append, List.map_cons,
          List.map_nil]

/-- **A descent from the header goes as it would along the row.** -/
theorem descend_eq (sound : Sound list row) :
    list.descend answer = .ok (rowDescend answer list.height [] row).landing :=
  descendFrom_eq answer sound list.height (Nat.le_refl _) [] row (List.nil_append row)
    fun level _ => reaches_nil level

/-- How a descent comes to a tower and stops there. -/
def Meets (row : List (Tower α)) (id : NodeId) (rank : Nat) : Prop :=
  ∃ near tower far, near ++ tower :: far = row ∧ tower.id = id ∧ rank = near.length + 1 ∧
    answer rank tower.id tower.value = .eq

/-- How a descent leaves the row in a gap. -/
structure Leaves (answer : Nat → NodeId → α → Ordering) (levels : Nat)
    (front back : List (Tower α)) (turns : List Stand) : Prop where
  turns : Turns levels front turns
  /-- The last tower before the gap was to be passed. -/
  passed : Passed answer front
  /-- The first tower behind the gap was not. -/
  stopped : ∀ tower others, back = tower :: others →
    answer (front.length + 1) tower.id tower.value = .gt

/-- **A descent from the header.** It stops at a tower about which it was answered so, or it leaves
the row in a gap. -/
theorem descend_spec (sound : Sound list row) :
    (∃ id rank, Meets answer row id rank ∧ list.descend answer = .ok (.met id rank)) ∨
    (∃ front back turns, front ++ back = row ∧ list.descend answer = .ok (.landed turns) ∧
      Leaves answer list.height front back turns) := by
  rw [descend_eq answer sound]
  rcases rowDescend_cases answer sound.height_pos sound.positive with
    ⟨near, tower, far, split, equal, met⟩ | ⟨front, back, turns, split, landed, marks, passed, stopped⟩
  · rw [met]
    exact Or.inl ⟨tower.id, near.length + 1, ⟨near, tower, far, split, rfl, rfl, equal⟩, rfl⟩
  · rw [landed]
    exact Or.inr ⟨front, back, turns.map stand, split, rfl, marks.turns, passed, stopped⟩

/-- The gap that a descent leaves the row in, with the tower behind it. -/
theorem gap_of_landed (sound : Sound list row) {passes : Nat → α → Bool}
    {front back : List (Tower α)} {turns : List Stand} (split : front ++ back = row)
    (landed : list.descend (fun ahead _ stored => if passes ahead stored then .lt else .gt) =
      .ok (.landed turns))
    (marks : Turns list.height front turns) :
    list.gap passes = .ok ⟨turns, back.head?.map Tower.id⟩ := by
  have positive : ∀ tower ∈ front, 0 < tower.height := by
    intro tower member
    refine sound.positive tower ?_
    rw [← split]
    exact List.mem_append_left _ member
  obtain ⟨link, linked, next⟩ := sound.linkAt_zero split
  unfold gap
  rw [landed, Checked.ok_bind, Landing.turns, marks.place_eq sound.height_pos positive, linked,
    Checked.ok_bind, next]
  rfl

/-- **The gap behind the towers to be passed.** The last tower before the gap is to be passed and
the first one behind it is not; nothing more is known where the comparator is no order. -/
theorem gap_spec (sound : Sound list row) (passes : Nat → α → Bool) :
    ∃ front back turns, front ++ back = row ∧
      list.gap passes = .ok ⟨turns, back.head?.map Tower.id⟩ ∧
      Turns list.height front turns ∧
      (∀ others tower, front = others ++ [tower] →
        passes (others.length + 1) tower.value = true) ∧
      ∀ tower others, back = tower :: others →
        passes (front.length + 1) tower.value = false := by
  rcases descend_spec (passOrTurn passes) sound with
    ⟨id, rank, meets, -⟩ | ⟨front, back, turns, split, landed, leaves⟩
  · obtain ⟨near, tower, far, -, -, -, answered⟩ := meets
    exact absurd answered passOrTurn_ne_eq
  · refine ⟨front, back, turns, split, gap_of_landed sound split landed leaves.turns, leaves.turns,
      fun others tower last => ?_, fun tower others first => ?_⟩
    · exact passOrTurn_eq_lt.mp (leaves.passed others tower last)
    · exact passOrTurn_eq_gt.mp (leaves.stopped tower others first)

end Walk

end OrderedCollections.SkipList
