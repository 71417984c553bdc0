/-
**What a descent records.**

A node that comes or goes changes one link on every level, and which one that is is what the descent
before has recorded. The turn on a level is the last owner on it before one and the same gap in the
row, even where the comparator is no order: a tower before which the descent turned down is met again
on every level below, and answered the same.

* `passed_of_landed`: every turn is at the header or behind a tower that was to be passed.
* `Recorded`: the turns of a descent, in terms of the links and positions there are.
* `Sound.gap_recorded`: what is recorded at the gap behind the towers to be passed.
* `WellLinked.gaps_recorded`: the gap of an element, and the gap before a position.
-/

import OrderedCollections.Proofs.SkipList.Descent
import OrderedCollections.Proofs.SkipList.RowOfLinks
import OrderedCollections.Proofs.SkipList.Run

namespace OrderedCollections.SkipList

/-! ### Along the row -/

section Row

variable {α : Type} {answer : Nat → NodeId → α → Ordering}

/-- **Every turn of a descent is where a tower was to be passed**, or where the descent began. -/
theorem passed_of_landed {levels : Nat} {near far front back : List (Tower α)}
    {turns : List (List (Tower α))} (passed : Passed answer near)
    (landed : rowDescend answer levels near far = .landed front back turns) :
    ∀ turn ∈ turns, Passed answer turn := by
  induction levels generalizing near far front back turns with
  | zero =>
    cases landed
    exact List.forall_mem_nil _
  | succ level ih =>
    rw [rowDescend] at landed
    rcases rowWalk_spec answer level near [] far (List.forall_mem_nil _) with
      ⟨before, tower, behind, -, -, met⟩ | ⟨along, others, -, walked, walks⟩
    · rw [met] at landed
      cases landed
    · rw [walked] at landed
      cases below : rowDescend answer level (near ++ along) others with
      | met before tower behind =>
        simp only [below] at landed
        cases landed
      | landed front' back' lower =>
        simp only [below] at landed
        cases landed
        have here := walks.passed passed
        exact List.forall_mem_append.mpr ⟨ih here below, List.forall_mem_singleton.mpr here⟩

/-- The turn on a lower level is no further back. -/
theorem length_le_of_reaches {low high : Nat} {near skipped near' skipped' : List (Tower α)}
    (below : low ≤ high) (cut : near' ++ skipped' = near ++ skipped)
    (short : ∀ tower ∈ skipped, tower.height ≤ low) (reaches : Reaches high near') :
    near'.length ≤ near.length := by
  rcases List.append_eq_append_iff.mp cut with ⟨more, rfl, -⟩ | ⟨more, rfl, rfl⟩
  · rw [List.length_append]
    exact Nat.le_add_right _ _
  · have none : more = [] := by
      refine eq_of_reaches (fun tower member => ?_) reaches
      exact Nat.le_trans (short tower (List.mem_append_left _ member)) below
    exact Nat.le_of_eq (by rw [none, List.append_nil])

end Row

/-! ### In terms of links and positions -/

variable {α ρ : Type} {σ : Type → Type} [NodeStore σ]

/-- **What a descent records**, where `passes` tells from its position and its element whether a node
is to be passed. -/
structure Recorded (list : SkipList α ρ σ) (row : List NodeId) (passes : Nat → α → Bool)
    (gap : Gap) : Prop where
  /-- There is a turn on every level in use. -/
  length_eq : gap.turns.length = list.height
  /-- The rank of a turn is the position of its owner. -/
  rank_eq : ∀ (level : Nat) (turn : Stand), gap.turns[level]? = some turn →
    position row turn.cursor = turn.rank
  /-- The owner of a turn is the header, or a node on the level that is to be passed. -/
  passed : ∀ (level : Nat) (turn : Stand), gap.turns[level]? = some turn → ∀ id ∈ turn.cursor.id?,
    id ∈ row ∧ level < list.heightOf id ∧
      ∃ node, list.node id = .ok node ∧ passes turn.rank node.value = true
  /-- Ranks do not decrease on the way down. -/
  monotone : ∀ (low high : Nat), low ≤ high → ∀ (turn above : Stand), gap.turns[low]? = some turn →
    gap.turns[high]? = some above → above.rank ≤ turn.rank
  /-- The node that the owner of a turn leads to, if there is one, is not to be passed, and it stands
  behind the gap. -/
  stopped : ∀ (level : Nat) (turn : Stand), gap.turns[level]? = some turn → ∃ link,
    list.linkAt level turn.cursor = .ok link ∧ ∀ id ∈ link.next,
      (place gap.turns).rank < position row (.node id) ∧
        ∃ node, list.node id = .ok node ∧ passes (position row (.node id)) node.value = false
  /-- The node behind the gap, in the row with the first node at zero. -/
  ahead_eq : gap.ahead = row[(place gap.turns).rank]?

/-- The node behind a gap is where the owner of the lowest turn leads to. -/
theorem ahead_of_gap {list : SkipList α ρ σ} {passes : Nat → α → Bool} {gap : Gap}
    (found : list.gap passes = .ok gap) :
    ∃ link, list.linkAt 0 (place gap.turns).cursor = .ok link ∧ gap.ahead = link.next := by
  unfold SkipList.gap at found
  obtain ⟨landing, -, rest⟩ := Checked.bind_eq_ok.mp found
  obtain ⟨link, held, done⟩ := Checked.bind_eq_ok.mp rest
  cases done
  exact ⟨link, held, rfl⟩

namespace Sound

variable {list : SkipList α ρ σ} {row : List (Tower α)}

theorem position_tower (sound : Sound list row) {front back : List (Tower α)} {tower : Tower α}
    (split : front ++ tower :: back = row) :
    position (row.map Tower.id) (.node tower.id) = front.length + 1 := by
  have cut : front ++ [tower] ++ back = row := by rw [← split]; simp
  have nodup := sound.nodup
  rw [← cut] at nodup ⊢
  rw [← owner_concat front, position_owner nodup, List.length_append, List.length_singleton]

section Turn

variable {passes : Nat → α → Bool} {level : Nat} {near skipped back : List (Tower α)}

/-- The owner of a turn, if it is a tower, is on the level and was to be passed. -/
theorem owner_passed (sound : Sound list row) (split : near ++ back = row)
    (reaches : Reaches level near) (passed : Passed (passOrTurn passes) near) :
    ∀ id ∈ (owner near).id?, id ∈ row.map Tower.id ∧ level < list.heightOf id ∧
      ∃ node, list.node id = .ok node ∧ passes near.length node.value = true := by
  intro id isOwner
  rcases List.eq_nil_or_concat' near with rfl | ⟨others, tower, rfl⟩
  · cases isOwner
  · rw [owner_concat] at isOwner
    cases isOwner
    have whole : others ++ tower :: back = row := by rw [← split]; simp
    have member : tower ∈ row := by rw [← whole]; simp
    obtain ⟨node, held, value, -⟩ := sound.node_eq whole
    refine ⟨List.mem_map_of_mem member, ?_, node, held, ?_⟩
    · rw [sound.heightOf_eq member]
      exact reaches_concat.mp reaches
    · rw [value, List.length_append, List.length_singleton]
      exact passOrTurn_eq_lt.mp (passed others tower rfl)

/-- The tower that the owner of a turn leads to, if there is one, stands behind the gap and is not to
be passed. -/
theorem next_stopped (sound : Sound list row) (used : level < list.height)
    (split : near ++ (skipped ++ back) = row) (reaches : Reaches level near)
    (short : ∀ tower ∈ skipped, tower.height ≤ level)
    (turned : Turned (passOrTurn passes) level (near ++ skipped).length back) :
    ∃ link, list.linkAt level (owner near) = .ok link ∧ ∀ id ∈ link.next,
      (near ++ skipped).length < position (row.map Tower.id) (.node id) ∧
        ∃ node, list.node id = .ok node ∧
          passes (position (row.map Tower.id) (.node id)) node.value = false := by
  refine ⟨_, sound.laid level used near (skipped ++ back) split reaches, fun id leads => ?_⟩
  rw [ahead_append_of_short short] at leads
  rcases ahead_cases level back with allShort | ⟨flat, tower, others, rfl, shortFlat, tall⟩
  · rw [ahead_of_short allShort] at leads
    cases leads
  · rw [ahead_append_cons shortFlat tall] at leads
    cases leads
    have behind : (near ++ skipped ++ flat) ++ tower :: others = row := by rw [← split]; simp
    obtain ⟨node, held, value, -⟩ := sound.node_eq behind
    have further : (near ++ skipped ++ flat).length = (near ++ skipped).length + flat.length :=
      List.length_append
    rw [sound.position_tower behind, further]
    refine ⟨by omega, node, held, ?_⟩
    rw [value]
    exact passOrTurn_eq_gt.mp (turned flat tower others rfl shortFlat tall)

end Turn

/-- **What is recorded at the gap behind the towers to be passed.** -/
theorem gap_recorded (sound : Sound list row) (passes : Nat → α → Bool) :
    ∃ gap, list.gap passes = .ok gap ∧ Recorded list (row.map Tower.id) passes gap := by
  have descended := descend_eq (passOrTurn passes) sound
  rcases rowDescend_spec (passOrTurn passes) list.height [] row (fun level _ => reaches_nil level)
    passed_nil with ⟨before, tower, behind, -, equal, -⟩ | ⟨front, back, marks, split, landed, descends⟩
  · exact absurd equal passOrTurn_ne_eq
  rw [landed] at descended
  have allPassed := passed_of_landed passed_nil landed
  obtain ⟨atLevel, -, turned, -⟩ := descends
  rw [List.nil_append] at atLevel turned
  have turns := atLevel.turns
  have lowest : place (marks.map stand) = ⟨owner front, front.length⟩ :=
    turns.place_eq sound.height_pos fun tower member =>
      sound.positive tower (by rw [split]; exact List.mem_append_left _ member)
  have onLevel : ∀ level turn, (marks.map stand)[level]? = some turn → level < list.height ∧
      ∃ near skipped, turn = stand near ∧ front = near ++ skipped ∧
        near ++ (skipped ++ back) = row ∧ Reaches level near ∧ Passed (passOrTurn passes) near ∧
        ∀ tower ∈ skipped, tower.height ≤ level := by
    intro level turn found
    have used : level < list.height := by
      rw [← turns.length_eq]
      exact (List.getElem?_eq_some_iff.mp found).1
    obtain ⟨near, skipped, cut, reaches, short, mark⟩ := atLevel.at_level level used
    rw [List.getElem?_map, mark] at found
    exact ⟨used, near, skipped, (Option.some.inj found).symm, cut,
      by rw [split, cut, List.append_assoc], reaches, allPassed near (List.mem_of_getElem? mark), short⟩
  refine ⟨⟨marks.map stand, back.head?.map Tower.id⟩,
    gap_of_landed sound split.symm descended turns,
    { length_eq := turns.length_eq
      rank_eq := fun level turn found => ?_
      passed := fun level turn found => ?_
      monotone := fun low high below turn above found found' => ?_
      stopped := fun level turn found => ?_
      ahead_eq := ?_ }⟩
  · obtain ⟨-, near, skipped, rfl, -, whole, -⟩ := onLevel level turn found
    rw [← whole]
    exact position_owner (whole ▸ sound.nodup)
  · obtain ⟨-, near, skipped, rfl, -, whole, reaches, passed, -⟩ := onLevel level turn found
    exact sound.owner_passed whole reaches passed
  · obtain ⟨-, near, skipped, rfl, rfl, -, -, -, short⟩ := onLevel low turn found
    obtain ⟨-, near', skipped', rfl, cut, -, reaches, -, -⟩ := onLevel high above found'
    exact length_le_of_reaches below cut.symm short reaches
  · obtain ⟨used, near, skipped, rfl, rfl, whole, reaches, -, short⟩ := onLevel level turn found
    rw [lowest]
    exact sound.next_stopped used whole reaches short (turned level used)
  · rw [lowest, split, List.map_append,
      List.getElem?_append_right (by simp), List.length_map, Nat.sub_self,
      ← List.head?_eq_getElem?, List.head?_map]

end Sound

section Heights

variable (list : SkipList α ρ σ) (heights : HeightGenerator ρ)

theorem walk_withHeights (answer : Nat → NodeId → α → Ordering) (level rounds : Nat)
    (stand : Stand) : walk { list with heights := heights } answer level rounds stand =
      list.walk answer level rounds stand := by
  induction rounds generalizing stand with
  | zero => rfl
  | succ rounds ih =>
    unfold walk
    simp only [ih]
    rfl

theorem descendFrom_withHeights (answer : Nat → NodeId → α → Ordering) (levels : Nat)
    (stand : Stand) : descendFrom { list with heights := heights } answer levels stand =
      list.descendFrom answer levels stand := by
  induction levels generalizing stand with
  | zero => rfl
  | succ levels ih =>
    unfold descendFrom
    simp only [walk_withHeights, ih]

/-- Where heights come from makes no difference to the gap of a descent. -/
theorem gap_withHeights (passes : Nat → α → Bool) :
    gap { list with heights := heights } passes = list.gap passes := by
  unfold gap descend
  simp only [descendFrom_withHeights]
  rfl

end Heights

namespace WellLinked

variable {list : SkipList α ρ σ} {row : List NodeId}

/-- A descent to a gap of a well-linked list records what it should. -/
theorem exists_recorded (linked : WellLinked list row) (passes : Nat → α → Bool) :
    ∃ gap, list.gap passes = .ok gap ∧ Recorded list row passes gap := by
  obtain ⟨towers, rfl, sound⟩ := linked.exists_sound
    { list.heights with maxHeight := list.height } (Nat.le_refl _) linked.height_le_heightLimit
  obtain ⟨gap, found, recorded⟩ := sound.gap_recorded passes
  rw [gap_withHeights] at found
  exact ⟨gap, found, recorded.length_eq, recorded.rank_eq, recorded.passed, recorded.monotone,
    recorded.stopped, recorded.ahead_eq⟩

/-- **The gap before a position** is behind all the nodes before it. -/
theorem place_rank (linked : WellLinked list row) {rank : Nat} (positive : 1 ≤ rank)
    (bounded : rank ≤ list.size) {gap : Gap}
    (found : list.gap (fun ahead _ => ahead < rank) = .ok gap)
    (recorded : Recorded list row (fun ahead _ => ahead < rank) gap) :
    (place gap.turns).rank + 1 = rank := by
  have isFirst : gap.turns[0]? = some (place gap.turns) := by
    rw [place, List.headD_eq_head?_getD, List.head?_eq_getElem?,
      List.getElem?_eq_getElem (recorded.length_eq ▸ linked.height_pos)]
    rfl
  have lower : (place gap.turns).rank < rank := by
    have start := recorded.rank_eq 0 _ isFirst
    have passed := recorded.passed 0 _ isFirst
    cases owner : (place gap.turns).cursor with
    | head =>
      rw [owner] at start
      exact start ▸ positive
    | node id =>
      rw [owner] at passed
      obtain ⟨-, -, node, -, below⟩ := passed id rfl
      exact of_decide_eq_true below
  have inside : (place gap.turns).rank < row.length := by
    rw [linked.length_eq]
    exact Nat.lt_of_lt_of_le lower bounded
  obtain ⟨link, held, ahead⟩ := ahead_of_gap found
  obtain ⟨link', held', stopped⟩ := recorded.stopped 0 _ isFirst
  rw [held, Except.ok.injEq] at held'
  rw [recorded.ahead_eq, List.getElem?_eq_getElem inside, held'] at ahead
  obtain ⟨-, node, -, notBelow⟩ := stopped _ ahead.symm
  rw [position, linked.nodup.idxOf_getElem _ inside] at notBelow
  have upper := of_decide_eq_false notBelow
  omega

/-- **What an insertion or a removal relies on** is recorded by the descent before it, in every
well-linked list and under any comparator: by the one to the gap of an element, and by the one to the
gap before a position. -/
theorem gaps_recorded (linked : WellLinked list row) :
    (∀ wanted, ∃ gap, list.gap (list.isBelow wanted) = .ok gap ∧
      Recorded list row (list.isBelow wanted) gap) ∧
    ∀ rank, 1 ≤ rank → rank ≤ list.size →
      ∃ gap, list.gap (fun ahead _ => ahead < rank) = .ok gap ∧
        Recorded list row (fun ahead _ => ahead < rank) gap ∧
        (place gap.turns).rank + 1 = rank := by
  refine ⟨fun wanted => linked.exists_recorded _, fun rank positive bounded => ?_⟩
  obtain ⟨gap, found, recorded⟩ := linked.exists_recorded fun ahead _ => ahead < rank
  exact ⟨gap, found, recorded, linked.place_rank positive bounded found recorded⟩

/-- Three numbers, each of which is below every other, in towers of different heights: the descent to
the gap of a number passes them all, the one to the gap before the third leaves two of them behind. -/
theorem gaps_recorded_constant :
    ∃ answers, ∃ list : SkipList Nat Script Slots, ∃ row, ∃ atEnd beforeThird,
      (withSource {} (Comparator.constant .lt) ⟨#[0, 18446744073709551615], by decide, 0⟩ :
          SkipList Nat Script Slots).run [.insert 3, .insert 1, .insert 2] = .ok (answers, list) ∧
        WellLinked list row ∧ list.size = 3 ∧
        list.gap (list.isBelow 2) = .ok atEnd ∧ Recorded list row (list.isBelow 2) atEnd ∧
        list.gap (fun ahead _ => ahead < 3) = .ok beforeThird ∧
        Recorded list row (fun ahead _ => ahead < 3) beforeThird ∧
        (place beforeThird.turns).rank = 2 := by
  obtain ⟨answers, list, row, ran, sound, -⟩ :=
    run_spec (sound_withSource (σ := Slots) {} (Comparator.constant .lt : Comparator Nat)
      (⟨#[0, 18446744073709551615], by decide, 0⟩ : Script)) [.insert 3, .insert 1, .insert 2]
  have size : list.size = 3 := by
    have counted : ((withSource {} (Comparator.constant .lt)
        ⟨#[0, 18446744073709551615], by decide, 0⟩ : SkipList Nat Script Slots).run
          [.insert 3, .insert 1, .insert 2]).map (fun ran => ran.2.size) = .ok 3 := by
      decide +kernel
    rw [ran] at counted
    exact Except.ok.inj counted
  obtain ⟨element, position⟩ := gaps_recorded sound.wellLinked
  obtain ⟨atEnd, found, recorded⟩ := element 2
  obtain ⟨beforeThird, found', recorded', rank⟩ := position 3 (by decide) (Nat.le_of_eq size.symm)
  exact ⟨answers, list, row.map Tower.id, atEnd, beforeThird, ran, sound.wellLinked, size, found,
    recorded, found', recorded', Nat.succ.inj rank⟩

end WellLinked

end OrderedCollections.SkipList
