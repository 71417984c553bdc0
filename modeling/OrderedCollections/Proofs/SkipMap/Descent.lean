/-
**Where a descent through a map ends.**

On a sound map a descent never runs into a fault, whatever it answers about the keys it meets: the
links lead it as the row would.

* `walk_eq`: a walk along one level goes as it would along the row.
* `descend_eq`: a descent through all levels goes as it would along the row.
* `gap_spec`, `find?_spec`: the gap of a wanted key, and the first equal one met.
* `TurnsAt`: the last owner before a gap that takes part in a level.
-/

import OrderedCollections.Proofs.SkipList.RowDescent
import OrderedCollections.Proofs.SkipMap.Sound
import OrderedCollections.SkipMap.Basic

namespace OrderedCollections.SkipMap

open SkipList

variable {κ ν ρ : Type} {σ : Type → Type} [NodeStore σ]

/-- The end of a walk along a row, as a map tells it. -/
def Stop.ofRow : RowStop (κ × ν) → Stop
  | .met _ tower _ => .met tower.id
  | .turned near _ => .turned (owner near)

/-- The end of a descent along a row, as a map tells it. -/
def Landing.ofRow : RowLanding (κ × ν) → Landing
  | .met _ tower _ => .met tower.id
  | .landed _ _ turns => .landed (turns.map owner)

/-- What is answered about the towers of a row where the keys are asked about. -/
def askKey (answer : κ → Ordering) (_rank : Nat) (_id : NodeId) (stored : κ × ν) : Ordering :=
  answer stored.1

section Walk

variable {map : SkipMap κ ν ρ σ} {row : List (Tower (κ × ν))} (answer : κ → Ordering)

/-! ### Along one level -/

theorem walk_end {level : Nat} (laid : LaidIn Link.next (map.forwardAt level) level row)
    {front back : List (Tower (κ × ν))} (split : front ++ back = row) (reaches : Reaches level front)
    (short : ∀ tower ∈ back, tower.height ≤ level) (rounds : Nat) :
    map.walk answer level (rounds + 1) (owner front) = .ok (.turned (owner front)) := by
  unfold walk
  rw [laid front back split reaches, ahead_of_short short]
  rfl

/-- One round of a walk asks about the first tower ahead that takes part in the level. -/
theorem walk_round (sound : Sound map row) {level : Nat} (inside : level < heightLimit)
    {front skipped others : List (Tower (κ × ν))} {tower : Tower (κ × ν)}
    (split : front ++ (skipped ++ tower :: others) = row) (reaches : Reaches level front)
    (short : ∀ other ∈ skipped, other.height ≤ level) (tall : level < tower.height) (rounds : Nat) :
    map.walk answer level (rounds + 1) (owner front) =
      match answer tower.value.1 with
      | .lt => map.walk answer level rounds (owner (front ++ (skipped ++ [tower])))
      | .eq => .ok (.met tower.id)
      | .gt => .ok (.turned (owner front)) := by
  have linked := sound.laid level inside front (skipped ++ tower :: others) split reaches
  rw [ahead_append_cons short tall] at linked
  obtain ⟨node, -, fetched, entry, -⟩ := sound.node_eq (show tower ∈ row by rw [← split]; simp)
  have key : node.key = tower.value.1 := congrArg Prod.fst entry
  rw [← List.append_assoc, owner_concat, walk]
  cases answered : answer tower.value.1 <;>
    simp only [linked, fetched, Checked.ok_bind, key, answered, Checked.pure_eq_ok]

/-- **A walk along a level goes as it would along the row.** -/
theorem walk_eq (sound : Sound map row) {level : Nat} (inside : level < heightLimit) (rounds : Nat)
    (front back : List (Tower (κ × ν))) (split : front ++ back = row) (reaches : Reaches level front)
    (enough : back.length < rounds) :
    map.walk answer level rounds (owner front) =
      .ok (.ofRow (rowWalk (askKey answer) level front [] back)) := by
  induction rounds generalizing front back with
  | zero => omega
  | succ rounds ih =>
    rcases ahead_cases level back with short | ⟨skipped, tower, others, rfl, short, tall⟩
    · have passed := rowWalk_of_short (askKey answer) short front [] []
      rw [List.append_nil, List.nil_append] at passed
      rw [walk_end answer (sound.laid level inside) split reaches short, passed]
      rfl
    · have whole : front ++ (skipped ++ [tower]) = front ++ skipped ++ [tower] :=
        (List.append_assoc front skipped [tower]).symm
      have next : map.walk answer level rounds (owner (front ++ (skipped ++ [tower]))) =
          .ok (.ofRow (rowWalk (askKey answer) level (front ++ (skipped ++ [tower])) [] others)) := by
        refine ih _ others (by rw [← split]; simp) (whole ▸ reaches_concat.mpr tall) ?_
        simp only [List.length_append, List.length_cons] at enough
        omega
      rw [walk_round answer sound inside split reaches short tall, next,
        rowWalk_of_short (askKey answer) short front [] (tower :: others), List.nil_append, rowWalk,
        if_pos tall, askKey]
      cases answer tower.value.1 <;> rfl

/-! ### Through the levels -/

/-- **A descent through some levels goes as it would along the row.** -/
theorem descendFrom_eq (sound : Sound map row) (levels : Nat) (used : levels ≤ map.height)
    (front back : List (Tower (κ × ν))) (split : front ++ back = row)
    (reaches : ∀ level < levels, Reaches level front) :
    map.descendFrom answer levels (owner front) =
      .ok (.ofRow (rowDescend (askKey answer) levels front back)) := by
  induction levels generalizing front back with
  | zero => rfl
  | succ level ih =>
    have enough : back.length < map.size + 1 := by
      rw [sound.size_eq, ← split, List.length_append]
      omega
    have inside : level < heightLimit := Nat.lt_of_lt_of_le used sound.height_le
    have reachesHere := reaches level (Nat.lt_succ_self level)
    unfold descendFrom
    rw [walk_eq answer sound inside _ front back split reachesHere enough, Checked.ok_bind, rowDescend]
    rcases rowWalk_spec (askKey answer) level front [] back (List.forall_mem_nil _) with
      ⟨near, tower, far, -, -, met⟩ | ⟨along, others, rfl, walked, walks⟩
    · rw [met]
      rfl
    · have reachesTurn := walks.reaches reachesHere
      have lower : ∀ below < level, Reaches below (front ++ along) :=
        fun below less tower member => Nat.lt_trans less (reachesTurn tower member)
      have below := ih (Nat.le_of_succ_le used) (front ++ along) others
        (by rw [List.append_assoc, split]) lower
      simp only [walked, Stop.ofRow, below, Checked.ok_bind]
      cases rowDescend (askKey answer) level (front ++ along) others with
      | met near tower far => rfl
      | landed near far turns =>
        simp only [Landing.ofRow, Checked.pure_eq_ok, List.map_append, List.map_cons, List.map_nil]

/-- **A descent from the header goes as it would along the row.** -/
theorem descend_eq (sound : Sound map row) :
    map.descend answer = .ok (.ofRow (rowDescend (askKey answer) map.height [] row)) :=
  descendFrom_eq answer sound map.height (Nat.le_refl _) [] row (List.nil_append row)
    fun level _ => reaches_nil level

end Walk

/-! ### The turns before a gap -/

section Gap

variable {map : SkipMap κ ν ρ σ} {row : List (Tower (κ × ν))}

/-- The turn on a level before the gap behind `front`: the last owner that takes part in it. -/
def TurnsAt (front : List (Tower (κ × ν))) (level : Nat) (turn : Cursor) : Prop :=
  ∃ near skipped, front = near ++ skipped ∧ Reaches level near ∧
    (∀ tower ∈ skipped, tower.height ≤ level) ∧ turn = owner near

/-- The turns of a descent are the last owners that take part in the levels. -/
theorem turnsAt_of_marks {levels : Nat} {front : List (Tower (κ × ν))}
    {turns : List (List (Tower (κ × ν)))} (marks : Marks levels front turns) {level : Nat}
    {turn : Cursor} (here : (turns.map owner)[level]? = some turn) : TurnsAt front level turn := by
  have below : level < levels := by
    have found := (List.getElem?_eq_some_iff.mp here).1
    rwa [List.length_map, marks.length_eq] at found
  obtain ⟨near, skipped, cut, reaches, short, isTurn⟩ := marks.at_level level below
  rw [List.getElem?_map, isTurn] at here
  exact ⟨near, skipped, cut, reaches, short, (Option.some.inj here).symm⟩

/-- **The gap of a wanted key**, with the turns before it. It is the one that the row alone tells. -/
theorem gap_spec (sound : Sound map row) (wanted : κ) :
    ∃ front back turns, front ++ back = row ∧
      rowGap (fun stored => map.cmp stored.1 wanted) map.height row = (front, back) ∧
      map.gap wanted = .ok ⟨turns, back.head?.map Tower.id⟩ ∧ turns.length = map.height ∧
      (∀ level turn, turns[level]? = some turn → TurnsAt front level turn) ∧
      (∀ others tower, front = others ++ [tower] → map.cmp tower.value.1 wanted = .lt) ∧
      ∀ tower others, back = tower :: others → map.cmp tower.value.1 wanted ≠ .lt := by
  obtain ⟨front, back, turns, split, found, landed, marks, passed, stopped⟩ :=
    rowGap_spec (fun stored => map.cmp stored.1 wanted) sound.height_pos sound.positive
  have positive : ∀ tower ∈ front, 0 < tower.height := by
    intro tower member
    refine sound.positive tower ?_
    rw [← split]
    exact List.mem_append_left _ member
  have lowest : place (turns.map owner) = owner front := by
    rw [place, List.headD_eq_head?_getD, List.head?_map, marks.head_eq sound.height_pos positive]
    rfl
  refine ⟨front, back, turns.map owner, split, found, ?_, ?_, fun level turn => turnsAt_of_marks marks,
    passed, stopped⟩
  · have descended := descend_eq (fun stored => if map.cmp stored wanted = .lt then .lt else .gt) sound
    have landed' : rowDescend
        (askKey fun stored => if map.cmp stored wanted = .lt then .lt else .gt) map.height [] row =
          .landed front back turns := landed
    unfold gap
    rw [descended, landed', Landing.ofRow, Checked.ok_bind, Landing.turns, lowest,
      sound.forwardAt_zero split]
    rfl
  · rw [List.length_map, marks.length_eq]

/-- **A search for a key** stops at the first equal one met on the way down. -/
theorem find?_spec (sound : Sound map row) (wanted : κ) :
    map.find? wanted = .ok
      ((rowFind (fun stored => map.cmp stored.1 wanted) map.height row).map fun found =>
        found.2.1.id) := by
  have answers : askKey (fun stored => map.cmp stored wanted) =
      fun _ _ (stored : κ × ν) => map.cmp stored.1 wanted := rfl
  unfold find? rowFind
  rw [descend_eq _ sound, Checked.ok_bind, answers]
  cases rowDescend (fun _ _ (stored : κ × ν) => map.cmp stored.1 wanted) map.height [] row <;> rfl

end Gap

end OrderedCollections.SkipMap
