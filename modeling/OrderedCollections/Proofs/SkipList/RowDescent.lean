/-
**Descents along a row.**

Which way a descent takes is told by the row of towers alone: by their heights, and by what is
answered about those it meets. Here the descent is made on the row, without keys or links; that the
links of a structure lead it the same way is said elsewhere. A descent that is not stopped leaves
the row in a gap: the last tower before it was to be passed, the first one behind it was not. Its
turn on a level is the last owner before the gap that takes part in the level, because a tower before
which the descent turned down is met again on every level below and answered the same.

* `rowWalk`, `rowDescend`: the walk along one level, and the descent through several.
* `rowDescend_map`: towers of the same heights that are answered the same are passed the same way.
* `Marks`: the turns of a descent that left the row in a gap.
* `rowWalk_spec`, `rowDescend_spec`, `rowDescend_cases`: where they end.
* `rowGap`, `rowFind`: the gap of a wanted element, and the first equal one met.
-/

import OrderedCollections.Proofs.SkipList.Levels

namespace OrderedCollections.SkipList

variable {α β : Type}

/-! ### The descent -/

/-- How a walk along a level of a row ends. -/
inductive RowStop (α : Type) where
  /-- At a tower, for good. -/
  | met (near : List (Tower α)) (tower : Tower α) (far : List (Tower α))
  /-- Behind the towers `near`. -/
  | turned (near far : List (Tower α))

/-- How a descent along a row ends. -/
inductive RowLanding (α : Type) where
  /-- At a tower. -/
  | met (near : List (Tower α)) (tower : Tower α) (far : List (Tower α))
  /-- Behind the towers `near`, after a turn on each level, the lowest first. -/
  | landed (near far : List (Tower α)) (turns : List (List (Tower α)))

/-- Walks along a level. The last owner that was passed stands behind `near`, and the towers
`skipped` behind it do not take part in the level. -/
def rowWalk (answer : Nat → NodeId → α → Ordering) (level : Nat) (near skipped : List (Tower α)) :
    List (Tower α) → RowStop α
  | [] => .turned near skipped
  | tower :: far =>
    if level < tower.height then
      match answer ((near ++ skipped).length + 1) tower.id tower.value with
      | .lt => rowWalk answer level (near ++ (skipped ++ [tower])) [] far
      | .eq => .met (near ++ skipped) tower far
      | .gt => .turned near (skipped ++ tower :: far)
    else rowWalk answer level near (skipped ++ [tower]) far

/-- Descends through the levels below `levels`. -/
def rowDescend (answer : Nat → NodeId → α → Ordering) :
    Nat → List (Tower α) → List (Tower α) → RowLanding α
  | 0, near, far => .landed near far []
  | level + 1, near, far =>
    match rowWalk answer level near [] far with
    | .met near tower far => .met near tower far
    | .turned turn far =>
      match rowDescend answer level turn far with
      | .met near tower far => .met near tower far
      | .landed near far lower => .landed near far (lower ++ [turn])

/-! ### Other towers of the same heights -/

/-- Where a walk ends, said of a row of other towers. -/
def RowStop.map (change : Tower α → Tower β) : RowStop α → RowStop β
  | met near tower far => .met (near.map change) (change tower) (far.map change)
  | turned near far => .turned (near.map change) (far.map change)

/-- Where a descent ends, said of a row of other towers. -/
def RowLanding.map (change : Tower α → Tower β) : RowLanding α → RowLanding β
  | met near tower far => .met (near.map change) (change tower) (far.map change)
  | landed near far turns =>
    .landed (near.map change) (far.map change) (turns.map (List.map change))

section Map

variable {change : Tower α → Tower β} {answer : Nat → NodeId → α → Ordering}
  {answer' : Nat → NodeId → β → Ordering}

/-- A walk passes towers of the same heights the same way if they are answered the same. -/
theorem rowWalk_map (heights : ∀ tower, (change tower).height = tower.height)
    (answers : ∀ rank tower, answer' rank (change tower).id (change tower).value =
      answer rank tower.id tower.value) (level : Nat) (near skipped far : List (Tower α)) :
    rowWalk answer' level (near.map change) (skipped.map change) (far.map change) =
      (rowWalk answer level near skipped far).map change := by
  induction far generalizing near skipped with
  | nil => rfl
  | cons tower far ih =>
    rw [List.map_cons, rowWalk, rowWalk, heights, ← List.map_append, List.length_map, answers]
    by_cases tall : level < tower.height
    · rw [if_pos tall, if_pos tall]
      cases answer ((near ++ skipped).length + 1) tower.id tower.value with
      | lt =>
        have whole : near.map change ++ (skipped.map change ++ [change tower]) =
            (near ++ (skipped ++ [tower])).map change := by simp
        show rowWalk answer' level (near.map change ++ (skipped.map change ++ [change tower])) []
          (far.map change) = _
        rw [whole]
        exact ih (near ++ (skipped ++ [tower])) []
      | eq => rfl
      | gt =>
        show RowStop.turned _ _ = RowStop.turned _ _
        rw [List.map_append, List.map_cons]
    · rw [if_neg tall, if_neg tall, ← ih near (skipped ++ [tower]), List.map_append]
      rfl

/-- **A descent passes towers of the same heights the same way** if they are answered the same. -/
theorem rowDescend_map (heights : ∀ tower, (change tower).height = tower.height)
    (answers : ∀ rank tower, answer' rank (change tower).id (change tower).value =
      answer rank tower.id tower.value) (levels : Nat) (near far : List (Tower α)) :
    rowDescend answer' levels (near.map change) (far.map change) =
      (rowDescend answer levels near far).map change := by
  induction levels generalizing near far with
  | zero => rfl
  | succ level ih =>
    have walked := rowWalk_map heights answers level near [] far
    rw [List.map_nil] at walked
    rw [rowDescend, rowDescend, walked]
    cases rowWalk answer level near [] far with
    | met near' tower far' => rfl
    | turned turn far' =>
      simp only [RowStop.map, ih turn far']
      cases rowDescend answer level turn far' with
      | met near' tower far'' => rfl
      | landed near' far'' lower =>
        simp only [RowLanding.map, List.map_append, List.map_cons, List.map_nil]

end Map

/-! ### What was answered on the way -/

section Answers

variable (answer : Nat → NodeId → α → Ordering)

/-- The last of some towers, if there is one, was to be passed. -/
def Passed (front : List (Tower α)) : Prop :=
  ∀ others tower, front = others ++ [tower] →
    answer (others.length + 1) tower.id tower.value = .lt

/-- Behind `rank` towers, the first one that takes part in a level is not to be passed. -/
def Turned (level rank : Nat) (back : List (Tower α)) : Prop :=
  ∀ skipped tower others, back = skipped ++ tower :: others →
    (∀ other ∈ skipped, other.height ≤ level) → level < tower.height →
    answer (rank + skipped.length + 1) tower.id tower.value = .gt

/-- A walk on a level that passed `more` stayed below every level on which the descent had turned
down before: none of these towers is on such a level, and it is turned down again behind them. -/
def Stays (level : Nat) (front more others : List (Tower α)) : Prop :=
  ∀ higher, level ≤ higher → Turned answer higher front.length (more ++ others) →
    (∀ tower ∈ more, tower.height ≤ higher) ∧ Turned answer higher (front ++ more).length others

variable {answer}

theorem passed_nil : Passed answer ([] : List (Tower α)) := by
  intro others tower split
  simp at split

theorem passed_concat {others : List (Tower α)} {tower : Tower α}
    (passes : answer (others.length + 1) tower.id tower.value = .lt) :
    Passed answer (others ++ [tower]) := by
  intro others' tower' split
  obtain rfl := List.append_inj_left' split rfl
  cases List.append_inj_right' split rfl
  exact passes

/-- A tower that is passed on a lower level is not one before which the descent turned down above:
it is not tall enough to have been met there. -/
theorem Turned.step {level higher rank : Nat} {skipped others : List (Tower α)} {tower : Tower α}
    (turned : Turned answer higher rank (skipped ++ tower :: others)) (above : level ≤ higher)
    (short : ∀ other ∈ skipped, other.height ≤ level)
    (passes : answer (rank + skipped.length + 1) tower.id tower.value = .lt) :
    (∀ other ∈ skipped ++ [tower], other.height ≤ higher) ∧
      Turned answer higher (rank + (skipped ++ [tower]).length) others := by
  have shortAbove : ∀ other ∈ skipped, other.height ≤ higher :=
    fun other member => Nat.le_trans (short other member) above
  have low : tower.height ≤ higher := by
    refine Nat.le_of_not_lt fun tall => ?_
    have stops := turned skipped tower others rfl shortAbove tall
    rw [passes] at stops
    cases stops
  have shortBoth : ∀ other ∈ skipped ++ [tower], other.height ≤ higher := by
    intro other member
    rcases List.mem_append.mp member with before | last
    · exact shortAbove other before
    · rw [List.mem_singleton.mp last]
      exact low
  refine ⟨shortBoth, fun skipped' next others' split short' tall => ?_⟩
  have stops := turned (skipped ++ [tower] ++ skipped') next others'
    (by rw [split]; simp) (fun other member => ?_) tall
  · rw [List.length_append, ← Nat.add_assoc] at stops
    exact stops
  · rcases List.mem_append.mp member with before | behind
    · exact shortBoth other before
    · exact short' other behind

theorem stays_nil (level : Nat) (front others : List (Tower α)) :
    Stays answer level front [] others := by
  intro higher _ turned
  rw [List.append_nil]
  exact ⟨List.forall_mem_nil _, turned⟩

/-- A tower that is passed, and those below the level before it. -/
theorem stays_of_passed {level : Nat} {front skipped others : List (Tower α)} {tower : Tower α}
    (short : ∀ other ∈ skipped, other.height ≤ level)
    (passes : answer ((front ++ skipped).length + 1) tower.id tower.value = .lt) :
    Stays answer level front (skipped ++ [tower]) others := by
  intro higher above turned
  rw [List.append_assoc, List.singleton_append] at turned
  rw [List.length_append] at passes ⊢
  exact turned.step above short passes

/-- One walk after the other, perhaps on a lower level. -/
theorem Stays.append {level level' : Nat} {front more more' others : List (Tower α)}
    (first : Stays answer level front more (more' ++ others))
    (second : Stays answer level' (front ++ more) more' others) (lower : level' ≤ level) :
    Stays answer level front (more ++ more') others := by
  intro higher above turned
  rw [List.append_assoc] at turned
  obtain ⟨low, turnedOn⟩ := first higher above turned
  obtain ⟨low', turnedLast⟩ := second higher (Nat.le_trans lower above) turnedOn
  rw [← List.append_assoc]
  exact ⟨List.forall_mem_append.mpr ⟨low, low'⟩, turnedLast⟩

end Answers

/-! ### Along one level -/

section Walk

variable (answer : Nat → NodeId → α → Ordering)

/-- A walk does not meet the towers below the level. -/
theorem rowWalk_of_short {level : Nat} {short : List (Tower α)}
    (low : ∀ tower ∈ short, tower.height ≤ level) (near skipped far : List (Tower α)) :
    rowWalk answer level near skipped (short ++ far) =
      rowWalk answer level near (skipped ++ short) far := by
  induction short generalizing skipped with
  | nil => rw [List.nil_append, List.append_nil]
  | cons tower others ih =>
    have flat : ¬level < tower.height := Nat.not_lt_of_le (low tower List.mem_cons_self)
    rw [List.cons_append, rowWalk, if_neg flat,
      ih (fun other member => low other (List.mem_cons_of_mem _ member)), List.append_assoc,
      List.singleton_append]

/-- How a walk that stood behind `near` comes to turn down behind `near ++ more`. -/
structure WalksTo (level : Nat) (near more far : List (Tower α)) : Prop where
  reaches : Reaches level near → Reaches level (near ++ more)
  passed : Passed answer near → Passed answer (near ++ more)
  turned : Turned answer level (near ++ more).length far
  stays : Stays answer level near more far

/-- **A walk along a level.** It stops at a tower ahead, or it passes some towers and turns down
where the next one on the level is not to be passed. -/
theorem rowWalk_spec (level : Nat) (near skipped far : List (Tower α))
    (short : ∀ tower ∈ skipped, tower.height ≤ level) :
    (∃ before tower behind, before ++ tower :: behind = near ++ (skipped ++ far) ∧
      answer (before.length + 1) tower.id tower.value = .eq ∧
      rowWalk answer level near skipped far = .met before tower behind) ∨
    (∃ more others, skipped ++ far = more ++ others ∧
      rowWalk answer level near skipped far = .turned (near ++ more) others ∧
      WalksTo answer level near more others) := by
  induction far generalizing near skipped with
  | nil =>
    refine Or.inr ⟨[], skipped, List.append_nil skipped, ?_, ?_⟩
    · rw [rowWalk, List.append_nil]
    · refine ⟨fun reaches => ?_, fun passed => ?_, ?_, stays_nil level near skipped⟩
      · rwa [List.append_nil]
      · rwa [List.append_nil]
      · rintro skipped' tower others rfl - tall
        exact absurd tall (Nat.not_lt_of_le (short tower (by simp)))
  | cons tower far ih =>
    rw [rowWalk]
    by_cases tall : level < tower.height
    · rw [if_pos tall]
      cases answered : answer ((near ++ skipped).length + 1) tower.id tower.value with
      | eq => exact Or.inl ⟨near ++ skipped, tower, far, List.append_assoc _ _ _, answered, rfl⟩
      | gt =>
        refine Or.inr ⟨[], skipped ++ tower :: far, rfl, ?_, ?_⟩
        · rw [List.append_nil]
        · refine ⟨fun reaches => ?_, fun passed => ?_, ?_, stays_nil level near _⟩
          · rwa [List.append_nil]
          · rwa [List.append_nil]
          · intro skipped' tower' others' same short' tall'
            obtain ⟨rfl, rfl, rfl⟩ := firstTall_unique same short tall short' tall'
            rw [List.append_nil, ← List.length_append]
            exact answered
      | lt =>
        have whole : near ++ (skipped ++ [tower]) = near ++ skipped ++ [tower] :=
          (List.append_assoc near skipped [tower]).symm
        rcases ih (near ++ (skipped ++ [tower])) [] (List.forall_mem_nil _) with
          ⟨before, met, behind, split, equal, done⟩ | ⟨more, others, split, done, walks⟩
        · refine Or.inl ⟨before, met, behind, ?_, equal, done⟩
          rw [split]
          simp
        · rw [List.nil_append] at split
          subst split
          have regroup : near ++ (skipped ++ [tower] ++ more) = near ++ (skipped ++ [tower]) ++ more :=
            (List.append_assoc near (skipped ++ [tower]) more).symm
          refine Or.inr ⟨skipped ++ [tower] ++ more, others, by simp, ?_, ?_⟩
          · rw [regroup]
            exact done
          · refine ⟨fun _ => ?_, fun _ => ?_, ?_,
              (stays_of_passed short answered).append walks.stays (Nat.le_refl level)⟩
            · rw [regroup]
              exact walks.reaches (whole ▸ reaches_concat.mpr tall)
            · rw [regroup]
              exact walks.passed (whole ▸ passed_concat answered)
            · rw [regroup]
              exact walks.turned
    · rw [if_neg tall]
      have shortBoth : ∀ other ∈ skipped ++ [tower], other.height ≤ level := by
        intro other member
        rcases List.mem_append.mp member with before | same
        · exact short other before
        · rw [List.mem_singleton.mp same]
          exact Nat.le_of_not_lt tall
      have place : skipped ++ tower :: far = skipped ++ [tower] ++ far := by simp
      rw [place]
      exact ih near (skipped ++ [tower]) shortBoth

end Walk

/-! ### Through the levels -/

/-- The turns of a descent that left the row behind `front`: on every level the last owner that
takes part in it. -/
structure Marks (levels : Nat) (front : List (Tower α)) (turns : List (List (Tower α))) : Prop where
  length_eq : turns.length = levels
  at_level : ∀ level < levels, ∃ near skipped, front = near ++ skipped ∧ Reaches level near ∧
    (∀ tower ∈ skipped, tower.height ≤ level) ∧ turns[level]? = some near

/-- The turn on a level above comes behind those on the levels below, if the descent passed no tower
of that level any more. -/
theorem Marks.concat {level : Nat} {front more : List (Tower α)} {turns : List (List (Tower α))}
    (marks : Marks level (front ++ more) turns) (reaches : Reaches level front)
    (low : ∀ tower ∈ more, tower.height ≤ level) :
    Marks (level + 1) (front ++ more) (turns ++ [front]) := by
  refine ⟨?_, fun level' below => ?_⟩
  · rw [List.length_append, marks.length_eq, List.length_singleton]
  · rcases Nat.lt_succ_iff_lt_or_eq.mp below with less | rfl
    · obtain ⟨near, skipped, cut, reach, short, turn⟩ := marks.at_level level' less
      refine ⟨near, skipped, cut, reach, short, ?_⟩
      rw [List.getElem?_append_left (by rw [marks.length_eq]; exact less)]
      exact turn
    · refine ⟨front, more, rfl, reaches, low, ?_⟩
      rw [← marks.length_eq, List.getElem?_concat_length]

/-- How a descent that stood behind `near` comes to leave the row behind `near ++ more`. -/
structure DescendsTo (answer : Nat → NodeId → α → Ordering) (levels : Nat)
    (near more far : List (Tower α)) (turns : List (List (Tower α))) : Prop where
  marks : Marks levels (near ++ more) turns
  passed : Passed answer (near ++ more)
  turned : ∀ level < levels, Turned answer level (near ++ more).length far
  stays : Stays answer levels near more far

/-- **A descent through the levels below `levels`.** It stops at a tower ahead, or it leaves the row
behind some towers, with its turns before them. -/
theorem rowDescend_spec (answer : Nat → NodeId → α → Ordering) (levels : Nat)
    (near far : List (Tower α)) (reaches : ∀ level < levels, Reaches level near)
    (passed : Passed answer near) :
    (∃ before tower behind, before ++ tower :: behind = near ++ far ∧
      answer (before.length + 1) tower.id tower.value = .eq ∧
      rowDescend answer levels near far = .met before tower behind) ∨
    (∃ more others turns, far = more ++ others ∧
      rowDescend answer levels near far = .landed (near ++ more) others turns ∧
      DescendsTo answer levels near more others turns) := by
  induction levels generalizing near far with
  | zero =>
    refine Or.inr ⟨[], far, [], rfl, ?_, ⟨rfl, by simp⟩, ?_, by simp, stays_nil 0 near far⟩
    · rw [rowDescend, List.append_nil]
    · rwa [List.append_nil]
  | succ level ih =>
    rw [rowDescend]
    rcases rowWalk_spec answer level near [] far (List.forall_mem_nil _) with
      ⟨before, tower, behind, split, equal, met⟩ | ⟨along, others, split, walked, walks⟩
    · rw [met]
      exact Or.inl ⟨before, tower, behind, split, equal, rfl⟩
    · rw [List.nil_append] at split
      subst split
      have reachesTurn := walks.reaches (reaches level (Nat.lt_succ_self level))
      have lower : ∀ below < level, Reaches below (near ++ along) :=
        fun below less tower member => Nat.lt_trans less (reachesTurn tower member)
      rcases ih (near ++ along) others lower (walks.passed passed) with
        ⟨before, tower, behind, split, equal, met⟩ | ⟨down, rest, turns, rfl, landed, descends⟩
      · refine Or.inl ⟨before, tower, behind, ?_, equal, ?_⟩
        · rw [split, List.append_assoc]
        · simp only [walked, met]
      · obtain ⟨low, turnedEnd⟩ := descends.stays level (Nat.le_refl level) walks.turned
        have marks := descends.marks.concat reachesTurn low
        have passedEnd := descends.passed
        have turnedBelow := descends.turned
        rw [List.append_assoc near] at marks passedEnd turnedBelow turnedEnd
        refine Or.inr ⟨along ++ down, rest, turns ++ [near ++ along],
          (List.append_assoc _ _ _).symm, ?_, marks, passedEnd, fun level' below => ?_,
          fun higher above => ?_⟩
        · simp only [walked, landed, List.append_assoc]
        · rcases Nat.lt_succ_iff_lt_or_eq.mp below with less | rfl
          · exact turnedBelow level' less
          · exact turnedEnd
        · exact walks.stays.append descends.stays (Nat.le_refl level) higher
            (Nat.le_of_succ_le above)

/-- Where every tower is on the lowest level, the lowest turn is at the gap. -/
theorem Marks.head_eq {levels : Nat} {front : List (Tower α)} {turns : List (List (Tower α))}
    (marks : Marks levels front turns) (used : 0 < levels)
    (positive : ∀ tower ∈ front, 0 < tower.height) : turns.head? = some front := by
  obtain ⟨near, skipped, rfl, -, short, turn⟩ := marks.at_level 0 used
  have none : skipped = [] := by
    refine List.eq_nil_iff_forall_not_mem.mpr fun tower member => ?_
    have tall := positive tower (List.mem_append_right _ member)
    have flat := short tower member
    omega
  rw [none, List.append_nil, List.head?_eq_getElem?, turn]

/-- **A descent from the header of a whole row.** It stops at a tower about which it was answered so,
or it leaves the row in a gap. -/
theorem rowDescend_cases (answer : Nat → NodeId → α → Ordering) {levels : Nat} (used : 0 < levels)
    {row : List (Tower α)} (positive : ∀ tower ∈ row, 0 < tower.height) :
    (∃ near tower far, near ++ tower :: far = row ∧
      answer (near.length + 1) tower.id tower.value = .eq ∧
      rowDescend answer levels [] row = .met near tower far) ∨
    (∃ front back turns, front ++ back = row ∧
      rowDescend answer levels [] row = .landed front back turns ∧ Marks levels front turns ∧
      Passed answer front ∧ ∀ tower others, back = tower :: others →
        answer (front.length + 1) tower.id tower.value = .gt) := by
  rcases rowDescend_spec answer levels [] row (fun level _ => reaches_nil level) passed_nil with
    met | ⟨more, others, turns, split, landed, descends⟩
  · exact Or.inl met
  · rw [List.nil_append] at landed
    have marks := descends.marks
    have passed := descends.passed
    have turned := descends.turned
    rw [List.nil_append] at marks passed turned
    refine Or.inr ⟨more, others, turns, split.symm, landed, marks, passed, ?_⟩
    rintro tower rest rfl
    refine turned 0 used [] tower rest rfl (List.forall_mem_nil _) ?_
    exact positive tower (by rw [split]; simp)

/-! ### The gap of an element, and the first equal one met -/

/-- What is answered on the way to the gap of a wanted element, where `ask` tells how a stored
element stands to it. -/
def belowOrNot (ask : α → Ordering) (_rank : Nat) (_id : NodeId) (stored : α) : Ordering :=
  if ask stored = .lt then .lt else .gt

/-- Where a descent to the gap of a wanted element leaves the row. -/
def rowGap (ask : α → Ordering) (levels : Nat) (row : List (Tower α)) :
    List (Tower α) × List (Tower α) :=
  match rowDescend (belowOrNot ask) levels [] row with
  | .landed front back _ => (front, back)
  | .met near tower far => (near, tower :: far)

/-- Where a search that stops at the first equal element met on the way down ends, if it stops. -/
def rowFind (ask : α → Ordering) (levels : Nat) (row : List (Tower α)) :
    Option (List (Tower α) × Tower α × List (Tower α)) :=
  match rowDescend (fun _ _ stored => ask stored) levels [] row with
  | .met near tower far => some (near, tower, far)
  | .landed _ _ _ => none

section Search

variable {ask : α → Ordering} {levels : Nat} {row : List (Tower α)}

/-- **The gap of an element**: the last tower before it is below the element, the first one behind it
is not. -/
theorem rowGap_spec (ask : α → Ordering) (used : 0 < levels)
    (positive : ∀ tower ∈ row, 0 < tower.height) :
    ∃ front back turns, front ++ back = row ∧ rowGap ask levels row = (front, back) ∧
      rowDescend (belowOrNot ask) levels [] row = .landed front back turns ∧
      Marks levels front turns ∧
      (∀ others tower, front = others ++ [tower] → ask tower.value = .lt) ∧
      ∀ tower others, back = tower :: others → ask tower.value ≠ .lt := by
  rcases rowDescend_cases (belowOrNot ask) used positive with
    ⟨near, tower, far, -, equal, -⟩ | ⟨front, back, turns, split, landed, marks, passed, stopped⟩
  · unfold belowOrNot at equal
    split at equal <;> cases equal
  · refine ⟨front, back, turns, split, ?_, landed, marks, fun others tower last => ?_,
      fun tower others first below => ?_⟩
    · unfold rowGap
      rw [landed]
    · have answered := passed others tower last
      unfold belowOrNot at answered
      by_contra notBelow
      rw [if_neg notBelow] at answered
      cases answered
    · have answered := stopped tower others first
      rw [belowOrNot, if_pos below] at answered
      cases answered

/-- **A search that stops at the first equal element met** does so at an equal one, or it leaves the
row in a gap behind which the first element is above the wanted one. -/
theorem rowFind_spec (ask : α → Ordering) (used : 0 < levels)
    (positive : ∀ tower ∈ row, 0 < tower.height) :
    (∃ near tower far, near ++ tower :: far = row ∧ ask tower.value = .eq ∧
      rowFind ask levels row = some (near, tower, far)) ∨
    (rowFind ask levels row = none ∧ ∃ front back, front ++ back = row ∧
      (∀ others tower, front = others ++ [tower] → ask tower.value = .lt) ∧
      ∀ tower others, back = tower :: others → ask tower.value = .gt) := by
  unfold rowFind
  rcases rowDescend_cases (fun _ _ stored => ask stored) used positive with
    ⟨near, tower, far, split, equal, met⟩ | ⟨front, back, turns, split, landed, -, passed, stopped⟩
  · rw [met]
    exact Or.inl ⟨near, tower, far, split, equal, rfl⟩
  · rw [landed]
    exact Or.inr ⟨rfl, front, back, split, passed, stopped⟩

variable {change : Tower α → Tower β} {ask' : β → Ordering}

/-- The gap does not depend on anything but the heights of the towers and what is answered. -/
theorem rowGap_map (heights : ∀ tower, (change tower).height = tower.height)
    (asks : ∀ tower, ask' (change tower).value = ask tower.value) :
    rowGap ask' levels (row.map change) =
      ((rowGap ask levels row).1.map change, (rowGap ask levels row).2.map change) := by
  have descended : rowDescend (belowOrNot ask') levels [] (row.map change) =
      (rowDescend (belowOrNot ask) levels [] row).map change :=
    rowDescend_map heights (fun _ tower => by unfold belowOrNot; rw [asks]) levels [] row
  unfold rowGap
  rw [descended]
  cases rowDescend (belowOrNot ask) levels [] row <;> rfl

/-- The first equal element met does not depend on anything but the heights of the towers and what is
answered. -/
theorem rowFind_map (heights : ∀ tower, (change tower).height = tower.height)
    (asks : ∀ tower, ask' (change tower).value = ask tower.value) :
    rowFind ask' levels (row.map change) = (rowFind ask levels row).map
      fun found => (found.1.map change, change found.2.1, found.2.2.map change) := by
  have descended : rowDescend (fun _ _ stored => ask' stored) levels [] (row.map change) =
      (rowDescend (fun _ _ stored => ask stored) levels [] row).map change :=
    rowDescend_map heights (fun _ tower => asks tower) levels [] row
  unfold rowFind
  rw [descended]
  cases rowDescend (fun _ _ stored => ask stored) levels [] row <;> rfl

end Search

end OrderedCollections.SkipList
