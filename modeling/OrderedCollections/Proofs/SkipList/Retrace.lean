/-
**A descent that is made again.**

A descent knows nothing of what stands behind the gap in which it leaves the row, but that it is
turned down there on every level. So a tower that comes into the gap and is to be turned down itself
does not lead the descent astray: made again, it comes to the same gap, and the new tower is the first
behind it. This needs no order. What is answered about the towers on the way may contradict itself, as
long as it is the same the second time.

* `rowWalk_of_turned`: a walk that is turned down at once.
* `rowWalk_behind`, `rowDescend_behind`: what stands behind a turn, and behind a gap.
* `rowGap_of_le`: levels that no tower reaches do not matter.
* `rowGap_insert`: the gap of an element once there is a tower in it.
-/

import OrderedCollections.Proofs.SkipList.RowDescent

namespace OrderedCollections.SkipList

variable {α : Type}

section Answers

variable {answer : Nat → NodeId → α → Ordering} {level rank : Nat}

/-- Towers below the level stand before the first one that is turned down there. -/
theorem Turned.append_of_short {skipped back : List (Tower α)}
    (short : ∀ tower ∈ skipped, tower.height ≤ level)
    (turned : Turned answer level (rank + skipped.length) back) :
    Turned answer level rank (skipped ++ back) := by
  intro near tower others split shortNear tall
  rcases append_eq_insert_iff.mp split with ⟨middle, rfl, rfl⟩ | ⟨middle, rfl, -⟩
  · have stops := turned middle tower others rfl
      (fun other member => shortNear other (List.mem_append_right _ member)) tall
    rwa [Nat.add_assoc rank, ← List.length_append] at stops
  · exact absurd tall (Nat.not_lt_of_le (short tower (by simp)))

/-! ### Along one level -/

/-- A walk that is to turn down before the next tower on its level does so at once. -/
theorem rowWalk_of_turned {near far : List (Tower α)}
    (turned : Turned answer level near.length far) :
    rowWalk answer level near [] far = .turned near far := by
  rcases ahead_cases level far with short | ⟨skipped, tower, others, rfl, short, tall⟩
  · have passed := rowWalk_of_short answer short near [] []
    rwa [List.append_nil, List.nil_append] at passed
  · have stops := turned skipped tower others rfl short tall
    rw [rowWalk_of_short answer short, List.nil_append, rowWalk, if_pos tall, List.length_append,
      stops]

/-- **What stands behind the turn of a walk** matters only in that the walk is turned down there. -/
theorem rowWalk_behind {near skipped along turn others other : List (Tower α)}
    (short : ∀ tower ∈ skipped, tower.height ≤ level) (place : near ++ (skipped ++ along) = turn)
    (reaches : Reaches level turn)
    (walked : rowWalk answer level near skipped (along ++ others) = .turned turn others)
    (turned : Turned answer level turn.length other) :
    rowWalk answer level near skipped (along ++ other) = .turned turn other := by
  induction along generalizing near skipped with
  | nil =>
    subst place
    rw [List.append_nil] at reaches turned ⊢
    obtain rfl := eq_of_reaches short reaches
    rw [List.append_nil] at turned ⊢
    exact rowWalk_of_turned turned
  | cons tower along ih =>
    rw [List.cons_append, rowWalk] at walked ⊢
    by_cases tall : level < tower.height
    · rw [if_pos tall] at walked ⊢
      cases answered : answer ((near ++ skipped).length + 1) tower.id tower.value with
      | lt =>
        rw [answered] at walked
        exact ih (List.forall_mem_nil _) (by rw [← place]; simp) walked
      | eq =>
        rw [answered] at walked
        cases walked
      | gt =>
        rw [answered] at walked
        have stays := congrArg List.length ((RowStop.turned.inj walked).1.trans place.symm)
        simp only [List.length_append, List.length_cons] at stays
        omega
    · rw [if_neg tall] at walked ⊢
      refine ih (List.forall_mem_append.mpr ⟨short, ?_⟩) (by rw [← place]; simp) walked
      simpa using Nat.le_of_not_lt tall

/-! ### Through the levels -/

/-- **What stands behind the gap in which a descent leaves the row** matters only in that the descent
is turned down there on every level. -/
theorem rowDescend_behind {levels : Nat} {near middle back other : List (Tower α)}
    {turns : List (List (Tower α))} (reaches : ∀ level < levels, Reaches level near)
    (passed : Passed answer near)
    (landed : rowDescend answer levels near (middle ++ back) = .landed (near ++ middle) back turns)
    (turned : ∀ level < levels, Turned answer level (near ++ middle).length other) :
    rowDescend answer levels near (middle ++ other) = .landed (near ++ middle) other turns := by
  induction levels generalizing near middle turns with
  | zero =>
    obtain ⟨none, -, rfl⟩ := RowLanding.landed.inj landed
    obtain rfl := List.self_eq_append_right.mp none
    rw [List.append_nil]
    rfl
  | succ level ih =>
    rw [rowDescend] at landed ⊢
    rcases rowWalk_spec answer level near [] (middle ++ back) (List.forall_mem_nil _) with
      ⟨_, _, _, -, -, met⟩ | ⟨along, others, split, walked, walks⟩
    · rw [met] at landed
      cases landed
    · have reachesTurn := walks.reaches (reaches level (Nat.lt_succ_self level))
      have lower : ∀ below < level, Reaches below (near ++ along) :=
        fun below less tower member => Nat.lt_trans less (reachesTurn tower member)
      simp only [walked] at landed
      rcases rowDescend_spec answer level (near ++ along) others lower (walks.passed passed) with
        ⟨_, _, _, -, -, met⟩ | ⟨down, rest, turns', rfl, landed', descends⟩
      · rw [met] at landed
        cases landed
      · rw [landed'] at landed
        obtain ⟨place, rfl, rfl⟩ := RowLanding.landed.inj landed
        rw [List.append_assoc] at place
        obtain rfl := List.append_cancel_left place
        rw [← List.append_assoc near] at turned ⊢
        have low := (descends.stays level (Nat.le_refl level) walks.turned).1
        have turnedHere : Turned answer level (near ++ along).length (down ++ other) := by
          refine .append_of_short low ?_
          rw [← List.length_append]
          exact turned level (Nat.lt_succ_self level)
        have again : rowWalk answer level near [] (along ++ (down ++ other)) =
            .turned (near ++ along) (down ++ other) := by
          rw [List.append_assoc along] at walked
          exact rowWalk_behind (List.forall_mem_nil _) rfl reachesTurn walked turnedHere
        have below := ih lower (walks.passed passed) landed' fun below less =>
          turned below (Nat.lt_succ_of_lt less)
        rw [List.append_assoc along]
        simp only [again, below]

end Answers

/-! ### The gap of an element -/

section Gap

variable {ask : α → Ordering} {levels : Nat} {row front back : List (Tower α)} {tower : Tower α}

/-- A tower that is not below the wanted element turns down a descent to its gap, and the towers
behind it do so as they did before. -/
theorem Turned.cons_of_not_below {level rank : Nat} (stops : ask tower.value ≠ .lt)
    (turned : Turned (belowOrNot ask) level rank back) :
    Turned (belowOrNot ask) level rank (tower :: back) := by
  intro skipped other others split short tall
  cases skipped with
  | nil =>
    obtain ⟨rfl, rfl⟩ := List.cons.inj split
    exact if_neg stops
  | cons first skipped =>
    obtain ⟨rfl, rfl⟩ := List.cons.inj split
    exact turned skipped other others rfl
      (fun other member => short other (List.mem_cons_of_mem _ member)) tall

/-- A level that no tower reaches makes no difference to a gap. -/
theorem rowGap_succ (flat : ∀ tower ∈ row, tower.height ≤ levels) :
    rowGap ask (levels + 1) row = rowGap ask levels row := by
  have walked : rowWalk (belowOrNot ask) levels [] [] row = .turned [] row := by
    refine rowWalk_of_turned fun skipped tower others split _ tall => ?_
    exact absurd tall (Nat.not_lt_of_le (flat tower (by rw [split]; simp)))
  unfold rowGap
  simp only [rowDescend, walked]
  cases rowDescend (belowOrNot ask) levels [] row <;> rfl

theorem rowGap_of_le {more : Nat} (flat : ∀ tower ∈ row, tower.height ≤ levels)
    (higher : levels ≤ more) : rowGap ask more row = rowGap ask levels row := by
  induction higher with
  | refl => rfl
  | step higher ih =>
    rw [rowGap_succ fun tower member => Nat.le_trans (flat tower member) higher, ih]

/-- **The gap of an element once there is a tower in it** that is not below the element: it is the
same, and the tower is the first behind it. -/
theorem rowGap_insert (gap : rowGap ask levels (front ++ back) = (front, back))
    (stops : ask tower.value ≠ .lt) :
    rowGap ask levels (front ++ tower :: back) = (front, tower :: back) := by
  rcases rowDescend_spec (belowOrNot ask) levels [] (front ++ back) (fun level _ => reaches_nil level)
      passed_nil with
    ⟨before, met, behind, -, equal, -⟩ | ⟨more, others, turns, -, landed, descends⟩
  · unfold belowOrNot at equal
    split at equal <;> cases equal
  · unfold rowGap at gap ⊢
    rw [landed] at gap
    obtain ⟨rfl, rfl⟩ := Prod.mk.inj gap
    have again := rowDescend_behind (fun level _ => reaches_nil level) passed_nil landed
      fun level used => (descends.turned level used).cons_of_not_below stops
    rw [again]
    rfl

/-- The gap of an element on the levels that the rows need is the same with a tower in it and without
it. -/
theorem rowGap_insert_peak (gap : rowGap ask (peak (front ++ back)) (front ++ back) = (front, back))
    (stops : ask tower.value ≠ .lt) :
    rowGap ask (peak (front ++ tower :: back)) (front ++ tower :: back) =
      (front, tower :: back) := by
  refine rowGap_insert ?_ stops
  rw [rowGap_of_le (fun tower member => height_le_peak member) ?_, gap]
  rw [peak_insert]
  exact Nat.le_max_left _ _

end Gap

end OrderedCollections.SkipList
