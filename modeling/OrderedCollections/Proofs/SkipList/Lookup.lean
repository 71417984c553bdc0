/-
**Descents that keep no turns.**

Two questions make a descent of their own. Looking an element up counts no positions: it walks past
the towers below the element and ends where the descent to the gap of the element ends, on every list
whatsoever. Asking for a rank walks on as long as the rank is not exceeded, and is answered after the
first level on which the walk ends at the rank.

* `lowerBound_eq`: the tower at which looking up arrives is the one behind the gap.
* `passUpTo_spec`: a walk up to a rank.
* `nodeAtRank?_spec`: the tower of a rank.
-/

import OrderedCollections.Proofs.SkipList.Descent
import OrderedCollections.SkipList.Basic

namespace OrderedCollections.SkipList

variable {α ρ : Type} {σ : Type → Type} [NodeStore σ] {list : SkipList α ρ σ}

/-! ### The tower behind the gap of an element -/

/-- Walking past what is below an element and walking to its gap run into the same fault, or they
turn down at the same place. -/
theorem passBelow_cases (list : SkipList α ρ σ) (wanted : α) (level rounds : Nat) (stand : Stand) :
    (∃ fault, list.passBelow wanted level rounds stand.cursor = .error fault ∧
      list.walk (passOrTurn (list.isBelow wanted)) level rounds stand = .error fault) ∨
    ∃ turn, list.passBelow wanted level rounds stand.cursor = .ok turn.cursor ∧
      list.walk (passOrTurn (list.isBelow wanted)) level rounds stand = .ok (.turned turn) := by
  induction rounds generalizing stand with
  | zero => exact Or.inl ⟨.endless, rfl, rfl⟩
  | succ rounds ih =>
    unfold passBelow walk
    cases linked : list.linkAt level stand.cursor with
    | error fault => exact Or.inl ⟨fault, rfl, rfl⟩
    | ok link =>
      simp only [Checked.ok_bind]
      cases link.next with
      | none => exact Or.inr ⟨stand, rfl, rfl⟩
      | some next =>
        simp only
        cases fetched : list.node next with
        | error fault => exact Or.inl ⟨fault, rfl, rfl⟩
        | ok node =>
          simp only [Checked.ok_bind]
          by_cases below : list.cmp node.value wanted = .lt
          · have passes : passOrTurn (list.isBelow wanted) (stand.rank + link.span) next node.value =
                .lt := passOrTurn_eq_lt.mpr (beq_iff_eq.mpr below)
            rw [if_pos below, passes]
            exact ih ⟨.node next, stand.rank + link.span⟩
          · have turns : passOrTurn (list.isBelow wanted) (stand.rank + link.span) next node.value =
                .gt := passOrTurn_eq_gt.mpr (beq_eq_false_iff_ne.mpr below)
            rw [if_neg below, turns]
            exact Or.inr ⟨stand, rfl, rfl⟩

/-- Descending past what is below an element and descending to its gap run into the same fault, or
they end at the same place. -/
theorem descendBelow_cases (list : SkipList α ρ σ) (wanted : α) (levels : Nat) (stand : Stand) :
    (∃ fault, list.descendBelow wanted levels stand.cursor = .error fault ∧
      list.descendFrom (passOrTurn (list.isBelow wanted)) levels stand = .error fault) ∨
    ∃ turns, list.descendBelow wanted levels stand.cursor = .ok (turns.headD stand).cursor ∧
      list.descendFrom (passOrTurn (list.isBelow wanted)) levels stand = .ok (.landed turns) := by
  induction levels generalizing stand with
  | zero => exact Or.inr ⟨[], rfl, rfl⟩
  | succ level ih =>
    unfold descendBelow descendFrom
    rcases list.passBelow_cases wanted level (list.size + 1) stand with
      ⟨fault, passed, walked⟩ | ⟨turn, passed, walked⟩
    · exact Or.inl ⟨fault, by rw [passed]; rfl, by rw [walked]; rfl⟩
    · simp only [passed, walked, Checked.ok_bind]
      rcases ih turn with ⟨fault, lower, landed⟩ | ⟨turns, lower, landed⟩
      · exact Or.inl ⟨fault, lower, by rw [landed]; rfl⟩
      · refine Or.inr ⟨turns ++ [turn], ?_, by rw [landed]; rfl⟩
        rw [lower]
        cases turns <;> rfl

/-- **Looking an element up arrives at the tower behind its gap**, whatever the links of the list lead
to. -/
theorem lowerBound_eq (list : SkipList α ρ σ) (wanted : α) :
    list.lowerBound wanted = list.gap (list.isBelow wanted) >>= fun gap => pure gap.ahead := by
  have descended : list.gap (list.isBelow wanted) =
      list.descendFrom (passOrTurn (list.isBelow wanted)) list.height {} >>= fun landing =>
        list.linkAt 0 (place landing.turns).cursor >>= fun link =>
          pure ⟨landing.turns, link.next⟩ := rfl
  rw [descended, lowerBound]
  rcases list.descendBelow_cases wanted list.height {} with
    ⟨fault, lower, landed⟩ | ⟨turns, lower, landed⟩
  · rw [lower, landed]
    rfl
  · rw [lower, landed, Checked.ok_bind, Checked.ok_bind, bind_assoc]
    rfl

/-! ### The tower of a rank -/

section Rank

variable {rank level : Nat}

/-- A walk up to a rank turns down where one does that also reads the elements on the way. -/
theorem passUpTo_of_walk {rounds : Nat} {start turn : Stand}
    (walked : list.walk (passOrTurn fun ahead _ => ahead ≤ rank) level rounds start =
      .ok (.turned turn)) : list.passUpTo rank level rounds start = .ok turn := by
  induction rounds generalizing start with
  | zero => cases walked
  | succ rounds ih =>
    unfold walk at walked
    unfold passUpTo
    obtain ⟨link, linked, walked⟩ := Checked.bind_eq_ok.mp walked
    rw [linked, Checked.ok_bind]
    cases next : link.next with
    | none =>
      rw [next] at walked
      cases walked
      rfl
    | some id =>
      simp only [next] at walked ⊢
      obtain ⟨node, -, walked⟩ := Checked.bind_eq_ok.mp walked
      by_cases within : start.rank + link.span ≤ rank
      · rw [passOrTurn_eq_lt.mpr (decide_eq_true within)] at walked
        rw [if_pos within]
        exact ih walked
      · rw [passOrTurn_eq_gt.mpr (decide_eq_false within)] at walked
        cases walked
        rw [if_neg within]
        rfl

variable {row near far front back : List (Tower α)} {tower : Tower α}

/-- **A walk up to a rank** does not exceed it, and the next tower on the level would. -/
theorem passUpTo_spec (sound : Sound list row) (used : level < list.height)
    (split : front ++ back = row) (reaches : Reaches level front) (before : front.length ≤ rank) :
    ∃ along others, back = along ++ others ∧ Reaches level (front ++ along) ∧
      list.passUpTo rank level (list.size + 1) (stand front) = .ok (stand (front ++ along)) ∧
      (front ++ along).length ≤ rank ∧
      ∀ next rest, others = next :: rest → level < next.height → rank ≤ (front ++ along).length := by
  have enough : back.length < list.size + 1 := by
    rw [sound.size_eq, ← split, List.length_append]
    omega
  have walked := walk_eq (passOrTurn fun ahead _ => ahead ≤ rank) sound.toHoused
    (sound.laid level used) (list.size + 1) front back split reaches enough
  rcases rowWalk_spec (passOrTurn fun ahead _ => ahead ≤ rank) level front [] back
    (List.forall_mem_nil _) with ⟨_, _, _, -, answered, -⟩ | ⟨along, others, same, turned, walks⟩
  · exact absurd answered passOrTurn_ne_eq
  · rw [turned] at walked
    have passedFront : Passed (passOrTurn fun ahead _ => ahead ≤ rank) front := by
      rintro earlier last rfl
      rw [List.length_append, List.length_singleton] at before
      exact passOrTurn_eq_lt.mpr (decide_eq_true before)
    have passed := walks.passed passedFront
    refine ⟨along, others, same, walks.reaches reaches, passUpTo_of_walk walked, ?_,
      fun next rest first tall => ?_⟩
    · rcases List.eq_nil_or_concat' (front ++ along) with none | ⟨earlier, last, some⟩
      · rw [none]
        exact Nat.zero_le rank
      · rw [some, List.length_append, List.length_singleton]
        exact of_decide_eq_true (passOrTurn_eq_lt.mp (passed earlier last some))
    · have stops := walks.turned [] next rest first (List.forall_mem_nil _) tall
      have beyond := of_decide_eq_false (passOrTurn_eq_gt.mp stops)
      exact Nat.le_of_lt_succ (Nat.lt_of_not_le beyond)

/-- The descent to a rank ends at the tower of the rank, on the level where it gets there. -/
theorem descendUpTo_spec (sound : Sound list row) (place : near ++ tower :: far = row) (levels : Nat)
    (used : levels ≤ list.height) (positive : 0 < levels) (split : front ++ back = row)
    (reaches : ∀ level < levels, Reaches level front) (before : front.length ≤ near.length) :
    list.descendUpTo (near.length + 1) levels (stand front) = .ok (some tower.id) := by
  induction levels generalizing front back with
  | zero => exact absurd positive (Nat.lt_irrefl 0)
  | succ level ih =>
    obtain ⟨along, others, rfl, reachesTurn, passed, within, beyond⟩ :=
      passUpTo_spec sound used split (reaches level (Nat.lt_succ_self level)) (Nat.le_succ_of_le before)
    rw [← List.append_assoc] at split
    rw [descendUpTo, passed, Checked.ok_bind, Stand.tower?]
    by_cases reached : (front ++ along).length = near.length + 1
    · have cut : front ++ along ++ others = near ++ [tower] ++ far := by
        rw [split, ← place, List.append_assoc, List.singleton_append]
      have length : (front ++ along).length = (near ++ [tower]).length := by
        rw [reached, List.length_append, List.length_singleton]
      rw [stand, if_pos reached, (List.append_inj cut length).1, owner_concat]
      rfl
    · rw [stand, if_neg reached]
      have later : (front ++ along).length ≤ near.length := by omega
      cases level with
      | succ lower =>
        exact ih (Nat.le_of_succ_le used) (Nat.succ_pos lower) split
          (fun below less other member => Nat.lt_trans less (reachesTurn other member)) later
      | zero =>
        cases others with
        | nil =>
          have whole := congrArg List.length (split.trans place.symm)
          simp only [List.length_append, List.length_cons, List.length_nil] at whole later
          omega
        | cons next rest =>
          have tall := sound.positive next (by rw [← split]; simp)
          exact absurd (Nat.lt_of_lt_of_le (beyond next rest rfl tall) later) (Nat.lt_irrefl _)

/-- **The tower of a rank** is found where there is one. -/
theorem nodeAtRank?_spec (sound : Sound list row) (rank : Nat) :
    (∃ front tower back, front ++ tower :: back = row ∧ rank = front.length + 1 ∧
      list.nodeAtRank? rank = .ok (some tower.id)) ∨
    ((rank = 0 ∨ row.length < rank) ∧ list.nodeAtRank? rank = .ok none) := by
  unfold nodeAtRank?
  rw [← sound.size_eq]
  by_cases outside : rank = 0 ∨ list.size < rank
  · rw [if_pos outside]
    exact Or.inr ⟨outside, rfl⟩
  · rw [if_neg outside]
    have inside : rank - 1 < row.length := by
      rw [← sound.size_eq]
      omega
    have place : row.take (rank - 1) ++ row[rank - 1] :: row.drop (rank - 1 + 1) = row := by
      rw [← List.drop_eq_getElem_cons, List.take_append_drop]
    have length : (row.take (rank - 1)).length + 1 = rank := by
      rw [List.length_take, Nat.min_eq_left (Nat.le_of_lt inside)]
      omega
    refine Or.inl ⟨_, _, _, place, length.symm, ?_⟩
    have found := descendUpTo_spec sound place list.height (Nat.le_refl _) sound.height_pos
      (List.nil_append row) (fun level _ => reaches_nil level) (Nat.zero_le _)
    rwa [length] at found

end Rank

end OrderedCollections.SkipList
