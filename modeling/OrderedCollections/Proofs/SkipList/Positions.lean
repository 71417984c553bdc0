/-
**Elements by position.**

The spans alone lead to the element of a rank: asking for it stops at the tower of that position on
whatever level meets it first, and taking it away turns down on every level before that position. No
comparison is made on the way, so nothing is asked of the comparator. The sums of spans that are
formed on the way are positions, and so are never larger than the number of elements; what a descent
would have answered about a larger sum makes no difference.

* `rowWalk_congr`, `rowDescend_congr`: a descent along a row asks about positions in the row only.
* `Travelled`: the stands that following links leads to.
* `SumsWithin`: no sum of spans is larger than the number of elements.
* `Sound.sumsWithin`: the sums of spans in a sound list.
* `Positional`: what a list answers to a rank, and what it leaves behind.
* `run_positions`: every list that a run ends with, asked for any rank.
-/

import OrderedCollections.Proofs.SkipList.Ranks
import OrderedCollections.Proofs.SkipList.Towers

namespace OrderedCollections.SkipList

/-! ### What a descent asks about -/

section Asked

variable {α : Type} {answer other : Nat → NodeId → α → Ordering} {most : Nat}

/-- A walk along a row asks about positions in the row only. -/
theorem rowWalk_congr
    (agree : ∀ rank ≤ most, ∀ id stored, other rank id stored = answer rank id stored)
    (level : Nat) (near skipped far : List (Tower α))
    (within : near.length + skipped.length + far.length ≤ most) :
    rowWalk other level near skipped far = rowWalk answer level near skipped far := by
  induction far generalizing near skipped with
  | nil => rfl
  | cons tower far ih =>
    rw [List.length_cons] at within
    have inside : (near ++ skipped).length + 1 ≤ most := by
      rw [List.length_append]
      omega
    have passed : rowWalk other level (near ++ (skipped ++ [tower])) [] far =
        rowWalk answer level (near ++ (skipped ++ [tower])) [] far := by
      refine ih _ [] ?_
      simp only [List.length_append, List.length_singleton, List.length_nil]
      omega
    have below : rowWalk other level near (skipped ++ [tower]) far =
        rowWalk answer level near (skipped ++ [tower]) far := by
      refine ih near _ ?_
      rw [List.length_append, List.length_singleton]
      omega
    rw [rowWalk, rowWalk, agree _ inside, passed, below]

/-- **A descent along a row asks about positions in the row only.** -/
theorem rowDescend_congr
    (agree : ∀ rank ≤ most, ∀ id stored, other rank id stored = answer rank id stored)
    (levels : Nat) (near far : List (Tower α)) (within : near.length + far.length ≤ most) :
    rowDescend other levels near far = rowDescend answer levels near far := by
  induction levels generalizing near far with
  | zero => rfl
  | succ level ih =>
    rw [rowDescend, rowDescend, rowWalk_congr agree level near [] far within]
    rcases rowWalk_spec answer level near [] far (List.forall_mem_nil _) with
      ⟨before, tower, behind, -, -, met⟩ | ⟨along, others, rfl, walked, -⟩
    · rw [met]
    · have rest : (near ++ along).length + others.length ≤ most := by
        simp only [List.length_append] at within ⊢
        omega
      simp only [walked, ih _ others rest]

end Asked

/-! ### Sums of spans -/

variable {α ρ : Type} {σ : Type → Type} [NodeStore σ]

/-- A stand that following links leads to, in whatever way: from the header on, along links of the
levels in use, with their spans added up. -/
inductive Travelled (list : SkipList α ρ σ) : Stand → Prop where
  | start : Travelled list {}
  | follow {stand : Stand} {level : Nat} {link : Link} {id : NodeId} (before : Travelled list stand)
      (used : level < list.height) (linked : list.linkAt level stand.cursor = .ok link)
      (leads : link.next = some id) : Travelled list ⟨.node id, stand.rank + link.span⟩

/-- **No sum of spans is larger than the number of elements**, neither those that a descent adds up
nor those of two links that are joined where a node goes away. So they need no more room than the
number of elements does. -/
structure SumsWithin (list : SkipList α ρ σ) (row : List NodeId) : Prop where
  /-- A walk up to a rank follows links and adds up their spans. -/
  upTo : ∀ rank, ∀ level < list.height, ∀ rounds start turn, Travelled list start →
    list.passUpTo rank level rounds start = .ok turn → Travelled list turn
  /-- What was added up so far is a position, and the next sum on any level is within bounds, whether
  the link is followed or not. -/
  travelled : ∀ stand, Travelled list stand → stand.rank = position row stand.cursor ∧
    ∀ level < list.height, ∀ link, list.linkAt level stand.cursor = .ok link →
      stand.rank + link.span ≤ list.size
  /-- What is answered about a larger sum does not matter to any descent: it is never asked. -/
  asked : ∀ answer other : Nat → NodeId → α → Ordering,
    (∀ sum ≤ list.size, ∀ id stored, other sum id stored = answer sum id stored) →
    list.descend other = list.descend answer
  /-- Where an owner stands and what its link passes, whether it is followed or not. -/
  ahead : ∀ level < list.height, ∀ owner link, (∀ id ∈ owner.id?, id ∈ row) →
    list.linkAt level owner = .ok link → position row owner + link.span ≤ list.size
  /-- Two links of a level, one behind the other. -/
  joined : ∀ level < list.height, ∀ owner link id beyond, (∀ id ∈ owner.id?, id ∈ row) →
    list.linkAt level owner = .ok link → link.next = some id →
    list.linkAt level (.node id) = .ok beyond → link.span + beyond.span ≤ list.size

theorem ahead_span_le (level : Nat) (back : List (Tower α)) :
    (ahead level back).span ≤ back.length := by
  rcases ahead_cases level back with short | ⟨skipped, tower, others, rfl, short, tall⟩
  · exact Nat.le_of_eq (congrArg Link.span (ahead_of_short short))
  · rw [ahead_append_cons short tall, List.length_append, List.length_cons]
    show skipped.length + 1 ≤ skipped.length + (others.length + 1)
    omega

section Sums

variable {list : SkipList α ρ σ} {row : List (Tower α)}

/-- A walk up to a rank leads from one stand that is travelled to another. -/
theorem Travelled.passUpTo {start turn : Stand} {rank level rounds : Nat}
    (travelled : Travelled list start) (used : level < list.height)
    (passed : list.passUpTo rank level rounds start = .ok turn) : Travelled list turn := by
  induction rounds generalizing start with
  | zero => cases passed
  | succ rounds ih =>
    unfold SkipList.passUpTo at passed
    obtain ⟨link, linked, passed⟩ := Checked.bind_eq_ok.mp passed
    cases leads : link.next with
    | none =>
      rw [leads] at passed
      cases passed
      exact travelled
    | some next =>
      simp only [leads] at passed
      split at passed
      · exact ih (travelled.follow used linked leads) passed
      · cases passed
        exact travelled

/-- In a sound list what was added up on the way to a stand is its position. -/
theorem Travelled.rank_eq {stand : Stand} (travelled : Travelled list stand)
    (sound : Sound list row) : stand.rank = position (row.map Tower.id) stand.cursor ∧
      ∀ id ∈ stand.cursor.id?, id ∈ row.map Tower.id := by
  induction travelled with
  | start => exact ⟨rfl, fun id none => by cases none⟩
  | @follow stand level link next before used linked leads ih =>
    obtain ⟨rank, inRow⟩ := ih
    refine ⟨?_, ?_⟩
    · rw [rank]
      exact sound.span_next used inRow linked leads
    · rintro id ⟨⟩
      obtain ⟨front, back, rfl, -, rfl⟩ := sound.ahead_of_linkAt used inRow linked
      rw [List.map_append]
      exact List.mem_append_right _ (mem_of_ahead_next leads)

theorem Sound.position_add_span_le (sound : Sound list row) {level : Nat}
    (used : level < list.height) {place : Cursor} {link : Link}
    (inRow : ∀ id ∈ place.id?, id ∈ row.map Tower.id) (linked : list.linkAt level place = .ok link) :
    position (row.map Tower.id) place + link.span ≤ list.size := by
  obtain ⟨front, back, rfl, start, rfl⟩ := sound.ahead_of_linkAt used inRow linked
  rw [start, sound.size_eq, List.length_append]
  exact Nat.add_le_add_left (ahead_span_le level back) _

/-- **The sums of spans in a sound list** are no larger than the number of its elements. -/
theorem Sound.sumsWithin (sound : Sound list row) : SumsWithin list (row.map Tower.id) := by
  refine ⟨fun rank level used rounds start turn travelled => travelled.passUpTo used,
    fun stand travelled => ?_, fun answer other agree => ?_,
    fun level used owner link => sound.position_add_span_le used,
    fun level used owner link id beyond inRow linked leads linkedBeyond => ?_⟩
  · obtain ⟨rank, inRow⟩ := travelled.rank_eq sound
    refine ⟨rank, fun level used link linked => ?_⟩
    rw [rank]
    exact sound.position_add_span_le used inRow linked
  · have within : ([] : List (Tower α)).length + row.length ≤ list.size := by
      rw [List.length_nil, Nat.zero_add]
      exact Nat.le_of_eq sound.size_eq.symm
    rw [descend_eq other sound, descend_eq answer sound,
      rowDescend_congr agree list.height [] row within]
  · have nextInRow : ∀ next ∈ (Cursor.node id).id?, next ∈ row.map Tower.id := by
      rintro next ⟨⟩
      obtain ⟨node, stored, -⟩ := owner_of_linkAt linkedBeyond
      exact (sound.wellLinked.live id).mp (by rw [stored]; rfl)
    have first := sound.span_next used inRow linked leads
    have second := sound.position_add_span_le used nextInRow linkedBeyond
    omega

end Sums

/-! ### What a rank leads to -/

/-- **What a list answers to a rank.** One that is a position leads to the element there; taking that
away leaves all others with their heights and links whose spans are exact. One that is no position
leads nowhere and changes nothing. -/
structure Positional [RandomSource ρ] (list : SkipList α ρ σ) (row : List (Tower α))
    (rank : Nat) : Prop where
  inside : 1 ≤ rank → rank ≤ list.size → ∃ front tower back, front ++ tower :: back = row ∧
    rank = front.length + 1 ∧ list.atRank? rank = .ok (some ⟨list, tower.id⟩) ∧
    (⟨list, tower.id⟩ : Entry α ρ σ).told = .ok (tower.value, rank) ∧
    ∃ after, list.removeRank rank = .ok (some tower.value, after) ∧
      StandsAs after (front ++ back) ∧ after.cmp = list.cmp ∧ after.heights = list.heights
  outside : rank = 0 ∨ list.size < rank →
    list.atRank? rank = .ok none ∧ list.removeRank rank = .ok (none, list)

section Run

variable [RandomSource ρ] [LawfulNodeStore σ]

/-- Asking a sound list for a rank leads to the tower at that position. -/
theorem Sound.positional {list : SkipList α ρ σ} {row : List (Tower α)} (sound : Sound list row)
    (rank : Nat) : Positional list row rank := by
  have length := sound.size_eq
  rcases removeRank_spec sound rank with
    ⟨front, tower, back, split, rfl, after, removed, cmp, heights, soundAfter⟩ | ⟨out, refused⟩
  · have whole : front.length + 1 ≤ row.length := by
      rw [← split, List.length_append, List.length_cons]
      omega
    refine ⟨fun _ _ => ⟨front, tower, back, split, rfl, ?_, ?_, after, removed, soundAfter.standsAs,
      cmp, heights⟩, fun out => absurd out (by omega)⟩
    · rcases atRank?_spec sound (front.length + 1) with
        ⟨near, other, far, split', same, placed⟩ | ⟨out, -⟩
      · obtain ⟨-, rest⟩ := List.append_inj (split.trans split'.symm) (Nat.succ.inj same)
        obtain ⟨rfl, -⟩ := List.cons.inj rest
        exact placed
      · omega
    · rw [told_spec sound split, List.length_map]
  · refine ⟨fun positive bounded => absurd out (by omega), fun _ => ⟨?_, refused⟩⟩
    rcases atRank?_spec sound rank with ⟨near, other, far, split, rfl, -⟩ | ⟨-, nowhere⟩
    · rw [← split, List.length_append, List.length_cons] at out
      omega
    · exact nowhere

/-- **Elements are had by position in every list that a run ends with**, whatever the comparator, the
options and the random source answer: a rank leads to the element at that position, which can be taken
away from among the others, and no other rank leads anywhere. -/
theorem run_positions (options : Options) (cmp : Comparator α) (source : ρ)
    (operations : List (Operation α)) :
    ∃ answers, ∃ list : SkipList α ρ σ, ∃ row,
      (withSource options cmp source : SkipList α ρ σ).run operations = .ok (answers, list) ∧
        StandsAs list row ∧ SumsWithin list (row.map Tower.id) ∧
        ∀ rank, Positional list row rank := by
  obtain ⟨answers, list, row, ran, sound, -, -⟩ := run_sound (σ := σ) options cmp source operations
  exact ⟨answers, list, row, ran, sound.standsAs, sound.sumsWithin, sound.positional⟩

end Run

/-- Three numbers, each of which is below every other: the second can be taken away by its rank, and
the largest machine word is no rank. -/
theorem run_positions_constant :
    ∃ answers, ∃ list after : SkipList Nat Script Slots, ∃ front tower back,
      (withSource {} (Comparator.constant .lt) ⟨#[0, 18446744073709551615], by decide, 0⟩ :
          SkipList Nat Script Slots).run [.insert 3, .insert 1, .insert 2] = .ok (answers, list) ∧
        StandsAs list (front ++ tower :: back) ∧ front.length = 1 ∧
        list.removeRank 2 = .ok (some tower.value, after) ∧ StandsAs after (front ++ back) ∧
        list.atRank? 18446744073709551615 = .ok none ∧
        list.removeRank 18446744073709551615 = .ok (none, list) := by
  obtain ⟨answers, list, row, ran, stands, -, asked⟩ :=
    run_positions (σ := Slots) {} (Comparator.constant .lt)
      (⟨#[0, 18446744073709551615], by decide, 0⟩ : Script) [.insert 3, .insert 1, .insert 2]
  have size : list.size = 3 := by
    have counted : ((withSource {} (Comparator.constant .lt)
        ⟨#[0, 18446744073709551615], by decide, 0⟩ : SkipList Nat Script Slots).run
          [.insert 3, .insert 1, .insert 2]).map (fun ran => ran.2.size) = .ok 3 := by
      decide +kernel
    rw [ran] at counted
    exact Except.ok.inj counted
  obtain ⟨front, tower, back, rfl, place, -, -, after, removed, standsAfter, -, -⟩ :=
    (asked 2).inside (by decide) (by rw [size]; decide)
  obtain ⟨nowhere, refused⟩ := (asked 18446744073709551615).outside (Or.inr (by rw [size]; decide))
  exact ⟨answers, list, after, front, tower, back, ran, stands, Nat.succ.inj place.symm, removed,
    standsAfter, nowhere, refused⟩

end OrderedCollections.SkipList
