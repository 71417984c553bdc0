/-
**Elements that compare equal to one wanted.**

Under the contract of a comparator several elements of a row may compare equal to one that is wanted,
although none of them equals another. In an ascending row they stand together, behind those below it
and before those above it. The gap of the wanted element lies before the first of them, whatever the
heights of the towers. A search that stops at the first equal one met comes from above: it goes to the
first of the tallest.

* `Stretch`: the elements below a wanted one, those equal to it, and those above it.
* `exists_stretch`: an ascending row is made of these.
* `rowGap_of_stretch`, `rowFind_of_stretch`: where the gap lies, and where a search ends.
-/

import Mathlib.Data.List.MinMax
import OrderedCollections.Proofs.SkipList.RowDescent

namespace OrderedCollections.SkipList

variable {α : Type}

/-- The towers of a row whose elements are below a wanted one, those whose elements are equal to it,
and those whose elements are above it, where `ask` tells how an element stands to it. -/
structure Stretch (ask : α → Ordering) (below equals above : List (Tower α)) : Prop where
  below_eq : ∀ tower ∈ below, ask tower.value = .lt
  equals_eq : ∀ tower ∈ equals, ask tower.value = .eq
  above_eq : ∀ tower ∈ above, ask tower.value = .gt

variable {ask : α → Ordering} {below equals above : List (Tower α)}

/-- **A row is made of those below, those equal and those above**, where nothing stands behind an
element that it would have to stand before. -/
theorem exists_stretch {row : List (Tower α)}
    (ascending : row.Pairwise fun first second =>
      (ask first.value ≠ .lt → ask second.value ≠ .lt) ∧
      (ask first.value = .gt → ask second.value = .gt)) :
    ∃ below equals above, below ++ (equals ++ above) = row ∧ Stretch ask below equals above := by
  induction row with
  | nil => exact ⟨[], [], [], rfl, List.forall_mem_nil _, List.forall_mem_nil _, List.forall_mem_nil _⟩
  | cons first others ih =>
    obtain ⟨ahead, ascendingOthers⟩ := List.pairwise_cons.mp ascending
    obtain ⟨below, equals, above, rfl, stretch⟩ := ih ascendingOthers
    cases outcome : ask first.value with
    | lt =>
      exact ⟨first :: below, equals, above, rfl,
        List.forall_mem_cons.mpr ⟨outcome, stretch.below_eq⟩, stretch.equals_eq, stretch.above_eq⟩
    | eq =>
      have none : below = [] := by
        refine List.eq_nil_iff_forall_not_mem.mpr fun tower member => ?_
        exact (ahead tower (by simp [member])).1 (by simp [outcome]) (stretch.below_eq tower member)
      subst none
      exact ⟨[], first :: equals, above, rfl, List.forall_mem_nil _,
        List.forall_mem_cons.mpr ⟨outcome, stretch.equals_eq⟩, stretch.above_eq⟩
    | gt =>
      refine ⟨[], [], first :: (below ++ (equals ++ above)), rfl, List.forall_mem_nil _,
        List.forall_mem_nil _, List.forall_mem_cons.mpr ⟨outcome, fun tower member => ?_⟩⟩
      exact (ahead tower member).2 outcome

/-! ### The gap -/

/-- **The gap of the wanted element** lies before the first one that is equal. -/
theorem rowGap_of_stretch (stretch : Stretch ask below equals above) {levels : Nat}
    (used : 0 < levels) (positive : ∀ tower ∈ below ++ (equals ++ above), 0 < tower.height) :
    rowGap ask levels (below ++ (equals ++ above)) = (below, equals ++ above) := by
  obtain ⟨front, back, -, split, found, -, -, passed, stopped⟩ := rowGap_spec ask used positive
  have notBelow : ∀ tower ∈ equals ++ above, ask tower.value ≠ .lt := by
    intro tower member
    rcases List.mem_append.mp member with equal | higher
    · rw [stretch.equals_eq tower equal]
      decide
    · rw [stretch.above_eq tower higher]
      decide
  rw [found]
  rcases List.append_eq_append_iff.mp split with ⟨middle, rfl, rfl⟩ | ⟨middle, rfl, rest⟩
  · cases middle with
    | nil => rw [List.append_nil, List.nil_append]
    | cons first others => exact absurd (stretch.below_eq first (by simp)) (stopped first _ rfl)
  · rcases List.eq_nil_or_concat' middle with rfl | ⟨others, last, rfl⟩
    · rw [List.append_nil, rest, List.nil_append]
    · have lower := passed (below ++ others) last (List.append_assoc _ _ _).symm
      exact absurd lower (notBelow last (by rw [rest]; simp))

/-! ### The first equal one met -/

/-- A walk passes the towers whose elements are below, those of them that take part in the level. -/
theorem rowWalk_of_below {level : Nat} {lower : List (Tower α)}
    (passes : ∀ tower ∈ lower, ask tower.value = .lt) (near skipped far : List (Tower α))
    (short : ∀ tower ∈ skipped, tower.height ≤ level) :
    ∃ more rest, more ++ rest = skipped ++ lower ∧ (∀ tower ∈ rest, tower.height ≤ level) ∧
      rowWalk (fun _ _ => ask) level near skipped (lower ++ far) =
        rowWalk (fun _ _ => ask) level (near ++ more) rest far := by
  induction lower generalizing near skipped with
  | nil => exact ⟨[], skipped, by simp, short, by rw [List.nil_append, List.append_nil]⟩
  | cons tower others ih =>
    obtain ⟨passesTower, passesOthers⟩ := List.forall_mem_cons.mp passes
    rw [List.cons_append, rowWalk]
    by_cases tall : level < tower.height
    · obtain ⟨more, rest, split, shortRest, walked⟩ :=
        ih passesOthers (near ++ (skipped ++ [tower])) [] (List.forall_mem_nil _)
      rw [List.nil_append] at split
      subst split
      refine ⟨skipped ++ [tower] ++ more, rest, by simp, shortRest, ?_⟩
      rw [if_pos tall, passesTower, ← List.append_assoc near (skipped ++ [tower]) more]
      exact walked
    · obtain ⟨more, rest, split, shortRest, walked⟩ := ih passesOthers near (skipped ++ [tower])
        (List.forall_mem_append.mpr ⟨short, by simpa using Nat.le_of_not_lt tall⟩)
      refine ⟨more, rest, by rw [split, List.append_assoc, List.singleton_append], shortRest, ?_⟩
      rw [if_neg tall, walked]

/-- A walk turns down before the towers whose elements are above. -/
theorem rowWalk_of_above {level : Nat} {higher : List (Tower α)}
    (stops : ∀ tower ∈ higher, ask tower.value = .gt) (near skipped : List (Tower α)) :
    rowWalk (fun _ _ => ask) level near skipped higher = .turned near (skipped ++ higher) := by
  induction higher generalizing skipped with
  | nil => rw [rowWalk, List.append_nil]
  | cons tower others ih =>
    obtain ⟨stopsTower, stopsOthers⟩ := List.forall_mem_cons.mp stops
    rw [rowWalk]
    by_cases tall : level < tower.height
    · rw [if_pos tall, stopsTower]
    · rw [if_neg tall, ih stopsOthers, List.append_assoc, List.singleton_append]

/-- The first of the tallest towers. -/
theorem exists_of_argmax {row : List (Tower α)} {tower : Tower α}
    (tallest : row.argmax Tower.height = some tower) :
    ∃ before after, before ++ tower :: after = row ∧
      (∀ other ∈ before, other.height < tower.height) ∧
      ∀ other ∈ after, other.height ≤ tower.height := by
  induction row with
  | nil => cases tallest
  | cons first others ih =>
    rw [List.argmax_cons] at tallest
    cases best : others.argmax Tower.height with
    | none =>
      rw [best] at tallest
      obtain rfl := Option.some.inj tallest
      obtain rfl := List.argmax_eq_none.mp best
      exact ⟨[], [], rfl, List.forall_mem_nil _, List.forall_mem_nil _⟩
    | some other =>
      rw [best] at tallest
      by_cases taller : first.height < other.height
      · obtain rfl : other = tower := by simpa [taller] using tallest
        obtain ⟨before, after, rfl, shorter, notTaller⟩ := ih best
        exact ⟨first :: before, after, rfl, List.forall_mem_cons.mpr ⟨taller, shorter⟩, notTaller⟩
      · obtain rfl : first = tower := by simpa [taller] using tallest
        refine ⟨[], others, rfl, List.forall_mem_nil _, fun other' member => ?_⟩
        exact Nat.le_trans (List.le_of_mem_argmax member best) (Nat.le_of_not_lt taller)

/-- **A descent comes to the first of the tallest equal towers.** It passes the lower towers, turns
down before the higher ones, and does not see the equal ones before it reaches their highest level. -/
theorem rowDescend_of_stretch {before after : List (Tower α)} {tower : Tower α}
    (stretch : Stretch ask below (before ++ tower :: after) above)
    (shorter : ∀ other ∈ before, other.height < tower.height)
    (notTaller : ∀ other ∈ after, other.height ≤ tower.height) (positive : 0 < tower.height)
    (levels : Nat) (inUse : tower.height ≤ levels) (near : List (Tower α)) :
    rowDescend (fun _ _ => ask) levels near (below ++ (before ++ tower :: after ++ above)) =
      .met (near ++ (below ++ before)) tower (after ++ above) := by
  induction levels generalizing near below with
  | zero => omega
  | succ level ih =>
    have none : ∀ other ∈ ([] : List (Tower α)), other.height ≤ level := List.forall_mem_nil _
    obtain ⟨more, rest, split, short, walked⟩ :=
      rowWalk_of_below stretch.below_eq near [] (before ++ tower :: after ++ above) none
    rw [List.nil_append] at split
    subst split
    rw [rowDescend, walked, List.append_assoc before]
    have equal : ask tower.value = .eq := stretch.equals_eq tower (by simp)
    by_cases tall : level < tower.height
    · have low : ∀ other ∈ before, other.height ≤ level :=
        fun other member => Nat.le_of_lt_succ (Nat.lt_of_lt_of_le (shorter other member) inUse)
      rw [rowWalk_of_short _ low, List.cons_append, rowWalk, if_pos tall, equal]
      simp only [List.append_assoc]
    · have low : ∀ other ∈ before ++ tower :: after, other.height ≤ level := by
        have flat := Nat.le_of_not_lt tall
        refine List.forall_mem_append.mpr ⟨fun other member => ?_,
          List.forall_mem_cons.mpr ⟨flat, fun other member => ?_⟩⟩
        · exact Nat.le_trans (Nat.le_of_lt (shorter other member)) flat
        · exact Nat.le_trans (notTaller other member) flat
      rw [← List.append_assoc before, rowWalk_of_short _ low, rowWalk_of_above stretch.above_eq]
      have stretchRest : Stretch ask rest (before ++ tower :: after) above :=
        ⟨fun other member => stretch.below_eq other (List.mem_append_right _ member),
          stretch.equals_eq, stretch.above_eq⟩
      have met := ih stretchRest (Nat.le_of_not_lt tall) (near ++ more)
      simp only [List.append_assoc] at met ⊢
      rw [met]

/-- **A search that stops at the first equal element met** goes to the first of the tallest. -/
theorem rowFind_of_stretch (stretch : Stretch ask below equals above) {levels : Nat}
    (used : 0 < levels) (positive : ∀ tower ∈ below ++ (equals ++ above), 0 < tower.height)
    (inUse : ∀ tower ∈ equals, tower.height ≤ levels) :
    (rowFind ask levels (below ++ (equals ++ above))).map (fun found => found.2.1) =
      equals.argmax Tower.height := by
  cases tallest : equals.argmax Tower.height with
  | some tower =>
    obtain ⟨before, after, rfl, shorter, notTaller⟩ := exists_of_argmax tallest
    have met := rowDescend_of_stretch stretch shorter notTaller (positive tower (by simp)) levels
      (inUse tower (by simp)) []
    unfold rowFind
    rw [met]
    rfl
  | none =>
    obtain rfl := List.argmax_eq_none.mp tallest
    rcases rowFind_spec ask used positive with ⟨near, tower, far, split, equal, -⟩ | ⟨nowhere, -⟩
    · have member : tower ∈ below ++ ([] ++ above) := by
        rw [← split]
        simp
      rcases List.mem_append.mp member with lower | higher
      · rw [stretch.below_eq tower lower] at equal
        cases equal
      · rw [stretch.above_eq tower higher] at equal
        cases equal
    · rw [nowhere]
      rfl

end OrderedCollections.SkipList
