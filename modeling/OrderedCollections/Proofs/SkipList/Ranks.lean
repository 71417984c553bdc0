/-
**Ranks of entries and of elements.**

There are two ways to ask for a rank. An entry is asked for its own: a descent goes towards its
element and stops at the entry itself, and where it misses the entry those before it are counted. An
element is asked for: a descent stops at the first equal one that it meets, on whatever level, while
looking the element up goes on down to the first one that is not below it.

* `Entry.RankedAt`: both ways to the rank of an entry lead to the same position.
* `Entry.approach_met`: under the contract the descent does not miss the entry.
* `PointsAt`: what a rank that is answered points at.
* `rank_le_of_met`, `rank_eq_of_met`: how it stands to the rank of the entry looked up.
* `RankBesideFind`: both at once, law by law.
* `run_ranks_entries`, `run_ranks_elements`: the ranks in every list that a run ends with.
-/

import OrderedCollections.Comparator.Integer
import OrderedCollections.Proofs.SkipList.Refinement

namespace OrderedCollections.SkipList

variable {α ρ : Type} {σ : Type → Type} [NodeStore σ]

/-- Of two towers in an ascending row the first is below the second. -/
theorem lt_of_before {cmp : Comparator α} {row before between behind : List (Tower α)}
    {first second : Tower α} (ascending : Ascending cmp (row.map Tower.value))
    (split : before ++ first :: between ++ second :: behind = row) :
    cmp first.value second.value = .lt := by
  subst split
  unfold Ascending at ascending
  rw [List.map_append, List.pairwise_append] at ascending
  exact ascending.2.2 first.value (by simp) second.value (by simp)

/-! ### The rank of an entry -/

/-- **An entry has a rank**, whichever way it is asked for: a descent that meets a node meets the
entry at this rank, and counting the entries up to it comes to the same. -/
structure Entry.RankedAt (entry : Entry α ρ σ) (value : α) (rank : Nat) : Prop where
  value_eq : entry.value = .ok value
  rank_eq : entry.rank = .ok rank
  met : ∀ id met, entry.approach value = .ok (.met id met) → id = entry.id ∧ met = rank
  counted : entry.counted = .ok rank

section Entries

variable {list : SkipList α ρ σ} {row front back : List (Tower α)} {tower : Tower α}

/-- An entry has its position in the row as its rank. -/
theorem Entry.rankedAt (sound : Sound list row) (split : front ++ tower :: back = row) :
    RankedAt (⟨list, tower.id⟩ : Entry α ρ σ) tower.value (front.length + 1) := by
  refine ⟨value_spec sound split, rank_spec sound split, fun id met landing => ?_,
    counted_spec sound split⟩
  rcases approach_cases sound split with stopped | ⟨-, -, turns, -, landed, -⟩
  · rw [stopped] at landing
    cases landing
    exact ⟨rfl, rfl⟩
  · rw [landed] at landing
    cases landing

/-- **Under the contract the descent towards an entry does not miss it.** It cannot turn down before
one of the towers in front, which are all below the element, and it cannot pass the entry or one of
the towers behind. -/
theorem Entry.approach_met (sound : Sound list row) (contract : list.cmp.Contract)
    (ascending : Ascending list.cmp (row.map Tower.value)) (split : front ++ tower :: back = row) :
    (⟨list, tower.id⟩ : Entry α ρ σ).approach tower.value =
      .ok (.met tower.id (front.length + 1)) := by
  rcases approach_cases sound split with met | ⟨near, far, turns, cut, -, leaves⟩
  · exact met
  · exfalso
    have atEntry : ∀ rank, answer (⟨list, tower.id⟩ : Entry α ρ σ) tower.value rank tower.id
        tower.value = .eq := fun rank => if_pos rfl
    rcases append_eq_insert_iff.mp (cut.trans split.symm) with
      ⟨middle, rfl, rfl⟩ | ⟨middle, rfl, rfl⟩
    · cases middle with
      | nil =>
        have refused := leaves.stopped tower back rfl
        rw [atEntry] at refused
        cases refused
      | cons first others =>
        have refused := leaves.stopped first (others ++ tower :: back) rfl
        have below : list.cmp first.value tower.value = .lt := lt_of_before ascending split
        unfold answer isBelow at refused
        rw [below] at refused
        split at refused <;> cases refused
    · rcases List.eq_nil_or_concat' middle with rfl | ⟨others, last, rfl⟩
      · have passed := leaves.passed front tower rfl
        rw [atEntry] at passed
        cases passed
      · have passed := leaves.passed (front ++ tower :: others) last (by simp)
        have whole : front ++ tower :: others ++ last :: far = row := by
          rw [← cut]
          simp
        have above : list.cmp last.value tower.value = .gt :=
          contract.gt_iff_lt.mpr (lt_of_before ascending whole)
        unfold answer isBelow at passed
        rw [above] at passed
        split at passed <;> cases passed

end Entries

/-! ### The rank of an element -/

section Order

variable {cmp : Comparator α} {wanted : α} {row near far front back : List (Tower α)}
  {tower first : Tower α}

/-- Where a gap misses the wanted element, no tower of the row compares equal. -/
theorem AtGap.none_equal_in (gap : AtGap cmp wanted (front.map Tower.value) (back.map Tower.value))
    (contract : cmp.Contract) (ascending : Ascending cmp (row.map Tower.value))
    (misses : Misses cmp wanted (back.map Tower.value)) (cut : front ++ back = row)
    (member : tower ∈ row) : cmp tower.value wanted ≠ .eq := by
  subst cut
  rw [List.map_append] at ascending
  intro equal
  refine gap.none_equal contract ascending misses tower.value ?_ (beq_iff_eq.mpr equal)
  rw [← List.map_append]
  exact List.mem_map_of_mem member

/-- **The tower met is not before the one looked up**: those before a gap are below the wanted
element. -/
theorem rank_le_of_met (split : near ++ tower :: far = front ++ back)
    (equal : cmp tower.value wanted = .eq)
    (below : ∀ stored ∈ front.map Tower.value, cmp stored wanted = .lt) :
    front.length ≤ near.length := by
  rcases append_eq_insert_iff.mp split.symm with ⟨middle, rfl, -⟩ | ⟨middle, rfl, -⟩
  · rw [List.length_append]
    exact Nat.le_add_right _ _
  · rw [below tower.value (by simp)] at equal
    cases equal

/-- **The tower met is the one looked up** where equal elements form classes: of two that are equal
to the wanted one, the first would be below the second. -/
theorem rank_eq_of_met (preorder : cmp.TotalPreorder)
    (ascending : Ascending cmp (row.map Tower.value)) (split : near ++ tower :: far = row)
    (cut : front ++ first :: back = row) (equal : cmp tower.value wanted = .eq)
    (equalFirst : cmp first.value wanted = .eq)
    (below : ∀ stored ∈ front.map Tower.value, cmp stored wanted = .lt) :
    near.length = front.length := by
  rcases append_eq_insert_iff.mp (cut.trans split.symm) with
    ⟨middle, rfl, rest⟩ | ⟨middle, rfl, -⟩
  · cases middle with
    | nil => rw [List.append_nil]
    | cons other others =>
      obtain ⟨rfl, rfl⟩ := List.cons.inj rest
      have lower : cmp first.value tower.value = .lt := lt_of_before ascending split
      have same := preorder.eq_trans equalFirst (preorder.eq_comm.mp equal)
      rw [lower] at same
      cases same
  · rw [below tower.value (by simp)] at equal
    cases equal

end Order

/-- **What a rank that was answered points at**: an element of that rank that compares equal to the
one asked for. -/
structure PointsAt (list : SkipList α ρ σ) (elements : List α) (wanted : α) (rank : Nat) : Prop where
  positive : 1 ≤ rank
  bounded : rank ≤ list.size
  equal : ∃ stored entry, elements[rank - 1]? = some stored ∧ list.cmp stored wanted = .eq ∧
    list.atRank? rank = .ok (some entry) ∧ entry.told = .ok (stored, rank)

/-- **How the rank of an element stands to the entry looked up.** Each law that the comparator obeys
brings the two answers closer together. -/
structure RankBesideFind (list : SkipList α ρ σ) (elements : List α) (wanted : α)
    (ranked : Except Error Nat) (found : Except Error (Entry α ρ σ)) : Prop where
  /-- A rank that is answered is that of an equal element, whatever the comparator is. -/
  pointsAt : ∀ rank, ranked = .ok rank → PointsAt list elements wanted rank
  /-- Under the contract a rank is answered exactly if an entry is looked up. -/
  present : list.cmp.Contract → ((∃ rank, ranked = .ok rank) ↔ ∃ entry, found = .ok entry)
  /-- Under the contract the entry looked up is not behind the one of the rank. -/
  notBefore : list.cmp.Contract → ∀ rank entry, ranked = .ok rank → found = .ok entry →
    ∃ least, entry.rank = .ok least ∧ least ≤ rank
  /-- Where equal elements form classes, the entry looked up has the rank that is answered. -/
  same : list.cmp.TotalPreorder → ∀ rank entry, ranked = .ok rank → found = .ok entry →
    entry.rank = .ok rank

section Elements

variable {list : SkipList α ρ σ} {row near far : List (Tower α)} {tower : Tower α}

/-- Asking for the rank of an element stops at an equal tower, or leaves the row in a gap whose first
element is not equal. -/
theorem rank_cases (sound : Sound list row) (wanted : α) :
    (∃ near tower far, near ++ tower :: far = row ∧ list.cmp tower.value wanted = .eq ∧
      list.rank wanted = .ok (.ok (near.length + 1))) ∨
    (∃ front back, front ++ back = row ∧
      AtGap list.cmp wanted (front.map Tower.value) (back.map Tower.value) ∧
      Misses list.cmp wanted (back.map Tower.value) ∧
      list.rank wanted = .ok (.error .notFound)) := by
  rw [rank_spec sound]
  rcases rowFind_spec (list.cmp · wanted) sound.height_pos sound.positive with
    ⟨near, tower, far, split, equal, met⟩ | ⟨nowhere, front, back, split, passed, stopped⟩
  · rw [met]
    exact Or.inl ⟨near, tower, far, split, equal, rfl⟩
  · rw [nowhere]
    refine Or.inr ⟨front, back, split, atGap_of_towers passed ?_, misses_of_towers ?_, rfl⟩
    · intro tower others ahead
      rw [stopped tower others ahead]
      decide
    · intro tower isFirst
      obtain ⟨others, ahead⟩ := List.head?_eq_some_iff.mp isFirst
      rw [stopped tower others ahead]
      decide

/-- An equal tower that was met is what its rank points at. -/
theorem pointsAt_of_met (sound : Sound list row) {wanted : α}
    (split : near ++ tower :: far = row) (equal : list.cmp tower.value wanted = .eq) :
    PointsAt list (row.map Tower.value) wanted (near.length + 1) := by
  have bounded : near.length + 1 ≤ row.length := by
    rw [← split]
    simp
  refine ⟨Nat.le_add_left 1 _, by rw [sound.size_eq]; exact bounded, tower.value, ⟨list, tower.id⟩,
    ?_, equal, ?_, ?_⟩
  · rw [← split]
    simp
  · rcases atRank?_spec sound (near.length + 1) with
      ⟨front, other, back, split', same, placed⟩ | ⟨outside, -⟩
    · obtain ⟨-, same⟩ := List.append_inj (split.trans split'.symm) (Nat.succ.inj same)
      obtain ⟨rfl, -⟩ := List.cons.inj same
      exact placed
    · omega
  · rw [told_spec sound split, List.length_map]

/-- **The rank of an element and the entry looked up** in a sound list. -/
theorem rank_beside_find (sound : Sound list row)
    (ascending : list.cmp.Contract → Ascending list.cmp (row.map Tower.value)) (wanted : α) :
    ∃ ranked found, list.rank wanted = .ok ranked ∧ list.find wanted = .ok found ∧
      RankBesideFind list (row.map Tower.value) wanted ranked found := by
  obtain ⟨front, back, cut, -, gap, outcome⟩ := find_spec sound wanted
  rcases rank_cases sound wanted with
    ⟨near, tower, far, split, equal, ranked⟩ | ⟨left, right, cut', gap', misses', ranked⟩
  · have points := pointsAt_of_met sound split equal
    have member : tower ∈ row := by
      rw [← split]
      simp
    rcases outcome with ⟨first, others, rfl, equalFirst, found⟩ | ⟨misses, found⟩
    · have looked := Entry.rank_spec sound cut
      have below : list.cmp.Contract →
          ∀ stored ∈ front.map Tower.value, list.cmp stored wanted = .lt := by
        intro contract
        have ordered := ascending contract
        rw [← cut, List.map_append] at ordered
        exact gap.below_all contract ordered
      refine ⟨_, _, ranked, found, ⟨?_, fun _ => ⟨fun _ => ⟨_, rfl⟩, fun _ => ⟨_, rfl⟩⟩, ?_, ?_⟩⟩
      · rintro rank ⟨⟩
        exact points
      · rintro contract rank entry ⟨⟩ ⟨⟩
        refine ⟨_, looked, Nat.succ_le_succ ?_⟩
        exact rank_le_of_met (split.trans cut.symm) equal (below contract)
      · rintro preorder rank entry ⟨⟩ ⟨⟩
        rw [looked, rank_eq_of_met preorder (ascending preorder.toContract) split cut equal
          equalFirst (below preorder.toContract)]
    · have lawless : ¬ list.cmp.Contract := fun contract =>
        gap.none_equal_in contract (ascending contract) (misses_of_towers misses) cut member equal
      refine ⟨_, _, ranked, found, ⟨?_, fun contract => (lawless contract).elim,
        fun contract => (lawless contract).elim, fun preorder => (lawless preorder.toContract).elim⟩⟩
      rintro rank ⟨⟩
      exact points
  · rcases outcome with ⟨first, others, rfl, equalFirst, found⟩ | ⟨misses, found⟩
    · have member : first ∈ row := by
        rw [← cut]
        simp
      have lawless : ¬ list.cmp.Contract := fun contract =>
        gap'.none_equal_in contract (ascending contract) misses' cut' member equalFirst
      exact ⟨_, _, ranked, found, ⟨nofun, fun contract => (lawless contract).elim, nofun, nofun⟩⟩
    · exact ⟨_, _, ranked, found, ⟨nofun, fun _ => ⟨nofun, nofun⟩, nofun, nofun⟩⟩

end Elements

/-! ### Every list that a run ends with -/

/-- Every run ends with a sound list, and under the contract with an ascending one. -/
theorem run_sound [LawfulNodeStore σ] [RandomSource ρ] (options : Options) (cmp : Comparator α)
    (source : ρ) (operations : List (Operation α)) :
    ∃ answers, ∃ list : SkipList α ρ σ, ∃ row,
      (withSource options cmp source : SkipList α ρ σ).run operations = .ok (answers, list) ∧
        Sound list row ∧ list.cmp = cmp ∧
        (cmp.Contract → Ascending cmp (row.map Tower.value)) := by
  have start : Sound (withSource options cmp source : SkipList α ρ σ) [] :=
    sound_withSource options cmp source
  obtain ⟨answers, last, row, ran, sound, same, -, acts⟩ := run_spec start operations
  refine ⟨answers, last, row, ran, sound, same, fun contract => ?_⟩
  exact (actsAll_run contract acts List.Pairwise.nil).2

/-- **Every entry knows its position.** Whatever the comparator answers, every live node of a list
has the rank of its place among the elements, told by the descent where that meets a node and counted
where it does not; under the contract the descent meets the node. -/
theorem run_ranks_entries [LawfulNodeStore σ] [RandomSource ρ] (options : Options)
    (cmp : Comparator α) (source : ρ) (operations : List (Operation α)) :
    ∃ answers, ∃ list : SkipList α ρ σ, ∃ row elements,
      (withSource options cmp source : SkipList α ρ σ).run operations = .ok (answers, list) ∧
        WellLinked list row ∧ list.elements = .ok elements ∧ elements.length = row.length ∧
        ∀ id, (NodeStore.get? id list.nodes).isSome → ∃ index value,
          row[index]? = some id ∧ elements[index]? = some value ∧
          (⟨list, id⟩ : Entry α ρ σ).RankedAt value (index + 1) ∧
          (cmp.Contract →
            (⟨list, id⟩ : Entry α ρ σ).approach value = .ok (.met id (index + 1))) := by
  obtain ⟨answers, list, row, ran, sound, same, ascending⟩ :=
    run_sound (σ := σ) options cmp source operations
  have linked := sound.wellLinked
  refine ⟨answers, list, row.map Tower.id, row.map Tower.value, ran, linked, elements_spec sound,
    by rw [List.length_map, List.length_map], fun id live => ?_⟩
  obtain ⟨tower, member, rfl⟩ := List.mem_map.mp ((linked.live id).mp live)
  obtain ⟨front, back, split⟩ := List.append_of_mem member
  have here : row[front.length]? = some tower := by
    rw [split]
    simp
  refine ⟨front.length, tower.value, ?_, ?_, Entry.rankedAt sound split.symm, fun contract => ?_⟩
  · rw [List.getElem?_map, here]
    rfl
  · rw [List.getElem?_map, here]
    rfl
  · subst same
    exact Entry.approach_met sound contract (ascending contract) split.symm

/-- Marks with a tolerance: the descent meets every entry. -/
theorem run_ranks_entries_window :
    ∃ answers, ∃ list : SkipList Mark KeyStream Slots, ∃ row elements,
      (withSource {} Comparator.window (.ofSeed 0) : SkipList Mark KeyStream Slots).run
          [.insert ⟨2, 0⟩, .insert ⟨0, 0⟩, .insert ⟨5, 1⟩, .remove ⟨1, 1⟩] = .ok (answers, list) ∧
        WellLinked list row ∧ list.elements = .ok elements ∧ elements.length = row.length ∧
        ∀ id, (NodeStore.get? id list.nodes).isSome → ∃ index value,
          row[index]? = some id ∧ elements[index]? = some value ∧
          (⟨list, id⟩ : Entry Mark KeyStream Slots).RankedAt value (index + 1) ∧
          (⟨list, id⟩ : Entry Mark KeyStream Slots).approach value = .ok (.met id (index + 1)) := by
  obtain ⟨answers, list, row, elements, ran, linked, listed, length, ranked⟩ :=
    run_ranks_entries {} Comparator.window (KeyStream.ofSeed 0)
      [.insert ⟨2, 0⟩, .insert ⟨0, 0⟩, .insert ⟨5, 1⟩, .remove ⟨1, 1⟩]
  refine ⟨answers, list, row, elements, ran, linked, listed, length, fun id live => ?_⟩
  obtain ⟨index, value, inRow, inElements, rankedAt, met⟩ := ranked id live
  exact ⟨index, value, inRow, inElements, rankedAt, met Comparator.window_contract⟩

/-- Where every element is above every other, the descent turns down at once on every level, and the
entries before the last one are counted. -/
example :
    (do
      let (_, list) ← (withSource {} (Comparator.constant .gt) ⟨#[0], by decide, 0⟩ :
        SkipList Nat Script Slots).run [.insert 3, .insert 1]
      match list.back? with
      | none => return none
      | some entry => return some (← entry.approach 3, ← entry.rank)) =
    Except.ok (some (Landing.landed (List.replicate 32 {}), 2)) := by
  decide +kernel

/-- **The rank of an element is that of an equal one.** Under the contract it is answered exactly if
the element can be looked up, and is not smaller than the rank of the entry found; where equal
elements form classes it is that rank, whatever the heights of the towers. -/
theorem run_ranks_elements [LawfulNodeStore σ] [RandomSource ρ] (options : Options)
    (cmp : Comparator α) (source : ρ) (operations : List (Operation α)) :
    ∃ answers, ∃ list : SkipList α ρ σ, ∃ elements,
      (withSource options cmp source : SkipList α ρ σ).run operations = .ok (answers, list) ∧
        list.cmp = cmp ∧ list.elements = .ok elements ∧ elements.length = list.size ∧
        ∀ wanted, ∃ ranked found, list.rank wanted = .ok ranked ∧ list.find wanted = .ok found ∧
          RankBesideFind list elements wanted ranked found := by
  obtain ⟨answers, list, row, ran, sound, same, ascending⟩ :=
    run_sound (σ := σ) options cmp source operations
  refine ⟨answers, list, row.map Tower.value, ran, same, elements_spec sound, ?_, fun wanted => ?_⟩
  · rw [List.length_map, sound.size_eq]
  · subst same
    exact rank_beside_find sound ascending wanted

/-- Marks with a tolerance obey the contract, and remainders form classes. -/
theorem run_ranks_elements_graded :
    (∃ answers, ∃ list : SkipList Mark KeyStream Slots, ∃ ranked found,
      (withSource {} Comparator.window (.ofSeed 0) : SkipList Mark KeyStream Slots).run
          [.insert ⟨0, 0⟩, .insert ⟨2, 0⟩] = .ok (answers, list) ∧
        list.rank ⟨1, 1⟩ = .ok ranked ∧ list.find ⟨1, 1⟩ = .ok found ∧
        ((∃ rank, ranked = .ok rank) ↔ ∃ entry, found = .ok entry) ∧
        ∀ rank entry, ranked = .ok rank → found = .ok entry →
          ∃ least, entry.rank = .ok least ∧ least ≤ rank) ∧
    ∃ answers, ∃ list : SkipList Int64 KeyStream Slots, ∃ ranked found,
      (withSource {} (Comparator.residue 5) (.ofSeed 0) : SkipList Int64 KeyStream Slots).run
          [.insert 7, .insert 3, .insert 12] = .ok (answers, list) ∧
        list.rank 8 = .ok ranked ∧ list.find 8 = .ok found ∧
        ∀ rank entry, ranked = .ok rank → found = .ok entry → entry.rank = .ok rank := by
  constructor
  · obtain ⟨answers, list, elements, ran, same, -, -, asked⟩ := run_ranks_elements {}
      Comparator.window (KeyStream.ofSeed 0) [.insert ⟨0, 0⟩, .insert ⟨2, 0⟩]
    obtain ⟨ranked, found, rank, find, beside⟩ := asked ⟨1, 1⟩
    have contract : list.cmp.Contract := same ▸ Comparator.window_contract
    exact ⟨answers, list, ranked, found, ran, rank, find, beside.present contract,
      beside.notBefore contract⟩
  · obtain ⟨answers, list, elements, ran, same, -, -, asked⟩ := run_ranks_elements {}
      (Comparator.residue 5) (KeyStream.ofSeed 0) [.insert 7, .insert 3, .insert 12]
    obtain ⟨ranked, found, rank, find, beside⟩ := asked 8
    exact ⟨answers, list, ranked, found, ran, rank, find,
      beside.same (same ▸ Comparator.residue_totalPreorder 5)⟩

/-- A wide mark equals both marks that are stored, the second of which has the taller tower: its rank
is that of the second, while the first is found. -/
example :
    (do
      let (_, list) ← (withSource {} Comparator.window
          ⟨#[18446744073709551615, 1152921504606846976], by decide, 0⟩ :
        SkipList Mark Script Slots).run [.insert ⟨0, 0⟩, .insert ⟨2, 0⟩]
      match ← list.find ⟨1, 1⟩ with
      | .error _ => return (← list.rank ⟨1, 1⟩, none)
      | .ok entry => return (← list.rank ⟨1, 1⟩, some (← entry.rank))) =
    Except.ok (Except.ok 2, some 1) := by
  decide +kernel

end OrderedCollections.SkipList
