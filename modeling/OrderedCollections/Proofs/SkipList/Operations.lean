/-
**What the operations do to a sound list.**

Every operation on a sound list comes to a result, and the list it leaves behind is sound again.
Nothing is asked of the comparator here: where it is no order, an operation still acts in a gap of
the row whose last tower before it is below the wanted element and whose first tower behind it is
not.

* `AtGap`: such a gap.
* `insert_spec`, `remove_spec`, `removeRank_spec`: the changes.
* `find_spec`, `atRank?_spec`, `rank_spec`: the questions.
* `Entry.approach_cases`, `Entry.counted_spec`, `Entry.rank_spec`: the two ways to the rank of an entry.
* `iterator_holds`, `elements_spec`: the elements are those of the row.
-/

import OrderedCollections.Proofs.Iteration
import OrderedCollections.Proofs.SkipList.Insertion
import OrderedCollections.Proofs.SkipList.Lookup
import OrderedCollections.Proofs.SkipList.Removal
import OrderedCollections.SkipList.Iterator

namespace OrderedCollections.SkipList

variable {α ρ : Type} {σ : Type → Type} [NodeStore σ]

/-- A gap in a sequence: the last element before it is below the wanted one, the first one behind it
is not. -/
structure AtGap (cmp : Comparator α) (wanted : α) (front back : List α) : Prop where
  below : ∀ others last, front = others ++ [last] → cmp last wanted = .lt
  notBelow : ∀ first others, back = first :: others → cmp first wanted ≠ .lt

/-- A gap of a row is one of its elements. -/
theorem atGap_of_towers {cmp : Comparator α} {wanted : α} {front back : List (Tower α)}
    (passed : ∀ others tower, front = others ++ [tower] → cmp tower.value wanted = .lt)
    (stopped : ∀ tower others, back = tower :: others → cmp tower.value wanted ≠ .lt) :
    AtGap cmp wanted (front.map Tower.value) (back.map Tower.value) := by
  refine ⟨fun others last same => ?_, fun first others same => ?_⟩
  · obtain ⟨near, rest, rfl, rfl, single⟩ := List.map_eq_append_iff.mp same
    obtain ⟨tower, none, rfl, rfl, isNone⟩ := List.map_eq_cons_iff.mp single
    rw [List.map_eq_nil_iff] at isNone
    subst isNone
    exact passed near tower rfl
  · obtain ⟨tower, rest, rfl, rfl, rfl⟩ := List.map_eq_cons_iff.mp same
    exact stopped tower rest rfl

section Reads

variable {list : SkipList α ρ σ} {row : List (Tower α)}

omit [NodeStore σ] in
theorem belowOrNot_eq (list : SkipList α ρ σ) (wanted : α) :
    (fun ahead _ stored => if list.isBelow wanted ahead stored then Ordering.lt else .gt) =
      belowOrNot (list.cmp · wanted) := by
  funext ahead id stored
  unfold isBelow belowOrNot
  simp only [beq_iff_eq]

/-- **The gap of a wanted element**, with the turns before it. It is the one that the row alone
tells. -/
theorem gap_isBelow_spec (sound : Sound list row) (wanted : α) :
    ∃ front back turns, front ++ back = row ∧
      rowGap (list.cmp · wanted) list.height row = (front, back) ∧
      list.gap (list.isBelow wanted) = .ok ⟨turns, back.head?.map Tower.id⟩ ∧
      Turns list.height front turns ∧
      AtGap list.cmp wanted (front.map Tower.value) (back.map Tower.value) := by
  obtain ⟨front, back, turns, split, found, landed, marks, passed, stopped⟩ :=
    rowGap_spec (list.cmp · wanted) sound.height_pos sound.positive
  have descended : list.descend (fun ahead _ stored =>
      if list.isBelow wanted ahead stored then .lt else .gt) = .ok (.landed (turns.map stand)) := by
    rw [belowOrNot_eq, descend_eq _ sound, landed]
    rfl
  exact ⟨front, back, turns.map stand, split, found,
    gap_of_landed sound split descended marks.turns, marks.turns, atGap_of_towers passed stopped⟩

/-! ### Questions -/

/-- **Looking an element up** goes to the first tower behind the gap. -/
theorem find_spec (sound : Sound list row) (wanted : α) :
    ∃ front back, front ++ back = row ∧
      rowGap (list.cmp · wanted) list.height row = (front, back) ∧
      AtGap list.cmp wanted (front.map Tower.value) (back.map Tower.value) ∧
      ((∃ tower others, back = tower :: others ∧ list.cmp tower.value wanted = .eq ∧
          list.find wanted = .ok (.ok ⟨list, tower.id⟩)) ∨
        ((∀ tower ∈ back.head?, list.cmp tower.value wanted ≠ .eq) ∧
          list.find wanted = .ok (.error .notFound))) := by
  obtain ⟨front, back, turns, split, inRow, found, -, atGap⟩ := gap_isBelow_spec sound wanted
  refine ⟨front, back, split, inRow, atGap, ?_⟩
  unfold find
  rw [lowerBound_eq, found, Checked.ok_bind, Checked.pure_eq_ok, Checked.ok_bind]
  cases back with
  | nil => exact Or.inr ⟨by simp, rfl⟩
  | cons tower others =>
    obtain ⟨node, fetched, value, -⟩ := sound.node_eq split
    simp only [List.head?_cons, Option.map_some, fetched, Checked.ok_bind, value]
    by_cases equal : list.cmp tower.value wanted = .eq
    · rw [if_pos equal]
      exact Or.inl ⟨tower, others, rfl, equal, rfl⟩
    · rw [if_neg equal]
      refine Or.inr ⟨fun other isFirst => ?_, rfl⟩
      rw [← Option.some.inj isFirst]
      exact equal

/-- **Asking for the rank of an element** stops at the first equal one met on the way down. -/
theorem rank_spec (sound : Sound list row) (wanted : α) :
    list.rank wanted = .ok (match rowFind (list.cmp · wanted) list.height row with
      | some (near, _, _) => .ok (near.length + 1)
      | none => .error .notFound) := by
  unfold rank rowFind
  rw [descend_eq _ sound, Checked.ok_bind]
  cases rowDescend (fun _ _ stored => list.cmp stored wanted) list.height [] row <;> rfl

/-- **An element is asked for by its rank.** -/
theorem atRank?_spec (sound : Sound list row) (rank : Nat) :
    (∃ front tower back, front ++ tower :: back = row ∧ rank = front.length + 1 ∧
      list.atRank? rank = .ok (some ⟨list, tower.id⟩)) ∨
    ((rank = 0 ∨ row.length < rank) ∧ list.atRank? rank = .ok none) := by
  unfold atRank?
  rcases nodeAtRank?_spec sound rank with ⟨front, tower, back, split, same, found⟩ | ⟨outside, found⟩
  · exact Or.inl ⟨front, tower, back, split, same, by rw [found]; rfl⟩
  · exact Or.inr ⟨outside, by rw [found]; rfl⟩

/-- Counting the towers before one. -/
theorem countBack_spec (housed : Housed list row) (rounds : Nat) (front back : List (Tower α))
    (tower : Tower α) (split : front ++ tower :: back = row) (enough : front.length < rounds)
    (count : Nat) : list.countBack rounds tower.id count = .ok (count + front.length) := by
  induction rounds generalizing front tower back count with
  | zero => omega
  | succ rounds ih =>
    obtain ⟨node, -, fetched, body⟩ := node_of_body? (housed.body front tower back split)
    obtain ⟨-, prev, -⟩ := Body.mk.inj body
    simp only [countBack, fetched, Checked.ok_bind, prev]
    rcases List.eq_nil_or_concat' front with rfl | ⟨others, last, rfl⟩
    · rfl
    · rw [List.length_append, List.length_singleton] at enough ⊢
      simp only [lastId?_concat]
      rw [ih others (tower :: back) last (by rw [← split]; simp) (by omega) (count + 1)]
      congr 1
      omega

namespace Entry

theorem value_spec (sound : Sound list row) {front back : List (Tower α)} {tower : Tower α}
    (split : front ++ tower :: back = row) :
    (⟨list, tower.id⟩ : Entry α ρ σ).value = .ok tower.value := by
  obtain ⟨node, fetched, value, -⟩ := sound.node_eq split
  simp only [Entry.value, fetched, Checked.ok_bind, Checked.pure_eq_ok, value]

/-- The entry that follows one is that of the next tower. -/
theorem next?_spec (sound : Sound list row) {front back : List (Tower α)} {tower : Tower α}
    (split : front ++ tower :: back = row) :
    (⟨list, tower.id⟩ : Entry α ρ σ).next? =
      .ok (back.head?.map fun next => ⟨list, next.id⟩) := by
  have leads : (ahead 0 back).next = back.head?.map Tower.id :=
    sound.next_zero ((List.append_assoc front [tower] back).trans split)
  simp only [Entry.next?, sound.linkAt_zero_node split, Checked.ok_bind, Checked.pure_eq_ok, leads,
    Option.map_map, Function.comp_def]

theorem prev?_spec (sound : Sound list row) {front back : List (Tower α)} {tower : Tower α}
    (split : front ++ tower :: back = row) :
    (⟨list, tower.id⟩ : Entry α ρ σ).prev? =
      .ok (front.getLast?.map fun prev => ⟨list, prev.id⟩) := by
  obtain ⟨node, fetched, -, before⟩ := sound.node_eq split
  simp only [Entry.prev?, fetched, Checked.ok_bind, Checked.pure_eq_ok, before, lastId?,
    Option.map_map, Function.comp_def]

/-- What is answered on the descent towards an entry: it stops at the entry itself. -/
def answer (entry : Entry α ρ σ) (value : α) (ahead : Nat) (id : NodeId) (stored : α) : Ordering :=
  if id = entry.id then .eq else if entry.list.isBelow value ahead stored then .lt else .gt

/-- The descent towards an entry, by its element. -/
def approach (entry : Entry α ρ σ) (value : α) : Checked Landing :=
  entry.list.descend (entry.answer value)

/-- The number of entries up to this one, counted one by one. -/
def counted (entry : Entry α ρ σ) : Checked Nat :=
  entry.list.countBack (entry.list.size + 1) entry.id 1

theorem rank_eq (entry : Entry α ρ σ) :
    entry.rank = entry.value >>= fun value => entry.approach value >>= fun landing =>
      match landing with
      | .met _ rank => pure rank
      | .landed _ => entry.counted := rfl

/-- The entries up to one are as many as its position says. -/
theorem counted_spec (sound : Sound list row) {front back : List (Tower α)} {tower : Tower α}
    (split : front ++ tower :: back = row) :
    (⟨list, tower.id⟩ : Entry α ρ σ).counted = .ok (front.length + 1) := by
  have enough : front.length < list.size + 1 := by
    rw [sound.size_eq, ← split, List.length_append]
    omega
  rw [Nat.add_comm]
  exact countBack_spec sound.toHoused _ front back tower split enough 1

/-- **The descent towards an entry** meets it at its position, or leaves the row in a gap before a
tower that is not below its element and behind one that is. -/
theorem approach_cases (sound : Sound list row) {front back : List (Tower α)} {tower : Tower α}
    (split : front ++ tower :: back = row) :
    (⟨list, tower.id⟩ : Entry α ρ σ).approach tower.value =
        .ok (.met tower.id (front.length + 1)) ∨
      ∃ near far turns, near ++ far = row ∧
        (⟨list, tower.id⟩ : Entry α ρ σ).approach tower.value = .ok (.landed turns) ∧
        Leaves (Entry.answer ⟨list, tower.id⟩ tower.value) list.height near far turns := by
  unfold approach
  rcases descend_spec (Entry.answer ⟨list, tower.id⟩ tower.value) sound with
    ⟨id, rank, ⟨near, other, far, split', rfl, rfl, answered⟩, met⟩ | left
  · have same : other.id = tower.id := by
      by_contra different
      unfold answer at answered
      rw [if_neg different] at answered
      split at answered <;> cases answered
    obtain ⟨place, -, -⟩ := place_unique (split'.trans split.symm)
      (by rw [split]; exact sound.nodup) same
    rw [same, place] at met
    exact Or.inl met
  · exact Or.inr left

/-- **The rank of an entry is its position in the row**, whatever the comparator answers. -/
theorem rank_spec (sound : Sound list row) {front back : List (Tower α)} {tower : Tower α}
    (split : front ++ tower :: back = row) :
    (⟨list, tower.id⟩ : Entry α ρ σ).rank = .ok (front.length + 1) := by
  rw [rank_eq, value_spec sound split, Checked.ok_bind]
  rcases approach_cases sound split with met | ⟨-, -, turns, -, landed, -⟩
  · rw [met]
    rfl
  · rw [landed, Checked.ok_bind]
    exact counted_spec sound split

end Entry

theorem front?_spec (sound : Sound list row) :
    list.front? = row.head?.map fun tower => ⟨list, tower.id⟩ := by
  unfold front?
  rw [sound.first_eq, Option.map_map]
  rfl

theorem back?_spec (sound : Sound list row) :
    list.back? = row.getLast?.map fun tower => ⟨list, tower.id⟩ := by
  unfold back?
  rw [sound.tail_eq, lastId?, Option.map_map]
  rfl

/-! ### Iterators -/

/-- An iterator over a row from which some towers were taken at the front and some at the back: it
stands before the first tower that is left and behind the last one, and counts those between. -/
def Remains (list : SkipList α ρ σ) (row : List (Tower α)) (iterator : Iterator α σ)
    (items : List α) : Prop :=
  ∃ near middle far, near ++ middle ++ far = row ∧ items = middle.map Tower.value ∧
    iterator = ⟨list.nodes, (middle ++ far).head?.map Tower.id, lastId? (near ++ middle),
      middle.length⟩

/-- Every step of an iterator from either end leaves the other elements. -/
theorem serves_remains (sound : Sound list row) : Serves (Remains list row) where
  remaining_eq := by
    rintro _ _ ⟨near, middle, far, -, rfl, rfl⟩
    rw [List.length_map]
    rfl
  next_nil := by
    rintro _ ⟨near, middle, far, -, none, rfl⟩
    obtain rfl := List.map_eq_nil_iff.mp none.symm
    rfl
  next_cons := by
    rintro _ item items ⟨near, middle, far, split, some, rfl⟩
    obtain ⟨tower, others, rfl, rfl, rfl⟩ := List.map_eq_cons_iff.mp some.symm
    have place : near ++ tower :: (others ++ far) = row := by rw [← split]; simp
    obtain ⟨node, stored, found⟩ := owner_of_linkAt (sound.linkAt_zero_node place)
    obtain ⟨node', fetched, value, -⟩ := sound.node_eq place
    obtain rfl : node = node' :=
      Except.ok.inj ((NodeStore.fetch_eq_ok stored).symm.trans fetched)
    have leads : (ahead 0 (others ++ far)).next = (others ++ far).head?.map Tower.id :=
      sound.next_zero ((List.append_assoc near [tower] _).trans place)
    refine ⟨_, ?_, near ++ [tower], others, far, by rw [← split]; simp, rfl, rfl⟩
    show Iterator.next? _ = _
    simp only [Iterator.next?, List.length_cons, List.cons_append, List.head?_cons,
      Option.map_some, NodeStore.fetch_eq_ok stored, Checked.ok_bind, found,
      Checked.ofOption_some, Checked.pure_eq_ok, value, leads, List.append_assoc, List.nil_append]
  nextBack_nil := by
    rintro _ ⟨near, middle, far, -, none, rfl⟩
    obtain rfl := List.map_eq_nil_iff.mp none.symm
    rfl
  nextBack_concat := by
    rintro _ items item ⟨near, middle, far, split, some, rfl⟩
    obtain ⟨others, last, rfl, rfl, single⟩ := List.map_eq_append_iff.mp some.symm
    obtain ⟨tower, none, rfl, rfl, isNone⟩ := List.map_eq_cons_iff.mp single
    obtain rfl := List.map_eq_nil_iff.mp isNone
    have place : near ++ others ++ tower :: far = row := by rw [← split]; simp
    obtain ⟨node, fetched, value, before⟩ := sound.node_eq place
    have fetched' : NodeStore.fetch tower.id list.nodes = .ok node := fetched
    refine ⟨_, ?_, near, others, tower :: far, place, rfl, rfl⟩
    show Iterator.nextBack? _ = _
    simp only [Iterator.nextBack?, List.length_append, List.length_singleton,
      ← List.append_assoc, lastId?_concat, fetched', Checked.ok_bind, Checked.pure_eq_ok, value,
      before]
    simp only [List.append_assoc, List.singleton_append]

/-- **The iterator of a list holds the elements of the row.** -/
theorem iterator_holds (sound : Sound list row) : Holds list.iterator (row.map Tower.value) := by
  refine ⟨Remains list row, serves_remains sound, [], row, [], List.append_nil row, rfl, ?_⟩
  rw [List.append_nil, List.nil_append, ← sound.first_eq, ← sound.tail_eq, ← sound.size_eq]
  rfl

/-- **The elements in order are those of the row.** -/
theorem elements_spec (sound : Sound list row) : list.elements = .ok (row.map Tower.value) :=
  (iterator_holds sound).yields.rest

end Reads

/-! ### Changes -/

section Changes

variable {list : SkipList α ρ σ} {row : List (Tower α)}

/-- Drawing a height leaves the links alone. -/
theorem Sound.draw (sound : Sound list row) (heights : HeightGenerator ρ)
    (same : heights.maxHeight = list.heights.maxHeight) :
    Sound { list with heights := heights } row where
  nodup := sound.nodup
  body := sound.body
  live := sound.live
  stored := sound.stored
  size_eq := sound.size_eq
  tail_eq := sound.tail_eq
  height_eq := sound.height_eq
  laid := sound.laid
  unused := sound.unused
  positive := sound.positive
  bounded := same ▸ sound.bounded
  maxHeight_pos := same ▸ sound.maxHeight_pos
  maxHeight_le := same ▸ sound.maxHeight_le

/-- Whether an element is taken is asked of the first tower behind the gap. -/
theorem isTaken_spec (sound : Sound list row) {front back : List (Tower α)}
    (split : front ++ back = row) (wanted : α) :
    (∃ tower others, back = tower :: others ∧ list.cmp tower.value wanted = .eq ∧
      list.isTaken wanted (back.head?.map Tower.id) = .ok true) ∨
    ((∀ tower ∈ back.head?, list.cmp tower.value wanted ≠ .eq) ∧
      list.isTaken wanted (back.head?.map Tower.id) = .ok false) := by
  cases back with
  | nil => exact Or.inr ⟨by simp, rfl⟩
  | cons tower others =>
    obtain ⟨node, fetched, value, -⟩ := sound.node_eq split
    have asked : list.isTaken wanted (some tower.id) =
        .ok (list.cmp tower.value wanted == .eq) := by
      simp only [isTaken, fetched, Checked.ok_bind, value, Checked.pure_eq_ok]
    rw [List.head?_cons, Option.map_some, asked]
    by_cases equal : list.cmp tower.value wanted = .eq
    · exact Or.inl ⟨tower, others, rfl, equal, by rw [equal]; rfl⟩
    · refine Or.inr ⟨fun other isFirst => ?_, by rw [beq_eq_false_iff_ne.mpr equal]⟩
      rw [← Option.some.inj isFirst]
      exact equal

variable [LawfulNodeStore σ]

/-- **An element is inserted in its gap**, unless the first tower behind the gap compares equal: then
the list stays as it is, and no height is drawn. The new tower is as high as the height drawn. -/
theorem insert_spec [RandomSource ρ] (sound : Sound list row) (value : α) :
    ∃ front back, front ++ back = row ∧
      rowGap (list.cmp · value) list.height row = (front, back) ∧
      AtGap list.cmp value (front.map Tower.value) (back.map Tower.value) ∧
      ((∃ tower others, back = tower :: others ∧ list.cmp tower.value value = .eq ∧
          list.insert value = .ok (.error .duplicated, list)) ∨
        ((∀ tower ∈ back.head?, list.cmp tower.value value ≠ .eq) ∧
          ∃ id after, list.insert value = .ok (.ok id, after) ∧ after.cmp = list.cmp ∧
            after.heights = list.heights.next.2 ∧
            Sound after (front ++ ⟨id, value, list.heights.next.1⟩ :: back))) := by
  obtain ⟨front, back, turns, split, inRow, found, marks, atGap⟩ := gap_isBelow_spec sound value
  refine ⟨front, back, split, inRow, atGap, ?_⟩
  rw [insert, found, Checked.ok_bind]
  rcases isTaken_spec sound split value with
    ⟨tower, others, rfl, equal, asked⟩ | ⟨different, asked⟩
  · left
    rw [asked]
    exact ⟨tower, others, rfl, equal, rfl⟩
  · right
    refine ⟨different, ?_⟩
    subst split
    have positive : 0 < list.heights.next.1 := HeightGenerator.heightOf_pos _ _ _
    have bounded : list.heights.next.1 ≤ list.heights.maxHeight :=
      HeightGenerator.heightOf_le _ sound.maxHeight_pos _
    have drawn : Sound { list with heights := list.heights.next.2 } (front ++ back) :=
      sound.draw list.heights.next.2 rfl
    obtain ⟨id, after, inserted, cmp, heights, soundAfter⟩ :=
      insertAt_spec drawn marks value positive bounded
    refine ⟨id, after, ?_, cmp, heights, soundAfter⟩
    simp only [asked, Checked.ok_bind, inserted, Checked.pure_eq_ok, Bool.false_eq_true, if_false]

/-- **The first tower behind the gap is removed** if it compares equal; else the list stays as it
is. -/
theorem remove_spec (sound : Sound list row) (wanted : α) :
    ∃ front back, front ++ back = row ∧
      rowGap (list.cmp · wanted) list.height row = (front, back) ∧
      AtGap list.cmp wanted (front.map Tower.value) (back.map Tower.value) ∧
      ((∃ tower others, back = tower :: others ∧ list.cmp tower.value wanted = .eq ∧
          ∃ after, list.remove wanted = .ok (some tower.value, after) ∧ after.cmp = list.cmp ∧
            after.heights = list.heights ∧ Sound after (front ++ others)) ∨
        ((∀ tower ∈ back.head?, list.cmp tower.value wanted ≠ .eq) ∧
          list.remove wanted = .ok (none, list))) := by
  obtain ⟨front, back, turns, split, inRow, found, marks, atGap⟩ := gap_isBelow_spec sound wanted
  refine ⟨front, back, split, inRow, atGap, ?_⟩
  unfold remove
  rw [found, Checked.ok_bind]
  cases back with
  | nil => exact Or.inr ⟨by simp, rfl⟩
  | cons tower others =>
    obtain ⟨node, fetched, value, -⟩ := sound.node_eq split
    simp only [List.head?_cons, Option.map_some, fetched, Checked.ok_bind, value]
    by_cases equal : list.cmp tower.value wanted = .eq
    · left
      subst split
      obtain ⟨after, unlinked, cmp, heights, soundAfter⟩ := unlink_spec sound marks
      refine ⟨tower, others, rfl, equal, after, ?_, cmp, heights, soundAfter⟩
      rw [if_pos equal, unlinked]
      rfl
    · right
      refine ⟨fun other isFirst => ?_, if_neg equal⟩
      rw [← Option.some.inj isFirst]
      exact equal

/-- **The tower of a rank is removed**; where there is none, the list stays as it is. -/
theorem removeRank_spec (sound : Sound list row) (rank : Nat) :
    (∃ front tower back, front ++ tower :: back = row ∧ rank = front.length + 1 ∧
      ∃ after, list.removeRank rank = .ok (some tower.value, after) ∧ after.cmp = list.cmp ∧
        after.heights = list.heights ∧ Sound after (front ++ back)) ∨
    ((rank = 0 ∨ row.length < rank) ∧ list.removeRank rank = .ok (none, list)) := by
  unfold removeRank
  by_cases outside : rank = 0 ∨ list.size < rank
  · rw [if_pos outside]
    exact Or.inr ⟨sound.size_eq ▸ outside, rfl⟩
  · rw [if_neg outside]
    obtain ⟨front, back, turns, split, found, marks, passed, stopped⟩ :=
      gap_spec sound fun ahead _ => ahead < rank
    have lower : front.length < rank := by
      rcases List.eq_nil_or_concat' front with rfl | ⟨others, last, rfl⟩
      · simp only [List.length_nil]
        omega
      · rw [List.length_append, List.length_singleton]
        exact of_decide_eq_true (passed others last rfl)
    have whole : list.size = front.length + back.length := by
      rw [sound.size_eq, ← split, List.length_append]
    rw [found]
    cases back with
    | nil =>
      rw [List.length_nil] at whole
      omega
    | cons tower others =>
      have upper := of_decide_eq_false (stopped tower others rfl)
      left
      subst split
      obtain ⟨after, unlinked, cmp, heights, soundAfter⟩ := unlink_spec sound marks
      refine ⟨front, tower, others, rfl, by omega, after, ?_, cmp, heights, soundAfter⟩
      simp only [Checked.ok_bind, List.head?_cons, Option.map_some, unlinked, Checked.pure_eq_ok]

end Changes

end OrderedCollections.SkipList
