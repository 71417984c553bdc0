/-
**Ascending keys.**

Under the contract of a comparator the keys of a skip map ascend, whether its equality is transitive
or not: a new entry comes into a gap behind all keys below it and before all keys above it, and no
other operation changes the order of the keys.

* `Ascending`: every key is below all that follow.
* `Around`: the place of a key among ascending entries.
* `around_of_gap`, `around_of_equal`: the gap of a key, and an entry of its class, are in its place.
* `around_of_misses`, `around_of_towers`, `around_of_tower`: places of keys among the towers of a
  row.
* `Acts.ascending`: every operation keeps the keys ascending.
-/

import OrderedCollections.Proofs.SkipMap.Run

namespace OrderedCollections.SkipMap

open SkipList

variable {κ ν : Type}

/-- Every key is below all that follow it. -/
def Ascending (cmp : Comparator κ) (entries : List (κ × ν)) : Prop :=
  entries.Pairwise fun first second => cmp first.1 second.1 = .lt

/-! ### The place of a key -/

/-- Every entry before the place of a key is below it, and every one behind it above. -/
structure Around (cmp : Comparator κ) (key : κ) (front back : List (κ × ν)) : Prop where
  below : ∀ stored ∈ front, cmp stored.1 key = .lt
  above : ∀ stored ∈ back, cmp stored.1 key = .gt

section Place

variable {cmp : Comparator κ} {key : κ} {front back : List (κ × ν)} {entry : κ × ν}

/-- A gap of ascending entries, behind one below a key and before one above it, is the place of the
key. -/
theorem around_of_gap (contract : cmp.Contract) (ascending : Ascending cmp (front ++ back))
    (below : ∀ stored ∈ front.getLast?, cmp stored.1 key = .lt)
    (above : ∀ stored ∈ back.head?, cmp stored.1 key = .gt) : Around cmp key front back := by
  unfold Ascending at ascending
  rw [List.pairwise_append] at ascending
  refine ⟨fun stored member => ?_, fun stored member => ?_⟩
  · rcases List.eq_nil_or_concat' front with rfl | ⟨others, last, rfl⟩
    · cases member
    · have lastBelow := below last (by simp)
      rcases List.mem_append.mp member with before | same
      · have lower := (List.pairwise_append.mp ascending.1).2.2 stored before last (by simp)
        exact contract.lt_trans lower lastBelow
      · rw [List.mem_singleton.mp same]
        exact lastBelow
  · cases back with
    | nil => cases member
    | cons first others =>
      have firstAbove := above first rfl
      rcases List.mem_cons.mp member with rfl | later
      · exact firstAbove
      · have upper := (List.pairwise_cons.mp ascending.2.1).1 stored later
        exact contract.gt_trans (contract.gt_iff_lt.mpr upper) firstAbove

/-- Where an entry of a class stands, there is the place of every key of the class. -/
theorem around_of_equal (preorder : cmp.TotalPreorder)
    (ascending : Ascending cmp (front ++ entry :: back)) (equal : cmp entry.1 key = .eq) :
    Around cmp key front back := by
  unfold Ascending at ascending
  rw [List.pairwise_append, List.pairwise_cons] at ascending
  obtain ⟨-, ⟨upper, -⟩, across⟩ := ascending
  refine ⟨fun stored member => ?_, fun stored member => ?_⟩
  · rw [← preorder.congr_right equal]
    exact across stored member entry List.mem_cons_self
  · rw [← preorder.congr_right equal]
    exact preorder.gt_iff_lt.mpr (upper stored member)

/-- A new entry in the place of its key keeps the keys ascending. -/
theorem Around.ascending_insert (around : Around cmp key front back) (contract : cmp.Contract)
    (ascending : Ascending cmp (front ++ back)) (value : ν) :
    Ascending cmp (front ++ (key, value) :: back) := by
  unfold Ascending at ascending ⊢
  rw [List.pairwise_append] at ascending
  obtain ⟨ascendingFront, ascendingBack, across⟩ := ascending
  rw [List.pairwise_append, List.pairwise_cons]
  refine ⟨ascendingFront, ⟨fun stored member => ?_, ascendingBack⟩,
    fun first before second behind => ?_⟩
  · exact contract.gt_iff_lt.mp (around.above stored member)
  · rcases List.mem_cons.mp behind with rfl | later
    · exact around.below first before
    · exact across first before second later

/-- Another value keeps the keys ascending. -/
theorem ascending_withValue (ascending : Ascending cmp (front ++ entry :: back)) (value : ν) :
    Ascending cmp (front ++ (entry.1, value) :: back) := by
  unfold Ascending at ascending ⊢
  rw [List.pairwise_append, List.pairwise_cons] at ascending ⊢
  obtain ⟨ascendingFront, ⟨upper, ascendingBack⟩, across⟩ := ascending
  refine ⟨ascendingFront, ⟨upper, ascendingBack⟩, fun first before second behind => ?_⟩
  rcases List.mem_cons.mp behind with rfl | later
  · exact across first before entry List.mem_cons_self
  · exact across first before second (List.mem_cons_of_mem _ later)

/-- No entry beside the place of a key compares equal. -/
theorem Around.ne_eq (around : Around cmp key front back) :
    ∀ stored ∈ front ++ back, cmp stored.1 key ≠ .eq := by
  intro stored member
  rcases List.mem_append.mp member with before | behind
  · rw [around.below stored before]
    decide
  · rw [around.above stored behind]
    decide

end Place

/-! ### In a row of towers -/

section Row

variable {ρ : Type} [RandomSource ρ] {cmp : Comparator κ}

theorem around_of_tower (preorder : cmp.TotalPreorder) {key : κ}
    {front back : List (Tower (κ × ν))} {tower : Tower (κ × ν)}
    (ascending : Ascending cmp ((front ++ tower :: back).map Tower.value))
    (equal : asks cmp key tower.value = .eq) :
    Around cmp key (front.map Tower.value) (back.map Tower.value) := by
  rw [List.map_append, List.map_cons] at ascending
  exact around_of_equal preorder ascending equal

/-- A gap behind a tower below a key and before one above it is the place of the key. -/
theorem around_of_towers (contract : cmp.Contract) {key : κ} {front back : List (Tower (κ × ν))}
    (ascending : Ascending cmp ((front ++ back).map Tower.value))
    (below : ∀ tower ∈ front.getLast?, asks cmp key tower.value = .lt)
    (above : ∀ tower ∈ back.head?, asks cmp key tower.value = .gt) :
    Around cmp key (front.map Tower.value) (back.map Tower.value) := by
  rw [List.map_append] at ascending
  refine around_of_gap contract ascending (fun stored last => ?_) fun stored first => ?_
  · rw [List.getLast?_map] at last
    obtain ⟨tower, isLast, rfl⟩ := Option.map_eq_some_iff.mp last
    exact below tower isLast
  · rw [List.head?_map] at first
    obtain ⟨tower, isFirst, rfl⟩ := Option.map_eq_some_iff.mp first
    exact above tower isFirst

/-- A gap of a key behind which the first tower does not compare equal is the place of the key. -/
theorem around_of_misses (contract : cmp.Contract) {key : κ} {front back : List (Tower (κ × ν))}
    (positive : ∀ tower ∈ front ++ back, 0 < tower.height)
    (ascending : Ascending cmp ((front ++ back).map Tower.value))
    (gap : gapOf cmp key (front ++ back) = (front, back))
    (misses : ∀ tower ∈ back.head?, asks cmp key tower.value ≠ .eq) :
    Around cmp key (front.map Tower.value) (back.map Tower.value) := by
  obtain ⟨-, below, notBelow⟩ := gapOf_spec positive gap
  refine around_of_towers contract ascending below fun tower first => ?_
  cases outcome : asks cmp key tower.value with
  | lt => exact absurd outcome (notBelow tower first)
  | eq => exact absurd outcome (misses tower first)
  | gt => rfl

/-- **Under the contract alone every operation keeps the keys ascending.** -/
theorem Acts.ascending (contract : cmp.Contract) {operation : Operation κ ν}
    {row row' : List (Tower (κ × ν))} {heights heights' : HeightGenerator ρ} {answer : Answer κ ν}
    (positive : ∀ tower ∈ row, 0 < tower.height)
    (acts : Acts cmp operation (row, heights) answer (row', heights'))
    (ascending : Ascending cmp (row.map Tower.value)) : Ascending cmp (row'.map Tower.value) := by
  cases acts with
  | added gap misses =>
    have around := around_of_misses contract positive ascending gap misses
    rw [List.map_append] at ascending
    rw [List.map_append, List.map_cons]
    exact around.ascending_insert contract ascending _
  | replaced | modified =>
    rw [List.map_append, List.map_cons] at ascending ⊢
    exact ascending_withValue ascending _
  | removed => exact List.Pairwise.sublist ((sublist_insert _ _ _).map Tower.value) ascending
  | cleared => exact List.Pairwise.nil
  | got | notModified | contained | notRemoved | first | last | size | isEmpty | entries =>
    exact ascending

end Row

end OrderedCollections.SkipMap
