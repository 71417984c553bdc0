/-
**What the operations do to a sound map.**

Every operation on a sound map comes to a result, and the map it leaves behind is sound again.
Nothing is asked of the comparator here: putting and removing act in the gap of the key, reading and
changing a value act on the tower found for it, and both are told by the row alone.

* `gapOf`, `foundIn`: the gap of a key and the tower found for it, as the row tells them.
* `get?_spec`, `contains_spec`, `first?_spec`, `last?_spec`: the questions.
* `iterator_yields`, `entries_spec`: the entries are those of the row.
* `put_spec`, `modify_spec`, `remove_spec`: the changes.
-/

import OrderedCollections.Proofs.Iteration
import OrderedCollections.Proofs.SkipMap.Splice
import OrderedCollections.SkipMap.Iterator

namespace OrderedCollections.SkipMap

open SkipList

variable {κ ν ρ : Type} {σ : Type → Type} [NodeStore σ]

/-- How the stored entries stand to a wanted key. -/
def asks (cmp : Comparator κ) (wanted : κ) (stored : κ × ν) : Ordering :=
  cmp stored.1 wanted

/-- The gap behind the towers below a wanted key, on the levels that the row needs. -/
def gapOf (cmp : Comparator κ) (wanted : κ) (row : List (Tower (κ × ν))) :
    List (Tower (κ × ν)) × List (Tower (κ × ν)) :=
  rowGap (asks cmp wanted) (peak row) row

/-- The first tower met whose key compares equal to a wanted one, with the towers before and behind
it. -/
def foundIn (cmp : Comparator κ) (wanted : κ) (row : List (Tower (κ × ν))) :
    Option (List (Tower (κ × ν)) × Tower (κ × ν) × List (Tower (κ × ν))) :=
  rowFind (asks cmp wanted) (peak row) row

/-- A gap lies behind a tower below the wanted key and before one that is not below it. -/
theorem gapOf_spec {cmp : Comparator κ} {wanted : κ} {row front back : List (Tower (κ × ν))}
    (positive : ∀ tower ∈ row, 0 < tower.height) (gap : gapOf cmp wanted row = (front, back)) :
    front ++ back = row ∧ (∀ tower ∈ front.getLast?, asks cmp wanted tower.value = .lt) ∧
      ∀ tower ∈ back.head?, asks cmp wanted tower.value ≠ .lt := by
  obtain ⟨front', back', turns, split, found, -, -, passed, stopped⟩ :=
    rowGap_spec (asks cmp wanted) (one_le_peak row) positive
  obtain ⟨rfl, rfl⟩ := Prod.mk.inj (gap.symm.trans found)
  refine ⟨split, fun tower last => ?_, fun tower first => ?_⟩
  · obtain ⟨others, rfl⟩ := List.getLast?_eq_some_iff.mp last
    exact passed others tower rfl
  · obtain ⟨others, rfl⟩ := List.head?_eq_some_iff.mp first
    exact stopped tower others rfl

/-- A tower that is found compares equal. -/
theorem foundIn_eq_some {cmp : Comparator κ} {wanted : κ} {row near far : List (Tower (κ × ν))}
    {tower : Tower (κ × ν)} (positive : ∀ tower ∈ row, 0 < tower.height)
    (found : foundIn cmp wanted row = some (near, tower, far)) :
    near ++ tower :: far = row ∧ asks cmp wanted tower.value = .eq := by
  rcases rowFind_spec (asks cmp wanted) (one_le_peak row) positive with
    ⟨near', tower', far', split, equal, met⟩ | ⟨nowhere, -⟩
  · have same : some (near', tower', far') = some (near, tower, far) := met.symm.trans found
    cases same
    exact ⟨split, equal⟩
  · cases nowhere.symm.trans found

/-- Where no tower is found, there is a gap between one below the wanted key and one above it. -/
theorem foundIn_eq_none {cmp : Comparator κ} {wanted : κ} {row : List (Tower (κ × ν))}
    (positive : ∀ tower ∈ row, 0 < tower.height) (nowhere : foundIn cmp wanted row = none) :
    ∃ front back, front ++ back = row ∧
      (∀ tower ∈ front.getLast?, asks cmp wanted tower.value = .lt) ∧
      ∀ tower ∈ back.head?, asks cmp wanted tower.value = .gt := by
  rcases rowFind_spec (asks cmp wanted) (one_le_peak row) positive with
    ⟨near, tower, far, -, -, met⟩ | ⟨-, front, back, split, passed, stopped⟩
  · cases nowhere.symm.trans met
  · refine ⟨front, back, split, fun tower last => ?_, fun tower first => ?_⟩
    · obtain ⟨others, rfl⟩ := List.getLast?_eq_some_iff.mp last
      exact passed others tower rfl
    · obtain ⟨others, rfl⟩ := List.head?_eq_some_iff.mp first
      exact stopped tower others rfl

section Reads

variable {map : SkipMap κ ν ρ σ} {row front back : List (Tower (κ × ν))} {tower : Tower (κ × ν)}

theorem entryAt_spec (sound : Sound map row) (member : tower ∈ row) :
    map.entryAt tower.id = .ok tower.value := by
  obtain ⟨node, -, fetched, entry, -⟩ := sound.node_eq member
  simp only [entryAt, fetched, Checked.ok_bind, Checked.pure_eq_ok, entry]

/-- A search for a key ends at the tower that is found in the row, if there is one. -/
theorem find?_cases (sound : Sound map row) (wanted : κ) :
    (∃ near tower far, near ++ tower :: far = row ∧
      foundIn map.cmp wanted row = some (near, tower, far) ∧
      map.find? wanted = .ok (some tower.id)) ∨
    (foundIn map.cmp wanted row = none ∧ map.find? wanted = .ok none) := by
  have searched := find?_spec sound wanted
  have same : rowFind (fun stored : κ × ν => map.cmp stored.1 wanted) map.height row =
      foundIn map.cmp wanted row := by
    rw [sound.height_eq]
    rfl
  rw [same] at searched
  rcases rowFind_spec (asks map.cmp wanted) (one_le_peak row) sound.positive with
    ⟨near, tower, far, split, -, found⟩ | ⟨nowhere, -⟩
  · have found' : foundIn map.cmp wanted row = some (near, tower, far) := found
    rw [found'] at searched
    exact Or.inl ⟨near, tower, far, split, found', searched⟩
  · have nowhere' : foundIn map.cmp wanted row = none := nowhere
    rw [nowhere'] at searched
    exact Or.inr ⟨nowhere', searched⟩

/-- **The value of a key** is that of the tower found. -/
theorem get?_spec (sound : Sound map row) (wanted : κ) :
    map.get? wanted =
      .ok ((foundIn map.cmp wanted row).map fun found => found.2.1.value.2) := by
  unfold get?
  rcases find?_cases sound wanted with ⟨near, tower, far, rfl, found, searched⟩ | ⟨nowhere, searched⟩
  · obtain ⟨node, -, fetched, entry, -⟩ := sound.node_eq (show tower ∈ near ++ tower :: far by simp)
    rw [found, searched, Option.map_some, ← congrArg Prod.snd entry]
    simp only [fetched, Checked.ok_bind, Checked.pure_eq_ok]
  · rw [nowhere, searched]
    rfl

/-- **A key is present** if a tower is found. -/
theorem contains_spec (sound : Sound map row) (wanted : κ) :
    map.contains wanted = .ok (foundIn map.cmp wanted row).isSome := by
  unfold contains
  rcases find?_cases sound wanted with ⟨near, tower, far, -, found, searched⟩ | ⟨nowhere, searched⟩
  · rw [found, searched]
    rfl
  · rw [nowhere, searched]
    rfl

/-- The entry with the smallest key is that of the first tower. -/
theorem first?_spec (sound : Sound map row) : map.first? = .ok (row.head?.map Tower.value) := by
  unfold first?
  rw [sound.first_eq]
  cases row with
  | nil => rfl
  | cons tower others =>
    simp only [List.head?_cons, Option.map_some, entryAt_spec sound List.mem_cons_self,
      Checked.ok_bind, Checked.pure_eq_ok]

/-- The entry with the largest key is that of the last tower, behind which a descent that passes
every tower leaves the row. -/
theorem last?_spec (sound : Sound map row) : map.last? = .ok (row.getLast?.map Tower.value) := by
  have answers : askKey (fun _ : κ => Ordering.lt) =
      fun _ _ (_ : κ × ν) => Ordering.lt := rfl
  have descended := descend_eq (fun _ => .lt) sound
  rw [answers] at descended
  rcases rowDescend_cases (fun _ _ _ => .lt) sound.height_pos sound.positive with
    ⟨-, -, -, -, stopped, -⟩ | ⟨front, back, turns, split, landed, marks, -, stopped⟩
  · cases stopped
  · have passedAll : back = [] := by
      refine List.eq_nil_iff_forall_not_mem.mpr fun tower member => ?_
      obtain ⟨first, others, rfl⟩ := List.exists_cons_of_ne_nil (List.ne_nil_of_mem member)
      cases stopped first others rfl
    subst passedAll
    rw [List.append_nil] at split
    subst split
    have lowest : place (turns.map owner) = owner front := by
      rw [place, List.headD_eq_head?_getD, List.head?_map,
        marks.head_eq sound.height_pos sound.positive]
      rfl
    unfold last?
    rw [descended, landed, Checked.ok_bind, Landing.ofRow, Landing.turns, lowest]
    rcases List.eq_nil_or_concat' front with rfl | ⟨others, tower, rfl⟩
    · rfl
    · simp only [owner_concat, entryAt_spec sound (List.mem_append_right _ List.mem_cons_self),
        Checked.ok_bind, Checked.pure_eq_ok, List.getLast?_concat, Option.map_some]

/-- An iterator that stands before some towers of the row yields their entries. -/
theorem yields_of_sound (sound : Sound map row) (split : front ++ back = row) :
    Yields (⟨map.nodes, back.head?.map Tower.id, back.length⟩ : Iterator κ ν σ)
      (back.map Tower.value) := by
  induction back generalizing front with
  | nil => exact .done rfl rfl
  | cons tower back ih =>
    have place : (front ++ [tower]) ++ back = row := by rw [← split]; simp
    obtain ⟨node, stored, -, entry, -⟩ := sound.node_eq (show tower ∈ row by rw [← split]; simp)
    have linked := sound.forwardAt_zero place
    rw [owner_concat, forwardAt_node stored, Checked.ofOption_eq_ok] at linked
    refine .item ?_ (by rw [List.length_map]; rfl) (ih place)
    show Iterator.next? _ = _
    simp only [List.length_cons, List.head?_cons, Option.map_some, Iterator.next?,
      NodeStore.fetch_eq_ok stored, Checked.ok_bind, linked, Checked.ofOption_some,
      Checked.minus_of_le (Nat.le_add_left 1 back.length), Nat.add_sub_cancel, Checked.pure_eq_ok,
      entry]

/-- **The iterator of a map yields the entries of the row.** -/
theorem iterator_yields (sound : Sound map row) : Yields map.iterator (row.map Tower.value) := by
  have yields := yields_of_sound sound (List.nil_append row)
  rw [← sound.size_eq, ← sound.first_eq] at yields
  exact yields

/-- **The entries in order are those of the row.** -/
theorem entries_spec (sound : Sound map row) : map.entries = .ok (row.map Tower.value) := by
  refine (iterator_yields sound).drain ?_
  rw [List.length_map, sound.size_eq]
  exact Nat.le_succ _

end Reads

/-! ### Changes -/

/-- A tower with another value under the same key. -/
def withValue (value : ν) (tower : Tower (κ × ν)) : Tower (κ × ν) :=
  { tower with value := (tower.value.1, value) }

section Changes

variable [LawfulNodeStore σ] {map : SkipMap κ ν ρ σ} {row front back : List (Tower (κ × ν))}
  {tower : Tower (κ × ν)}

/-- **The value of an entry is changed**, and nothing else. -/
theorem replaceAt_spec (sound : Sound map (front ++ tower :: back)) (change : ν → ν) :
    ∃ after, map.replaceAt tower.id change = .ok (tower.value.2, after) ∧ after.cmp = map.cmp ∧
      after.heights = map.heights ∧
      Sound after (front ++ withValue (change tower.value.2) tower :: back) := by
  obtain ⟨node, stored, fetched, entry, height⟩ :=
    sound.node_eq (show tower ∈ front ++ tower :: back by simp)
  have key : node.key = tower.value.1 := congrArg Prod.fst entry
  have value : node.value = tower.value.2 := congrArg Prod.snd entry
  let changed : Node κ ν := { node with value := change node.value }
  obtain ⟨size, bodies, linksHere, linksElsewhere⟩ := setNode_spec stored changed
  refine ⟨{ map with nodes := NodeStore.set tower.id changed map.nodes }, ?_, rfl, rfl,
    sound.replace rfl rfl (fun id => ?_) size rfl rfl rfl fun level => ?_⟩
  · simp only [replaceAt, fetched, Checked.ok_bind, Checked.pure_eq_ok, changed, value]
  · rw [bodies]
    simp only [withValue, Node.body, changed, key, value, height]
  · funext place
    by_cases here : place = .node tower.id
    · rw [here, linksHere, forwardAt_node stored]
    · exact linksElsewhere level place here

/-- **The value of a key is changed** at the tower found. -/
theorem modify_spec (sound : Sound map row) (wanted : κ) (change : ν → ν) :
    (∃ near tower far after, near ++ tower :: far = row ∧
      foundIn map.cmp wanted row = some (near, tower, far) ∧
      map.modify wanted change = .ok (some (change tower.value.2), after) ∧ after.cmp = map.cmp ∧
      after.heights = map.heights ∧
      Sound after (near ++ withValue (change tower.value.2) tower :: far)) ∨
    (foundIn map.cmp wanted row = none ∧ map.modify wanted change = .ok (none, map)) := by
  unfold modify
  rcases find?_cases sound wanted with ⟨near, tower, far, rfl, found, searched⟩ | ⟨nowhere, searched⟩
  · obtain ⟨after, replaced, cmp, heights, soundAfter⟩ := replaceAt_spec sound change
    refine Or.inl ⟨near, tower, far, after, rfl, found, ?_, cmp, heights, soundAfter⟩
    simp only [searched, Checked.ok_bind, replaced, Checked.pure_eq_ok]
  · exact Or.inr ⟨nowhere, by rw [searched]; rfl⟩

omit [LawfulNodeStore σ] in
theorem isTaken_spec (sound : Sound map row) (member : tower ∈ row) (wanted : κ) :
    map.isTaken wanted tower.id = .ok (asks map.cmp wanted tower.value == .eq) := by
  obtain ⟨node, -, fetched, entry, -⟩ := sound.node_eq member
  have key : node.key = tower.value.1 := congrArg Prod.fst entry
  simp only [isTaken, fetched, Checked.ok_bind, key, Checked.pure_eq_ok, asks]

omit [LawfulNodeStore σ] in
/-- What an operation finds in the gap of a key: the first tower behind it compares equal, or there
is none or another one. -/
theorem gap_cases_spec (sound : Sound map row) (wanted : κ) :
    ∃ front back turns, front ++ back = row ∧ gapOf map.cmp wanted row = (front, back) ∧
      map.gap wanted = .ok ⟨turns, back.head?.map Tower.id⟩ ∧ turns.length = map.height ∧
      (∀ level turn, turns[level]? = some turn → TurnsAt front level turn) ∧
      ((∃ tower others, back = tower :: others ∧ asks map.cmp wanted tower.value = .eq ∧
          map.isTaken wanted tower.id = .ok true) ∨
        (∀ tower ∈ back.head?, asks map.cmp wanted tower.value ≠ .eq) ∧
          ∀ tower ∈ back.head?, map.isTaken wanted tower.id = .ok false) := by
  obtain ⟨front, back, turns, rfl, inRow, found, levels, marks, -, -⟩ := gap_spec sound wanted
  refine ⟨front, back, turns, rfl, ?_, found, levels, marks, ?_⟩
  · rw [sound.height_eq] at inRow
    exact inRow
  cases back with
  | nil => exact Or.inr ⟨by simp, by simp⟩
  | cons tower others =>
    have taken := isTaken_spec sound (show tower ∈ front ++ tower :: others by simp) wanted
    by_cases equal : asks map.cmp wanted tower.value = .eq
    · exact Or.inl ⟨tower, others, rfl, equal, by rw [taken, equal]; rfl⟩
    · refine Or.inr ⟨fun other isFirst => ?_, fun other isFirst => ?_⟩
      · rw [← Option.some.inj isFirst]
        exact equal
      · rw [← Option.some.inj isFirst, taken, beq_eq_false_iff_ne.mpr equal]

/-- **A new entry in its gap.** Its tower is as high as the height drawn. -/
theorem insert_spec [RandomSource ρ] (sound : Sound map (front ++ back)) {turns : List Cursor}
    (levels : turns.length = map.height)
    (marks : ∀ level turn, turns[level]? = some turn → TurnsAt front level turn) (key : κ)
    (value : ν) :
    ∃ id after, map.insert key value turns = .ok after ∧ after.cmp = map.cmp ∧
      after.heights = map.heights.next.2 ∧
      Sound after (front ++ ⟨id, (key, value), map.heights.next.1⟩ :: back) := by
  have drawn : Sound { map with heights := map.heights.next.2 } (front ++ back) :=
    sound.draw map.heights.next.2 rfl
  exact insertAt_spec drawn levels marks key value (HeightGenerator.heightOf_pos _ _ _)
    (HeightGenerator.heightOf_le _ sound.maxHeight_pos _)

/-- **A value is put under a key**: the first tower behind the gap takes it if its key compares equal,
or else a new tower comes into the gap. -/
theorem put_spec [RandomSource ρ] (sound : Sound map row) (key : κ) (value : ν) :
    ∃ front back, front ++ back = row ∧ gapOf map.cmp key row = (front, back) ∧
      ((∃ tower others, back = tower :: others ∧ asks map.cmp key tower.value = .eq ∧
          ∃ after, map.put key value = .ok (some tower.value.2, after) ∧ after.cmp = map.cmp ∧
            after.heights = map.heights ∧ Sound after (front ++ withValue value tower :: others)) ∨
        ((∀ tower ∈ back.head?, asks map.cmp key tower.value ≠ .eq) ∧
          ∃ id after, map.put key value = .ok (none, after) ∧ after.cmp = map.cmp ∧
            after.heights = map.heights.next.2 ∧
            Sound after (front ++ ⟨id, (key, value), map.heights.next.1⟩ :: back))) := by
  obtain ⟨front, back, turns, rfl, inRow, found, levels, marks, ⟨tower, others, rfl, equal, taken⟩ |
    ⟨different, notTaken⟩⟩ := gap_cases_spec sound key
  · obtain ⟨after, replaced, cmp, heights, soundAfter⟩ := replaceAt_spec sound fun _ => value
    refine ⟨front, _, rfl, inRow,
      Or.inl ⟨tower, others, rfl, equal, after, ?_, cmp, heights, soundAfter⟩⟩
    simp only [put, found, Checked.ok_bind, List.head?_cons, Option.map_some, taken, if_true,
      replaced, Checked.pure_eq_ok]
  · obtain ⟨id, after, inserted, cmp, heights, soundAfter⟩ :=
      insert_spec sound levels marks key value
    refine ⟨front, back, rfl, inRow, Or.inr ⟨different, id, after, ?_, cmp, heights, soundAfter⟩⟩
    unfold put
    rw [found, Checked.ok_bind]
    cases back with
    | nil => simp only [List.head?_nil, Option.map_none, inserted, Checked.ok_bind, Checked.pure_eq_ok]
    | cons tower others =>
      simp only [List.head?_cons, Option.map_some, notTaken tower rfl, Checked.ok_bind,
        Bool.false_eq_true, if_false, inserted, Checked.pure_eq_ok]

/-- **The entry of a key is removed** if the first tower behind the gap compares equal. -/
theorem remove_spec (sound : Sound map row) (wanted : κ) :
    ∃ front back, front ++ back = row ∧ gapOf map.cmp wanted row = (front, back) ∧
      ((∃ tower others, back = tower :: others ∧ asks map.cmp wanted tower.value = .eq ∧
          ∃ after, map.remove wanted = .ok (some tower.value.2, after) ∧ after.cmp = map.cmp ∧
            after.heights = map.heights ∧ Sound after (front ++ others)) ∨
        ((∀ tower ∈ back.head?, asks map.cmp wanted tower.value ≠ .eq) ∧
          map.remove wanted = .ok (none, map))) := by
  obtain ⟨front, back, turns, rfl, inRow, found, levels, marks, ⟨tower, others, rfl, equal, taken⟩ |
    ⟨different, notTaken⟩⟩ := gap_cases_spec sound wanted
  · obtain ⟨after, unlinked, cmp, heights, soundAfter⟩ := unlink_spec sound levels marks
    refine ⟨front, _, rfl, inRow,
      Or.inl ⟨tower, others, rfl, equal, after, ?_, cmp, heights, soundAfter⟩⟩
    simp only [remove, found, Checked.ok_bind, List.head?_cons, Option.map_some, taken, if_true,
      unlinked, Checked.pure_eq_ok]
  · refine ⟨front, back, rfl, inRow, Or.inr ⟨different, ?_⟩⟩
    unfold remove
    rw [found, Checked.ok_bind]
    cases back with
    | nil => rfl
    | cons tower others =>
      simp only [List.head?_cons, Option.map_some, notTaken tower rfl, Checked.ok_bind,
        Bool.false_eq_true, if_false, Checked.pure_eq_ok]

end Changes

end OrderedCollections.SkipMap
