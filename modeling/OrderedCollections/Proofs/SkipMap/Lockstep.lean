/-
**A skip map and a skip list in lockstep.**

A map and a list that draw the same heights and are asked for the same keys have towers of the same
heights under the same keys, whatever the comparator answers. So their descents go the same way, and
the list tells at which position the map works.

* `Matched`: towers of the same keys and heights, one for one.
* `Matched.gap`, `Matched.find`: descents along matched rows go the same way.
* `Joint`: a map and a list with matched rows.
* `Joint.put`, `Joint.remove`, `Joint.read`, `Joint.clear`: the steps that they make together.
-/

import OrderedCollections.Proofs.SkipList.Alike
import OrderedCollections.Proofs.SkipList.Run
import OrderedCollections.Proofs.SkipMap.Run

namespace OrderedCollections.SkipMap

open SkipList

variable {κ ν ρ : Type}

/-! ### Matched rows -/

/-- The key and the height of a tower of a map. -/
def bareEntry (tower : Tower (κ × ν)) : Tower κ :=
  ⟨⟨0⟩, tower.value.1, tower.height⟩

/-- The element and the height of a tower of a list. -/
def bareElement (tower : Tower κ) : Tower κ :=
  ⟨⟨0⟩, tower.value, tower.height⟩

theorem height_bareEntry (tower : Tower (κ × ν)) : (bareEntry tower).height = tower.height := rfl

theorem height_bareElement (tower : Tower κ) : (bareElement tower).height = tower.height := rfl

/-- Towers of the same keys and heights, one for one. -/
def Matched (row : List (Tower (κ × ν))) (keys : List (Tower κ)) : Prop :=
  row.map bareEntry = keys.map bareElement

namespace Matched

variable {row front back : List (Tower (κ × ν))} {keys front' back' : List (Tower κ)}
  {tower : Tower (κ × ν)} {tower' : Tower κ}

theorem alike (matched : Matched row keys) : Alike bareEntry bareElement row keys :=
  matched

theorem length_eq (matched : Matched row keys) : row.length = keys.length :=
  matched.alike.length_eq

theorem keys_eq (matched : Matched row keys) :
    (row.map Tower.value).map Prod.fst = keys.map Tower.value := by
  have same := congrArg (List.map Tower.value) matched
  rw [List.map_map, List.map_map] at same
  exact (List.map_map ..).trans same

theorem peak_eq (matched : Matched row keys) : peak row = peak keys :=
  matched.alike.peak_eq height_bareEntry height_bareElement

theorem append (first : Matched front front') (second : Matched back back') :
    Matched (front ++ back) (front' ++ back') :=
  first.alike.append second.alike

theorem cons (same : bareEntry tower = bareElement tower') (others : Matched back back') :
    Matched (tower :: back) (tower' :: back') :=
  Alike.cons same others.alike

/-- **The gap of a key is in the same place** of matched rows. -/
theorem gap (matched : Matched row keys) {cmp : Comparator κ} {key : κ}
    (gap : gapOf cmp key row = (front, back))
    (gap' : rowGap (cmp · key) (peak keys) keys = (front', back')) :
    Matched front front' ∧ Matched back back' := by
  unfold gapOf at gap
  rw [← matched.peak_eq] at gap'
  exact matched.alike.gap height_bareEntry height_bareElement (cmp · key) (fun _ => rfl)
    (fun _ => rfl) gap gap'

/-- **The first equal key met is in the same place** of matched rows. -/
theorem find (matched : Matched row keys) (cmp : Comparator κ) (key : κ) :
    (foundIn cmp key row).map (fun found => found.1.length) =
      (rowFind (cmp · key) (peak keys) keys).map fun found => found.1.length := by
  unfold foundIn
  rw [← matched.peak_eq]
  exact matched.alike.find height_bareEntry height_bareElement (cmp · key) (fun _ => rfl)
    (fun _ => rfl) _

end Matched

/-! ### Steps that a map and a list make together -/

theorem insertIdx_length {β : Type} (front back : List β) (item : β) :
    (front ++ back).insertIdx front.length item = front ++ item :: back := by
  induction front with
  | nil => rfl
  | cons first others ih =>
    rw [List.cons_append, List.length_cons, List.insertIdx_succ_cons, ih, List.cons_append]

/-- A map and a list whose rows are matched, and which draw the same heights from now on. -/
structure Joint {σ τ : Type → Type} [NodeStore σ] [NodeStore τ] (map : SkipMap κ ν ρ σ)
    (list : SkipList κ ρ τ) (row : List (Tower (κ × ν))) (keys : List (Tower κ)) : Prop where
  soundMap : Sound map row
  soundList : SkipList.Sound list keys
  cmp : map.cmp = list.cmp
  heights : map.heights = list.heights
  matched : Matched row keys

namespace Joint

section Steps

variable {σ τ : Type → Type} [NodeStore σ] [NodeStore τ] {map : SkipMap κ ν ρ σ}
  {list : SkipList κ ρ τ} {row front back : List (Tower (κ × ν))}
  {keys front' back' : List (Tower κ)}

theorem height_eq (joint : Joint map list row keys) : map.height = list.height := by
  rw [joint.soundMap.height_eq, joint.soundList.height_eq, joint.matched.peak_eq]

theorem gap (joint : Joint map list row keys) {key : κ}
    (gap : gapOf map.cmp key row = (front, back))
    (gap' : rowGap (list.cmp · key) list.height keys = (front', back')) :
    Matched front front' ∧ Matched back back' := by
  rw [joint.cmp] at gap
  rw [joint.soundList.height_eq] at gap'
  exact joint.matched.gap gap gap'

theorem equal_iff (joint : Joint map list row keys) (key : κ) (tower : Tower (κ × ν))
    (tower' : Tower κ) (same : bareEntry tower = bareElement tower') :
    asks map.cmp key tower.value = .eq ↔ list.cmp tower'.value key = .eq := by
  have element : tower.value.1 = tower'.value := congrArg Tower.value same
  rw [asks, joint.cmp, element]

/-- A value that is written leaves the rows matched. -/
theorem withValue {tower : Tower (κ × ν)} (joint : Joint map list (front ++ tower :: back) keys)
    {after : SkipMap κ ν ρ σ} {value : ν}
    (sound : Sound after (front ++ SkipMap.withValue value tower :: back))
    (cmp : after.cmp = map.cmp) (heights : after.heights = map.heights) :
    Joint after list (front ++ SkipMap.withValue value tower :: back) keys where
  soundMap := sound
  soundList := joint.soundList
  cmp := cmp.trans joint.cmp
  heights := heights.trans joint.heights
  matched := by
    have matched := joint.matched
    unfold Matched at matched ⊢
    rw [← matched, List.map_append, List.map_append, List.map_cons, List.map_cons]
    rfl

/-- A list finds the first element behind the gap of a key that is taken. -/
theorem find_at_gap (joint : Joint map list row (front' ++ back')) {key : κ} {tower : Tower κ}
    {others : List (Tower κ)} (split : back' = tower :: others)
    (gap : rowGap (list.cmp · key) list.height (front' ++ back') = (front', back'))
    (equal : list.cmp tower.value key = .eq) : list.find key = .ok (.ok ⟨list, tower.id⟩) := by
  obtain ⟨near, far, -, found, -, ⟨first, rest, rfl, -, finds⟩ | ⟨misses, -⟩⟩ :=
    SkipList.find_spec joint.soundList key
  · obtain ⟨-, same⟩ := Prod.mk.inj (found.symm.trans gap)
    obtain ⟨rfl, -⟩ := List.cons.inj (same.trans split)
    exact finds
  · obtain ⟨-, same⟩ := Prod.mk.inj (found.symm.trans gap)
    refine absurd equal (misses tower ?_)
    rw [same, split]
    rfl

variable [LawfulNodeStore σ] [LawfulNodeStore τ]

/-- **A put and an insertion.** Either both add a node in the same place, or the list rejects the key
and names the entry whose value the map replaces. -/
theorem put [RandomSource ρ] (joint : Joint map list row keys) (key : κ) (value : ν) :
    (∃ after, ∃ entry : Entry κ ρ τ, ∃ rank row' keys', map.put key value = .ok (none, after) ∧
      list.insert key = .ok (.ok entry.id, entry.list) ∧ entry.rank = .ok (rank + 1) ∧
      (∃ told, entry.told = .ok told) ∧
      row'.map Tower.value = (row.map Tower.value).insertIdx rank (key, value) ∧
      Joint after entry.list row' keys') ∨
    (∃ after entry rank stored old row', map.put key value = .ok (some old, after) ∧
      list.insert key = .ok (.error .duplicated, list) ∧ list.find key = .ok (.ok entry) ∧
      entry.rank = .ok (rank + 1) ∧ (row.map Tower.value)[rank]? = some (stored, old) ∧
      row'.map Tower.value = (row.map Tower.value).set rank (stored, value) ∧
      Joint after list row' keys) := by
  obtain ⟨front, back, rfl, gap, outcome⟩ := put_spec joint.soundMap key value
  obtain ⟨front', back', rfl, gap', -, outcome'⟩ := SkipList.insert_spec joint.soundList key
  obtain ⟨matchedFront, matchedBack⟩ := joint.gap gap gap'
  rcases matchedBack.alike.both_or_neither (joint.equal_iff key) outcome outcome' with
    ⟨tower, others, tower', others', rfl, rfl, -, equal,
      ⟨after, done, cmp, heights, soundAfter⟩, rejected⟩ |
    ⟨⟨id, after, done, cmp, heights, soundAfter⟩, id', after', inserted, cmp', heights', soundAfter'⟩
  · refine Or.inr ⟨after, _, front.length, tower.value.1, tower.value.2, _, done, rejected,
      joint.find_at_gap rfl gap' equal, ?_, by simp, ?_, joint.withValue soundAfter cmp heights⟩
    · rw [Entry.rank_spec joint.soundList rfl, matchedFront.length_eq]
    · simp [SkipMap.withValue]
  · refine Or.inl ⟨after, ⟨after', id'⟩, front.length, _, _, done, inserted, ?_,
      ⟨_, told_spec soundAfter' rfl⟩, ?_, soundAfter, soundAfter', ?_, ?_, ?_⟩
    · rw [Entry.rank_spec soundAfter' rfl, matchedFront.length_eq]
    · rw [List.map_append, List.map_append, List.map_cons, ← List.length_map Tower.value,
        insertIdx_length]
    · rw [cmp, cmp', joint.cmp]
    · rw [heights, heights', joint.heights]
    · refine matchedFront.append (.cons ?_ matchedBack)
      rw [bareEntry, bareElement, joint.heights]

/-- **A removal from both.** Either both take out what stands in the place that the list finds, or
there is nothing to take out. -/
theorem remove (joint : Joint map list row keys) (key : κ) :
    (∃ after after' entry rank stored value row' keys',
      map.remove key = .ok (some value, after) ∧ list.remove key = .ok (some stored, after') ∧
      list.find key = .ok (.ok entry) ∧ entry.rank = .ok (rank + 1) ∧
      (row.map Tower.value)[rank]? = some (stored, value) ∧
      row'.map Tower.value = (row.map Tower.value).eraseIdx rank ∧ Joint after after' row' keys') ∨
    (map.remove key = .ok (none, map) ∧ list.remove key = .ok (none, list)) := by
  obtain ⟨front, back, rfl, gap, outcome⟩ := remove_spec joint.soundMap key
  obtain ⟨front', back', rfl, gap', -, outcome'⟩ := SkipList.remove_spec joint.soundList key
  obtain ⟨matchedFront, matchedBack⟩ := joint.gap gap gap'
  rcases matchedBack.alike.both_or_neither (joint.equal_iff key) outcome outcome' with
    ⟨tower, others, tower', others', rfl, rfl, same, equal,
      ⟨after, done, cmp, heights, soundAfter⟩, after', done', cmp', heights', soundAfter'⟩ |
    ⟨done, done'⟩
  · have element : tower.value.1 = tower'.value := congrArg Tower.value same
    refine Or.inl ⟨after, after', _, front.length, _, _, _, _, done, done',
      joint.find_at_gap rfl gap' equal, ?_, ?_, ?_, soundAfter, soundAfter', ?_, ?_,
      matchedFront.append (List.cons.inj matchedBack).2⟩
    · rw [Entry.rank_spec joint.soundList rfl, matchedFront.length_eq]
    · rw [← element]
      simp
    · simp [List.eraseIdx_append_of_length_le]
    · rw [cmp, cmp', joint.cmp]
    · rw [heights, heights', joint.heights]
  · exact Or.inr ⟨done, done'⟩

omit [LawfulNodeStore τ] in
/-- **A search of both.** Either both stop at the same place, or neither stops. -/
theorem read (joint : Joint map list row keys) (key : κ) :
    (∃ rank stored value, list.rank key = .ok (.ok (rank + 1)) ∧
      (row.map Tower.value)[rank]? = some (stored, value) ∧ map.get? key = .ok (some value) ∧
      map.contains key = .ok true ∧
      ∀ change, ∃ after row', map.modify key change = .ok (some (change value), after) ∧
        row'.map Tower.value = (row.map Tower.value).set rank (stored, change value) ∧
        Joint after list row' keys) ∨
    (list.rank key = .ok (.error .notFound) ∧ map.get? key = .ok none ∧
      map.contains key = .ok false ∧ ∀ change, map.modify key change = .ok (none, map)) := by
  have ranked := SkipList.rank_spec joint.soundList key
  have got := get?_spec joint.soundMap key
  have contained := contains_spec joint.soundMap key
  have same := joint.matched.find map.cmp key
  rw [joint.cmp, ← joint.soundList.height_eq, ← joint.cmp] at same
  rcases find?_cases joint.soundMap key with ⟨near, tower, far, rfl, found, -⟩ | ⟨nowhere, -⟩
  · rw [found] at got contained same
    obtain ⟨⟨near', tower', far'⟩, found', length⟩ := Option.map_eq_some_iff.mp same.symm
    rw [joint.cmp] at found'
    rw [found'] at ranked
    have length' : near'.length = near.length := length
    refine Or.inl ⟨near.length, tower.value.1, tower.value.2, ?_, by simp, got, contained,
      fun change => ?_⟩
    · rw [ranked, ← length']
    · rcases modify_spec joint.soundMap key change with
        ⟨near'', tower'', far'', after, -, found'', done, cmp, heights, soundAfter⟩ | ⟨nowhere, -⟩
      · obtain ⟨rfl, rfl, rfl⟩ : near = near'' ∧ tower = tower'' ∧ far = far'' := by
          simpa using found.symm.trans found''
        exact ⟨after, _, done, by simp [SkipMap.withValue], joint.withValue soundAfter cmp heights⟩
      · cases found.symm.trans nowhere
  · rw [nowhere] at got contained same
    have nowhere' := Option.map_eq_none_iff.mp same.symm
    rw [joint.cmp] at nowhere'
    rw [nowhere'] at ranked
    refine Or.inr ⟨ranked, got, contained, fun change => ?_⟩
    rcases modify_spec joint.soundMap key change with ⟨_, _, _, _, -, found, -⟩ | ⟨-, done⟩
    · cases nowhere.symm.trans found
    · exact done

theorem clear (joint : Joint map list row keys) : Joint map.clear list.clear [] [] where
  soundMap := joint.soundMap.clear
  soundList := joint.soundList.clear
  cmp := joint.cmp
  heights := joint.heights
  matched := rfl

end Steps

end Joint

end OrderedCollections.SkipMap
