/-
**Which entry a key names.**

The contract of a comparator does not make its equality transitive, so that several stored keys may
compare equal to one that is asked for, although none of them equals another. Putting and removing act
on the first of these. Reading goes to the first of the tallest, and changing a value as well. These
are the same entry if the first one is as tall as any other, and so they are if there is no more than
one; where they are not, what was put under a key is not what is read afterwards.

* `Ascending.stretch`: the towers whose keys compare equal to a wanted one.
* `Agrees`: what the operations do with these.
* `run_agreement`: what every key names, after any run.
* `window_disagreement`: a run in which a value that was put is not read afterwards.
-/

import OrderedCollections.Comparator.Window
import OrderedCollections.Proofs.SkipList.Stretch
import OrderedCollections.Proofs.SkipMap.Ascending

namespace OrderedCollections.SkipMap

open SkipList

variable {κ ν ρ : Type} {σ : Type → Type} [NodeStore σ]

/-! ### The towers that a key names -/

section Stretches

variable {cmp : Comparator κ} {key : κ} {below equals above : List (Tower (κ × ν))}

/-- Under the contract, the towers of ascending keys are those below a wanted key, those equal to it
and those above it. -/
theorem Ascending.stretch (contract : cmp.Contract) {row : List (Tower (κ × ν))}
    (ascending : Ascending cmp (row.map Tower.value)) (key : κ) :
    ∃ below equals above, below ++ (equals ++ above) = row ∧
      Stretch (asks cmp key) below equals above := by
  refine exists_stretch ((List.pairwise_map.mp ascending).imp fun lower => ⟨?_, ?_⟩)
  · exact fun notBelow isBelow => notBelow (contract.lt_trans lower isBelow)
  · exact fun isAbove => contract.gt_trans (contract.gt_iff_lt.mpr lower) isAbove

theorem foundIn_of_stretch (stretch : Stretch (asks cmp key) below equals above)
    (positive : ∀ tower ∈ below ++ (equals ++ above), 0 < tower.height) :
    (foundIn cmp key (below ++ (equals ++ above))).map (fun found => found.2.1) =
      equals.argmax Tower.height :=
  rowFind_of_stretch stretch (one_le_peak _) positive fun tower member =>
    height_le_peak (by simp [member])

theorem gapOf_of_stretch (stretch : Stretch (asks cmp key) below equals above)
    (positive : ∀ tower ∈ below ++ (equals ++ above), 0 < tower.height) :
    gapOf cmp key (below ++ (equals ++ above)) = (below, equals ++ above) :=
  rowGap_of_stretch stretch (one_le_peak _) positive

/-- The tower behind the gap of a key is the first of those equal to it, if there are any. -/
theorem equals_of_gap (stretch : Stretch (asks cmp key) below equals above) :
    (∀ {tower others}, equals ++ above = tower :: others → asks cmp key tower.value = .eq →
      ∃ rest, equals = tower :: rest ∧ others = rest ++ above) ∧
    ((∀ tower ∈ (equals ++ above).head?, asks cmp key tower.value ≠ .eq) → equals = []) := by
  cases equals with
  | nil =>
    refine ⟨fun {tower others} split equal => ?_, fun _ => rfl⟩
    have isAbove := stretch.above_eq tower (by rw [← List.nil_append above, split]; simp)
    rw [equal] at isAbove
    cases isAbove
  | cons first rest =>
    refine ⟨fun {tower others} split _ => ?_, fun misses => ?_⟩
    · obtain ⟨rfl, rfl⟩ := List.cons.inj split
      exact ⟨rest, rfl, rfl⟩
    · exact absurd (stretch.equals_eq first (by simp)) (misses first rfl)

/-- Either the first tower is the first of the tallest, or one behind it is; a tower of the same height
in its place makes no difference. -/
theorem argmax_cons_cases (tower : Tower (κ × ν)) (rest : List (Tower (κ × ν))) :
    ((tower :: rest).argmax Tower.height = some tower ∧
      ∀ other : Tower (κ × ν), other.height = tower.height →
        (other :: rest).argmax Tower.height = some other) ∨
    ∃ best, tower.height < best.height ∧ (tower :: rest).argmax Tower.height = some best ∧
      ∀ other : Tower (κ × ν), other.height = tower.height →
        (other :: rest).argmax Tower.height = some best := by
  simp only [List.argmax_cons]
  cases rest.argmax Tower.height with
  | none => exact Or.inl ⟨rfl, fun _ _ => rfl⟩
  | some best =>
    by_cases taller : tower.height < best.height
    · refine Or.inr ⟨best, taller, if_pos taller, fun other same => if_pos ?_⟩
      rwa [same]
    · refine Or.inl ⟨if_neg taller, fun other same => if_neg ?_⟩
      rwa [same]

theorem stretch_withValue {tower : Tower (κ × ν)} {rest : List (Tower (κ × ν))}
    (stretch : Stretch (asks cmp key) below (tower :: rest) above) (value : ν) :
    Stretch (asks cmp key) below (withValue value tower :: rest) above where
  below_eq := stretch.below_eq
  equals_eq := List.forall_mem_cons.mpr (List.forall_mem_cons.mp stretch.equals_eq)
  above_eq := stretch.above_eq

end Stretches

/-! ### What is done with them -/

/-- **What the operations do with a key**, where `equals` are the towers whose keys compare equal to
it. Reading a value and changing it go to the first of the tallest, putting and removing to the first.
What was put is read afterwards if these are the same tower, and what was read before if they are
not. -/
structure Agrees [RandomSource ρ] (map : SkipMap κ ν ρ σ) (key : κ) (equals : List (Tower (κ × ν))) :
    Prop where
  get : map.get? key = .ok ((equals.argmax Tower.height).map fun tower => tower.value.2)
  modify : ∀ change, ∃ after, map.modify key change =
    .ok ((equals.argmax Tower.height).map fun tower => change tower.value.2, after)
  contains : map.contains key = .ok (!equals.isEmpty)
  put : ∀ value, ∃ after : SkipMap κ ν ρ σ,
    map.put key value = .ok (equals.head?.map fun tower => tower.value.2, after) ∧
      (equals.argmax Tower.height = equals.head? → after.get? key = .ok (some value)) ∧
      (equals.argmax Tower.height ≠ equals.head? → after.get? key = map.get? key)
  remove : ∃ after, map.remove key = .ok (equals.head?.map fun tower => tower.value.2, after)

section Agreement

variable {map : SkipMap κ ν ρ σ} {key : κ} {below equals above : List (Tower (κ × ν))}

theorem get?_of_stretch (sound : Sound map (below ++ (equals ++ above)))
    (stretch : Stretch (asks map.cmp key) below equals above) :
    map.get? key = .ok ((equals.argmax Tower.height).map fun tower => tower.value.2) := by
  rw [get?_spec sound, ← foundIn_of_stretch stretch sound.positive, Option.map_map]
  rfl

/-- A value put in the first of the towers is read afterwards if this is the one that is read, and
else what is read stays the same. -/
theorem get?_withValue {after : SkipMap κ ν ρ σ} {tower : Tower (κ × ν)} {rest : List (Tower (κ × ν))}
    {value : ν} (sound : Sound map (below ++ (tower :: rest ++ above)))
    (stretch : Stretch (asks map.cmp key) below (tower :: rest) above)
    (soundAfter : Sound after (below ++ (withValue value tower :: rest ++ above)))
    (cmp : after.cmp = map.cmp) :
    ((tower :: rest).argmax Tower.height = some tower → after.get? key = .ok (some value)) ∧
      ((tower :: rest).argmax Tower.height ≠ some tower → after.get? key = map.get? key) := by
  have before := get?_of_stretch sound stretch
  have later := get?_of_stretch soundAfter (by rw [cmp]; exact stretch_withValue stretch value)
  rcases argmax_cons_cases tower rest with
    ⟨isFirst, same⟩ | ⟨best, taller, isBest, same⟩
  · refine ⟨fun _ => ?_, fun other => absurd isFirst other⟩
    rw [later, same (withValue value tower) rfl]
    rfl
  · refine ⟨fun isFirst => ?_, fun _ => ?_⟩
    · rw [isBest, Option.some.injEq] at isFirst
      rw [isFirst] at taller
      exact absurd taller (Nat.lt_irrefl _)
    · rw [later, before, same (withValue value tower) rfl, isBest]

variable [RandomSource ρ] [LawfulNodeStore σ]

/-- **Putting a value** acts on the first of the towers, or brings a new one where there are none. -/
theorem put_of_stretch (contract : map.cmp.Contract) (sound : Sound map (below ++ (equals ++ above)))
    (stretch : Stretch (asks map.cmp key) below equals above) (value : ν) :
    ∃ after : SkipMap κ ν ρ σ,
      map.put key value = .ok (equals.head?.map fun tower => tower.value.2, after) ∧
        (equals.argmax Tower.height = equals.head? → after.get? key = .ok (some value)) ∧
        (equals.argmax Tower.height ≠ equals.head? → after.get? key = map.get? key) := by
  obtain ⟨ofEqual, ofMisses⟩ := equals_of_gap stretch
  obtain ⟨front, back, -, gap, outcome⟩ := put_spec sound key value
  rw [gapOf_of_stretch stretch sound.positive] at gap
  obtain ⟨rfl, rfl⟩ := Prod.mk.inj gap
  rcases outcome with ⟨tower, others, split, equal, after, done, cmp, -, soundAfter⟩ |
    ⟨misses, id, after, done, cmp, -, soundAfter⟩
  · obtain ⟨rest, rfl, rfl⟩ := ofEqual split equal
    exact ⟨after, done, get?_withValue sound stretch soundAfter cmp⟩
  · obtain rfl := ofMisses misses
    let new : Tower (κ × ν) := ⟨id, (key, value), map.heights.next.1⟩
    have alone : Stretch (asks after.cmp key) below [new] above := by
      rw [cmp]
      exact ⟨stretch.below_eq, List.forall_mem_singleton.mpr (contract.refl key), stretch.above_eq⟩
    refine ⟨after, done, fun _ => ?_, fun other => absurd rfl other⟩
    rw [get?_of_stretch soundAfter alone, List.argmax_singleton]
    rfl

/-- **The operations on a key agree on its towers** in a sound map whose keys ascend. -/
theorem agrees_of_stretch (contract : map.cmp.Contract)
    (sound : Sound map (below ++ (equals ++ above)))
    (stretch : Stretch (asks map.cmp key) below equals above) : Agrees map key equals where
  get := get?_of_stretch sound stretch
  modify change := by
    have tallest := congrArg (Option.map fun tower => change tower.value.2)
      (foundIn_of_stretch stretch sound.positive)
    rcases modify_spec sound key change with
      ⟨near, tower, far, after, -, found, done, -⟩ | ⟨nowhere, done⟩
    · rw [found] at tallest
      exact ⟨after, by rw [done, ← tallest]; rfl⟩
    · rw [nowhere] at tallest
      exact ⟨map, by rw [done, ← tallest]; rfl⟩
  contains := by
    rw [contains_spec sound, ← Option.isSome_map, foundIn_of_stretch stretch sound.positive]
    cases equals with
    | nil => rfl
    | cons tower rest =>
      rcases argmax_cons_cases tower rest with ⟨isFirst, -⟩ | ⟨best, -, isBest, -⟩
      · rw [isFirst]
        rfl
      · rw [isBest]
        rfl
  put := put_of_stretch contract sound stretch
  remove := by
    obtain ⟨ofEqual, ofMisses⟩ := equals_of_gap stretch
    obtain ⟨front, back, -, gap, outcome⟩ := remove_spec sound key
    rw [gapOf_of_stretch stretch sound.positive] at gap
    obtain ⟨rfl, rfl⟩ := Prod.mk.inj gap
    rcases outcome with ⟨tower, others, split, equal, after, done, -⟩ | ⟨misses, done⟩
    · obtain ⟨rest, rfl, rfl⟩ := ofEqual split equal
      exact ⟨after, done⟩
    · obtain rfl := ofMisses misses
      exact ⟨map, done⟩

end Agreement

/-! ### Runs -/

section Run

variable [RandomSource ρ] [LawfulNodeStore σ] {cmp : Comparator κ}

/-- **What a key names, after any run** under the contract of a comparator: the stored keys that
compare equal to it stand together. Putting and removing act on the first of them, and reading goes to
the first of those whose tower is tallest. So a put and a removal answer what was read before, and
what was put is read afterwards, wherever the first of them is as tall as any other. -/
theorem run_agreement (contract : cmp.Contract) (options : Options) (source : ρ)
    (operations : List (Operation κ ν)) :
    ∃ answers, ∃ map : SkipMap κ ν ρ σ,
      (withSource options cmp source : SkipMap κ ν ρ σ).run operations = .ok (answers, map) ∧
        ∀ key, ∃ below equals above, Sound map (below ++ (equals ++ above)) ∧
          Stretch (asks cmp key) below equals above ∧ Agrees map key equals := by
  have start : Sound (withSource options cmp source : SkipMap κ ν ρ σ) [] :=
    sound_withSource options cmp source
  obtain ⟨answers, map, row, ran, sound, same, ascending⟩ := run_spec start
    (Acts.ascending contract) List.Pairwise.nil operations
  refine ⟨answers, map, ran, fun key => ?_⟩
  obtain ⟨below, equals, above, rfl, stretch⟩ := ascending.stretch contract key
  have named : Stretch (asks map.cmp key) below equals above := by
    rw [same]
    exact stretch
  exact ⟨below, equals, above, sound, stretch, agrees_of_stretch (by rw [same]; exact contract) sound
    named⟩

end Run

/-- Marks with a tolerance: the last key equals both that are stored. -/
theorem run_agreement_window :
    ∃ answers, ∃ map : SkipMap Mark Nat KeyStream Slots,
      (withSource {} Comparator.window (.ofSeed 0) : SkipMap Mark Nat KeyStream Slots).run
          [.put ⟨0, 0⟩ 1, .put ⟨2, 0⟩ 2, .put ⟨1, 1⟩ 9] = .ok (answers, map) ∧
        ∀ key, ∃ below equals above, Sound map (below ++ (equals ++ above)) ∧
          Stretch (asks Comparator.window key) below equals above ∧ Agrees map key equals := by
  obtain ⟨answers, map, ran, agrees⟩ := run_agreement Comparator.window_contract {}
    (KeyStream.ofSeed 0) [.put ⟨0, 0⟩ 1, .put ⟨2, 0⟩ 2, .put ⟨1, 1⟩ 9]
  exact ⟨answers, map, ran, agrees⟩

/-- **What is put is not always read afterwards.** A wide mark equals both marks that are stored, and
the second node is taller than the first: two levels and one. The second is read for the wide mark,
while its value is put over that of the first, and it is the first that is removed for it. -/
theorem window_disagreement :
    Comparator.window.Contract ∧
      Prod.fst <$> (withSource {} Comparator.window
          ⟨#[18446744073709551615, 1152921504606846976], by decide, 0⟩ :
        SkipMap Mark Nat Script Slots).run
          [.put ⟨0, 0⟩ 1, .put ⟨2, 0⟩ 2, .get ⟨1, 1⟩, .put ⟨1, 1⟩ 9, .get ⟨1, 1⟩, .remove ⟨1, 1⟩] =
        .ok [.value none, .value none, .value (some 2), .value (some 1), .value (some 2),
          .value (some 9)] :=
  ⟨Comparator.window_contract, by decide +kernel⟩

end OrderedCollections.SkipMap
