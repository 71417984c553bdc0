/-
**Levels that a tower joins or leaves.**

A level is laid out along a row if every owner on it has the link that the row asks for. When a
tower joins the row, only the link of the last owner before it changes, and the link of the tower
itself is new; when a tower leaves the row, only the link of the last owner before it changes. A
structure need not keep all of a link: what it keeps is a view of the link, and all this holds of the
view as well.

* `Laid`: a level whose links are those of a row.
* `LaidIn`: a level whose links are those of a row as far as a view shows them.
* `LaidIn.insert`, `LaidIn.erase`: the level with a tower more, with a tower less.
* `along_level`: a level, from the header to the last tower on it.
* `laidIn_next_insert_iff`: where no spans are kept, a tower below the level makes no difference.
* `LaidIn.replace`: what a tower holds makes no difference.
-/

import Mathlib.Data.List.Nodup
import OrderedCollections.Checked
import OrderedCollections.Proofs.SkipList.Row

namespace OrderedCollections.SkipList

variable {α : Type}

/-- Every owner on a level has the link that the row asks for. -/
def Laid (links : Cursor → Checked Link) (level : Nat) (row : List (Tower α)) : Prop :=
  ∀ front back, front ++ back = row → Reaches level front →
    links (owner front) = .ok (ahead level back)

/-- Every owner on a level has what `view` shows of the link that the row asks for. -/
def LaidIn {β : Type} (view : Link → β) (links : Cursor → Checked β) (level : Nat)
    (row : List (Tower α)) : Prop :=
  ∀ front back, front ++ back = row → Reaches level front →
    links (owner front) = .ok (view (ahead level back))

/-- What is behind an owner on a level does not reach the level before the owner does. -/
theorem eq_of_reaches {level : Nat} {near skipped : List (Tower α)}
    (short : ∀ tower ∈ skipped, tower.height ≤ level) (reaches : Reaches level (near ++ skipped)) :
    skipped = [] := by
  rcases List.eq_nil_or_concat' skipped with rfl | ⟨others, tower, rfl⟩
  · rfl
  · rw [← List.append_assoc, reaches_concat] at reaches
    have flat := short tower (by simp)
    omega

/-- Between an owner on a level and a later one there is a tower that the level meets. -/
theorem exists_tall_of_reaches {level : Nat} {front more : List (Tower α)}
    (reaches : Reaches level (front ++ more)) (nonempty : more ≠ []) :
    ∃ tower ∈ more, level < tower.height := by
  rcases List.eq_nil_or_concat' more with rfl | ⟨others, tower, rfl⟩
  · exact absurd rfl nonempty
  · rw [← List.append_assoc, reaches_concat] at reaches
    exact ⟨tower, by simp, reaches⟩

/-- An owner before the last one on a level has the same link whatever follows the last one. -/
theorem ahead_before_last {level : Nat} {front middle near skipped : List (Tower α)}
    (cut : front ++ middle = near ++ skipped) (reachesNear : Reaches level near)
    (short : ∀ tower ∈ skipped, tower.height ≤ level) (reaches : Reaches level front)
    (different : front ≠ near) (back other : List (Tower α)) :
    ahead level (middle ++ back) = ahead level (middle ++ other) := by
  rcases List.append_eq_append_iff.mp cut with ⟨more, rfl, rfl⟩ | ⟨more, rfl, rfl⟩
  · have nonempty : more ≠ [] := fun none => different (by rw [none, List.append_nil])
    obtain ⟨tower, member, tall⟩ := exists_tall_of_reaches reachesNear nonempty
    exact ahead_append_of_tall (List.mem_append_left _ member) tall back other
  · have none := eq_of_reaches (fun tower member => short tower (by simp [member])) reaches
    exact absurd (by rw [none, List.append_nil]) different

/-- **Along a level**, from the header to the last tower on it: what holds of an owner that leads
nowhere, and of one that leads to a tower where it holds of that tower, holds of the header and all
towers on the level. -/
theorem along_level {level : Nat} {row : List (Tower α)} {motive : Cursor → List NodeId → Prop}
    (last : ∀ front back, front ++ back = row → Reaches level front →
      (ahead level back).next = none → motive (owner front) [])
    (step : ∀ front back id others, front ++ back = row → Reaches level front →
      (ahead level back).next = some id → motive (.node id) others →
      motive (owner front) (id :: others)) :
    motive .head ((row.filter fun tower => level < tower.height).map Tower.id) := by
  suffices general : ∀ back front skipped, front ++ skipped ++ back = row → Reaches level front →
      (∀ tower ∈ skipped, tower.height ≤ level) →
      motive (owner front) ((back.filter fun tower => level < tower.height).map Tower.id) from
    general row [] [] rfl (reaches_nil level) (List.forall_mem_nil _)
  intro back
  induction back with
  | nil =>
    intro front skipped split reaches short
    rw [List.append_nil] at split
    exact last front skipped split reaches (ahead_next_eq_none.mpr short)
  | cons tower back ih =>
    intro front skipped split reaches short
    by_cases tall : level < tower.height
    · have rest := ih (front ++ skipped ++ [tower]) [] (by rw [← split]; simp)
        (reaches_concat.mpr tall) (List.forall_mem_nil _)
      rw [owner_concat] at rest
      rw [List.filter_cons_of_pos (by simpa using tall), List.map_cons]
      refine step front (skipped ++ tower :: back) tower.id _ ?_ reaches ?_ rest
      · rw [← split, List.append_assoc]
      · rw [ahead_append_cons short tall]
    · rw [List.filter_cons_of_neg (by simpa using tall)]
      refine ih front (skipped ++ [tower]) (by rw [← split]; simp) reaches ?_
      exact List.forall_mem_append.mpr ⟨short, by simpa using Nat.le_of_not_lt tall⟩

namespace LaidIn

variable {β : Type} {view : Link → β} {links after : Cursor → Checked β} {level : Nat}
  {near skipped back : List (Tower α)} {tower : Tower α}

/-- The links of an owner that is not in the row do not matter. -/
theorem congr {row : List (Tower α)} {id : NodeId} (laid : LaidIn view links level row)
    (absent : id ∉ row.map Tower.id)
    (same : ∀ place, place ≠ .node id → after place = links place) : LaidIn view after level row := by
  intro front rest split reaches
  have other : owner front ≠ .node id := by
    refine owner_ne_node fun member => absent ?_
    rw [← split, List.map_append]
    exact List.mem_append_left _ member
  rw [same _ other]
  exact laid front rest split reaches

/-- **A tower joins a level, or stays below it.** -/
theorem insert (laid : LaidIn view links level (near ++ skipped ++ back))
    (nodup : ((near ++ skipped ++ tower :: back).map Tower.id).Nodup)
    (reachesNear : Reaches level near) (short : ∀ other ∈ skipped, other.height ≤ level)
    (before : after (owner near) = .ok (view (ahead level (skipped ++ tower :: back))))
    (joined : level < tower.height → after (.node tower.id) = .ok (view (ahead level back)))
    (others : ∀ place, place ≠ owner near → place ≠ .node tower.id → after place = links place) :
    LaidIn view after level (near ++ skipped ++ tower :: back) := by
  have fresh : tower.id ∉ (near ++ skipped).map Tower.id ∧ tower.id ∉ back.map Tower.id := by
    have absent := (nodup_insert.mp nodup).1
    rw [List.map_append, List.mem_append, not_or] at absent
    exact absent
  intro front rest split reaches
  rcases append_eq_insert_iff.mp split with ⟨middle, cut, rfl⟩ | ⟨middle, rfl, rfl⟩
  · by_cases last : front = near
    · subst last
      rw [List.append_cancel_left_eq] at cut
      rw [before, cut]
    · have absent : tower.id ∉ front.map Tower.id := by
        intro member
        refine fresh.1 ?_
        rw [cut, List.map_append]
        exact List.mem_append_left _ member
      have different : owner front ≠ owner near := by
        have nodupFront : ((near ++ skipped).map Tower.id).Nodup := by
          rw [List.map_append, List.nodup_append] at nodup
          exact nodup.1
        rw [cut] at nodupFront
        exact owner_ne_of_ne cut.symm nodupFront last
      rw [others _ different (owner_ne_node absent),
        laid front (middle ++ back) (by rw [cut, List.append_assoc]) reaches]
      exact congrArg (fun link => Except.ok (view link))
        (ahead_before_last cut.symm reachesNear short reaches last _ _)
  · rcases List.eq_nil_or_concat' middle with rfl | ⟨initial, lastTower, rfl⟩
    · rw [owner_concat]
      exact joined (reaches_concat.mp reaches)
    · have place : owner (near ++ skipped ++ tower :: (initial ++ [lastTower])) =
          .node lastTower.id := by
        rw [← List.cons_append, ← List.append_assoc, owner_concat]
      have reachesLast : level < lastTower.height := by
        rw [← List.cons_append, ← List.append_assoc] at reaches
        exact reaches_concat.mp reaches
      have notBefore : lastTower.id ∉ near.map Tower.id := by
        rw [List.append_assoc] at nodup
        exact notMem_of_behind nodup (by simp)
      have notTower : lastTower.id ≠ tower.id := by
        intro same
        exact fresh.2 (by rw [← same]; simp)
      rw [place, others _ (owner_ne_node notBefore).symm (fun same => notTower (Cursor.node.inj same))]
      have old := laid (near ++ skipped ++ initial ++ [lastTower]) rest (by simp)
        (reaches_concat.mpr reachesLast)
      rw [owner_concat] at old
      exact old

/-- **A tower leaves a level, or stayed below it.** -/
theorem erase (laid : LaidIn view links level (near ++ skipped ++ tower :: back))
    (nodup : ((near ++ skipped ++ tower :: back).map Tower.id).Nodup)
    (reachesNear : Reaches level near) (short : ∀ other ∈ skipped, other.height ≤ level)
    (before : after (owner near) = .ok (view (ahead level (skipped ++ back))))
    (others : ∀ place, place ≠ owner near → after place = links place) :
    LaidIn view after level (near ++ skipped ++ back) := by
  have nodupFront : ((near ++ skipped).map Tower.id).Nodup := by
    rw [List.map_append, List.nodup_append] at nodup
    exact nodup.1
  have atGap : ∀ front middle, near ++ skipped = front ++ middle → Reaches level front →
      after (owner front) = .ok (view (ahead level (middle ++ back))) := by
    intro front middle cut reaches
    by_cases last : front = near
    · subst last
      rw [List.append_cancel_left_eq] at cut
      rw [before, cut]
    · rw [others _ (owner_ne_of_ne cut.symm (cut ▸ nodupFront) last),
        laid front (middle ++ tower :: back) (by rw [cut, List.append_assoc]) reaches]
      exact congrArg (fun link => Except.ok (view link))
        (ahead_before_last cut.symm reachesNear short reaches last _ _)
  intro front rest split reaches
  rcases List.append_eq_append_iff.mp split with ⟨middle, cut, rfl⟩ | ⟨middle, rfl, rfl⟩
  · exact atGap front middle cut reaches
  · rcases List.eq_nil_or_concat' middle with rfl | ⟨initial, lastTower, rfl⟩
    · rw [List.append_nil] at reaches ⊢
      exact atGap (near ++ skipped) [] (List.append_nil _).symm reaches
    · rw [← List.append_assoc, owner_concat]
      rw [← List.append_assoc, reaches_concat] at reaches
      have notBefore : lastTower.id ∉ near.map Tower.id := by
        rw [List.append_assoc] at nodup
        exact notMem_of_behind nodup (by simp)
      have old := laid (near ++ skipped ++ tower :: initial ++ [lastTower]) rest (by simp)
        (reaches_concat.mpr reaches)
      rw [owner_concat] at old
      rw [others _ (owner_ne_node notBefore).symm, old]

end LaidIn

/-- A tower below the level does not change where the owners before it lead. -/
theorem ahead_next_insert {level : Nat} {tower : Tower α} (flat : tower.height ≤ level)
    (front back : List (Tower α)) :
    (ahead level (front ++ tower :: back)).next = (ahead level (front ++ back)).next := by
  induction front with
  | nil => rw [List.nil_append, List.nil_append, ahead_cons_of_short flat]
  | cons first others ih =>
    rw [List.cons_append, List.cons_append]
    by_cases tall : level < first.height
    · rw [ahead_cons_of_tall tall, ahead_cons_of_tall tall]
    · rw [ahead_cons_of_short (Nat.le_of_not_lt tall), ahead_cons_of_short (Nat.le_of_not_lt tall)]
      exact ih

/-- **Where no spans are kept, a tower below the level makes no difference**: it is no owner, and the
links of all owners pass it. -/
theorem laidIn_next_insert_iff {links : Cursor → Checked (Option NodeId)} {level : Nat}
    {front back : List (Tower α)} {tower : Tower α} (flat : tower.height ≤ level) :
    LaidIn Link.next links level (front ++ tower :: back) ↔
      LaidIn Link.next links level (front ++ back) := by
  constructor
  · intro laid near far split reaches
    rcases List.append_eq_append_iff.mp split with ⟨middle, rfl, rfl⟩ | ⟨middle, rfl, rfl⟩
    · rw [laid near (middle ++ tower :: back) (by simp) reaches, ahead_next_insert flat]
    · rcases List.eq_nil_or_concat' middle with rfl | ⟨initial, last, rfl⟩
      · rw [List.append_nil] at reaches ⊢
        rw [laid front (tower :: far) (by simp) reaches, ahead_cons_of_short flat]
      · rw [← List.append_assoc, reaches_concat] at reaches
        have linked := laid (front ++ tower :: initial ++ [last]) far (by simp)
          (reaches_concat.mpr reaches)
        rw [owner_concat] at linked
        rw [← List.append_assoc, owner_concat, linked]
  · intro laid near far split reaches
    rcases append_eq_insert_iff.mp split with ⟨middle, rfl, rfl⟩ | ⟨middle, rfl, rfl⟩
    · rw [laid near (middle ++ back) (by simp) reaches, ahead_next_insert flat]
    · rcases List.eq_nil_or_concat' middle with rfl | ⟨initial, last, rfl⟩
      · rw [reaches_concat] at reaches
        omega
      · rw [← List.cons_append, ← List.append_assoc, reaches_concat] at reaches
        have linked := laid (front ++ initial ++ [last]) far (by simp) (reaches_concat.mpr reaches)
        rw [owner_concat] at linked
        rw [← List.cons_append, ← List.append_assoc, owner_concat, linked]

/-- Links do not depend on what the towers hold. -/
theorem ahead_replace {tower other : Tower α} (id : other.id = tower.id)
    (height : other.height = tower.height) (level : Nat) (front back : List (Tower α)) :
    ahead level (front ++ other :: back) = ahead level (front ++ tower :: back) := by
  induction front with
  | nil =>
    by_cases tall : level < tower.height
    · rw [List.nil_append, List.nil_append, ahead_cons_of_tall tall,
        ahead_cons_of_tall (height.symm ▸ tall), id]
    · have short := Nat.le_of_not_lt tall
      rw [List.nil_append, List.nil_append, ahead_cons_of_short short,
        ahead_cons_of_short (height.symm ▸ short)]
  | cons first others ih =>
    rw [List.cons_append, List.cons_append]
    by_cases tall : level < first.height
    · rw [ahead_cons_of_tall tall, ahead_cons_of_tall tall]
    · have short := Nat.le_of_not_lt tall
      rw [ahead_cons_of_short short, ahead_cons_of_short short, ih]

/-- **A tower that holds something else** leaves a level as it is. -/
theorem LaidIn.replace {β : Type} {view : Link → β} {links : Cursor → Checked β} {level : Nat}
    {front back : List (Tower α)} {tower other : Tower α}
    (laid : LaidIn view links level (front ++ tower :: back)) (id : other.id = tower.id)
    (height : other.height = tower.height) :
    LaidIn view links level (front ++ other :: back) := by
  intro near far split reaches
  rcases append_eq_insert_iff.mp split with ⟨middle, rfl, rfl⟩ | ⟨middle, rfl, rfl⟩
  · rw [ahead_replace id height]
    exact laid near (middle ++ tower :: back) (by simp) reaches
  · rcases List.eq_nil_or_concat' middle with rfl | ⟨initial, last, rfl⟩
    · rw [reaches_concat, height] at reaches
      rw [owner_concat, id, ← owner_concat front tower]
      exact laid (front ++ [tower]) far (by simp) (reaches_concat.mpr reaches)
    · rw [← List.cons_append, ← List.append_assoc, reaches_concat] at reaches
      have linked := laid (front ++ tower :: initial ++ [last]) far (by simp)
        (reaches_concat.mpr reaches)
      rw [owner_concat] at linked
      rw [← List.cons_append, ← List.append_assoc, owner_concat, linked]

namespace Laid

variable {links after : Cursor → Checked Link} {level : Nat}
  {near skipped back : List (Tower α)} {tower : Tower α}

theorem laidIn {row : List (Tower α)} (laid : Laid links level row) : LaidIn id links level row :=
  laid

theorem congr {row : List (Tower α)} {id : NodeId} (laid : Laid links level row)
    (absent : id ∉ row.map Tower.id)
    (same : ∀ place, place ≠ .node id → after place = links place) : Laid after level row :=
  laid.laidIn.congr absent same

theorem last (laid : Laid links level (near ++ skipped ++ back)) (reaches : Reaches level near)
    (short : ∀ other ∈ skipped, other.height ≤ level) :
    links (owner near) =
      .ok ⟨(ahead level back).next, (ahead level back).span + skipped.length⟩ := by
  rw [laid near (skipped ++ back) (List.append_assoc _ _ _).symm reaches,
    ahead_append_of_short short]

/-- **A tower joins a level, or stays below it.** -/
theorem insert (laid : Laid links level (near ++ skipped ++ back))
    (nodup : ((near ++ skipped ++ tower :: back).map Tower.id).Nodup)
    (reachesNear : Reaches level near) (short : ∀ other ∈ skipped, other.height ≤ level)
    (before : after (owner near) = .ok (ahead level (skipped ++ tower :: back)))
    (joined : level < tower.height → after (.node tower.id) = .ok (ahead level back))
    (others : ∀ place, place ≠ owner near → place ≠ .node tower.id → after place = links place) :
    Laid after level (near ++ skipped ++ tower :: back) :=
  laid.laidIn.insert nodup reachesNear short before joined others

/-- **A tower leaves a level, or stayed below it.** -/
theorem erase (laid : Laid links level (near ++ skipped ++ tower :: back))
    (nodup : ((near ++ skipped ++ tower :: back).map Tower.id).Nodup)
    (reachesNear : Reaches level near) (short : ∀ other ∈ skipped, other.height ≤ level)
    (before : after (owner near) = .ok (ahead level (skipped ++ back)))
    (others : ∀ place, place ≠ owner near → after place = links place) :
    Laid after level (near ++ skipped ++ back) :=
  laid.laidIn.erase nodup reachesNear short before others

end Laid

end OrderedCollections.SkipList
