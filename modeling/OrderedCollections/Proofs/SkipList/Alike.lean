/-
**Rows that read the same.**

A descent sees nothing of a row but the heights of its towers and what is answered about them. So it
goes the same way along two rows that read the same, tower by tower, where the reading keeps the
heights and tells all that the answers depend on. The keys of the towers may differ.

* `Alike`: rows that read the same.
* `Alike.split`, `Alike.of_cons`: parts of the same length read the same.
* `Alike.both_or_neither`, `Alike.inside_or_outside`: what is told of one row by the first tower, or by
  the tower of a rank, is told of the other.
* `Alike.gap`, `Alike.find`: descents along rows that read the same.
-/

import OrderedCollections.Proofs.SkipList.RowDescent

namespace OrderedCollections.SkipList

variable {α β γ : Type}

/-- **Two rows read the same**, tower by tower. -/
def Alike (read : Tower α → Tower γ) (read' : Tower β → Tower γ) (row : List (Tower α))
    (row' : List (Tower β)) : Prop :=
  row.map read = row'.map read'

namespace Alike

variable {read : Tower α → Tower γ} {read' : Tower β → Tower γ} {row front back : List (Tower α)}
  {row' front' back' : List (Tower β)} {tower : Tower α} {tower' : Tower β}

theorem symm (alike : Alike read read' row row') : Alike read' read row' row :=
  Eq.symm alike

theorem length_eq (alike : Alike read read' row row') : row.length = row'.length := by
  have same := congrArg List.length alike
  rwa [List.length_map, List.length_map] at same

theorem append (first : Alike read read' front front') (second : Alike read read' back back') :
    Alike read read' (front ++ back) (front' ++ back') := by
  unfold Alike at first second ⊢
  rw [List.map_append, List.map_append, first, second]

theorem cons (same : read tower = read' tower') (others : Alike read read' back back') :
    Alike read read' (tower :: back) (tower' :: back') := by
  unfold Alike at others ⊢
  rw [List.map_cons, List.map_cons, same, others]

theorem of_cons (alike : Alike read read' (tower :: back) row') :
    ∃ tower' others, row' = tower' :: others ∧ read tower = read' tower' ∧
      Alike read read' back others := by
  obtain ⟨tower', others, rfl, same, rest⟩ := List.map_eq_cons_iff.mp alike.symm
  exact ⟨tower', others, rfl, same.symm, rest.symm⟩

theorem nil_iff (alike : Alike read read' back back') : back = [] ↔ back' = [] := by
  rw [← List.length_eq_zero_iff, ← List.length_eq_zero_iff, alike.length_eq]

theorem split (alike : Alike read read' (front ++ back) (front' ++ back'))
    (same : front.length = front'.length) :
    Alike read read' front front' ∧ Alike read read' back back' := by
  unfold Alike at alike ⊢
  rw [List.map_append, List.map_append] at alike
  exact List.append_inj alike (by rw [List.length_map, List.length_map, same])

section Outcomes

variable {taken : Tower α → List (Tower α) → Prop} {taken' : Tower β → List (Tower β) → Prop}
  {free free' : Prop}

/-- **The first towers of both rows are what was looked for, or those of neither**, if reading a tower
tells whether it is. -/
theorem both_or_neither {equal : Tower α → Prop} {equal' : Tower β → Prop}
    (alike : Alike read read' back back')
    (agree : ∀ tower tower', read tower = read' tower' → (equal tower ↔ equal' tower'))
    (outcome : (∃ tower others, back = tower :: others ∧ equal tower ∧ taken tower others) ∨
      ((∀ tower ∈ back.head?, ¬ equal tower) ∧ free))
    (outcome' : (∃ tower others, back' = tower :: others ∧ equal' tower ∧ taken' tower others) ∨
      ((∀ tower ∈ back'.head?, ¬ equal' tower) ∧ free')) :
    (∃ tower others tower' others', back = tower :: others ∧ back' = tower' :: others' ∧
      read tower = read' tower' ∧ equal' tower' ∧ taken tower others ∧ taken' tower' others') ∨
    (free ∧ free') := by
  rcases outcome with ⟨tower, others, rfl, isEqual, takes⟩ | ⟨misses, isFree⟩
  · obtain ⟨tower', others', rfl, same, -⟩ := alike.of_cons
    have isEqual' := (agree tower tower' same).mp isEqual
    rcases outcome' with ⟨_, _, first, -, takes'⟩ | ⟨misses', -⟩
    · obtain ⟨rfl, rfl⟩ := List.cons.inj first
      exact Or.inl ⟨tower, others, tower', others', rfl, rfl, same, isEqual', takes, takes'⟩
    · exact absurd isEqual' (misses' tower' rfl)
  · rcases outcome' with ⟨tower', others', rfl, isEqual', -⟩ | ⟨-, isFree'⟩
    · obtain ⟨tower, others, rfl, same, -⟩ := alike.symm.of_cons
      exact absurd ((agree tower tower' same.symm).mpr isEqual') (misses tower rfl)
    · exact Or.inr ⟨isFree, isFree'⟩

end Outcomes

/-- **A rank is that of a tower in both rows, or in neither.** -/
theorem inside_or_outside {rank : Nat} {taken : List (Tower α) → Tower α → List (Tower α) → Prop}
    {taken' : List (Tower β) → Tower β → List (Tower β) → Prop} {free free' : Prop}
    (alike : Alike read read' row row')
    (outcome : (∃ front tower back, front ++ tower :: back = row ∧ rank = front.length + 1 ∧
        taken front tower back) ∨ ((rank = 0 ∨ row.length < rank) ∧ free))
    (outcome' : (∃ front tower back, front ++ tower :: back = row' ∧ rank = front.length + 1 ∧
        taken' front tower back) ∨ ((rank = 0 ∨ row'.length < rank) ∧ free')) :
    (∃ front tower back front' tower' back', front ++ tower :: back = row ∧
      front' ++ tower' :: back' = row' ∧ front.length = front'.length ∧ taken front tower back ∧
      taken' front' tower' back') ∨
    (free ∧ free') := by
  have length := alike.length_eq
  rcases outcome with ⟨front, tower, back, rfl, rfl, takes⟩ | ⟨outside, isFree⟩
  · rcases outcome' with ⟨front', tower', back', rfl, same, takes'⟩ | ⟨outside, -⟩
    · exact Or.inl ⟨front, tower, back, front', tower', back', rfl, rfl, Nat.succ.inj same, takes,
        takes'⟩
    · rw [← length, List.length_append, List.length_cons] at outside
      omega
  · rcases outcome' with ⟨front', tower', back', rfl, rfl, -⟩ | ⟨-, isFree'⟩
    · rw [length, List.length_append, List.length_cons] at outside
      omega
    · exact Or.inr ⟨isFree, isFree'⟩

/-! ### Descents -/

section Descents

variable (heights : ∀ tower, (read tower).height = tower.height)
  (heights' : ∀ tower, (read' tower).height = tower.height)
include heights heights'

theorem peak_eq (alike : Alike read read' row row') : peak row = peak row' := by
  calc peak row = peak (row.map read) := (peak_map heights row).symm
    _ = peak (row'.map read') := congrArg peak alike
    _ = peak row' := peak_map heights' row'

variable {ask : α → Ordering} {ask' : β → Ordering} (asked : γ → Ordering)
  (asks : ∀ tower, asked (read tower).value = ask tower.value)
  (asks' : ∀ tower, asked (read' tower).value = ask' tower.value)
include asks asks'

/-- **The gap is in the same place** of rows that read the same. -/
theorem gap (alike : Alike read read' row row') {levels : Nat}
    (gap : rowGap ask levels row = (front, back))
    (gap' : rowGap ask' levels row' = (front', back')) :
    Alike read read' front front' ∧ Alike read read' back back' := by
  have along : rowGap asked levels (row.map read) = _ := rowGap_map heights asks
  have along' : rowGap asked levels (row'.map read') = _ := rowGap_map heights' asks'
  rw [alike, along', gap, gap'] at along
  obtain ⟨sameFront, sameBack⟩ := Prod.mk.inj along
  exact ⟨sameFront.symm, sameBack.symm⟩

/-- **The first equal tower met is in the same place** of rows that read the same. -/
theorem find (alike : Alike read read' row row') (levels : Nat) :
    (rowFind ask levels row).map (fun found => found.1.length) =
      (rowFind ask' levels row').map fun found => found.1.length := by
  have along : rowFind asked levels (row.map read) = _ := rowFind_map heights asks
  have along' : rowFind asked levels (row'.map read') = _ := rowFind_map heights' asks'
  rw [alike, along'] at along
  have lengths := congrArg (Option.map fun found => found.1.length) along
  simp only [Option.map_map, Function.comp_def, List.length_map] at lengths
  exact lengths.symm

end Descents

end Alike

end OrderedCollections.SkipList
