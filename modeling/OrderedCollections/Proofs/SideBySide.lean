/-
**Two computations side by side.**

Two collections that cannot be told apart need not be equal: their keys and stores may differ. What is
computed from them is compared by a relation between the results. Here such relations are carried
through the computations: both come to a result, and the results are related.

* `Checked.Both`: two computations that come to related results.
* `Checked.Both.bind`, `Checked.Both.bind_same`: made one after the other, they still do.
* `SameOutcome`: two outcomes that are the same error, or related items.
* `Checked.Both.mapM_option`, `Checked.Both.mapM_list`, `Checked.Both.foldlM`: made on the items of
  an option or of a list.
-/

import OrderedCollections.Checked

namespace OrderedCollections

variable {α β γ δ : Type}

/-! ### Outcomes -/

/-- Two outcomes agree: they are the same error, or items that are related. -/
inductive SameOutcome {ε : Type} (related : α → β → Prop) : Except ε α → Except ε β → Prop
  | error (error : ε) : SameOutcome related (.error error) (.error error)
  | ok {one : α} {other : β} (same : related one other) : SameOutcome related (.ok one) (.ok other)

theorem eq_of_rel {one other : Option α} (same : Option.Rel Eq one other) : one = other := by
  cases same with
  | some same => rw [same]
  | none => rfl

/-! ### Computations -/

namespace Checked

/-- **Both computations come to a result**, and the results are related. -/
def Both (related : α → β → Prop) (first : Checked α) (second : Checked β) : Prop :=
  ∃ one other, first = .ok one ∧ second = .ok other ∧ related one other

namespace Both

variable {related : α → β → Prop} {first : Checked α} {second : Checked β}

theorem pure {one : α} {other : β} (same : related one other) :
    Both related (Pure.pure one) (Pure.pure other) :=
  ⟨one, other, rfl, rfl, same⟩

theorem of_eq {one : α} {other : β} (done : first = .ok one) (done' : second = .ok other)
    (same : related one other) : Both related first second :=
  ⟨one, other, done, done', same⟩

/-- **One computation after the other**: related results are passed on to computations that come to
related results. -/
theorem bind {relatedAfter : γ → δ → Prop} {next : α → Checked γ} {next' : β → Checked δ}
    (both : Both related first second)
    (bothAfter : ∀ one other, related one other → Both relatedAfter (next one) (next' other)) :
    Both relatedAfter (first >>= next) (second >>= next') := by
  obtain ⟨one, other, rfl, rfl, same⟩ := both
  exact bothAfter one other same

theorem bind_same {relatedAfter : γ → δ → Prop} {first second : Checked α} {next : α → Checked γ}
    {next' : α → Checked δ} (both : Both Eq first second)
    (bothAfter : ∀ item, Both relatedAfter (next item) (next' item)) :
    Both relatedAfter (first >>= next) (second >>= next') := by
  refine both.bind fun one other same => ?_
  rw [same]
  exact bothAfter other

theorem tell_same {first second : Checked α} (both : Both Eq first second) (tell : α → γ) :
    Both Eq (first >>= fun item => Pure.pure (tell item))
      (second >>= fun item => Pure.pure (tell item)) :=
  both.bind_same fun _ => pure rfl

theorem mono {weaker : α → β → Prop} (both : Both related first second)
    (weaken : ∀ one other, related one other → weaker one other) : Both weaker first second := by
  obtain ⟨one, other, done, done', same⟩ := both
  exact ⟨one, other, done, done', weaken one other same⟩

/-- Related computations on the item of an option come to related results, where there is one. -/
theorem mapM_option {relatedAfter : γ → δ → Prop} {next : α → Checked γ} {next' : β → Checked δ}
    {one : Option α} {other : Option β} (same : Option.Rel related one other)
    (bothAfter : ∀ one other, related one other → Both relatedAfter (next one) (next' other)) :
    Both (Option.Rel relatedAfter) (one.mapM next) (other.mapM next') := by
  cases same with
  | none => exact .pure .none
  | some same =>
    obtain ⟨result, result', done, done', sameAfter⟩ := bothAfter _ _ same
    refine ⟨some result, some result', ?_, ?_, .some sameAfter⟩
    · show some <$> next _ = _
      rw [done]
      rfl
    · show some <$> next' _ = _
      rw [done']
      rfl

/-- Related computations on the items of a list, one after the other, come to related results. -/
theorem mapM_list {next next' : α → Checked γ} (both : ∀ item, Both Eq (next item) (next' item))
    (items : List α) : Both Eq (items.mapM next) (items.mapM next') := by
  induction items with
  | nil =>
    rw [List.mapM_nil, List.mapM_nil]
    exact .pure rfl
  | cons item items ih =>
    rw [List.mapM_cons, List.mapM_cons]
    exact (both item).bind_same fun result => ih.tell_same fun results => result :: results

/-- Related computations on the items of a list, with a state that is passed on, end with related
states. -/
theorem foldlM {next : α → γ → Checked α} {next' : β → γ → Checked β}
    (both : ∀ one other item, related one other → Both related (next one item) (next' other item))
    (items : List γ) {one : α} {other : β} (same : related one other) :
    Both related (items.foldlM next one) (items.foldlM next' other) := by
  induction items generalizing one other with
  | nil => exact .pure same
  | cons item items ih =>
    rw [List.foldlM_cons, List.foldlM_cons]
    exact (both one other item same).bind fun one other same => ih same

end Both

end Checked

end OrderedCollections
