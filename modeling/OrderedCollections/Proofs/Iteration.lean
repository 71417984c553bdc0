/-
**What iterators yield.**

An iterator is described by the items that are to come. From the front it yields them one after the
other, with the right count before each, and then nothing. Taken from both ends in any order, it
yields the one at the end that is asked, for as long as there is one.

* `Yields`: an iterator taken from the front.
* `Yields.drain`, `Yields.rest`: all items to come.
* `Serves`: a relation between iterators and items that every step from either end keeps.
* `Holds`: an iterator taken from both ends.
* `Holds.yields`, `Holds.restBack`: all items to come, from the front and from the back.
-/

import Mathlib.Data.List.Induction
import OrderedCollections.Iteration

namespace OrderedCollections

variable {α σ : Type}

/-! ### From the front -/

section Forward

variable [ForwardIterator σ α]

/-- **An iterator yields the given items**: before each of them it knows how many are to come, and
after the last one it yields nothing. -/
inductive Yields : σ → List α → Prop
  | done {iterator : σ} (nothing : ForwardIterator.next? iterator = .ok none)
      (count : ForwardIterator.remaining iterator = 0) : Yields iterator []
  | item {iterator after : σ} {item : α} {items : List α}
      (taken : ForwardIterator.next? iterator = .ok (some (item, after)))
      (count : ForwardIterator.remaining iterator = items.length + 1)
      (rest : Yields after items) : Yields iterator (item :: items)

namespace Yields

variable {iterator : σ} {items : List α}

theorem remaining_eq (yields : Yields iterator items) :
    ForwardIterator.remaining iterator = items.length := by
  cases yields with
  | done _ count => exact count
  | item _ count _ => exact count

/-- As many steps as there are items yield them all, and so do more. -/
theorem drain (yields : Yields iterator items) {steps : Nat} (enough : items.length ≤ steps) :
    drain ForwardIterator.next? steps iterator = .ok items := by
  induction yields generalizing steps with
  | done nothing _ =>
    cases steps with
    | zero => rfl
    | succ steps =>
      unfold OrderedCollections.drain
      rw [nothing]
      rfl
  | item taken _ _ ih =>
    cases steps with
    | zero => cases enough
    | succ steps =>
      unfold OrderedCollections.drain
      rw [taken, Checked.ok_bind]
      simp only [ih (Nat.le_of_succ_le_succ enough), Checked.ok_bind, Checked.pure_eq_ok]

theorem rest (yields : Yields iterator items) : ForwardIterator.rest iterator = .ok items := by
  unfold ForwardIterator.rest
  rw [yields.remaining_eq]
  exact yields.drain (Nat.le_refl _)

end Yields

end Forward

/-! ### From both ends -/

section Bidirectional

variable [BidirectionalIterator σ α]

/-- **A relation between the states of an iterator and the items to come** that every step keeps: the
item at the end that is asked is yielded, if there is one, and the others are still to come. -/
structure Serves (relation : σ → List α → Prop) : Prop where
  remaining_eq : ∀ {iterator items}, relation iterator items →
    ForwardIterator.remaining iterator = items.length
  next_nil : ∀ {iterator}, relation iterator [] → ForwardIterator.next? iterator = .ok none
  next_cons : ∀ {iterator item items}, relation iterator (item :: items) →
    ∃ after, ForwardIterator.next? iterator = .ok (some (item, after)) ∧ relation after items
  nextBack_nil : ∀ {iterator}, relation iterator [] →
    BidirectionalIterator.nextBack? iterator = .ok none
  nextBack_concat : ∀ {iterator items item}, relation iterator (items ++ [item]) →
    ∃ after, BidirectionalIterator.nextBack? iterator = .ok (some (item, after)) ∧
      relation after items

/-- **An iterator holds the given items**: it stands to them in a relation that every step keeps. -/
def Holds (iterator : σ) (items : List α) : Prop :=
  ∃ relation, Serves relation ∧ relation iterator items

/-- Holding the items to come is a relation that every step from either end keeps. -/
theorem serves_holds : Serves (Holds : σ → List α → Prop) where
  remaining_eq := by
    rintro iterator items ⟨relation, serves, here⟩
    exact serves.remaining_eq here
  next_nil := by
    rintro iterator ⟨relation, serves, here⟩
    exact serves.next_nil here
  next_cons := by
    rintro iterator item items ⟨relation, serves, here⟩
    obtain ⟨after, taken, there⟩ := serves.next_cons here
    exact ⟨after, taken, relation, serves, there⟩
  nextBack_nil := by
    rintro iterator ⟨relation, serves, here⟩
    exact serves.nextBack_nil here
  nextBack_concat := by
    rintro iterator items item ⟨relation, serves, here⟩
    obtain ⟨after, taken, there⟩ := serves.nextBack_concat here
    exact ⟨after, taken, relation, serves, there⟩

namespace Holds

variable {iterator : σ} {items : List α}

theorem yields (holds : Holds iterator items) : Yields iterator items := by
  induction items generalizing iterator with
  | nil => exact .done (serves_holds.next_nil holds) (serves_holds.remaining_eq holds)
  | cons item items ih =>
    obtain ⟨after, taken, rest⟩ := serves_holds.next_cons holds
    exact .item taken (serves_holds.remaining_eq holds) (ih rest)

/-- An iterator that holds its items yields all of them from the back, the last one first. -/
theorem restBack (holds : Holds iterator items) :
    BidirectionalIterator.restBack iterator = .ok items.reverse := by
  unfold BidirectionalIterator.restBack
  rw [serves_holds.remaining_eq holds]
  induction items using List.reverseRecOn generalizing iterator with
  | nil => rfl
  | append_singleton items item ih =>
    obtain ⟨after, taken, rest⟩ := serves_holds.nextBack_concat holds
    rw [List.length_append, List.length_singleton, drain, taken, Checked.ok_bind]
    simp only [ih rest, Checked.ok_bind, Checked.pure_eq_ok, List.reverse_append,
      List.reverse_singleton, List.singleton_append]

end Holds

end Bidirectional

end OrderedCollections
