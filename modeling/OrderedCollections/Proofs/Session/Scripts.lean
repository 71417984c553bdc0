/-
**Scripts answered by the items to come.**

What a script gets to see of an iterator is told by the items that it holds: a step from either end
takes the item there, and a step that asks for all that is to come leaves them as they are.

* `ForwardStep.answer`, `BidirectionalStep.answer`: the answer to a step, and the items left.
* `answers`: the answers to a script.
* `runScript_of_holds`: an iterator answers as the items that it holds.
-/

import Mathlib.Data.List.Basic
import OrderedCollections.Proofs.Iteration
import OrderedCollections.Session.Script

namespace OrderedCollections.Session

variable {σ α : Type}

/-- The answer to a step from the front, and the items left. -/
def ForwardStep.answer (step : ForwardStep) (items : List α) : IteratorReply α × List α :=
  match step with
  | next => (.element items.head?, items.tail)
  | remaining => (.remaining items.length, items)
  | rest => (.elements items, items)
  | count => (.count items.length, items)

/-- The answer to a step from either end, and the items left. -/
def BidirectionalStep.answer (step : BidirectionalStep) (items : List α) :
    IteratorReply α × List α :=
  match step with
  | forward step => step.answer items
  | nextBack => (.element items.getLast?, items.dropLast)
  | restBack => (.elements items.reverse, items)

/-- The answers to the steps of a script. -/
def answers : List BidirectionalStep → List α → List (IteratorReply α)
  | [], _ => []
  | step :: steps, items => (step.answer items).1 :: answers steps (step.answer items).2

section Steps

variable [BidirectionalIterator σ α] {iterator : σ} {items : List α}

theorem ForwardStep.run_of_holds (holds : Holds iterator items) (step : ForwardStep) :
    ∃ after, step.run iterator = .ok ((step.answer items).1, after) ∧
      Holds after (step.answer items).2 := by
  cases step with
  | next =>
    cases items with
    | nil =>
      refine ⟨iterator, ?_, holds⟩
      simp only [run, serves_holds.next_nil holds, Checked.ok_bind, taken, answer, List.head?_nil,
        Checked.pure_eq_ok]
    | cons item items =>
      obtain ⟨after, next, rest⟩ := serves_holds.next_cons holds
      refine ⟨after, ?_, rest⟩
      simp only [run, next, Checked.ok_bind, taken, answer, List.head?_cons, Checked.pure_eq_ok]
  | remaining =>
    refine ⟨iterator, ?_, holds⟩
    simp only [run, serves_holds.remaining_eq holds, answer, Checked.pure_eq_ok]
  | rest =>
    refine ⟨iterator, ?_, holds⟩
    simp only [run, holds.yields.rest, Checked.ok_bind, answer, Checked.pure_eq_ok]
  | count =>
    refine ⟨iterator, ?_, holds⟩
    simp only [run, holds.yields.rest, Checked.ok_bind, answer, Checked.pure_eq_ok]

/-- **A step on an iterator** is answered by the items that it holds. -/
theorem BidirectionalStep.run_of_holds (holds : Holds iterator items) (step : BidirectionalStep) :
    ∃ after, step.run iterator = .ok ((step.answer items).1, after) ∧
      Holds after (step.answer items).2 := by
  cases step with
  | forward step => exact step.run_of_holds holds
  | nextBack =>
    rcases List.eq_nil_or_concat' items with rfl | ⟨others, item, rfl⟩
    · refine ⟨iterator, ?_, holds⟩
      simp only [run, serves_holds.nextBack_nil holds, Checked.ok_bind, taken, answer,
        List.getLast?_nil, Checked.pure_eq_ok]
    · obtain ⟨after, next, rest⟩ := serves_holds.nextBack_concat holds
      refine ⟨after, ?_, ?_⟩
      · simp only [run, next, Checked.ok_bind, taken, answer, List.getLast?_concat,
          Checked.pure_eq_ok]
      · rw [answer, List.dropLast_concat]
        exact rest
  | restBack =>
    refine ⟨iterator, ?_, holds⟩
    simp only [run, holds.restBack, Checked.ok_bind, answer, Checked.pure_eq_ok]

/-- **A script on an iterator** is answered by the items that it holds. -/
theorem runScript_of_holds (holds : Holds iterator items) (script : List BidirectionalStep) :
    runScript BidirectionalStep.run script iterator = .ok (answers script items) := by
  induction script generalizing iterator items with
  | nil => rfl
  | cons step steps ih =>
    obtain ⟨after, stepped, rest⟩ := step.run_of_holds holds
    simp only [runScript, stepped, Checked.ok_bind, ih rest, answers, Checked.pure_eq_ok]

end Steps

end OrderedCollections.Session
