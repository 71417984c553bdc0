/-
**Scripts for iterators.**

A script is a list of steps taken on one iterator. Steps that ask for all that is to come leave the
iterator where it is.
-/

import OrderedCollections.Iteration
import OrderedCollections.Session.Reply

namespace OrderedCollections.Session

/-- A step on an iterator that is taken from the front. -/
inductive ForwardStep where
  | next
  | remaining
  | rest
  | count
  deriving DecidableEq, Repr

/-- A step on an iterator that is taken from either end. -/
inductive BidirectionalStep where
  | forward (step : ForwardStep)
  | nextBack
  | restBack
  deriving DecidableEq, Repr

variable {σ α : Type}

/-- The answer to a step that was to take an item, and the iterator after it; an iterator that is at
its end stays there. -/
def taken (iterator : σ) : Option (α × σ) → IteratorReply α × σ
  | some (item, after) => (.element (some item), after)
  | none => (.element none, iterator)

/-- The answer to a step, and the iterator after it. -/
def ForwardStep.run [ForwardIterator σ α] (step : ForwardStep) (iterator : σ) :
    Checked (IteratorReply α × σ) :=
  match step with
  | next => return taken iterator (← ForwardIterator.next? iterator)
  | remaining => return (.remaining (ForwardIterator.remaining iterator), iterator)
  | rest => return (.elements (← ForwardIterator.rest iterator), iterator)
  | count => return (.count (← ForwardIterator.rest iterator).length, iterator)

/-- The answer to a step, and the iterator after it. -/
def BidirectionalStep.run [BidirectionalIterator σ α] (step : BidirectionalStep) (iterator : σ) :
    Checked (IteratorReply α × σ) :=
  match step with
  | forward step => step.run iterator
  | nextBack => return taken iterator (← BidirectionalIterator.nextBack? iterator)
  | restBack => return (.elements (← BidirectionalIterator.restBack iterator), iterator)

/-- The answers to the steps of a script. -/
def runScript {τ : Type} (run : τ → σ → Checked (IteratorReply α × σ)) :
    List τ → σ → Checked (List (IteratorReply α))
  | [], _ => return []
  | step :: steps, iterator => do
    let (reply, after) ← run step iterator
    return reply :: (← runScript run steps after)

end OrderedCollections.Session
