/-
**Batches of calls and their tallies.**

A batch calls one operation on the keys of an arithmetic progression. Its tally counts the calls
that hit and adds up what they answered, each answer weighted by the number of its call, in 64-bit
arithmetic that wraps.

* `Progression.term`: the numbers of a progression.
* `runBatch`: the calls of a batch, and their tally.
-/

import OrderedCollections.Checked

namespace OrderedCollections.Session

/-- An arithmetic progression of remainders: its length, its step, its start, and the modulus, which
may have either sign. -/
structure Progression where
  count : Nat
  factor : Int
  offset : Int
  modulus : Int
  deriving DecidableEq, Repr

/-- The number at a place, counted from zero: a remainder that is never negative, also below a
negative modulus. -/
def Progression.term (progression : Progression) (place : Nat) : Nat :=
  ((progression.factor * place + progression.offset) % progression.modulus).toNat

/-- How many calls hit, and the weighted sum of their answers. -/
structure Tally where
  hits : Nat := 0
  sum : Int64 := 0
  deriving DecidableEq, Repr

/-- The tally after the call at a place. -/
def Tally.add (tally : Tally) (place : Nat) : Option Int64 → Tally
  | none => tally
  | some answer =>
    { hits := tally.hits + 1, sum := tally.sum + Int64.ofNat (place + 1) * answer }

/-- Calls an operation at every place of a progression. The operation is told the place and the
number there, and answers if it hits. -/
def runBatch {σ : Type} (call : Nat → Nat → σ → Checked (Option Int64 × σ))
    (progression : Progression) (state : σ) : Checked (Tally × σ) :=
  (List.range progression.count).foldlM
    (fun (tally, state) place => do
      let (answer, after) ← call place (progression.term place) state
      return (tally.add place answer, after))
    ({}, state)

end OrderedCollections.Session
