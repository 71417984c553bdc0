/-
**Sources of random words.**

A source answers with a 64-bit word and the source that comes after it. It is a value: two copies
of a source answer alike.

* `Script` answers the words of a list in order and starts over at its end.
* A choice between two kinds of source is again a source.
-/

namespace OrderedCollections

/-- A source of 64-bit words. -/
class RandomSource (ρ : Type) where
  /-- The next word, and the source after it. -/
  next : ρ → UInt64 × ρ

/-- A source that answers the words of a list in order, over and over. -/
structure Script where
  draws : Array UInt64
  draws_pos : 0 < draws.size
  /-- How many words were answered so far. -/
  drawn : Nat := 0
  deriving DecidableEq

namespace Script

/-- The script of a list of words, if it has any. -/
def ofList? (draws : List UInt64) : Option Script :=
  if nonempty : 0 < draws.toArray.size then some ⟨draws.toArray, nonempty, 0⟩ else none

/-- The word in turn. -/
def word (script : Script) : UInt64 :=
  have inBounds := Nat.mod_lt script.drawn script.draws_pos
  script.draws[script.drawn % script.draws.size]

instance : RandomSource Script where
  next script := (script.word, { script with drawn := script.drawn + 1 })

end Script

/-- Either of two kinds of source. -/
instance {ρ σ : Type} [RandomSource ρ] [RandomSource σ] : RandomSource (ρ ⊕ σ) where
  next
    | .inl source => ((RandomSource.next source).1, .inl (RandomSource.next source).2)
    | .inr source => ((RandomSource.next source).1, .inr (RandomSource.next source).2)

end OrderedCollections
