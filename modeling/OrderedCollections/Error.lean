/-
**What can go wrong with a keyed operation.**

An operation that needs an element finds none, or one that needs a vacant place finds it taken.
-/

namespace OrderedCollections

/-- Why a keyed operation was refused. -/
inductive Error where
  /-- No element compares equal to the wanted one. -/
  | notFound
  /-- An element that compares equal is already present. -/
  | duplicated
  deriving DecidableEq, Repr

namespace Error

/-- The sentence shown for an error. -/
def message : Error → String
  | notFound => "no matching element in the collection"
  | duplicated => "element already exists in the collection"

end Error

end OrderedCollections
