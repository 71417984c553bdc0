/-
**Replies of a session.**

What a command on a collection can answer, and what is recorded after each command. The element type
is the key of a list, or the key and the value of a map.
-/

import OrderedCollections.Error
import OrderedCollections.Session.Key
import OrderedCollections.Session.Tally

namespace OrderedCollections.Session

/-- An entry with its rank and its neighbours. -/
structure EntryView (α : Type) where
  value : α
  rank : Nat
  prev : Option α
  next : Option α
  deriving DecidableEq, Repr

/-- The answer to one step of a script for an iterator. -/
inductive IteratorReply (α : Type) where
  | element (element : Option α)
  | remaining (count : Nat)
  | elements (elements : List α)
  | count (count : Nat)
  deriving DecidableEq, Repr

/-- The answer to one move of a walk. -/
inductive WalkReply (α : Type) where
  | element (element : Option α)
  | rank (rank : Nat)
  | text (text : String)
  deriving DecidableEq, Repr

/-- The answer to one command. -/
inductive Reply (α : Type) where
  | done
  | flag (flag : Bool)
  | element (element : Option α)
  | elements (elements : List α)
  | value (value : Option Value)
  | outcome (outcome : Except Error Value)
  | entry (entry : Option (EntryView α))
  | placed (entry : Except Error (EntryView α))
  | rank (rank : Except Error Nat)
  | ranks (ranks : List Nat)
  | iterated (replies : List (IteratorReply α))
  | walked (replies : Option (List (WalkReply α)))
  | text (text : String)
  | ordering (ordering : Ordering)
  | tally (tally : Tally)

/-- What is recorded after a command. -/
structure Outcome (α : Type) where
  reply : Reply α
  /-- The number of elements. -/
  size : Nat
  /-- The number of levels in use, where the collection has levels. -/
  height : Option Nat

/-- How a text form is asked for: on one line, or spread over several. -/
inductive Layout where
  | oneLine
  | spread
  deriving DecidableEq, Repr

/-- The text of a rendering in a layout. -/
def Layout.render (layout : Layout) (rendering : Rendering) : String :=
  match layout with
  | oneLine => rendering.oneLine
  | spread => rendering.spread

end OrderedCollections.Session
