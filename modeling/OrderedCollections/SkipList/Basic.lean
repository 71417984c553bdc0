/-
**Ranked skip lists.**

An ordered collection of elements, no two of which the list has found equal, with the rank of every
element at hand. A search compares the stored elements it meets with the wanted one, in this order
of the arguments. Looking an element up, inserting and removing go to the first element that is not
below the wanted one and then ask whether it is equal; asking for a rank stops at the first equal
element met on the way down.

* `SkipList.Entry`: an element in its place.
* `SkipList.find`, `SkipList.rank`, `SkipList.atRank?`: the questions.
* `SkipList.lowerBound`, `SkipList.nodeAtRank?`: the descents of the questions that keep no turns.
* `SkipList.insert`, `SkipList.remove`, `SkipList.removeRank`: the changes.
-/

import OrderedCollections.Error
import OrderedCollections.SkipList.Splice

namespace OrderedCollections.SkipList

variable {α ρ : Type} {σ : Type → Type} [NodeStore σ]

/-- Whether a stored element stands below a wanted one. -/
def isBelow (list : SkipList α ρ σ) (wanted : α) (_ahead : Nat) (stored : α) : Bool :=
  list.cmp stored wanted == .lt

/-! ### Entries -/

/-- An element in its place: a list and the key of a tower in it. -/
structure Entry (α ρ : Type) (σ : Type → Type := Slots) where
  list : SkipList α ρ σ
  id : NodeId

/-- The first element. -/
def front? (list : SkipList α ρ σ) : Option (Entry α ρ σ) :=
  list.first.map fun id => ⟨list, id⟩

/-- The last element. -/
def back? (list : SkipList α ρ σ) : Option (Entry α ρ σ) :=
  list.tail.map fun id => ⟨list, id⟩

/-- Adds the number of towers that stand before one to `count`, for at most the given number of
rounds. -/
def countBack (list : SkipList α ρ σ) : Nat → NodeId → Nat → Checked Nat
  | 0, _, _ => .error .endless
  | rounds + 1, id, count => do
    match (← list.node id).prev with
    | some prev => list.countBack rounds prev (count + 1)
    | none => return count

namespace Entry

/-- The element. -/
def value (entry : Entry α ρ σ) : Checked α :=
  return (← entry.list.node entry.id).value

/-- The entry that follows. -/
def next? (entry : Entry α ρ σ) : Checked (Option (Entry α ρ σ)) :=
  return (← entry.list.linkAt 0 (.node entry.id)).next.map fun id => ⟨entry.list, id⟩

/-- The entry before. -/
def prev? (entry : Entry α ρ σ) : Checked (Option (Entry α ρ σ)) :=
  return (← entry.list.node entry.id).prev.map fun id => ⟨entry.list, id⟩

/-- The rank of the entry, counted from one. Where the comparator contradicts itself, a descent
towards the element may miss the entry; then the entries before it are counted. -/
def rank (entry : Entry α ρ σ) : Checked Nat := do
  let value ← entry.value
  let landing ← entry.list.descend fun ahead id stored =>
    if id = entry.id then .eq else if entry.list.isBelow value ahead stored then .lt else .gt
  match landing with
  | .met _ rank => return rank
  | .landed _ => entry.list.countBack (entry.list.size + 1) entry.id 1

end Entry

/-! ### Questions -/

/-- Walks along a level past the towers below a wanted element, for at most the given number of
rounds. -/
def passBelow (list : SkipList α ρ σ) (wanted : α) (level : Nat) : Nat → Cursor → Checked Cursor
  | 0, _ => .error .endless
  | rounds + 1, cursor => do
    let link ← list.linkAt level cursor
    match link.next with
    | none => return cursor
    | some next =>
      let node ← list.node next
      if list.cmp node.value wanted = .lt then list.passBelow wanted level rounds (.node next)
      else return cursor

/-- Walks past the towers below a wanted element on each of the levels below `levels`. -/
def descendBelow (list : SkipList α ρ σ) (wanted : α) : Nat → Cursor → Checked Cursor
  | 0, cursor => return cursor
  | level + 1, cursor => do
    let turn ← list.passBelow wanted level (list.size + 1) cursor
    list.descendBelow wanted level turn

/-- The first tower that is not below a wanted element. -/
def lowerBound (wanted : α) (list : SkipList α ρ σ) : Checked (Option NodeId) := do
  let last ← list.descendBelow wanted list.height .head
  let link ← list.linkAt 0 last
  return link.next

/-- The element that compares equal to the wanted one. -/
def find (wanted : α) (list : SkipList α ρ σ) : Checked (Except Error (Entry α ρ σ)) := do
  match ← list.lowerBound wanted with
  | none => return .error .notFound
  | some id =>
    let stored ← list.node id
    if list.cmp stored.value wanted = .eq then return .ok ⟨list, id⟩ else return .error .notFound

/-- Whether an element that compares equal to the wanted one is present. -/
def contains (wanted : α) (list : SkipList α ρ σ) : Checked Bool :=
  return (← list.find wanted).isOk

/-- The rank, counted from one, of the element that compares equal to the wanted one. -/
def rank (wanted : α) (list : SkipList α ρ σ) : Checked (Except Error Nat) := do
  match ← list.descend fun _ _ stored => list.cmp stored wanted with
  | .met _ rank => return .ok rank
  | .landed _ => return .error .notFound

/-- Walks along a level as far as a rank, for at most the given number of rounds. -/
def passUpTo (list : SkipList α ρ σ) (rank level : Nat) : Nat → Stand → Checked Stand
  | 0, _ => .error .endless
  | rounds + 1, stand => do
    let link ← list.linkAt level stand.cursor
    match link.next with
    | none => return stand
    | some next =>
      let ahead := stand.rank + link.span
      if ahead ≤ rank then list.passUpTo rank level rounds ⟨.node next, ahead⟩ else return stand

/-- The tower at which a descent stands, if its rank is the given one. -/
def Stand.tower? (stand : Stand) (rank : Nat) : Option NodeId :=
  if stand.rank = rank then stand.cursor.id? else none

/-- The tower of a rank, where the walk along one of the levels below `levels` ends at it. -/
def descendUpTo (list : SkipList α ρ σ) (rank : Nat) : Nat → Stand → Checked (Option NodeId)
  | 0, _ => return none
  | level + 1, stand => do
    let turn ← list.passUpTo rank level (list.size + 1) stand
    match turn.tower? rank with
    | some id => return some id
    | none => list.descendUpTo rank level turn

/-- The tower of a rank, counted from one. -/
def nodeAtRank? (rank : Nat) (list : SkipList α ρ σ) : Checked (Option NodeId) :=
  if rank = 0 ∨ list.size < rank then return none else list.descendUpTo rank list.height {}

/-- The element of a rank, counted from one. -/
def atRank? (rank : Nat) (list : SkipList α ρ σ) : Checked (Option (Entry α ρ σ)) :=
  return (← list.nodeAtRank? rank).map fun id => ⟨list, id⟩

/-! ### Changes -/

/-- Removes the element that compares equal to the wanted one: the element, if there is one, and the
list without it. -/
def remove (wanted : α) (list : SkipList α ρ σ) : Checked (Option α × SkipList α ρ σ) := do
  let gap ← list.gap (list.isBelow wanted)
  match gap.ahead with
  | none => return (none, list)
  | some id =>
    let stored ← list.node id
    if list.cmp stored.value wanted = .eq then
      let (value, after) ← list.unlink id gap.turns
      return (some value, after)
    else return (none, list)

/-- Removes the element of a rank, counted from one: the element, if there is one, and the list
without it. -/
def removeRank (rank : Nat) (list : SkipList α ρ σ) : Checked (Option α × SkipList α ρ σ) := do
  if rank = 0 ∨ list.size < rank then return (none, list)
  let gap ← list.gap fun ahead _ => ahead < rank
  match gap.ahead with
  | none => return (none, list)
  | some id =>
    let (value, after) ← list.unlink id gap.turns
    return (some value, after)

/-- Whether the tower ahead of a gap, if there is one, compares equal to the wanted element. -/
def isTaken (wanted : α) (ahead : Option NodeId) (list : SkipList α ρ σ) : Checked Bool :=
  match ahead with
  | none => return false
  | some id => return list.cmp (← list.node id).value wanted == .eq

/-- Inserts an element that compares equal to none: the key of its tower, and the list with it. The
height of the tower is drawn only when it is certain to come in. -/
def insert [RandomSource ρ] (value : α) (list : SkipList α ρ σ) :
    Checked (Except Error NodeId × SkipList α ρ σ) := do
  let gap ← list.gap (list.isBelow value)
  if ← list.isTaken value gap.ahead then return (.error .duplicated, list)
  else
    let drawn := list.heights.next
    let (id, after) ← { list with heights := drawn.2 }.insertAt value drawn.1 gap.turns
    return (.ok id, after)

end OrderedCollections.SkipList
