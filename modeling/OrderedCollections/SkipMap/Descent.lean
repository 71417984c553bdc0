/-
**Descents through a map.**

A descent starts at the header on the top level in use. On each level it walks on while the entry
ahead is to be passed, and turns down where it stops; it may also stop for good at an entry that it
meets. What is to be done about the entry ahead is answered from its key: `lt` to pass it, `eq` to
stop at it, `gt` to turn down before it.

* `SkipMap.walk`: the walk along one level.
* `SkipMap.descend`: the descent through all levels.
* `SkipMap.gap`: where the turns of a descent leave the entries.
-/

import OrderedCollections.SkipMap.Links

namespace OrderedCollections.SkipMap

open SkipList (Cursor)

variable {κ ν ρ : Type} {σ : Type → Type} [NodeStore σ]

/-- How the walk along a level ends. -/
inductive Stop where
  /-- At an entry, for good. -/
  | met (id : NodeId)
  /-- Before an entry that is not to be passed, or before the end. -/
  | turned (turn : Cursor)
  deriving DecidableEq, Repr

/-- How a descent ends. -/
inductive Landing where
  /-- At an entry. -/
  | met (id : NodeId)
  /-- Below the lowest level, after a turn on each level, the lowest first. -/
  | landed (turns : List Cursor)
  deriving DecidableEq, Repr

/-- The entry at which a descent stopped. -/
def Landing.id? : Landing → Option NodeId
  | met id => some id
  | landed _ => none

/-- The turns of a descent that went through all levels. -/
def Landing.turns : Landing → List Cursor
  | met _ => []
  | landed turns => turns

/-- Walks along a level, for at most the given number of rounds. -/
def walk (map : SkipMap κ ν ρ σ) (answer : κ → Ordering) (level : Nat) :
    Nat → Cursor → Checked Stop
  | 0, _ => .error .endless
  | rounds + 1, cursor => do
    match ← map.forwardAt level cursor with
    | none => return .turned cursor
    | some next =>
      let node ← map.node next
      match answer node.key with
      | .lt => map.walk answer level rounds (.node next)
      | .eq => return .met next
      | .gt => return .turned cursor

/-- Descends through the levels below `levels`. -/
def descendFrom (map : SkipMap κ ν ρ σ) (answer : κ → Ordering) : Nat → Cursor → Checked Landing
  | 0, _ => return .landed []
  | level + 1, cursor => do
    match ← map.walk answer level (map.size + 1) cursor with
    | .met id => return .met id
    | .turned turn =>
      match ← map.descendFrom answer level turn with
      | .met id => return .met id
      | .landed lower => return .landed (lower ++ [turn])

/-- Descends from the header through all levels in use. -/
def descend (map : SkipMap κ ν ρ σ) (answer : κ → Ordering) : Checked Landing :=
  map.descendFrom answer map.height .head

/-- The lowest of some turns, where the descent left the entries. -/
def place (turns : List Cursor) : Cursor :=
  turns.headD .head

/-- Where a descent leaves the entries: the turns, the lowest level first, and the entry behind the
lowest turn. -/
structure Gap where
  turns : List Cursor
  ahead : Option NodeId
  deriving DecidableEq, Repr

/-- The gap behind the entries whose keys are below the wanted one. -/
def gap (map : SkipMap κ ν ρ σ) (wanted : κ) : Checked Gap := do
  let landing ← map.descend fun stored => if map.cmp stored wanted = .lt then .lt else .gt
  let ahead ← map.forwardAt 0 (place landing.turns)
  return ⟨landing.turns, ahead⟩

end OrderedCollections.SkipMap
