/-
**Descents.**

A descent starts at the header on the top level in use. On each level it walks on while the tower
ahead is to be passed, and turns down where it stops, adding up the spans of the links it follows. A
descent may also stop for good at a tower that it meets.

What is to be done about the tower ahead is answered from its rank, its key and its value: `lt` to
pass it, `eq` to stop at it, `gt` to turn down before it.

* `SkipList.walk`: the walk along one level.
* `SkipList.descend`: the descent through all levels.
* `SkipList.gap`: where the turns of a descent leave the row of towers.
-/

import OrderedCollections.SkipList.Links

namespace OrderedCollections.SkipList

variable {α ρ : Type} {σ : Type → Type} [NodeStore σ]

/-- Where a descent stands, and how many towers stand up to there. -/
structure Stand where
  cursor : Cursor := .head
  rank : Nat := 0
  deriving DecidableEq, Repr

/-- How the walk along a level ends. -/
inductive Stop where
  /-- At a tower, for good. -/
  | met (id : NodeId) (rank : Nat)
  /-- Before a tower that is not to be passed, or before the end. -/
  | turned (stand : Stand)
  deriving DecidableEq, Repr

/-- How a descent ends. -/
inductive Landing where
  /-- At a tower. -/
  | met (id : NodeId) (rank : Nat)
  /-- Below the lowest level, after a turn on each level, the lowest first. -/
  | landed (turns : List Stand)
  deriving DecidableEq, Repr

/-- The turns of a descent that went through all levels. -/
def Landing.turns : Landing → List Stand
  | met _ _ => []
  | landed turns => turns

/-- Walks along a level, for at most the given number of rounds. -/
def walk (list : SkipList α ρ σ) (answer : Nat → NodeId → α → Ordering) (level : Nat) :
    Nat → Stand → Checked Stop
  | 0, _ => .error .endless
  | rounds + 1, stand => do
    let link ← list.linkAt level stand.cursor
    match link.next with
    | none => return .turned stand
    | some next =>
      let ahead := stand.rank + link.span
      let node ← list.node next
      match answer ahead next node.value with
      | .lt => list.walk answer level rounds ⟨.node next, ahead⟩
      | .eq => return .met next ahead
      | .gt => return .turned stand

/-- Descends through the levels below `levels`. -/
def descendFrom (list : SkipList α ρ σ) (answer : Nat → NodeId → α → Ordering) :
    Nat → Stand → Checked Landing
  | 0, _ => return .landed []
  | level + 1, stand => do
    match ← list.walk answer level (list.size + 1) stand with
    | .met id rank => return .met id rank
    | .turned turn =>
      match ← list.descendFrom answer level turn with
      | .met id rank => return .met id rank
      | .landed lower => return .landed (lower ++ [turn])

/-- Descends from the header through all levels in use. -/
def descend (list : SkipList α ρ σ) (answer : Nat → NodeId → α → Ordering) : Checked Landing :=
  list.descendFrom answer list.height {}

/-- The lowest of some turns, where the descent left the row. -/
def place (turns : List Stand) : Stand :=
  turns.headD {}

/-- Where a row of towers is left by a descent: the turns, the lowest level first, and the tower
behind the lowest turn. -/
structure Gap where
  turns : List Stand
  ahead : Option NodeId
  deriving DecidableEq, Repr

/-- The gap behind the towers that are to be passed, told by their rank and value. -/
def gap (list : SkipList α ρ σ) (passes : Nat → α → Bool) : Checked Gap := do
  let landing ← list.descend fun ahead _ stored => if passes ahead stored then .lt else .gt
  let link ← list.linkAt 0 (place landing.turns).cursor
  return ⟨landing.turns, link.next⟩

end OrderedCollections.SkipList
