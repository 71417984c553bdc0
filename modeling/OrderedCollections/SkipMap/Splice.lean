/-
**Entries that come and go.**

A new entry is made known on every level below its height, one after the other: it leads where the
turn of the descent led, and the turn leads to it. An entry that goes away is passed by the turns
that lead to it; since it takes part in the lowest levels only, the first turn that does not lead to
it ends the work. Levels at the top that are left without an entry are given up.

* `SkipMap.insertAt`: a new entry behind the lowest turn.
* `SkipMap.unlink`: the entry behind the lowest turn goes away.
-/

import OrderedCollections.SkipMap.Descent

namespace OrderedCollections.SkipMap

open SkipList (Cursor usedLevels)

variable {κ ν ρ : Type} {σ : Type → Type} [NodeStore σ]

/-! ### A new entry -/

/-- Makes the new entry `id` known behind the given turns, on the levels from `level` on. -/
def enterFrom (id : NodeId) (level : Nat) :
    List Cursor → SkipMap κ ν ρ σ → Checked (SkipMap κ ν ρ σ)
  | [], map => return map
  | turn :: upper, map => do
    let next ← map.forwardAt level turn
    let map ← map.setForward level next (.node id)
    let map ← map.setForward level (some id) turn
    enterFrom id (level + 1) upper map

/-- The turns of a descent, with the header on every level above those in use. -/
def allTurns (turns : List Cursor) : List Cursor :=
  turns ++ List.replicate (heightLimit - turns.length) .head

/-- Puts a new entry behind the lowest turn. -/
def insertAt (key : κ) (value : ν) (height : Nat) (turns : List Cursor) (map : SkipMap κ ν ρ σ) :
    Checked (SkipMap κ ν ρ σ) := do
  let (id, nodes) := NodeStore.insert ⟨key, value, List.replicate height none⟩ map.nodes
  let map ← enterFrom id 0 ((allTurns turns).take height)
    { map with nodes := nodes, height := max map.height height }
  return { map with size := map.size + 1 }

/-! ### An entry that goes away -/

/-- Passes the entry `id` on the levels from `level` on, as far as the given turns lead to it. -/
def leaveFrom (id : NodeId) (level : Nat) :
    List Cursor → SkipMap κ ν ρ σ → Checked (SkipMap κ ν ρ σ)
  | [], map => return map
  | turn :: upper, map => do
    if (← map.forwardAt level turn) = some id then
      let next ← map.forwardAt level (.node id)
      let map ← map.setForward level next turn
      leaveFrom id (level + 1) upper map
    else return map

/-- Takes the entry `id`, which stands behind the lowest turn, out of the map: its value, and the map
without it. -/
def unlink (id : NodeId) (turns : List Cursor) (map : SkipMap κ ν ρ σ) :
    Checked (ν × SkipMap κ ν ρ σ) := do
  let map ← leaveFrom id 0 turns map
  let height ← usedLevels (fun level => map.forwardAt level .head) map.height
  let size ← .minus map.size 1
  let (removed, nodes) ← NodeStore.take id map.nodes
  if NodeStore.size nodes = size then
    return (removed.value, { map with nodes := nodes, size := size, height := height })
  else .error .miscounted

end OrderedCollections.SkipMap
