/-
**Towers that come and go.**

A new tower is spliced into every level below its height: the link that passes its place is cut in
two, the near part leading to the new tower and the far part becoming the link of the tower. The
links that pass its place above its height only grow longer. A tower that goes away joins the two
parts again, the links above its height grow shorter, and levels left without a tower are given up.

Both changes take the turns of a descent, one for each level in use, the lowest first.

* `SkipList.insertAt`: a new tower behind the lowest turn.
* `SkipList.unlink`: the tower behind the lowest turn goes away.
-/

import OrderedCollections.SkipList.Descent

namespace OrderedCollections.SkipList

variable {α ρ : Type} {σ : Type → Type} [NodeStore σ]

/-- Makes a change on every level at the turn of a descent. -/
def changeLevels (change : Nat → Stand → SkipList α ρ σ → Checked (SkipList α ρ σ))
    (turns : List Stand) (list : SkipList α ρ σ) : Checked (SkipList α ρ σ) :=
  turns.zipIdx.foldlM (fun list (turn, level) => change level turn list) list

/-! ### A new tower -/

/-- The list with every level up to `height` in use; a link of the header on a new level passes all
towers. -/
def grow (height : Nat) (list : SkipList α ρ σ) : Checked (SkipList α ρ σ) :=
  if list.height < height then
    if height ≤ heightLimit then
      .ok { list with
        head := list.head.mapIdx fun level link =>
          if list.height ≤ level ∧ level < height then ⟨none, list.size⟩ else link
        height := height }
    else .error .missingLevel
  else .ok list

/-- Splices the new tower `id` into a level: the link at the turn is cut behind `lowest`. -/
def cut (id : NodeId) (lowest : Stand) (level : Nat) (turn : Stand) (list : SkipList α ρ σ) :
    Checked (SkipList α ρ σ) := do
  let covered ← .minus lowest.rank turn.rank
  let link ← list.linkAt level turn.cursor
  let far ← .minus link.span covered
  let list ← list.setLink level ⟨link.next, far⟩ (.node id)
  list.setLink level ⟨some id, covered + 1⟩ turn.cursor

/-- Makes the link at a turn pass one more position. -/
def lengthen (level : Nat) (turn : Stand) (list : SkipList α ρ σ) : Checked (SkipList α ρ σ) := do
  let link ← list.linkAt level turn.cursor
  list.setLink level { link with span := link.span + 1 } turn.cursor

/-- Puts a new tower behind the lowest turn: its key, and the list with it. -/
def insertAt (value : α) (height : Nat) (turns : List Stand) (list : SkipList α ρ σ) :
    Checked (NodeId × SkipList α ρ σ) := do
  let list ← list.grow height
  let turns := turns ++ List.replicate (height - turns.length) {}
  let lowest := place turns
  let (id, nodes) := NodeStore.insert
    ⟨value, lowest.cursor.id?, List.replicate height {}⟩ list.nodes
  let list ← changeLevels
    (fun level turn list =>
      if level < height then list.cut id lowest level turn else list.lengthen level turn)
    turns { list with nodes := nodes }
  let link ← list.linkAt 0 (.node id)
  let list ← list.setBefore (some id) link.next
  return (id, { list with size := list.size + 1 })

/-! ### A tower that goes away -/

/-- Takes the tower `id` out of a level: the link at the turn is joined with that of the tower where
it leads to it, and passes one position less where it does not. -/
def join (id : NodeId) (level : Nat) (turn : Stand) (list : SkipList α ρ σ) :
    Checked (SkipList α ρ σ) := do
  let link ← list.linkAt level turn.cursor
  if link.next = some id then
    let removed ← list.linkAt level (.node id)
    let span ← .minus (link.span + removed.span) 1
    list.setLink level ⟨removed.next, span⟩ turn.cursor
  else
    let span ← .minus link.span 1
    list.setLink level { link with span := span } turn.cursor

/-- Takes the tower `id`, which stands behind the lowest turn, out of the list: its element, and the
list without it. -/
def unlink (id : NodeId) (turns : List Stand) (list : SkipList α ρ σ) :
    Checked (α × SkipList α ρ σ) := do
  let list ← changeLevels (fun level turn list => list.join id level turn) turns list
  let node ← list.node id
  let link ← list.linkAt 0 (.node id)
  let list ← list.setBefore node.prev link.next
  let height ← usedLevels (fun level => return (← list.linkAt level .head).next) list.height
  let size ← .minus list.size 1
  let (removed, nodes) ← NodeStore.take id list.nodes
  if NodeStore.size nodes = size then
    return (removed.value, { list with nodes := nodes, size := size, height := height })
  else .error .miscounted

end OrderedCollections.SkipList
